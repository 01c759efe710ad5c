import Telekit.ClientGenerations

/-! What the steps of the client do outside the core: to the flag of a manual
disconnect, to the replay window for the messages of the server, and to the answer
subscriptions. The duty of a thread is the part of its work that these depend on. -/

namespace Telekit.ClientMachine
open Interleaving

/-- `calling` is a `Connect` that has cleared the flag; `opening` and `joining` are attempts
before and after their reset of the window; `accepting` is a handler with an authentic
message. -/
inductive Duty
  | none
  | calling
  | opening (id : Nat)
  | joining (id : Nat)
  | disconnecting (cleared : Bool)
  | accepting (id : Nat) (message : Message)

def Negotiation.duty (id : Nat) : Negotiation → Duty
  | .build | .publishHello | .waitHello | .setSession _ | .checkTransport _ => .joining id
  | _ => .none

def ConnectPos.duty (id : Nat) : ConnectPos → Duty
  | .resetSession | .resetSend | .resetRecv => .opening id
  | .checkBuffer | .newBuffer | .resetBuffer _ => .joining id
  | .negotiate pos => pos.duty id
  | _ => .none

def DisconnectPos.cleared : DisconnectPos → Bool
  | .close _ _ => true
  | _ => false

def Thread.duty : Thread → Duty
  | .connecting .user => .calling
  | .connect _ id pos => pos.duty id
  | .disconnect _ .user pos | .disconnect _ .reconnect pos => .disconnecting pos.cleared
  | .answer id (.accept message) => .accepting id message
  | _ => .none

def Duty.lasting : Duty → Bool
  | .disconnecting cleared => !cleared
  | .accepting _ _ => false
  | _ => true

def Duty.isOpening : Duty → Bool
  | .opening _ => true
  | _ => false

def Thread.setsManual : Thread → Bool → Bool
  | .connectCall, _ => false
  | .disconnectCall _, _ => true
  | _, manual => manual

def Thread.setsWindow : Thread → ReplayWindow → ReplayWindow
  | .connect _ _ .resetRecv, window => window.reset
  | .answer _ (.accept message), window => (window.accept (message.header.getD {}).sequence).2
  | _, window => window

def Core.Vacant (s : Core) : Prop := s.iceAgent = none ∧ s.transportConn = none

/-- What a step has to do with the duties. -/
structure Signaled (P : Primitives) (client : Client) (s : Shared) (t : Thread) (s' : Shared)
    (t' : Thread) : Prop where
  manual : s'.manualDisconnect = t.setsManual s.manualDisconnect
  window : s'.signalRecv = t.setsWindow s.signalRecv
  vacant : s.manualDisconnect = true → s.Vacant → s'.Vacant
  calls : t = .connectCall → t'.duty = .calling
  subs : s'.answerSub = s.answerSub ∨ ∃ id handshake, t.duty = .joining id ∧ t'.duty = .none ∧
    s'.answerSub = Function.update s.answerSub id (some handshake)
  attempts : s'.attempts = s.attempts ∨ s.connecting = false ∧ t'.duty = .opening s.attempts ∧
    s'.attempts = s.attempts + 1
  opens : ∀ id, t'.duty = .opening id → t.duty = .opening id ∨
    id = s.attempts ∧ s'.attempts = s.attempts + 1
  opened : ∀ id, t.duty = .opening id → t'.duty = .opening id ∨
    ∃ caller, t = .connect caller id .resetRecv
  joins : ∀ id, t'.duty = .joining id → t.duty = .joining id ∨ t.duty = .opening id
  disconnects : ∀ cleared, t'.duty = .disconnecting cleared →
    (t.setsManual s.manualDisconnect = true ∨ ∃ before, t.duty = .disconnecting before) ∧
      (cleared = true → s'.Vacant)
  accepts : ∀ id message, t'.duty = .accepting id message →
    Authentic P client s.answerSub id message

section Steps
variable {P : Primitives} {client : Client} {s s' : Shared} {t t' : Thread} {spawned : List Thread}
  {caller : Caller} {id : Nat}

theorem Signaled.ends (manual : s'.manualDisconnect = t.setsManual s.manualDisconnect)
    (window : s'.signalRecv = t.setsWindow s.signalRecv)
    (vacant : s.manualDisconnect = true → s.Vacant → s'.Vacant)
    (calls : t = .connectCall → t'.duty = .calling)
    (subs : s'.answerSub = s.answerSub ∨ ∃ id handshake, t.duty = .joining id ∧ t'.duty = .none ∧
      s'.answerSub = Function.update s.answerSub id (some handshake))
    (attempts : s'.attempts = s.attempts) (idle : t'.duty = .none)
    (unopened : t.duty.isOpening = false) : Signaled P client s t s' t' := by
  refine ⟨manual, window, vacant, calls, subs, .inl attempts, fun id opening => ?_,
    fun id opening => ?_, fun id joining => ?_, fun cleared disconnecting => ?_,
    fun id message accepting => ?_⟩
  · cases idle.symm.trans opening
  · rw [opening] at unopened
    cases unopened
  · cases idle.symm.trans joining
  · cases idle.symm.trans disconnecting
  · cases idle.symm.trans accepting

theorem Signaled.aside (manual : s'.manualDisconnect = s.manualDisconnect)
    (window : s'.signalRecv = s.signalRecv) (subs : s'.answerSub = s.answerSub)
    (attempts : s'.attempts = s.attempts) (vacant : s.manualDisconnect = true → s.Vacant → s'.Vacant)
    (flags : ∀ m, t.setsManual m = m) (windows : ∀ w, t.setsWindow w = w)
    (duty : t'.duty = t.duty ∧ t.duty.lasting = true ∨
      t'.duty = .none ∧ t.duty.isOpening = false) :
    Signaled P client s t s' t' := by
  have other : t = .connectCall → t'.duty = .calling := by
    rintro rfl
    cases flags true
  rcases duty with ⟨same, lasting⟩ | ⟨rest, unopened⟩
  · refine ⟨by rw [flags, manual], by rw [windows, window], vacant, other, .inl subs, .inl attempts,
      fun id opening => .inl (same ▸ opening), fun id opening => .inl (same ▸ opening),
      fun id joining => .inl (same ▸ joining), fun cleared disconnecting => ⟨.inr ⟨cleared, ?_⟩, ?_⟩,
      fun id message accepting => ?_⟩
    · exact same ▸ disconnecting
    · rintro rfl
      rw [← same, disconnecting] at lasting
      cases lasting
    · rw [← same, accepting] at lasting
      cases lasting
  · exact .ends (by rw [flags, manual]) (by rw [windows, window]) vacant other (.inl subs) attempts
      rest unopened

structure Signals where
  manual : Bool
  window : ReplayWindow
  subs : Nat → Option ServerHandshake
  attempts : Nat
  iceAgent : Option Nat
  transportConn : Option Nat

def Shared.signals (s : Shared) : Signals :=
  ⟨s.manualDisconnect, s.signalRecv, s.answerSub, s.attempts, s.iceAgent, s.transportConn⟩

theorem Signaled.rest (same : s'.signals = s.signals) (flags : ∀ m, t.setsManual m = m)
    (windows : ∀ w, t.setsWindow w = w)
    (duty : t'.duty = t.duty ∧ t.duty.lasting = true ∨
      t'.duty = .none ∧ t.duty.isOpening = false) :
    Signaled P client s t s' t' := by
  simp only [Shared.signals, Signals.mk.injEq] at same
  obtain ⟨manual, window, subs, attempts, agent, transport⟩ := same
  refine .aside manual window subs attempts (fun _ vacant => ?_) flags windows duty
  rwa [Core.Vacant, agent, transport]

theorem NegotiateSteps.signaled {pos : Negotiation} (steps : NegotiateSteps s caller id pos s' t') :
    Signaled P client s (.connect caller id (.negotiate pos)) s' t' := by
  have unopened : (Thread.connect caller id (.negotiate pos)).duty.isOpening = false := by
    cases pos <;> rfl
  -- Nothing is installed for a client that was told to disconnect.
  have unwanted {s' : Shared} (wanted : s.manualDisconnect = false)
      (manual : s.manualDisconnect = true) : s.Vacant → s'.Vacant := by
    rw [wanted] at manual
    cases manual
  cases steps with
  | givesUp | refusesAgent | refusesTransport =>
    exact .rest rfl (fun _ => rfl) (fun _ => rfl) (.inr ⟨rfl, unopened⟩)
  | joins handshake =>
    exact .ends rfl rfl (fun _ vacant => vacant) nofun (.inr ⟨id, handshake, rfl, rfl, rfl⟩) rfl rfl
      rfl
  | selects codec sequence goes | offers description codec sequence goes =>
    refine .rest rfl (fun _ => rfl) (fun _ => rfl) (.inr ⟨?_, rfl⟩)
    rcases goes with rfl | rfl <;> rfl
  | equips handshake wanted | installs handshake wanted =>
    exact .aside rfl rfl rfl rfl (unwanted wanted) (fun _ => rfl) (fun _ => rfl) (.inr ⟨rfl, rfl⟩)
  | _ => exact .rest rfl (fun _ => rfl) (fun _ => rfl) (.inl ⟨rfl, rfl⟩)

theorem Caller.resume_duty (caller : Caller) (id : Nat) (ok : Bool) :
    (caller.resume id ok).duty = .none := by
  cases caller with
  | user => rfl
  | loop generation origin => cases ok <;> rfl

theorem After.resume_duty (after : After) (ok : Bool) : (after.resume ok).duty = .none := by
  cases after with
  | reconnect => cases ok <;> rfl
  | _ => rfl

theorem ConnectSteps.signaled {pos : ConnectPos}
    (steps : ConnectSteps s caller id pos s' t' spawned) :
    Signaled P client s (.connect caller id pos) s' t' ∧ ∀ u ∈ spawned, u.duty = .none := by
  cases steps with
  | resetsRecv =>
    refine ⟨⟨rfl, rfl, fun _ vacant => vacant, nofun, .inl rfl, .inl rfl, nofun,
      fun j opening => ?_, fun j joining => ?_, nofun, fun _ _ accepting => by cases accepting⟩, by simp⟩
    · cases opening
      exact .inr ⟨caller, rfl⟩
    · cases joining
      exact .inr rfl
  | negotiates steps => exact ⟨steps.signaled, by simp⟩
  | leaves ok =>
    exact ⟨.rest rfl (fun _ => rfl) (fun _ => rfl) (.inr ⟨caller.resume_duty id ok, rfl⟩), by simp⟩
  | loads | connects | spawns =>
    exact ⟨.rest rfl (fun _ => rfl) (fun _ => rfl) (.inr ⟨rfl, rfl⟩), by simp [Thread.duty]⟩
  | _ => exact ⟨.rest rfl (fun _ => rfl) (fun _ => rfl) (.inl ⟨rfl, rfl⟩), by simp⟩

theorem disconnect_goesOn (same : s'.signals = s.signals) {closes : Bool} {after : After}
    {pos next : DisconnectPos} (before : pos.cleared = false) (later : next.cleared = false) :
    Signaled P client s (.disconnect closes after pos) s' (.disconnect closes after next) := by
  refine .rest same (fun _ => rfl) (fun _ => rfl) ?_
  cases after with
  | user | reconnect =>
    exact .inl ⟨by simp [Thread.duty, before, later], by simp [Thread.duty, Duty.lasting, before]⟩
  | _ => exact .inr ⟨rfl, rfl⟩

theorem DisconnectSteps.signaled {closes : Bool} {after : After} {pos : DisconnectPos}
    (steps : DisconnectSteps s closes after pos s' t') :
    Signaled P client s (.disconnect closes after pos) s' t' := by
  cases steps with
  | bumps | publishes | lowers | loads => exact disconnect_goesOn (by rfl) (by rfl) (by rfl)
  | checks goes => exact disconnect_goesOn rfl rfl (by rcases goes with rfl | rfl <;> rfl)
  | wipes b => exact disconnect_goesOn (by cases closes <;> rfl) rfl rfl
  | clears =>
    have vacant : (s.on (·.detach)).Vacant := ⟨s.detach_iceAgent, s.detach_transportConn⟩
    cases after with
    | user | reconnect =>
      exact ⟨rfl, rfl, fun _ _ => vacant, nofun, .inl rfl, .inl s.detach_attempts, nofun, nofun,
        nofun, fun _ _ => ⟨.inr ⟨false, rfl⟩, fun _ => vacant⟩, fun _ _ accepting => by cases accepting⟩
    | _ =>
      exact .aside rfl rfl rfl s.detach_attempts (fun _ _ => vacant) (fun _ => rfl) (fun _ => rfl)
        (.inr ⟨rfl, rfl⟩)
  | closes =>
    refine .rest rfl (fun _ => rfl) (fun _ => rfl) (.inr ⟨after.resume_duty _, ?_⟩)
    cases after <;> rfl

theorem FinishSteps.signaled {g : Nat} {agent : Option Nat} {pos : FinishPos}
    (steps : FinishSteps s g agent pos s' t' spawned) :
    Signaled P client s (.finish g agent pos) s' t' ∧ ∀ u ∈ spawned, u.duty = .none := by
  cases steps with
  | detaches =>
    exact ⟨.aside rfl rfl rfl s.detach_attempts
      (fun _ _ => ⟨s.detach_iceAgent, s.detach_transportConn⟩) (fun _ => rfl) (fun _ => rfl)
      (.inr ⟨rfl, rfl⟩), by simp⟩
  | decides generation goes =>
    refine ⟨.rest rfl (fun _ => rfl) (fun _ => rfl) (.inr ⟨rfl, rfl⟩), ?_⟩
    rcases goes with rfl | rfl <;> simp [Thread.duty]
  | _ => exact ⟨.rest rfl (fun _ => rfl) (fun _ => rfl) (.inr ⟨rfl, rfl⟩), by simp⟩

theorem AnswerSteps.signaled {pos : AnswerPos} (steps : AnswerSteps P client s id pos s' t') :
    Signaled P client s (.answer id pos) s' t' := by
  cases steps with
  | ends pos decided =>
    refine .rest rfl (fun _ => rfl) ?_ (.inr ⟨rfl, ?_⟩) <;>
      cases pos <;> first | rfl | exact fun _ => rfl | exact absurd rfl (decided _)
  | decodes data authentic =>
    refine ⟨rfl, rfl, fun _ vacant => vacant, nofun, .inl rfl, .inl rfl, nofun, nofun, nofun, nofun,
      ?_⟩
    intro j other accepting
    cases accepting
    exact authentic
  | accepts goes =>
    refine .ends rfl rfl (fun _ vacant => vacant) nofun (.inl rfl) rfl ?_ rfl
    rcases goes with rfl | rfl <;> rfl
  | sends => exact .rest rfl (fun _ => rfl) (fun _ => rfl) (.inr ⟨rfl, rfl⟩)

theorem Steps.signaled (steps : Steps P client s t s' t' spawned) :
    Signaled P client s t s' t' ∧ ∀ u ∈ spawned, u.duty = .none := by
  cases steps with
  | connectCall =>
    exact ⟨⟨rfl, rfl, fun _ vacant => vacant, fun _ => rfl, .inl rfl, .inl rfl, nofun, nofun, nofun,
      nofun, fun _ _ accepting => by cases accepting⟩, by simp⟩
  | @disconnectCall reconnect after user =>
    have fresh : (Thread.disconnect true after .bump).duty = .disconnecting false := by
      rcases user with rfl | rfl <;> rfl
    refine ⟨⟨rfl, rfl, fun _ vacant => vacant, nofun, .inl rfl, .inl rfl, ?_, nofun, ?_,
      fun cleared disconnecting => ⟨.inl rfl, ?_⟩, ?_⟩, by simp⟩
    · rw [fresh]
      nofun
    · rw [fresh]
      nofun
    · rw [fresh] at disconnecting
      cases disconnecting
      nofun
    · rw [fresh]
      exact fun _ _ accepting => by cases accepting
  | refused caller =>
    refine ⟨.rest rfl (fun _ => rfl) (fun _ => rfl) (.inr ⟨caller.resume_duty 0 false, ?_⟩), by simp⟩
    cases caller <;> rfl
  | begins caller unconnected free =>
    refine ⟨⟨rfl, rfl, fun _ vacant => vacant, nofun, .inl rfl, .inr ⟨free, rfl, rfl⟩,
      fun id opening => ?_, ?_, nofun, nofun, fun _ _ accepting => by cases accepting⟩, by simp⟩
    · cases opening
      exact .inr ⟨rfl, rfl⟩
    · cases caller <;> nofun
  | connect steps => exact steps.signaled
  | disconnect steps => exact ⟨steps.signaled, by simp⟩
  | writes g b channel raw l result =>
    obtain ⟨_, same, _⟩ := s.toCore.writeBuffer_snd b g raw
    refine ⟨.rest ?_ (fun _ => rfl) (fun _ => rfl) (.inr ⟨rfl, rfl⟩), by simp⟩
    rw [same]
    rfl
  | monitors goes =>
    refine ⟨.rest rfl (fun _ => rfl) (fun _ => rfl) (.inr ⟨?_, rfl⟩), by simp⟩
    rcases goes with rfl | rfl | rfl <;> rfl
  | finish steps => exact steps.signaled
  | loops goes =>
    refine ⟨.rest rfl (fun _ => rfl) (fun _ => rfl) (.inr ⟨?_, rfl⟩), by simp⟩
    rcases goes with rfl | ⟨_, rfl⟩ | rfl <;> rfl
  | answer steps => exact ⟨steps.signaled, by simp⟩
  | _ => exact ⟨.rest rfl (fun _ => rfl) (fun _ => rfl) (.inr ⟨rfl, rfl⟩), by simp⟩

theorem Occurs.signals (occurs : Occurs P client s s' spawned) :
    s'.signals = s.signals ∧ ∀ u ∈ spawned, u.duty = .none := by
  cases occurs <;> exact ⟨rfl, by simp [Thread.duty]⟩

end Steps

end Telekit.ClientMachine
