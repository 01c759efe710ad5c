import Telekit.ClientSignals

/-! `Disconnect` is final. The flag that it sets keeps every attempt from installing
an agent or a transport, and after it has taken both away the client stays vacant.
Only `Connect` clears the flag, and it does so before it knows whether it is
accepted: a call that is refused gives the way free to the attempt it is refused
for. -/

namespace Telekit.ClientMachine
open Interleaving

def Duty.isCalling : Duty → Bool
  | .calling => true
  | _ => false

def Duty.isDisconnecting : Duty → Bool
  | .disconnecting _ => true
  | _ => false

def Thread.returns : Thread → Bool
  | .disconnect _ .user (.close _ _) | .disconnect _ .reconnect (.close _ _) => true
  | _ => false

def passesCheck (k : Config Shared Thread) : Action → Bool
  | .advance n _ =>
    match k.threads[n]? with
    | some (.connecting .user) => !(k.shared.connected || k.shared.connecting)
    | _ => false
  | .event _ => false

/-- `Connect` takes the flag down only where it would be accepted and no call of
`Disconnect` is under way, and no reconnect loop gets between it and its check. -/
def deliberate (k : Config Shared Thread) : Action → Bool
  | .advance n _ =>
    match k.threads[n]? with
    | some .connectCall =>
      !k.shared.manualDisconnect || (!(k.shared.connected || k.shared.connecting) &&
        !k.threads.any (·.duty.isDisconnecting))
    | some (.connecting (.loop _ _)) =>
      k.shared.connected || k.shared.connecting || k.shared.manualDisconnect ||
        !k.threads.any (·.duty.isCalling)
    | _ => true
  | .event _ => true

/-- Every call of `Disconnect` that is under way keeps the flag up and, when it has
taken agent and transport away, the client vacant. -/
def Obeyed (s : Shared) (threads : List Thread) : Prop :=
  ∀ t ∈ threads, ∀ cleared, t.duty = .disconnecting cleared →
    s.manualDisconnect = true ∧ (cleared = true → s.Vacant)

/-- Nothing is installed, and nobody is in a position to install anything. -/
structure Quiet (s : Shared) (threads : List Thread) : Prop where
  vacant : s.Vacant
  barred : s.manualDisconnect = true ∨
    s.connected = false ∧ s.connecting = false ∧ ∃ t ∈ threads, t.duty = .calling

section Steps
variable {P : Primitives} {client : Client} {options : ClientOptions} {s s' : Shared}
  {t t' : Thread} {threads spawned : List Thread} {n : Nat}

theorem Thread.duty_calling {t : Thread} (calling : t.duty = .calling) : t = .connecting .user := by
  cases t with
  | connecting caller =>
    cases caller with
    | user => rfl
    | loop => cases calling
  | connect caller id pos =>
    cases pos with
    | negotiate pos => cases pos <;> cases calling
    | _ => cases calling
  | disconnect closes after pos => cases after <;> cases calling
  | answer id pos => cases pos <;> cases calling
  | _ => cases calling

theorem Thread.duty_returns {t : Thread} (returns : t.returns = true) :
    t.duty = .disconnecting true := by
  unfold Thread.returns at returns
  split at returns
  · rfl
  · rfl
  · cases returns

theorem Thread.setsManual_of_duty {t : Thread} {cleared : Bool}
    (disconnecting : t.duty = .disconnecting cleared) (manual : Bool) :
    t.setsManual manual = manual := by
  cases t with
  | connectCall | disconnectCall => cases disconnecting
  | _ => rfl

theorem Thread.setsManual_true {t : Thread} (other : t ≠ .connectCall) : t.setsManual true = true := by
  cases t with
  | connectCall => exact absurd rfl other
  | _ => rfl

theorem Obeyed.advance (obeyed : Obeyed s threads) (running : threads[n]? = some t)
    (signaled : Signaled P client s t s' t') (idle : ∀ u ∈ spawned, u.duty = .none)
    (alone : t = .connectCall → s.manualDisconnect = true →
      ∀ u ∈ threads, ∀ cleared, u.duty ≠ .disconnecting cleared) :
    Obeyed s' (threads.set n t' ++ spawned) := by
  have still (up : s.manualDisconnect = true) (other : t ≠ .connectCall) :
      s'.manualDisconnect = true := by
    rw [signaled.manual, up]
    exact Thread.setsManual_true other
  refine forall_advance obeyed ?_ ?_ ?_
  · intro m u _ found before cleared disconnecting
    obtain ⟨up, vacant⟩ := before cleared disconnecting
    have other : t ≠ .connectCall := fun same =>
      alone same up u (List.mem_of_getElem? found) cleared disconnecting
    exact ⟨still up other, fun taken => signaled.vacant up (vacant taken)⟩
  · intro cleared disconnecting
    obtain ⟨up, vacant⟩ := signaled.disconnects cleared disconnecting
    refine ⟨?_, vacant⟩
    rcases up with up | ⟨before, own⟩
    · rw [signaled.manual, up]
    · rw [signaled.manual, Thread.setsManual_of_duty own]
      exact (obeyed t (List.mem_of_getElem? running) before own).1
  · intro u started cleared disconnecting
    rw [idle u started] at disconnecting
    cases disconnecting

theorem Transition.vacant {s s' : Core} {v v' : Stage} (step : Transition s v s' v')
    (outside : v.inside = none) (vacant : s.Vacant) : s'.Vacant := by
  cases step with
  | equips | installs => cases outside
  | clears | detaches => exact ⟨s.detach_iceAgent, s.detach_transportConn⟩
  | wipes closes after b =>
    obtain ⟨_, _, same⟩ := s.wipe_eq closes b
    rw [same]
    exact vacant
  | writes g b raw =>
    obtain ⟨_, same, _⟩ := s.writeBuffer_snd b g raw
    rw [same]
    exact vacant
  | _ => exact vacant

theorem Transition.idle {s s' : Core} {v v' : Stage} (step : Transition s v s' v')
    (outside : v.inside = none) (unconnected : s.connected = false) (free : s.connecting = false)
    (other : ∀ caller, v ≠ .calling caller) : s'.connected = false ∧ s'.connecting = false := by
  cases step with
  | begins caller => exact absurd rfl (other caller)
  | connects | leaves => cases outside
  | lowers | finishLowers => exact ⟨rfl, free⟩
  | clears | detaches =>
    exact ⟨by rw [s.detach_connected, unconnected], by rw [s.detach_connecting, free]⟩
  | wipes closes after b =>
    obtain ⟨_, _, same⟩ := s.wipe_eq closes b
    rw [same]
    exact ⟨unconnected, free⟩
  | writes g b raw =>
    obtain ⟨_, same, _⟩ := s.writeBuffer_snd b g raw
    rw [same]
    exact ⟨unconnected, free⟩
  | _ => exact ⟨unconnected, free⟩

/-- What `deliberate` asks of a step of a thread, and that the step does not end the
time after a `Disconnect`. -/
structure Harmless (s : Shared) (threads : List Thread) (t : Thread) : Prop where
  clears : t = .connectCall → s.manualDisconnect = true → s.connected = false ∧ s.connecting = false
  alone : t = .connectCall → s.manualDisconnect = true →
    ∀ u ∈ threads, ∀ cleared, u.duty ≠ .disconnecting cleared
  loops : ∀ generation origin, t = .connecting (.loop generation origin) → s.connected = false →
    s.connecting = false → s.manualDisconnect = false → ∀ u ∈ threads, u.duty ≠ .calling

theorem Quiet.advance (quiet : Quiet s threads) (sound : Sound s.link (threads.map Thread.stage))
    (running : threads[n]? = some t) (step : Transition s.toCore t.stage s'.toCore t'.stage)
    (signaled : Signaled P client s t s' t') (harmless : Harmless s threads t)
    (fails : t = .connecting .user → s.connected = true ∨ s.connecting = true) :
    Quiet s' (threads.set n t' ++ spawned) := by
  by_cases up : s.manualDisconnect = true
  · refine ⟨signaled.vacant up quiet.vacant, ?_⟩
    by_cases clears : t = .connectCall
    · obtain ⟨unconnected, free⟩ := harmless.clears clears up
      obtain ⟨unconnected, free⟩ := step.idle (by rw [clears]; rfl) unconnected free
        (by rw [clears]; exact nofun)
      exact .inr ⟨unconnected, free, exists_own running (signaled.calls clears) spawned⟩
    · exact .inl (by rw [signaled.manual, up]; exact Thread.setsManual_true clears)
  · obtain ⟨unconnected, free, waiting⟩ := quiet.barred.resolve_left up
    -- nobody is inside `connectWithContext`, and nobody but the waiting call may enter it
    have outside : t.stage.inside = none := by
      cases inside : t.stage.inside with
      | none => rfl
      | some =>
        have held := sound.exclusive.claimed t.stage
          (List.mem_map_of_mem (List.mem_of_getElem? running)) _ inside
        simp [Link.mutex, Core.link, free] at held
    have other (caller : Caller) : t ≠ .connecting caller := by
      rintro rfl
      cases caller with
      | user => simpa [unconnected, free] using fails rfl
      | loop generation origin =>
        obtain ⟨u, member, calling⟩ := waiting
        exact harmless.loops generation origin rfl unconnected free
          (by simpa using up) u member calling
    obtain ⟨unconnected, free⟩ := step.idle outside unconnected free
      fun caller stage => other caller (Thread.stage_calling stage)
    refine ⟨step.vacant outside quiet.vacant, .inr ⟨unconnected, free, ?_⟩⟩
    exact exists_advance running (fun calling => absurd (Thread.duty_calling calling) (other .user))
      spawned waiting

end Steps

theorem deliberate_spec {k : Config Shared Thread} {n : Nat} {choice : Choice} {t : Thread}
    (conforms : deliberate k (.advance n choice) = true) (running : k.threads[n]? = some t) :
    Harmless k.shared k.threads t := by
  simp only [deliberate, running] at conforms
  refine ⟨?_, ?_, ?_⟩
  · rintro rfl up
    simp only [up, Bool.not_true, Bool.false_or, Bool.and_eq_true, Bool.not_eq_true',
      Bool.or_eq_false_iff] at conforms
    exact conforms.1
  · rintro rfl up u member cleared disconnecting
    simp only [up, Bool.not_true, Bool.false_or, Bool.and_eq_true, Bool.not_eq_true',
      List.any_eq_false] at conforms
    exact conforms.2 u member (by rw [disconnecting]; rfl)
  · rintro generation origin rfl unconnected free down u member calling
    simp only [unconnected, free, down, Bool.false_or, Bool.not_eq_true',
      List.any_eq_false] at conforms
    exact conforms u member (by rw [calling]; rfl)

section Runs
variable (P : Primitives) (client : Client) (options : ClientOptions)

def Settled (k : Config Shared Thread) : Prop :=
  Sound k.shared.link (stages k) ∧ Obeyed k.shared k.threads

variable {P client options}

theorem Settled.takes {k k' : Config Shared Thread} {a : Action} (settled : Settled k)
    (conforms : deliberate k a = true) (takes : (program P client options).Takes k a k') :
    Settled k' := by
  refine ⟨settled.1.takes takes, ?_⟩
  cases takes with
  | stays => exact settled.2
  | advances running moved =>
    obtain ⟨signaled, idle⟩ := (advance_steps moved).signaled
    exact settled.2.advance running signaled idle (deliberate_spec conforms running).alone
  | occurs happened =>
    obtain ⟨same, idle⟩ := (occur_occurs happened).signals
    simp only [Shared.signals, Signals.mk.injEq] at same
    refine List.forall_mem_append.mpr ⟨fun t member cleared disconnecting => ?_, fun u started => ?_⟩
    · simpa only [Core.Vacant, same] using settled.2 t member cleared disconnecting
    · rw [idle u started]
      rintro _ ⟨⟩

theorem Quiet.takes {k k' : Config Shared Thread} {a : Action}
    (quiet : Quiet k.shared k.threads) (settled : Settled k) (conforms : deliberate k a = true)
    (fails : passesCheck k a = false) (takes : (program P client options).Takes k a k') :
    Quiet k'.shared k'.threads := by
  cases takes with
  | stays => exact quiet
  | advances running moved =>
    refine quiet.advance settled.1 running (advance_steps moved).transition.1
      (advance_steps moved).signaled.1 (deliberate_spec conforms running) ?_
    rintro rfl
    simpa only [passesCheck, running, Bool.not_eq_false', Bool.or_eq_true] using fails
  | occurs happened =>
    obtain ⟨same, _⟩ := (occur_occurs happened).signals
    obtain ⟨core, _⟩ := (occur_occurs happened).idle
    simp only [Shared.signals, Signals.mk.injEq] at same
    refine ⟨by rw [core]; exact quiet.vacant, ?_⟩
    rw [core, same.1]
    refine quiet.barred.imp_right ?_
    rintro ⟨unconnected, free, u, member, calling⟩
    exact ⟨unconnected, free, u, List.mem_append_left _ member, calling⟩

variable (P client options)

theorem run_settled (actions : List Action)
    (conforms : (program P client options).along deliberate
      ⟨Shared.start options, []⟩ actions = true) :
    Settled (run P client options actions) := by
  refine (program P client options).run_along_keeps Settled deliberate ?_ ?_ actions conforms
  · exact fun _ _ _ settled steps takes => settled.takes steps takes
  · exact ⟨sound_start options, fun t member => absurd member List.not_mem_nil⟩

theorem run_quiet {k : Config Shared Thread} (settled : Settled k) (quiet : Quiet k.shared k.threads)
    (actions : List Action)
    (conforms : (program P client options).along deliberate k actions = true)
    (unanswered : (program P client options).along (fun k a => !passesCheck k a) k actions = true) :
    Quiet ((program P client options).run k actions).shared
      ((program P client options).run k actions).threads := by
  have kept := (program P client options).run_along_keeps
    (fun k => Settled k ∧ Quiet k.shared k.threads) (fun k a => deliberate k a && !passesCheck k a)
    ?_ ⟨settled, quiet⟩ actions ?_
  · exact kept.2
  · rintro k a k' ⟨settled, quiet⟩ steps takes
    simp only [Bool.and_eq_true, Bool.not_eq_true'] at steps
    exact ⟨settled.takes steps.1 takes, quiet.takes settled steps.1 steps.2 takes⟩
  · rw [Program.along_and, conforms, unanswered]
    rfl

/-- In every run whose steps are `deliberate`: from the return of a call of `Disconnect`
on, until a call of `Connect` or `Reconnect` passes the check, the client has neither an
agent nor a transport. -/
theorem disconnect_is_final (first rest : List Action) (n : Nat) (choice : Choice)
    (conforms : (program P client options).along deliberate ⟨Shared.start options, []⟩
      (first ++ .advance n choice :: rest) = true)
    (returning : (run P client options first).threads[n]?.any Thread.returns = true)
    (unanswered : (program P client options).along (fun k a => !passesCheck k a)
      (run P client options (first ++ [.advance n choice])) rest = true) :
    (run P client options (first ++ .advance n choice :: rest)).shared.iceAgent = none ∧
      (run P client options (first ++ .advance n choice :: rest)).shared.transportConn = none := by
  have split : first ++ .advance n choice :: rest = first ++ [.advance n choice] ++ rest :=
    List.append_cons ..
  rw [split, Program.along_append, Bool.and_eq_true] at conforms
  obtain ⟨before, later⟩ := conforms
  have settled := run_settled P client options _ before
  have last : run P client options (first ++ [.advance n choice]) =
      (program P client options).step (run P client options first) (.advance n choice) :=
    (program P client options).run_append _ _ _
  have quiet : Quiet (run P client options (first ++ [.advance n choice])).shared
      (run P client options (first ++ [.advance n choice])).threads := by
    rw [Program.along_append, Bool.and_eq_true] at before
    have earlier := run_settled P client options first before.1
    obtain ⟨t, running, returns⟩ := (Option.any_eq_true ..).mp returning
    obtain ⟨up, vacant⟩ := earlier.2 t (List.mem_of_getElem? running) true
      (Thread.duty_returns returns)
    have steps : deliberate (run P client options first) (.advance n choice) = true :=
      (Bool.and_eq_true_iff.mp before.2).1
    rw [last]
    refine Quiet.takes ⟨vacant rfl, .inl up⟩ earlier steps ?_
      ((program P client options).step_takes _ _)
    simp only [passesCheck, running]
    cases t with
    | disconnect => rfl
    | _ => cases returns
  have final := run_quiet P client options settled quiet rest later unanswered
  rw [split, run, Program.run_append]
  exact final.vacant

namespace Sample

def disconnected : List Action :=
  .event .connect :: goes 0 9 ++ .event .disconnect :: goes 1 7

/-- The ServerHello arrives, and attempt 0 goes on to the installation of its agent. -/
def answered : List Action :=
  .event (.deliverHello 0 Plain.packet Plain.clientRandom) :: goes 0 6

def refused : List Action := .event .connect :: goes 2 2

end Sample

theorem Sample.answered_conforms :
    (program Plain.primitives Plain.client Sample.options).along deliberate
      ⟨Shared.start Sample.options, []⟩
      (Sample.disconnected ++ (.advance 1 {} :: Sample.answered : List Action)) = true ∧
    (program Plain.primitives Plain.client Sample.options).along (fun k a => !passesCheck k a)
      (run Plain.primitives Plain.client Sample.options
        (Sample.disconnected ++ ([.advance 1 {}] : List Action)))
      Sample.answered = true ∧
    (run Plain.primitives Plain.client Sample.options Sample.disconnected).threads[1]?.any
      Thread.returns = true := by
  decide +kernel

theorem disconnect_is_final_sample :
    (run Plain.primitives Plain.client Sample.options
      (Sample.disconnected ++ .advance 1 {} :: Sample.answered)).shared.iceAgent = none := by
  have evaluated := Sample.answered_conforms
  exact (disconnect_is_final Plain.primitives Plain.client Sample.options Sample.disconnected
    Sample.answered 1 {} evaluated.1 evaluated.2.2 evaluated.2.1).1

/-- `Disconnect` has returned, a call of `Connect` is refused, and attempt 0, which has
been under way all the time, installs its agent. -/
theorem agent_installed_after_disconnect :
    (run Plain.primitives Plain.client Sample.options Sample.disconnected).threads[1]?.any
      Thread.returns = true ∧
    (program Plain.primitives Plain.client Sample.options).along (fun k a => !passesCheck k a)
      (run Plain.primitives Plain.client Sample.options (Sample.disconnected ++ [.advance 1 {}]))
      (Sample.refused ++ Sample.answered) = true ∧
    (run Plain.primitives Plain.client Sample.options
      (Sample.disconnected ++ [.advance 1 {}])).shared.iceAgent = none ∧
    (run Plain.primitives Plain.client Sample.options
      (Sample.disconnected ++ .advance 1 {} :: (Sample.refused ++ Sample.answered))).shared.iceAgent =
        some 0 := by
  decide +kernel

end Runs

end Telekit.ClientMachine
