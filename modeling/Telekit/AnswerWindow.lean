import Telekit.ClientSignals

/-! The replay window of the client for the messages of the server. All attempts share
it, and each one resets it when it begins. A handler decodes a message with the codec
of its own attempt in one step and offers its number to the window in the next, so
that the number of an older session can come in after the reset. Where only the
attempt that made the last reset records numbers, the window is the one of its
session. -/

namespace Telekit.ClientMachine
open Interleaving

def Message.number (message : Message) : UInt64 := (message.header.getD {}).sequence

def Thread.resets : Thread → Option Nat
  | .connect _ id .resetRecv => some id
  | _ => none

def Thread.records (window : ReplayWindow) : Thread → List (Nat × Message)
  | .answer id (.accept message) =>
    if (window.accept (Message.number message)).1 then [(id, message)] else []
  | _ => []

def records (k : Config Shared Thread) : Action → List (Nat × Message)
  | .advance n _ => (k.threads[n]?.map (Thread.records k.shared.signalRecv)).getD []
  | .event _ => []

def unreset (k : Config Shared Thread) : Action → Bool
  | .advance n _ => (k.threads[n]?.bind Thread.resets).isNone
  | .event _ => true

/-- The attempt that made the last reset: the latest one, or the one before while the
latest has not come to it. -/
def lastReset (k : Config Shared Thread) : Nat :=
  k.shared.attempts - (if k.threads.any (·.duty.isOpening) then 2 else 1)

/-- Only handlers of the attempt that made the last reset record a number. -/
def ownAnswers (k : Config Shared Thread) (a : Action) : Bool :=
  (records k a).all (·.1 = lastReset k)

/-- The answer subscriptions: an attempt has none before it makes it, and what a
handler offers to the window is authentic. -/
structure Subscribed (P : Primitives) (client : Client) (s : Shared) (threads : List Thread) :
    Prop where
  known : ∀ id handshake, s.answerSub id = some handshake → id < s.attempts
  fresh : ∀ t ∈ threads, ∀ id, t.duty = .opening id ∨ t.duty = .joining id →
    s.answerSub id = none ∧ id < s.attempts
  newest : ∀ t ∈ threads, ∀ id, t.duty = .opening id → s.attempts = id + 1
  decoded : ∀ t ∈ threads, ∀ id message, t.duty = .accepting id message →
    Authentic P client s.answerSub id message

structure Windowed (P : Primitives) (client : Client) (id : Nat) (s : Shared)
    (threads : List Thread) (history : List (Nat × Message)) : Prop where
  latest : s.attempts = id + 1 ∧ (∀ t ∈ threads, ∀ j, t.duty ≠ .opening j) ∨
    s.attempts = id + 2 ∧ ∃ t ∈ threads, ∃ j, t.duty = .opening j
  tracks : s.signalRecv.Tracks (history.map (Message.number ·.2))
  own : ∀ r ∈ history, r.1 = id ∧ Authentic P client s.answerSub id r.2

section Steps
variable {P : Primitives} {client : Client} {options : ClientOptions} {s s' : Shared}
  {t t' : Thread} {threads spawned : List Thread} {n id : Nat}

theorem Thread.duty_inside {t : Thread} {id : Nat}
    (early : t.duty = .opening id ∨ t.duty = .joining id) : t.stage.inside = some () := by
  cases t with
  | connect caller j pos => rfl
  | connecting caller => cases caller <;> rcases early with early | early <;> cases early
  | disconnect closes after pos => cases after <;> rcases early with early | early <;> cases early
  | answer j pos => cases pos <;> rcases early with early | early <;> cases early
  | _ => rcases early with early | early <;> cases early

theorem Signaled.attempts_le (signaled : Signaled P client s t s' t') : s.attempts ≤ s'.attempts := by
  rcases signaled.attempts with same | ⟨_, _, more⟩
  · rw [same]
  · omega

theorem Subscribed.keeps (subscribed : Subscribed P client s threads)
    (running : threads[n]? = some t) (signaled : Signaled P client s t s' t') {j : Nat}
    {handshake : ServerHandshake} (found : s.answerSub j = some handshake) :
    s'.answerSub j = some handshake := by
  rcases signaled.subs with same | ⟨id, new, joining, _, updated⟩
  · rw [same, found]
  · have vacant := (subscribed.fresh t (List.mem_of_getElem? running) id (.inr joining)).1
    rw [updated, Function.update_of_ne, found]
    rintro rfl
    rw [vacant] at found
    cases found

theorem Authentic.mono {subs subs' : Nat → Option ServerHandshake} {message : Message}
    (authentic : Authentic P client subs id message)
    (keeps : ∀ handshake, subs id = some handshake → subs' id = some handshake) :
    Authentic P client subs' id message := by
  obtain ⟨handshake, data, found, rest⟩ := authentic
  exact ⟨handshake, data, keeps handshake found, rest⟩

theorem Subscribed.advance (subscribed : Subscribed P client s threads)
    (exclusive : Exclusive Stage.inside s.link.mutex (threads.map Thread.stage))
    (running : threads[n]? = some t) (signaled : Signaled P client s t s' t')
    (idle : ∀ u ∈ spawned, u.duty = .none) :
    Subscribed P client s' (threads.set n t' ++ spawned) := by
  have more := signaled.attempts_le
  have member := List.mem_of_getElem? running
  have same {u : Thread} (present : u ∈ threads) {j : Nat} (opening : u.duty = .opening j) :
      s'.attempts = s.attempts := by
    refine signaled.attempts.resolve_right fun ⟨free, _⟩ => ?_
    have held := exclusive.claimed u.stage (List.mem_map_of_mem present) ()
      (Thread.duty_inside (.inl opening))
    simp [Link.mutex, Core.link, free] at held
  refine ⟨fun j handshake found => ?_, forall_advance subscribed.fresh ?_ ?_ ?_,
    forall_advance subscribed.newest ?_ ?_ ?_, forall_advance subscribed.decoded ?_ ?_ ?_⟩
  · rcases signaled.subs with same | ⟨id, new, joining, _, updated⟩
    · rw [same] at found
      exact Nat.lt_of_lt_of_le (subscribed.known j handshake found) more
    · rw [updated, Function.update_apply] at found
      split_ifs at found with here
      · rw [here]
        exact Nat.lt_of_lt_of_le (subscribed.fresh t member id (.inr joining)).2 more
      · exact Nat.lt_of_lt_of_le (subscribed.known j handshake found) more
  · intro m u apart found before j early
    obtain ⟨vacant, small⟩ := before j early
    refine ⟨?_, Nat.lt_of_lt_of_le small more⟩
    rcases signaled.subs with same | ⟨id, new, joining, _, updated⟩
    · rw [same, vacant]
    · -- two attempts cannot be under way
      have outside := exclusive.alone (m := m) (n := n) apart (t := t.stage) (u := u.stage)
        (by simp [running]) (Thread.duty_inside (.inr joining)) (by simp [found])
      rw [Thread.duty_inside early] at outside
      cases outside
  · intro j early
    have before : (t.duty = .opening j ∨ t.duty = .joining j) ∨
        j = s.attempts ∧ s'.attempts = s.attempts + 1 := by
      rcases early with opening | joining
      · exact (signaled.opens j opening).imp_left .inl
      · exact .inl (signaled.joins j joining).symm
    rcases signaled.subs with same | ⟨id, new, _, done, _⟩
    · rw [same]
      rcases before with before | ⟨rfl, grown⟩
      · obtain ⟨vacant, small⟩ := subscribed.fresh t member j before
        exact ⟨vacant, Nat.lt_of_lt_of_le small more⟩
      · refine ⟨?_, by omega⟩
        cases found : s.answerSub s.attempts with
        | none => rfl
        | some handshake =>
          exact absurd (subscribed.known _ handshake found) (Nat.lt_irrefl _)
    · rw [done] at early
      rcases early with early | early <;> cases early
  · intro u started j early
    rw [idle u started] at early
    rcases early with early | early <;> cases early
  · intro m u _ found before j opening
    rw [same (List.mem_of_getElem? found) opening]
    exact before j opening
  · intro j opening
    rcases signaled.opens j opening with before | ⟨rfl, grown⟩
    · rw [same member before]
      exact subscribed.newest t member j before
    · exact grown
  · intro u started j opening
    rw [idle u started] at opening
    cases opening
  · intro m u _ _ before j message accepting
    exact (before j message accepting).mono fun handshake found =>
      subscribed.keeps running signaled found
  · intro j message accepting
    exact (signaled.accepts j message accepting).mono fun handshake found =>
      subscribed.keeps running signaled found
  · intro u started j message accepting
    rw [idle u started] at accepting
    cases accepting

theorem Thread.window_tracks {t : Thread} (unreset : t.resets = none) {window : ReplayWindow}
    {history : List (Nat × Message)} (tracks : window.Tracks (history.map (Message.number ·.2))) :
    (t.setsWindow window).Tracks ((t.records window ++ history).map (Message.number ·.2)) := by
  cases t with
  | connect caller id pos =>
    cases pos with
    | resetRecv => cases unreset
    | _ => exact tracks
  | answer id pos =>
    cases pos with
    | accept message =>
      simp only [Thread.setsWindow, Thread.records]
      split_ifs with accepted
      · exact (ReplayWindow.accept_true tracks accepted).2
      · rw [ReplayWindow.accept_false (Bool.not_eq_true _ ▸ accepted)]
        exact tracks
    | _ => exact tracks
  | _ => exact tracks

theorem Thread.records_duty {t : Thread} {window : ReplayWindow} {r : Nat × Message}
    (recorded : r ∈ t.records window) : t.duty = .accepting r.1 r.2 := by
  cases t with
  | answer id pos =>
    cases pos with
    | accept message =>
      simp only [Thread.records] at recorded
      split_ifs at recorded
      · cases List.mem_singleton.mp recorded
        rfl
      · cases recorded
    | _ => cases recorded
  | _ => cases recorded

theorem Windowed.advance {history : List (Nat × Message)}
    (windowed : Windowed P client id s threads history) (subscribed : Subscribed P client s threads)
    (exclusive : Exclusive Stage.inside s.link.mutex (threads.map Thread.stage))
    (running : threads[n]? = some t) (signaled : Signaled P client s t s' t')
    (idle : ∀ u ∈ spawned, u.duty = .none) (unreset : t.resets = none)
    (own : ∀ r ∈ t.records s.signalRecv, r.1 = id) :
    Windowed P client id s' (threads.set n t' ++ spawned) (t.records s.signalRecv ++ history) := by
  have member := List.mem_of_getElem? running
  refine ⟨?_, by rw [signaled.window]; exact Thread.window_tracks unreset windowed.tracks, ?_⟩
  · rcases signaled.attempts with same | ⟨free, opening, grown⟩
    · rw [same]
      refine windowed.latest.imp (And.imp_right fun none_opens => ?_) (And.imp_right fun opens => ?_)
      · refine forall_advance none_opens (fun _ _ _ _ other => other) (fun j opening => ?_) ?_
        · rcases signaled.opens j opening with before | ⟨_, grown⟩
          · exact none_opens t member j before
          · omega
        · intro u started j opening
          rw [idle u started] at opening
          cases opening
      · refine exists_advance running ?_ spawned opens
        rintro ⟨j, opening⟩
        rcases signaled.opened j opening with still | ⟨caller, rfl⟩
        · exact ⟨j, still⟩
        · cases unreset
    · rcases windowed.latest with ⟨count, _⟩ | ⟨_, u, present, j, before⟩
      · exact .inr ⟨by omega, exists_own running ⟨_, opening⟩ spawned⟩
      · have held := exclusive.claimed u.stage (List.mem_map_of_mem present) ()
          (Thread.duty_inside (.inl before))
        simp [Link.mutex, Core.link, free] at held
  · intro r recorded
    rcases List.mem_append.mp recorded with new | old
    · obtain rfl := own r new
      exact ⟨rfl, (subscribed.decoded t member r.1 r.2 (Thread.records_duty new)).mono
        fun handshake found => subscribed.keeps running signaled found⟩
    · obtain ⟨same, authentic⟩ := windowed.own r old
      exact ⟨same, authentic.mono fun handshake found => subscribed.keeps running signaled found⟩

end Steps

section Runs
variable (P : Primitives) (client : Client) (options : ClientOptions)

def recorded : Config Shared Thread → List Action → List (Nat × Message)
  | _, [] => []
  | k, a :: actions => recorded ((program P client options).step k a) actions ++ records k a

variable {P client options}

def Registered (P : Primitives) (client : Client) (k : Config Shared Thread) : Prop :=
  Sound k.shared.link (stages k) ∧ Subscribed P client k.shared k.threads

variable {k : Config Shared Thread}

theorem Registered.takes {k' : Config Shared Thread} {a : Action}
    (registered : Registered P client k) (takes : (program P client options).Takes k a k') :
    Registered P client k' := by
  refine ⟨registered.1.takes takes, ?_⟩
  obtain ⟨sound, subscribed⟩ := registered
  cases takes with
  | stays => exact subscribed
  | advances running moved =>
    obtain ⟨signaled, idle⟩ := (advance_steps moved).signaled
    exact subscribed.advance sound.exclusive running signaled idle
  | occurs happened =>
    obtain ⟨same, idle⟩ := (occur_occurs happened).signals
    simp only [Shared.signals, Signals.mk.injEq] at same
    obtain ⟨_, _, subs, attempts, _⟩ := same
    refine ⟨by rw [subs, attempts]; exact subscribed.known, ?_, ?_, ?_⟩
    · rw [subs, attempts]
      refine List.forall_mem_append.mpr ⟨subscribed.fresh, fun u started => ?_⟩
      simp [idle u started]
    · rw [attempts]
      refine List.forall_mem_append.mpr ⟨subscribed.newest, fun u started => ?_⟩
      simp [idle u started]
    · rw [subs]
      refine List.forall_mem_append.mpr ⟨subscribed.decoded, fun u started => ?_⟩
      simp [idle u started]

variable (P client options) in
theorem run_registered (actions : List Action) :
    Registered P client (run P client options actions) := by
  refine (program P client options).run_takes_keeps (Registered P client) ?_ ?_ actions
  · exact fun _ _ _ registered takes => registered.takes takes
  · refine ⟨sound_start options, fun _ _ found => ?_, fun _ member => ?_, fun _ member => ?_,
      fun _ member => ?_⟩
    · cases found
    all_goals cases member

theorem records_blocked {choice : Choice} {s : Shared} {t : Thread}
    (blocked : advance P client options choice s t = none) (window : ReplayWindow) :
    t.records window = [] := by
  cases t with
  | answer id pos =>
    cases pos with
    | accept message => cases blocked
    | _ => rfl
  | _ => rfl

theorem Windowed.step {a : Action} {id : Nat} {history : List (Nat × Message)}
    (windowed : Windowed P client id k.shared k.threads history)
    (registered : Registered P client k) (conforms : ownAnswers k a = true)
    (current : unreset k a = true) :
    Windowed P client id ((program P client options).step k a).shared
      ((program P client options).step k a).threads (records k a ++ history) := by
  have resetter : lastReset k = id := by
    unfold lastReset
    rcases windowed.latest with ⟨count, none_opens⟩ | ⟨count, t, member, j, opening⟩
    · rw [if_neg, count]
      · rfl
      · simp only [List.any_eq_true, not_exists, not_and]
        intro t member opening
        cases duty : t.duty with
        | opening j => exact none_opens t member j duty
        | _ => simp [duty, Duty.isOpening] at opening
    · rw [if_pos, count]
      · rfl
      · exact List.any_eq_true.mpr ⟨t, member, by rw [opening]; rfl⟩
  cases a with
  | advance n choice =>
    simp only [ownAnswers, resetter, List.all_eq_true, decide_eq_true_eq] at conforms
    simp only [unreset, Option.isNone_iff_eq_none] at current
    simp only [Program.step]
    split
    next absent =>
      simp only [records, absent]
      exact windowed
    next t running =>
      simp only [records, running, Option.map_some, Option.getD_some] at conforms ⊢
      simp only [running, Option.bind_some] at current
      split
      next blocked =>
        rw [records_blocked blocked]
        exact windowed
      next moved =>
        obtain ⟨signaled, idle⟩ := (advance_steps moved).signaled
        exact windowed.advance registered.2 registered.1.exclusive running signaled idle current
          conforms
  | event call =>
    simp only [Program.step]
    split
    · exact windowed
    next happened =>
      obtain ⟨same, idle⟩ := (occur_occurs happened).signals
      simp only [Shared.signals, Signals.mk.injEq] at same
      obtain ⟨_, window, subs, attempts, _⟩ := same
      refine ⟨?_, by rw [window]; exact windowed.tracks, by rw [subs]; exact windowed.own⟩
      rw [attempts]
      refine windowed.latest.imp (And.imp_right fun none_opens => ?_) (And.imp_right ?_)
      · refine List.forall_mem_append.mpr ⟨none_opens, fun u started => ?_⟩
        simp [idle u started]
      · rintro ⟨u, member, opens⟩
        exact ⟨u, List.mem_append_left _ member, opens⟩

theorem recorded_windowed {id : Nat} (actions : List Action)
    {history : List (Nat × Message)} (registered : Registered P client k)
    (windowed : Windowed P client id k.shared k.threads history)
    (conforms : (program P client options).along ownAnswers k actions = true)
    (current : (program P client options).along unreset k actions = true) :
    Windowed P client id ((program P client options).run k actions).shared
      ((program P client options).run k actions).threads
      (recorded P client options k actions ++ history) := by
  induction actions generalizing k history with
  | nil => exact windowed
  | cons a actions ih =>
    rw [Program.along, Bool.and_eq_true] at conforms current
    have takes := (program P client options).step_takes k a
    have final := ih (registered.takes takes) (windowed.step registered conforms.1 current.1)
      conforms.2 current.2
    rwa [recorded, List.append_assoc]

theorem Thread.resets_eq {t : Thread} {id : Nat} (resets : t.resets = some id) :
    ∃ caller, t = .connect caller id .resetRecv := by
  unfold Thread.resets at resets
  split at resets
  · cases resets
    exact ⟨_, rfl⟩
  · cases resets

theorem windowed_reset {n id : Nat} {choice : Choice} (registered : Registered P client k)
    (resetting : k.threads[n]?.bind Thread.resets = some id) :
    Windowed P client id ((program P client options).step k (.advance n choice)).shared
      ((program P client options).step k (.advance n choice)).threads [] := by
  obtain ⟨t, running, resets⟩ := Option.bind_eq_some_iff.mp resetting
  obtain ⟨caller, rfl⟩ := Thread.resets_eq resets
  simp only [Program.step, running, program, advance, connectStep]
  have latest := registered.2.newest _ (List.mem_of_getElem? running) id rfl
  refine ⟨.inl ⟨latest, ?_⟩, ReplayWindow.tracks_empty, by simp⟩
  refine forall_advance (fun _ _ => trivial) ?_ (by rintro _ ⟨⟩) (by simp)
  intro m u apart found _ j opening
  have outside := registered.1.exclusive.alone apart (t := Stage.attempt caller id .opening)
    (u := u.stage) (by simp [stages, running]; rfl) rfl (by simp [stages, found])
  rw [Thread.duty_inside (.inl opening)] at outside
  cases outside

variable (P client options)

/-- In every run whose steps meet `ownAnswers`: since the reset of attempt `id`, up to
the next reset, the window has recorded only numbers of messages that the handler of
`id` authenticated, and it refuses a number only because of these. -/
theorem answer_window_per_session (first rest : List Action) (n id : Nat)
    (choice : Choice)
    (conforms : (program P client options).along ownAnswers ⟨Shared.start options, []⟩
      (first ++ .advance n choice :: rest) = true)
    (resetting : (run P client options first).threads[n]?.bind Thread.resets = some id)
    (current : (program P client options).along unreset
      (run P client options (first ++ [.advance n choice])) rest = true) :
    let k := run P client options (first ++ .advance n choice :: rest)
    let history := recorded P client options (run P client options (first ++ [.advance n choice])) rest
    (∀ r ∈ history, r.1 = id ∧ Authentic P client k.shared.answerSub id r.2) ∧
      ∀ sequence, (k.shared.signalRecv.accept sequence).1 = true ↔
        ReplayWindow.Fresh (history.map (Message.number ·.2)) sequence := by
  intro k history
  have split : first ++ .advance n choice :: rest = first ++ [.advance n choice] ++ rest :=
    List.append_cons ..
  rw [split, Program.along_append, Bool.and_eq_true] at conforms
  have last : run P client options (first ++ [.advance n choice]) =
      (program P client options).step (run P client options first) (.advance n choice) :=
    (program P client options).run_append _ _ _
  have windowed : Windowed P client id (run P client options (first ++ [.advance n choice])).shared
      (run P client options (first ++ [.advance n choice])).threads [] := by
    rw [last]
    exact windowed_reset (run_registered P client options first) resetting
  have final := recorded_windowed rest (run_registered P client options _) windowed conforms.2 current
  have reached : k = (program P client options).run
      (run P client options (first ++ [.advance n choice])) rest := by
    simp only [k, split]
    exact (program P client options).run_append _ _ _
  rw [← reached, List.append_nil] at final
  exact ⟨final.own, fun sequence => (ReplayWindow.accept_spec final.tracks sequence).1⟩

namespace Sample

def decoding : List Action :=
  .event .connect :: goes 0 9 ++ .event (.deliverHello 0 Plain.packet Plain.clientRandom) ::
    goes 0 8 ++ .event (.deliverAnswer 0 answer) :: goes 1 1

def renewing : List Action :=
  decoding ++ fails 0 :: goes 0 7 ++ .event .connect :: goes 2 4

def otherChoice : Choice where
  nonceRandom n := UInt8.ofNat (n + 1)
  privateKey := List.replicate 32 9
  codecRandom := UInt8.ofNat
  now := 5000

def otherPacket : Bytes :=
  match Plain.client.buildClientHello Plain.primitives otherChoice.nonceRandom
      otherChoice.privateKey otherChoice.codecRandom otherChoice.now with
  | .error _ => []
  | .ok hello => ((ServerState.start Plain.nonces).onHello Plain.server true (Plain.helloInput 6000)
      hello.message).1.getD []

def otherHandshake : Option ServerHandshake :=
  match Plain.client.buildClientHello Plain.primitives otherChoice.nonceRandom
      otherChoice.privateKey otherChoice.codecRandom otherChoice.now with
  | .error _ => none
  | .ok hello => (Plain.client.handleServerHello Plain.primitives otherPacket hello
      Plain.clientRandom).toOption

def late : List Action :=
  goes 1 1 ++ goes 2 2 ++ .advance 2 otherChoice :: goes 2 1 ++
    .event (.deliverHello 1 otherPacket Plain.clientRandom) :: goes 2 8 ++
    .event (.deliverAnswer 1 (answerOf otherHandshake)) :: goes 3 1

def opening : List Action := .event .connect :: goes 0 4

def answering : List Action :=
  goes 0 4 ++ .event (.deliverHello 0 Plain.packet Plain.clientRandom) ::
    goes 0 8 ++ .event (.deliverAnswer 0 answer) :: goes 1 2

/-- The handler of attempt `id` is about to offer the number of an answer that the window
refuses. -/
def refuses (id : Nat) (window : ReplayWindow) : Thread → Bool
  | .answer j (.accept message) =>
    j = id && (message.header.getD {}).typ = .iceAnswer &&
      !(window.accept (Message.number message)).1
  | _ => false

end Sample

theorem Sample.answering_conforms :
    (recorded Plain.primitives Plain.client Sample.options
      (run Plain.primitives Plain.client Sample.options
        (Sample.opening ++ ([.advance 0 {}] : List Action)))
      Sample.answering).length = 1 ∧
    (program Plain.primitives Plain.client Sample.options).along ownAnswers
      ⟨Shared.start Sample.options, []⟩
      (Sample.opening ++ (.advance 0 {} :: Sample.answering : List Action)) = true ∧
    (run Plain.primitives Plain.client Sample.options Sample.opening).threads[0]?.bind
      Thread.resets = some 0 ∧
    (program Plain.primitives Plain.client Sample.options).along unreset
      (run Plain.primitives Plain.client Sample.options
        (Sample.opening ++ ([.advance 0 {}] : List Action)))
      Sample.answering = true := by
  decide +kernel

theorem answer_window_per_session_sample :
    (recorded Plain.primitives Plain.client Sample.options
      (run Plain.primitives Plain.client Sample.options (Sample.opening ++ [.advance 0 {}]))
      Sample.answering).length = 1 ∧
    ∀ r ∈ recorded Plain.primitives Plain.client Sample.options
      (run Plain.primitives Plain.client Sample.options (Sample.opening ++ [.advance 0 {}]))
      Sample.answering, r.1 = 0 := by
  obtain ⟨single, conforms, resetting, current⟩ := Sample.answering_conforms
  refine ⟨single, fun r recorded => ?_⟩
  exact ((answer_window_per_session Plain.primitives Plain.client Sample.options Sample.opening
    Sample.answering 0 0 {} conforms resetting current).1 r recorded).1

/-- A late handler of attempt 0 records the number of its answer after the reset of
attempt 1, and the first answer of attempt 1 is refused; the codec of attempt 1 does not
decode the answer that was recorded. -/
theorem first_answer_refused :
    (run Plain.primitives Plain.client Sample.options Sample.renewing).threads[2]?.bind
      Thread.resets = some 1 ∧
    (program Plain.primitives Plain.client Sample.options).along unreset
      (run Plain.primitives Plain.client Sample.options (Sample.renewing ++ [.advance 2 {}]))
      Sample.late = true ∧
    (recorded Plain.primitives Plain.client Sample.options
      (run Plain.primitives Plain.client Sample.options (Sample.renewing ++ [.advance 2 {}]))
      Sample.late).map (·.1) = [0] ∧
    (run Plain.primitives Plain.client Sample.options
      (Sample.renewing ++ .advance 2 {} :: Sample.late)).threads[3]?.any
      (Sample.refuses 1 (run Plain.primitives Plain.client Sample.options
        (Sample.renewing ++ .advance 2 {} :: Sample.late)).shared.signalRecv) = true ∧
    ((run Plain.primitives Plain.client Sample.options
      (Sample.renewing ++ .advance 2 {} :: Sample.late)).shared.answerSub 1).any
      (fun handshake => !(handshake.codec.decodeMessage Plain.primitives Sample.answer).isOk) =
        true := by
  decide +kernel

end Runs

end Telekit.ClientMachine
