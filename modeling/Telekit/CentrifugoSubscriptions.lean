import Telekit.Routes

/-! The subscriptions of the Centrifugo adapter: `signaling/centrifugo/utils.go`. `on` and
`unsubscribe` hold the mutex throughout, the native calls included, so each is one step.
A handler is a number. What the native client answers is an input; the topics with a
native subscription are recorded and never read.

The entry of a topic in the table is also the mark that it is subscribed, and `on`
writes it before it asks the client. -/

namespace Telekit.Centrifugo

inductive Native
  | notMade (err : Failure)
  | notSubscribed (err : Failure)
  | created
  deriving DecidableEq

structure State where
  subs : GoString → Option (List (Nat × Nat)) := fun _ => none
  nextID : Nat := 0
  created : List GoString := []

namespace State

def subscribeOnce (s : State) (topic : GoString) (native : Native) : Option Failure × State :=
  match native with
  | .notMade err => (some err, s)
  | .notSubscribed err => (some err, s)
  | .created => (none, { s with created := s.created ++ [topic] })

def register (s : State) (topic : GoString) (handlers : List (Nat × Nat)) (handler : Nat) :
    Except Failure Nat × State :=
  (.ok (s.nextID + 1), { s with
    subs := Function.update s.subs topic (some (handlers ++ [(s.nextID + 1, handler)]))
    nextID := s.nextID + 1 })

def on (s : State) (topic : GoString) (handler : Option Nat) (native : Native) :
    Except Failure Nat × State :=
  match handler with
  | none => (fail "handler is nil", s)
  | some handler =>
    match s.subs topic with
    | some handlers => s.register topic handlers handler
    | none =>
      match { s with subs := Function.update s.subs topic (some []) }.subscribeOnce topic native with
      | (some err, s) => (.error err, s)
      | (none, s) => s.register topic [] handler

def unsubscribe (s : State) (id : Nat) : State :=
  { s with subs := fun topic => (s.subs topic).map fun handlers => handlers.filter fun h => h.1 ≠ id }

def reached (s : State) (topic : GoString) : List (Nat × Nat) :=
  if topic ∈ s.created then (s.subs topic).getD [] else []

end State

inductive Op
  | on (topic : GoString) (handler : Option Nat) (native : Native)
  | unsubscribe (id : Nat)

namespace State

def step (s : State) : Op → State
  | .on topic handler native => (s.on topic handler native).2
  | .unsubscribe id => s.unsubscribe id

def run (ops : List Op) : State := ops.foldl step {}

def along (p : State → Op → Prop) : State → List Op → Prop
  | _, [] => True
  | s, op :: ops => p s op ∧ along p (s.step op) ops

/-- A call that succeeds has a native subscription behind it that reaches its handler, and
one that fails leaves the table as it was. -/
def Real (s : State) : Op → Prop
  | .on topic handler native =>
    match s.on topic handler native with
    | (.ok id, s') => topic ∈ s'.created ∧ ∀ h, handler = some h → (id, h) ∈ s'.reached topic
    | (.error _, s') => s'.subs = s.subs
  | .unsubscribe _ => True

def Answered (s : State) : Op → Prop
  | .on topic handler native => handler ≠ none → s.subs topic = none → native = .created
  | .unsubscribe _ => True

def Backed (s : State) : Prop := ∀ topic, s.subs topic ≠ none → topic ∈ s.created

variable {s : State}

theorem Backed.empty : Backed {} := fun _ absent => absurd rfl absent

theorem Backed.register (backed : s.Backed) {topic : GoString} (own : topic ∈ s.created)
    (handlers : List (Nat × Nat)) (handler : Nat) :
    (s.register topic handlers handler).2.Backed := by
  intro other present
  by_cases same : other = topic
  · rw [same]
    exact own
  · simp only [State.register, Function.update_of_ne same] at present
    exact backed other present

theorem register_reached {topic : GoString} (own : topic ∈ s.created)
    (handlers : List (Nat × Nat)) (handler : Nat) :
    (s.nextID + 1, handler) ∈ (s.register topic handlers handler).2.reached topic := by
  simp [reached, State.register, own]

theorem Backed.unsubscribe (backed : s.Backed) (id : Nat) : (s.unsubscribe id).Backed := by
  intro topic present
  apply backed topic
  intro absent
  simp [State.unsubscribe, absent] at present

theorem Backed.created (backed : s.Backed) (topic : GoString) :
    Backed { s with
      subs := Function.update s.subs topic (some []), created := s.created ++ [topic] } := by
  intro other present
  by_cases same : other = topic
  · simp [same]
  · simp only [Function.update_of_ne same] at present
    exact List.mem_append_left _ (backed other present)

section On
variable {topic : GoString} {handler : Nat} {native : Native}

theorem on_known (backed : s.Backed) {handlers : List (Nat × Nat)}
    (entry : s.subs topic = some handlers) :
    s.Real (.on topic (some handler) native) ∧
      (s.step (.on topic (some handler) native)).Backed := by
  have own := backed topic (by simp [entry])
  simp only [Real, step, State.on, entry]
  refine ⟨⟨own, ?_⟩, backed.register own handlers handler⟩
  rintro h ⟨⟩
  exact register_reached own handlers handler

theorem on_created (backed : s.Backed) (entry : s.subs topic = none) :
    s.Real (.on topic (some handler) .created) ∧
      (s.step (.on topic (some handler) .created)).Backed := by
  have own : topic ∈ s.created ++ [topic] := by simp
  have fresh := backed.created topic
  simp only [Real, step, State.on, entry, subscribeOnce]
  refine ⟨⟨own, ?_⟩, fresh.register own [] handler⟩
  rintro h ⟨⟩
  exact register_reached own [] handler

/-- A call that the client fails leaves the entry behind. -/
theorem on_failed (entry : s.subs topic = none) (failing : native ≠ .created) :
    ¬ s.Real (.on topic (some handler) native) := by
  have left : ∃ err, s.on topic (some handler) native =
      (.error err, { s with subs := Function.update s.subs topic (some []) }) := by
    cases native with
    | created => exact absurd rfl failing
    | notMade err => exact ⟨err, by simp only [State.on, entry, subscribeOnce]⟩
    | notSubscribed err => exact ⟨err, by simp only [State.on, entry, subscribeOnce]⟩
  obtain ⟨err, left⟩ := left
  simp only [Real, left]
  intro same
  have changed := congrFun same topic
  simp [entry] at changed

end On

theorem Backed.step_iff (backed : s.Backed) (op : Op) :
    (s.Real op ↔ s.Answered op) ∧ (s.Answered op → (s.step op).Backed) := by
  cases op with
  | unsubscribe id => exact ⟨Iff.rfl, fun _ => backed.unsubscribe id⟩
  | on topic handler native =>
    cases handler with
    | none => exact ⟨by simp [Real, Answered, State.on, fail], fun _ => backed⟩
    | some handler =>
      cases entry : s.subs topic with
      | some handlers =>
        obtain ⟨real, next⟩ := on_known backed entry
        exact ⟨⟨fun _ => by simp [Answered, entry], fun _ => real⟩, fun _ => next⟩
      | none =>
        by_cases answer : native = .created
        · rw [answer]
          obtain ⟨real, next⟩ := on_created backed entry
          exact ⟨⟨fun _ => by simp [Answered], fun _ => real⟩, fun _ => next⟩
        · have unanswered : ¬ s.Answered (.on topic (some handler) native) := by
            simp [Answered, entry, answer]
          exact ⟨iff_of_false (on_failed entry answer) unanswered,
            fun answered => absurd answered unanswered⟩

theorem Backed.along_iff (backed : s.Backed) (ops : List Op) :
    along Real s ops ↔ along Answered s ops := by
  induction ops generalizing s with
  | nil => exact Iff.rfl
  | cons op ops ih =>
    obtain ⟨exact_here, next⟩ := backed.step_iff op
    simp only [along, exact_here]
    exact and_congr_right fun answered => ih (next answered)

end State

open State in
theorem subscriptions_real_iff (ops : List Op) : along Real {} ops ↔ along Answered {} ops :=
  Backed.empty.along_iff ops

open State in
/-- The client fails once; the next call returns a subscription that nothing reaches. -/
theorem failed_subscription_sticks :
    let topic := str "telekit:room1:offer"
    let s := run [.on topic (some 0) (.notMade .transport)]
    (s.on topic (some 0) .created).1 = .ok 1 ∧
    topic ∉ (s.on topic (some 0) .created).2.created ∧
    (s.on topic (some 0) .created).2.reached topic = [] ∧
    ¬ along Real {} [.on topic (some 0) (.notMade .transport)] := by
  intro topic s
  refine ⟨by rfl, by decide, by decide, ?_⟩
  intro real
  exact on_failed rfl (by decide) real.1

end Telekit.Centrifugo
