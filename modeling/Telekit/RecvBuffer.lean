import Telekit.Primitives

/-! The receive buffer and the shared byte budget of `peer/buffer.go`. Each
method holds the buffer's mutex, so it is one step; the compare-and-swap loop of
`Reserve` and the addition in `Release` are one step each. A nil budget is
`none`. Sizes are mathematical integers: between 0 and the limit, where the
theorems keep them, the `int64` arithmetic does not overflow. -/

namespace Telekit

def defaultReceiveBufferSize : Int := 8 * 2 ^ 20

/-- `panicked` records that `Release` took the counter below zero. -/
structure ByteBudget where
  limit : Int
  used : Int := 0
  panicked : Bool := false
  deriving DecidableEq

namespace ByteBudget

def reserve (b : Option ByteBudget) (n : Int) : Bool × Option ByteBudget :=
  match b with
  | none => (true, none)
  | some b =>
    if n ≤ 0 then (true, some b)
    else if n > b.limit - b.used then (false, some b)
    else (true, some { b with used := b.used + n })

def release (b : Option ByteBudget) (n : Int) : Option ByteBudget :=
  match b with
  | none => none
  | some b =>
    if n ≤ 0 then some b
    else some { b with used := b.used - n, panicked := b.panicked || decide (b.used - n < 0) }

theorem reserve_true {b : ByteBudget} {n : Nat} {budget : Option ByteBudget}
    (ok : reserve (some b) n = (true, budget)) :
    budget = some { b with used := b.used + n } ∧ (n = 0 ∨ b.used + n ≤ b.limit) := by
  simp only [reserve] at ok
  split_ifs at ok with zero full
  · have none : n = 0 := by omega
    simp only [Prod.mk.injEq, true_and] at ok
    exact ⟨by simp [← ok, none], Or.inl none⟩
  · simp at ok
  · simp only [Prod.mk.injEq, true_and] at ok
    exact ⟨ok.symm, Or.inr (by omega)⟩

theorem reserve_false {b : ByteBudget} {n : Int} {budget : Option ByteBudget}
    (refused : reserve (some b) n = (false, budget)) : budget = some b := by
  simp only [reserve] at refused
  split_ifs at refused with zero full <;> simp_all

theorem release_used {b : ByteBudget} {n : Nat} (enough : (n : Int) ≤ b.used) :
    release (some b) n = some { b with used := b.used - n } := by
  simp only [release]
  split_ifs with zero
  · have none : n = 0 := by omega
    simp [none]
  · have calm : ¬ b.used - n < 0 := by omega
    simp [calm]

end ByteBudget

/-- The deadline is a point on the system clock; the zero time is `none`. -/
structure RecvBuffer where
  buf : Bytes := []
  closed : Bool := false
  deadline : Option Int := none
  limit : Int
  deriving DecidableEq

namespace RecvBuffer

def newWithLimit (limit : Int) : RecvBuffer :=
  { limit := if limit ≤ 0 then defaultReceiveBufferSize else limit }

def new : RecvBuffer := newWithLimit defaultReceiveBufferSize

/-- `bytes.Buffer.Write` always returns a nil error, so the release that would
follow a failed append is not reached. -/
def write (rb : RecvBuffer) (budget : Option ByteBudget) (data : Bytes) :
    Except Failure Unit × RecvBuffer × Option ByteBudget :=
  if rb.closed then (.error .closedPipe, rb, budget)
  else if (data.length : Int) > rb.limit - rb.buf.length then
    (.error .receiveBufferFull, rb, budget)
  else
    match ByteBudget.reserve budget data.length with
    | (false, budget) => (.error .receiveBufferFull, rb, budget)
    | (true, budget) => (.ok (), { rb with buf := rb.buf ++ data }, budget)

/-- One evaluation of the loop of `Read` into a slice of `size` bytes at time
`now`; `none` means that the call goes on waiting. -/
def read (rb : RecvBuffer) (budget : Option ByteBudget) (size : Nat) (now : Int) :
    Option (Except Failure Bytes × RecvBuffer × Option ByteBudget) :=
  if rb.buf.length = 0 then
    if rb.closed then some (.error .endOfFile, rb, budget)
    else
      match rb.deadline with
      | none => none
      | some deadline =>
        if deadline - now ≤ 0 then some (.error .deadlineExceeded, rb, budget) else none
  else
    let data := rb.buf.take size
    some (.ok data, { rb with buf := rb.buf.drop size }, ByteBudget.release budget data.length)

def reset (rb : RecvBuffer) (budget : Option ByteBudget) : RecvBuffer × Option ByteBudget :=
  if rb.closed then (rb, budget)
  else ({ rb with buf := [] }, ByteBudget.release budget rb.buf.length)

def setDeadline (rb : RecvBuffer) (deadline : Option Int) : RecvBuffer :=
  { rb with deadline := deadline }

def close (rb : RecvBuffer) (budget : Option ByteBudget) : RecvBuffer × Option ByteBudget :=
  if rb.closed then (rb, budget)
  else ({ rb with closed := true, buf := [] }, ByteBudget.release budget rb.buf.length)

/-- What every operation keeps: the contents fit, and a closed buffer is empty. -/
structure Bounded (rb : RecvBuffer) : Prop where
  fits : (rb.buf.length : Int) ≤ rb.limit
  drained : rb.closed = true → rb.buf = []

theorem newWithLimit_bounded (limit : Int) : (newWithLimit limit).Bounded := by
  refine ⟨?_, fun _ => rfl⟩
  simp only [newWithLimit, List.length_nil]
  split_ifs with small
  · decide
  · omega

variable {budget : Option ByteBudget} {data : Bytes}

theorem write_error {rb rb' : RecvBuffer} {budget' : Option ByteBudget} {err : Failure}
    (refused : rb.write budget data = (.error err, rb', budget')) :
    rb' = rb ∧ budget' = budget := by
  unfold write at refused
  split_ifs at refused with closed long
  · simp_all
  · simp_all
  · cases budget with
    | none => simp [ByteBudget.reserve] at refused
    | some b =>
      simp only [ByteBudget.reserve] at refused
      split_ifs at refused with zero full <;> simp_all

theorem write_ok {rb rb' : RecvBuffer} {budget' : Option ByteBudget}
    (ok : rb.write budget data = (.ok (), rb', budget')) :
    rb.closed = false ∧ (rb.buf.length : Int) + data.length ≤ rb.limit ∧
      ByteBudget.reserve budget data.length = (true, budget') ∧
      rb' = { rb with buf := rb.buf ++ data } := by
  unfold write at ok
  split_ifs at ok with closed long
  · simp at ok
  · simp at ok
  · split at ok
    · simp at ok
    next reserved =>
      simp only [Prod.mk.injEq, true_and] at ok
      obtain ⟨rfl, rfl⟩ := ok
      exact ⟨by simpa using closed, by omega, reserved, rfl⟩

theorem write_bounded {rb rb' : RecvBuffer} {budget' : Option ByteBudget}
    {result : Except Failure Unit} (bounded : rb.Bounded)
    (done : rb.write budget data = (result, rb', budget')) : rb'.Bounded := by
  cases result with
  | error err =>
    rw [(write_error done).1]
    exact bounded
  | ok _ =>
    obtain ⟨opened, room, _, rfl⟩ := write_ok done
    refine ⟨?_, fun closed => ?_⟩
    · simpa using room
    · exact absurd closed (by simp [opened])

structure Drain (rb rb' : RecvBuffer) (budget budget' : Option ByteBudget) : Prop where
  bounded : rb.Bounded → rb'.Bounded
  released : ∃ k : Nat, rb'.buf.length + k = rb.buf.length ∧
    budget' = ByteBudget.release budget k

variable {rb rb' : RecvBuffer} {budget' : Option ByteBudget} {size : Nat} {now : Int}
  {result : Except Failure Bytes}

theorem Drain.refl (rb : RecvBuffer) (budget : Option ByteBudget) : Drain rb rb budget budget :=
  ⟨id, 0, by simp, by cases budget <;> simp [ByteBudget.release]⟩

theorem read_cases (done : rb.read budget size now = some (result, rb', budget')) :
    (∃ err, result = .error err ∧ rb.buf = [] ∧ rb' = rb ∧ budget' = budget) ∨
      result = .ok (rb.buf.take size) ∧ rb' = { rb with buf := rb.buf.drop size } ∧
        budget' = ByteBudget.release budget (rb.buf.take size).length := by
  unfold read at done
  split_ifs at done with empty closed
  · cases done
    exact .inl ⟨_, rfl, List.length_eq_zero_iff.mp empty, rfl, rfl⟩
  · split at done
    · cases done
    · split_ifs at done
      cases done
      exact .inl ⟨_, rfl, List.length_eq_zero_iff.mp empty, rfl, rfl⟩
  · cases done
    exact .inr ⟨rfl, rfl, rfl⟩

theorem read_drain (done : rb.read budget size now = some (result, rb', budget')) :
    Drain rb rb' budget budget' := by
  rcases read_cases done with ⟨_, _, _, rfl, rfl⟩ | ⟨_, rfl, rfl⟩
  · exact .refl _ _
  · refine ⟨fun bounded => ⟨?_, fun closed => ?_⟩, (rb.buf.take size).length, ?_, rfl⟩
    · have fits := bounded.fits
      simp only [List.length_drop]
      omega
    · simp [bounded.drained closed]
    · simp only [List.length_drop, List.length_take]
      omega

theorem read_ok (done : rb.read budget size now = some (.ok data, rb', budget')) :
    data ++ rb'.buf = rb.buf := by
  rcases read_cases done with ⟨_, failed, _⟩ | ⟨same, rfl, _⟩
  · cases failed
  · cases same
    exact List.take_append_drop size rb.buf

theorem read_rest (done : rb.read budget size now = some (result, rb', budget')) :
    rb'.buf = rb.buf.drop size := by
  rcases read_cases done with ⟨_, _, empty, rfl, _⟩ | ⟨_, rfl, _⟩
  · simp [empty]
  · rfl

theorem read_none {rb : RecvBuffer} (waits : rb.read budget size now = none) : rb.buf = [] := by
  unfold read at waits
  split_ifs at waits with empty
  exact List.length_eq_zero_iff.mp empty

theorem read_closed (done : rb.read budget size now = some (result, rb', budget')) :
    rb'.closed = rb.closed := by
  rcases read_cases done with ⟨_, _, _, rfl, _⟩ | ⟨_, rfl, _⟩ <;> rfl

theorem read_error {err : Failure}
    (done : rb.read budget size now = some (.error err, rb', budget')) : rb' = rb := by
  rcases read_cases done with ⟨_, _, _, same, _⟩ | ⟨ok, _⟩
  · exact same
  · cases ok

theorem emptied_drain (rb : RecvBuffer) (budget : Option ByteBudget) (closed : Bool) :
    Drain rb { rb with closed := closed, buf := [] } budget
      (ByteBudget.release budget rb.buf.length) := by
  refine ⟨fun bounded => ⟨?_, fun _ => rfl⟩, rb.buf.length, by simp, rfl⟩
  have fits := bounded.fits
  simp only [List.length_nil]
  omega

theorem reset_drain (rb : RecvBuffer) (budget : Option ByteBudget) :
    Drain rb (rb.reset budget).1 budget (rb.reset budget).2 := by
  unfold reset
  split_ifs
  · exact .refl rb budget
  · exact rb.emptied_drain budget rb.closed

theorem close_drain (rb : RecvBuffer) (budget : Option ByteBudget) :
    Drain rb (rb.close budget).1 budget (rb.close budget).2 := by
  unfold close
  split_ifs
  · exact .refl rb budget
  · exact rb.emptied_drain budget true

end RecvBuffer
end Telekit
