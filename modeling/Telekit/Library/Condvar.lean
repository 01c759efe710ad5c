import Mathlib.Data.List.Nodup

/-! A condition variable with tickets. A goroutine that waits takes the next ticket and
sleeps while the ticket is in the queue; a wake-up takes a ticket out. Everything happens
under the mutex of the condition variable, so that the queue is a value. -/

namespace Condvar

structure Queue where
  next : Nat
  asleep : List Nat
  nodup : asleep.Nodup
  issued : ∀ k ∈ asleep, k < next

namespace Queue

def empty : Queue := ⟨0, [], List.nodup_nil, by simp⟩

def wait (q : Queue) : Queue where
  next := q.next + 1
  asleep := q.asleep ++ [q.next]
  nodup := by
    refine List.nodup_append.mpr ⟨q.nodup, List.nodup_singleton _, fun k old j new same => ?_⟩
    rw [List.mem_singleton.mp new] at same
    exact absurd (q.issued k old) (by omega)
  issued := by
    intro k member
    rcases List.mem_append.mp member with old | new
    · exact Nat.lt_succ_of_lt (q.issued k old)
    · rw [List.mem_singleton.mp new]
      exact Nat.lt_succ_self _

/-- One sleeper is woken, if there is any; `pick` says which. -/
def signal (q : Queue) (pick : Nat) : Queue where
  next := q.next
  asleep := (q.asleep[pick % q.asleep.length]?).elim q.asleep q.asleep.erase
  nodup := by
    cases q.asleep[pick % q.asleep.length]? with
    | none => exact q.nodup
    | some k => exact q.nodup.erase k
  issued := by
    cases q.asleep[pick % q.asleep.length]? with
    | none => exact q.issued
    | some k => exact fun j member => q.issued j (List.mem_of_mem_erase member)

def broadcast (q : Queue) : Queue := ⟨q.next, [], List.nodup_nil, by simp⟩

variable (q : Queue)

@[simp] theorem broadcast_asleep : q.broadcast.asleep = [] := rfl

theorem mem_wait {k : Nat} : k ∈ q.wait.asleep ↔ k ∈ q.asleep ∨ k = q.next := by
  simp [wait]

theorem mem_of_mem_signal {pick k : Nat} (member : k ∈ (q.signal pick).asleep) : k ∈ q.asleep := by
  simp only [signal] at member
  cases picked : q.asleep[pick % q.asleep.length]? with
  | none => simpa [picked] using member
  | some j =>
    rw [picked] at member
    exact List.mem_of_mem_erase member

theorem signal_wakes (pick : Nat) (sleepers : q.asleep ≠ []) :
    ∃ k ∈ q.asleep, k ∉ (q.signal pick).asleep := by
  have inside : pick % q.asleep.length < q.asleep.length :=
    Nat.mod_lt _ (List.length_pos_iff.mpr sleepers)
  refine ⟨q.asleep.get ⟨_, inside⟩, List.get_mem .., ?_⟩
  simp only [signal, List.getElem?_eq_getElem inside, Option.elim, List.get_eq_getElem,
    q.nodup.mem_erase_iff, ne_eq, not_true_eq_false, false_and, not_false_eq_true]

end Queue
end Condvar
