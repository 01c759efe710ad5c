import Mathlib.Data.List.Basic

/-! Traces that grow at their end. A property that relates each event to the
events before it is kept by one more event that satisfies it. -/

namespace Trace

variable {ε : Type}

def Always (good : List ε → ε → Prop) (trace : List ε) : Prop :=
  ∀ before e after, trace = before ++ e :: after → good before e

theorem split_last {trace before after : List ε} {e d : ε}
    (split : trace ++ [e] = before ++ d :: after) :
    (trace = before ∧ e = d) ∨ ∃ rest, trace = before ++ d :: rest := by
  rcases List.eq_nil_or_concat after with rfl | ⟨rest, last, rfl⟩
  · rw [List.append_singleton_inj] at split
    exact .inl split
  · have shape : trace ++ [e] = (before ++ d :: rest) ++ [last] := by
      rw [split]
      simp
    exact .inr ⟨rest, (List.append_singleton_inj.mp shape).1⟩

theorem split_at {trace : List ε} {n : Nat} {e : ε} (found : (trace)[n]? = some e) :
    trace = trace.take n ++ e :: trace.drop (n + 1) := by
  obtain ⟨inside, rfl⟩ := List.getElem?_eq_some_iff.mp found
  rw [← List.drop_eq_getElem_cons inside, List.take_append_drop]

theorem always_nil (good : List ε → ε → Prop) : Always good [] := by
  intro before e after split
  cases before <;> cases split

theorem Always.concat {good : List ε → ε → Prop} {trace : List ε} (always : Always good trace)
    {e : ε} (last : good trace e) : Always good (trace ++ [e]) := by
  intro before d after split
  rcases split_last split with ⟨rfl, rfl⟩ | ⟨rest, inner⟩
  · exact last
  · exact always before d rest inner

/-- Position `r` is the last one before `i` with event `e`. -/
structure LastAt (e : ε) (trace : List ε) (r i : Nat) : Prop where
  at_r : (trace)[r]? = some e
  before : r < i
  last : ∀ k, r < k → k < i → (trace)[k]? ≠ some e

variable {trace : List ε} {e d : ε} {r i : Nat}

theorem LastAt.shorten (at_end : LastAt e (trace ++ [d]) r i) (inside : i ≤ trace.length) :
    LastAt e trace r i := by
  have before := at_end.before
  refine ⟨?_, before, fun k above below => ?_⟩
  · rw [← List.getElem?_append_left (show r < trace.length by omega)]
    exact at_end.at_r
  · rw [← List.getElem?_append_left (show k < trace.length by omega)]
    exact at_end.last k above below

theorem LastAt.concat_self (at_end : LastAt e (trace ++ [e]) r (trace.length + 1)) :
    r = trace.length := by
  have before := at_end.before
  by_contra other
  exact at_end.last trace.length (by omega) (by omega) (by simp)

theorem LastAt.concat_other (other : d ≠ e)
    (at_end : LastAt e (trace ++ [d]) r (trace.length + 1)) : LastAt e trace r trace.length := by
  have before := at_end.before
  have inside : r < trace.length := by
    rcases Nat.lt_or_eq_of_le (Nat.le_of_lt_succ before) with inside | rfl
    · exact inside
    · have last := at_end.at_r
      rw [List.getElem?_concat_length, Option.some.injEq] at last
      exact absurd last other
  refine LastAt.shorten ⟨at_end.at_r, inside, fun k above below => ?_⟩ (Nat.le_refl _)
  exact at_end.last k above (by omega)

end Trace
