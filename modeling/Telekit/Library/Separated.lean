import Mathlib.Data.List.Basic

/-! Lists written one after the other with a mark between them. The cut at the first
or at the last mark is unique; two cuts at any marks differ by the part between them. -/

namespace Separated

variable {α : Type} {mark : α} {x y z w : List α}

theorem first_inj (free : mark ∉ x) (free' : mark ∉ y)
    (same : x ++ mark :: z = y ++ mark :: w) : x = y ∧ z = w := by
  induction x generalizing y with
  | nil =>
    cases y with
    | nil => exact ⟨rfl, (List.cons.inj same).2⟩
    | cons d y => exact absurd ((List.cons.inj same).1 ▸ List.mem_cons_self) free'
  | cons c x ih =>
    cases y with
    | nil => exact absurd ((List.cons.inj same).1 ▸ List.mem_cons_self) free
    | cons d y =>
      simp only [List.mem_cons, not_or] at free free'
      simp only [List.cons_append, List.cons.injEq] at same
      obtain ⟨rfl, rest⟩ := same
      obtain ⟨rfl, rfl⟩ := ih free.2 free'.2 rest
      exact ⟨rfl, rfl⟩

theorem last_inj (free : mark ∉ x) (free' : mark ∉ y)
    (same : z ++ mark :: x = w ++ mark :: y) : z = w ∧ x = y := by
  have mirrored := congrArg List.reverse same
  simp only [List.reverse_append, List.reverse_cons, List.append_assoc, List.singleton_append]
    at mirrored
  obtain ⟨ends, starts⟩ := first_inj (by simpa using free) (by simpa using free') mirrored
  exact ⟨List.reverse_injective starts, List.reverse_injective ends⟩

/-- Two cuts of one list are the same, or one of them is further on. -/
theorem cut_cases (same : z ++ mark :: x = w ++ mark :: y) :
    (z = w ∧ x = y) ∨ (∃ mid, w = z ++ mark :: mid ∧ x = mid ++ mark :: y) ∨
      ∃ mid, z = w ++ mark :: mid ∧ y = mid ++ mark :: x := by
  rcases List.append_eq_append_iff.mp same with ⟨mid, after, rest⟩ | ⟨mid, after, rest⟩
  · cases mid with
    | nil => exact .inl ⟨by rw [after, List.append_nil], (List.cons.inj rest).2⟩
    | cons c mid =>
      obtain ⟨rfl, inner⟩ := List.cons.inj rest
      exact .inr (.inl ⟨mid, after, inner⟩)
  · cases mid with
    | nil => exact .inl ⟨by rw [after, List.append_nil], (List.cons.inj rest).2.symm⟩
    | cons c mid =>
      obtain ⟨rfl, inner⟩ := List.cons.inj rest
      exact .inr (.inr ⟨mid, after, inner⟩)

theorem mem_intercalate {a : α} {segments : List (List α)}
    (member : a ∈ [mark].intercalate segments) : a = mark ∨ ∃ segment ∈ segments, a ∈ segment := by
  induction segments with
  | nil => simp at member
  | cons segment segments ih =>
    cases segments with
    | nil => exact .inr ⟨segment, by simp, by simpa using member⟩
    | cons next segments =>
      rw [List.intercalate_cons_cons, List.append_assoc, List.mem_append, List.mem_append,
        List.mem_singleton] at member
      rcases member with own | rfl | later
      · exact .inr ⟨segment, by simp, own⟩
      · exact .inl rfl
      · rcases ih later with same | ⟨other, among, inside⟩
        · exact .inl same
        · exact .inr ⟨other, List.mem_cons_of_mem _ among, inside⟩

end Separated
