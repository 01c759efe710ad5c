import Mathlib.Data.List.Basic
import Mathlib.Logic.Function.Basic

/-! Custody of resources. Every resource has an owner and is closed at some time.
Until then it is in the slot of its owner, or some party has it in its hands. A
party makes, installs, takes out or closes one resource at a time. -/

namespace Custody

structure Resource where
  owner : Nat
  closed : Bool

abbrev Hands := Option (Nat × Nat)

def Kept (resources : List Resource) (slot : Nat → Option Nat) (parties : List Hands) : Prop :=
  ∀ r owner, resources[r]? = some ⟨owner, false⟩ → slot owner = some r ∨ some (owner, r) ∈ parties

variable {resources : List Resource} {slot slot' : Nat → Option Nat} {parties new : List Hands}
  {n : Nat} {before after : Hands}

/-- One party moves: what it had, and what it found in a slot, is accounted for. -/
theorem Kept.step (kept : Kept resources slot parties) (party : parties[n]? = some before)
    {resources' : List Resource}
    (accounts : ∀ r owner, resources'[r]? = some ⟨owner, false⟩ →
      slot' owner = some r ∨ after = some (owner, r) ∨
        resources[r]? = some ⟨owner, false⟩ ∧ slot owner ≠ some r ∧ before ≠ some (owner, r)) :
    Kept resources' slot' (parties.set n after ++ new) := by
  intro r owner stays
  rcases accounts r owner stays with placed | held | ⟨old, unplaced, unheld⟩
  · exact .inl placed
  · have inside := (List.getElem?_eq_some_iff.mp party).1
    refine .inr (List.mem_append_left _ ?_)
    rw [← held]
    exact List.mem_set inside after
  · have member := (kept r owner old).resolve_left unplaced
    obtain ⟨m, found⟩ := List.mem_iff_getElem?.mp member
    have other : n ≠ m := by
      intro same
      rw [← same, party] at found
      exact unheld (Option.some.inj found)
    refine .inr (List.mem_append_left _ (List.mem_of_getElem? (i := m) ?_))
    rw [List.getElem?_set_ne other, found]

theorem Kept.rest (kept : Kept resources slot parties) (party : parties[n]? = some before) :
    Kept resources slot (parties.set n before ++ new) := by
  refine kept.step party fun r owner stays => ?_
  by_cases placed : slot owner = some r
  · exact .inl placed
  · by_cases held : before = some (owner, r)
    · exact .inr (.inl held)
    · exact .inr (.inr ⟨stays, placed, held⟩)

theorem Kept.make (kept : Kept resources slot parties) (party : parties[n]? = some none)
    (owner : Nat) :
    Kept (resources ++ [⟨owner, false⟩]) slot
      (parties.set n (some (owner, resources.length)) ++ new) := by
  refine kept.step party fun r own stays => ?_
  by_cases old : r < resources.length
  · rw [List.getElem?_append_left old] at stays
    by_cases placed : slot own = some r
    · exact .inl placed
    · exact .inr (.inr ⟨stays, placed, by simp⟩)
  · have last := (List.getElem?_eq_some_iff.mp stays).1
    rw [List.length_append, List.length_singleton] at last
    obtain rfl : r = resources.length := by omega
    have same : owner = own := by simpa using stays
    exact .inr (.inl (by rw [same]))

theorem Kept.close (kept : Kept resources slot parties) (party : parties[n]? = some before)
    {r : Nat} (own : ∀ owner held, before = some (owner, held) → held = r) :
    Kept (resources.modify r fun a => { a with closed := true }) slot
      (parties.set n none ++ new) := by
  refine kept.step party fun r' owner stays => ?_
  rw [List.getElem?_modify] at stays
  have other : r ≠ r' := by
    intro same
    cases found : resources[r']? <;> simp [same, found] at stays
  have old : resources[r']? = some ⟨owner, false⟩ := by simpa [other] using stays
  by_cases placed : slot owner = some r'
  · exact .inl placed
  · exact .inr (.inr ⟨old, placed, fun held => other (own owner r' held).symm⟩)

theorem Kept.install {owner r : Nat} (kept : Kept resources slot parties)
    (party : parties[n]? = some (some (owner, r))) (empty : slot owner = none)
    (put : slot' = Function.update slot owner (some r)) :
    Kept resources slot' (parties.set n none ++ new) := by
  refine kept.step party fun r' own stays => ?_
  by_cases same : own = owner
  · by_cases held : r' = r
    · exact .inl (by rw [put, same, held, Function.update_self])
    · exact .inr (.inr ⟨stays, by simp [same, empty], by simp [same, Ne.symm held]⟩)
  · rw [put, Function.update_of_ne same]
    by_cases placed : slot own = some r'
    · exact .inl placed
    · exact .inr (.inr ⟨stays, placed, by simp [Ne.symm same]⟩)

theorem Kept.take (kept : Kept resources slot parties) (party : parties[n]? = some none)
    (owner : Nat) (emptied : slot' = Function.update slot owner none) :
    Kept resources slot' (parties.set n ((slot owner).map fun r => (owner, r)) ++ new) := by
  refine kept.step party fun r own stays => ?_
  by_cases placed : slot own = some r
  · by_cases same : own = owner
    · exact .inr (.inl (by rw [← same, placed, Option.map_some]))
    · exact .inl (by rw [emptied, Function.update_of_ne same, placed])
  · exact .inr (.inr ⟨stays, placed, by simp⟩)

theorem map_close {α : Type} (view : α → Resource) {shut : α → α}
    (closes : ∀ a, view (shut a) = { view a with closed := true }) (things : List α) (r : Nat) :
    (things.modify r shut).map view =
      (things.map view).modify r fun a => { a with closed := true } := by
  apply List.ext_getElem?
  intro j
  simp only [List.getElem?_map, List.getElem?_modify]
  cases things[j]? with
  | none => rfl
  | some a => by_cases same : r = j <;> simp [same, closes]

/-- An owner whose slot is empty, and for whom no party has anything, has only
closed resources. -/
theorem Kept.closed (kept : Kept resources slot parties) {owner : Nat} (empty : slot owner = none)
    (unheld : ∀ r, some (owner, r) ∉ parties) {r : Nat} {closed : Bool}
    (found : resources[r]? = some ⟨owner, closed⟩) : closed = true := by
  cases closed with
  | true => rfl
  | false =>
    rcases kept r owner found with placed | held
    · rw [empty] at placed
      cases placed
    · exact absurd held (unheld r)

end Custody
