import Mathlib.Algebra.BigOperators.Group.List.Basic
import Mathlib.Algebra.Order.BigOperators.Group.List
import Mathlib.Algebra.Order.Group.Int
import Mathlib.Algebra.Ring.Int.Defs
import Mathlib.Data.List.Basic

/-! Totals over a list of accounts that are changed one at a time. -/

namespace Ledger

variable {α : Type} (f : α → Int)

def total (accounts : List α) : Int := (accounts.map f).sum

@[simp] theorem total_nil : total f [] = 0 := rfl

@[simp] theorem total_cons (a : α) (accounts : List α) :
    total f (a :: accounts) = f a + total f accounts := by
  simp [total]

@[simp] theorem total_append (left right : List α) :
    total f (left ++ right) = total f left + total f right := by
  simp [total]

variable {accounts : List α}

theorem total_set {i : Nat} {a : α} (present : accounts[i]? = some a) (b : α) :
    total f (accounts.set i b) = total f accounts - f a + f b := by
  induction accounts generalizing i with
  | nil => simp at present
  | cons c accounts ih =>
    cases i with
    | zero =>
      simp only [List.getElem?_cons_zero, Option.some.injEq] at present
      simp only [List.set_cons_zero, total_cons, present]
      omega
    | succ i =>
      simp only [List.getElem?_cons_succ] at present
      simp only [List.set_cons_succ, total_cons, ih present]
      omega

theorem total_modify {i : Nat} {a : α} (present : accounts[i]? = some a) (g : α → α) :
    total f (accounts.modify i g) = total f accounts - f a + f (g a) := by
  have replaced : accounts.modify i g = accounts.set i (g a) := by
    rw [List.modify_eq_set_getElem?, present]
    rfl
  rw [replaced, total_set f present]

variable {f}

theorem total_nonneg (h : ∀ a ∈ accounts, 0 ≤ f a) : 0 ≤ total f accounts := by
  apply List.sum_nonneg
  simpa using h

theorem le_total (h : ∀ a ∈ accounts, 0 ≤ f a) {a : α} (member : a ∈ accounts) :
    f a ≤ total f accounts := by
  induction accounts with
  | nil => simp at member
  | cons c accounts ih =>
    have head := h c (by simp)
    have tail := total_nonneg fun x hx => h x (List.mem_cons_of_mem _ hx)
    rw [total_cons]
    rcases List.mem_cons.mp member with rfl | rest
    · omega
    · have := ih (fun x hx => h x (List.mem_cons_of_mem _ hx)) rest
      omega

theorem add_le_total (h : ∀ a ∈ accounts, 0 ≤ f a) {i j : Nat} (ne : i ≠ j) {a b : α}
    (first : accounts[i]? = some a) (second : accounts[j]? = some b) :
    f a + f b ≤ total f accounts := by
  induction accounts generalizing i j with
  | nil => simp at first
  | cons c accounts ih =>
    have tail : ∀ x ∈ accounts, 0 ≤ f x := fun x hx => h x (List.mem_cons_of_mem _ hx)
    have head := h c (by simp)
    rw [total_cons]
    cases i with
    | zero =>
      cases j with
      | zero => exact absurd rfl ne
      | succ j =>
        have rest := le_total tail (List.mem_of_getElem? (by simpa using second))
        have same : c = a := by simpa using first
        rw [same]
        omega
    | succ i =>
      cases j with
      | zero =>
        have rest := le_total tail (List.mem_of_getElem? (by simpa using first))
        have same : c = b := by simpa using second
        rw [same]
        omega
      | succ j =>
        have apart : i ≠ j := fun same => ne (congrArg (· + 1) same)
        have rest := ih tail apart (by simpa using first) (by simpa using second)
        omega

theorem total_eq_zero (h : ∀ a ∈ accounts, f a = 0) : total f accounts = 0 := by
  induction accounts with
  | nil => rfl
  | cons c accounts ih =>
    rw [total_cons, h c (by simp), ih fun x hx => h x (List.mem_cons_of_mem _ hx)]
    omega

theorem total_single {i : Nat} {a : α} (present : accounts[i]? = some a)
    (others : ∀ (j : Nat) (b : α), j ≠ i → accounts[j]? = some b → f b = 0) :
    total f accounts = f a := by
  induction accounts generalizing i with
  | nil => simp at present
  | cons c accounts ih =>
    rw [total_cons]
    cases i with
    | zero =>
      have same : c = a := by simpa using present
      have empty : total f accounts = 0 := by
        apply total_eq_zero
        intro b member
        obtain ⟨j, found⟩ := List.mem_iff_getElem?.mp member
        exact others (j + 1) b (Nat.succ_ne_zero j) (by simpa using found)
      rw [same, empty, Int.add_zero]
    | succ i =>
      have head : f c = 0 := others 0 c (Nat.succ_ne_zero i).symm rfl
      have rest : total f accounts = f a :=
        ih (by simpa using present) fun j b apart found =>
          others (j + 1) b (fun same => apart (Nat.succ.inj same)) (by simpa using found)
      rw [head, rest, Int.zero_add]

theorem forall_set {p : α → Prop} (h : ∀ a ∈ accounts, p a) {i : Nat} {b : α} (new : p b) :
    ∀ a ∈ accounts.set i b, p a := by
  intro a member
  rcases List.mem_or_eq_of_mem_set member with old | rfl
  · exact h a old
  · exact new

end Ledger
