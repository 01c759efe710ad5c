import Mathlib.Data.Int.Order.Basic
import Mathlib.Logic.Function.Basic

/-! Counters in a map, where an absent key counts zero. A counter is raised by one,
and lowered by one or deleted when it was the last. -/

namespace Tally

variable {κ : Type}

def count (tally : κ → Option Int) (key : κ) : Int := (tally key).getD 0

def Positive (tally : κ → Option Int) : Prop := ∀ key k, tally key = some k → 0 < k

variable {tally : κ → Option Int} {key : κ}

theorem Positive.empty : Positive fun _ : κ => none := by simp [Positive]

theorem Positive.count_nonneg (positive : Positive tally) (key : κ) : 0 ≤ count tally key := by
  unfold count
  cases found : tally key with
  | none => exact Int.le_refl 0
  | some k => exact Int.le_of_lt (positive key k found)

variable [DecidableEq κ]

def raise (tally : κ → Option Int) (key : κ) : κ → Option Int :=
  Function.update tally key (some (count tally key + 1))

def lower (tally : κ → Option Int) (key : κ) : κ → Option Int :=
  if count tally key ≤ 1 then Function.update tally key none
  else Function.update tally key (some (count tally key - 1))

theorem count_raise (tally : κ → Option Int) (key other : κ) :
    count (raise tally key) other = count tally other + if other = key then 1 else 0 := by
  by_cases same : other = key
  · simp [count, raise, same]
  · simp [count, raise, same]

theorem Positive.raise (positive : Positive tally) (key : κ) : Positive (raise tally key) := by
  intro other k found
  by_cases same : other = key
  · have bound := positive.count_nonneg key
    simp only [Tally.raise, same, Function.update_self, Option.some.injEq] at found
    omega
  · simp only [Tally.raise, Function.update_of_ne same] at found
    exact positive other k found

theorem count_lower (present : 0 < count tally key) (other : κ) :
    count (lower tally key) other = count tally other - if other = key then 1 else 0 := by
  unfold lower
  by_cases same : other = key
  · rw [if_pos same, same]
    split_ifs with last
    · have single : count tally key = 1 := by omega
      rw [single]
      simp [count]
    · simp [count]
  · split_ifs with last
    · simp [count, same]
    · simp [count, same]

theorem Positive.lower (positive : Positive tally) (key : κ) : Positive (lower tally key) := by
  intro other k found
  unfold Tally.lower at found
  by_cases same : other = key
  · subst same
    split_ifs at found with last
    · simp at found
    · simp only [Function.update_self, Option.some.injEq] at found
      omega
  · split_ifs at found with last
    · rw [Function.update_of_ne same] at found
      exact positive other k found
    · rw [Function.update_of_ne same] at found
      exact positive other k found

end Tally
