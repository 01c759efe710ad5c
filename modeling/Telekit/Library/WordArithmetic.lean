import Mathlib.Algebra.Ring.Int.Defs

/-! Arithmetic of machine words as an interface, so that one program can be run on the
machine's own operations and on operations that have no result where the word is not
the exact integer. A program that has a result on the second kind divides by no zero
and overflows nowhere. -/

namespace WordArithmetic

variable {ω : Type}

structure Arithmetic (ω : Type) where
  add : ω → ω → Option ω
  mul : ω → ω → Option ω
  div : ω → ω → Option ω

section Operations
variable [Add ω] [Mul ω] [Div ω] (value : ω → Int)

/-- The operations as the machine has them; only a division by zero has no result. -/
def machine : Arithmetic ω where
  add x y := some (x + y)
  mul x y := some (x * y)
  div x y := if value y = 0 then none else some (x / y)

/-- The operations where the word denotes the exact integer. -/
def checked : Arithmetic ω where
  add x y := if value (x + y) = value x + value y then some (x + y) else none
  mul x y := if value (x * y) = value x * value y then some (x * y) else none
  div x y :=
    if value y = 0 then none
    else if value (x / y) = (value x).tdiv (value y) then some (x / y) else none

/-- An arithmetic that has the machine's word wherever this is exact. -/
structure Faithful (a : Arithmetic ω) : Prop where
  add : ∀ {x y : ω}, value (x + y) = value x + value y → a.add x y = some (x + y)
  mul : ∀ {x y : ω}, value (x * y) = value x * value y → a.mul x y = some (x * y)
  div : ∀ {x y : ω}, value y ≠ 0 → value (x / y) = (value x).tdiv (value y) →
    a.div x y = some (x / y)

theorem machine_faithful : Faithful value (machine value) where
  add _ := rfl
  mul _ := rfl
  div nonzero _ := if_neg nonzero

theorem checked_faithful : Faithful value (checked value) where
  add fits := if_pos fits
  mul fits := if_pos fits
  div nonzero fits := (if_neg nonzero).trans (if_pos fits)

end Operations
end WordArithmetic
