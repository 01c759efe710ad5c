import Telekit.Library.WordArithmetic
import Telekit.Primitives

/-! The reconnect delays of the NATS adapter: `WithReconnectBackoff` of
`signaling/nats/new.go`. Durations and attempt numbers are 64-bit words. The loop takes
its operations from an arithmetic, and it has no result where one of them has none or
where it is not over within the iterations it is given. -/

namespace Telekit.Nats

open WordArithmetic

structure Options where
  customReconnectDelayCB : Option (Int64 → Option Int64) := none

section Code
variable (arithmetic : Arithmetic Int64)

def reconnectLoop (maxDelay attempt : Int64) : Nat → Int64 → Int64 → Option Int64
  | 0, _, _ => none
  | iterations + 1, i, delay =>
    if i < attempt ∧ delay < maxDelay then do
      let half ← arithmetic.div maxDelay 2
      if delay > half then some maxDelay
      else
        let delay ← arithmetic.mul delay 2
        let i ← arithmetic.add i 1
        reconnectLoop maxDelay attempt iterations i delay
    else if delay > maxDelay then some maxDelay
    else some delay

def withReconnectBackoff (iterations : Nat) (minDelay maxDelay : Int64) (options : Options) :
    Except Failure Options :=
  if minDelay ≤ 0 ∨ maxDelay ≤ 0 ∨ maxDelay < minDelay then
    fail "NATS reconnect backoff must be positive and max >= min"
  else .ok { options with
    customReconnectDelayCB := some fun attempt =>
      reconnectLoop arithmetic maxDelay attempt iterations 1 minDelay }

end Code

/-- The delay of an attempt in unbounded integers; `toNat` is zero below zero. -/
def backoff (minDelay maxDelay attempt : Int) : Int :=
  min maxDelay (minDelay * 2 ^ (attempt - 1).toNat)

theorem toInt_double {delay : Int64} (nonneg : 0 ≤ delay.toInt) (small : 2 * delay.toInt < 2 ^ 63) :
    (delay * 2).toInt = delay.toInt * 2 := by
  have two : (2 : Int64).toInt = 2 := rfl
  rw [Int64.toInt_mul, two]
  exact Int.bmod_eq_of_le (by omega) (by omega)

theorem toInt_next {i : Int64} (nonneg : 0 ≤ i.toInt) (small : i.toInt + 1 < 2 ^ 63) :
    (i + 1).toInt = i.toInt + 1 := by
  have one : (1 : Int64).toInt = 1 := rfl
  rw [Int64.toInt_add, one]
  exact Int.bmod_eq_of_le (by omega) (by omega)

theorem toInt_half {delay : Int64} (nonneg : 0 ≤ delay.toInt) :
    (delay / 2).toInt = delay.toInt / 2 := by
  have two : (2 : Int64).toInt = 2 := rfl
  have bound := delay.toInt_lt
  rw [Int64.toInt_div, two, Int.tdiv_eq_ediv_of_nonneg nonneg]
  exact Int.bmod_eq_of_le (by omega) (by omega)

theorem toInt_bounded {delay : Int} {maxDelay : Int64} (nonneg : 0 ≤ delay)
    (bounded : delay ≤ maxDelay.toInt) : (Int64.ofInt delay).toInt = delay := by
  have bound := maxDelay.toInt_lt
  exact Int64.toInt_ofInt_of_le (by omega) (by omega)

theorem le_mul_two_pow {delay : Int} (nonneg : 0 ≤ delay) (k : Nat) : delay ≤ delay * 2 ^ k := by
  have one : (1 : Int) ≤ 2 ^ k := Int.pow_pos (by decide)
  calc delay = delay * 1 := (Int.mul_one delay).symm
    _ ≤ delay * 2 ^ k := Int.mul_le_mul_of_nonneg_left one nonneg

section Loop
variable {arithmetic : Arithmetic Int64} (faithful : Faithful Int64.toInt arithmetic)

include faithful in
/-- The delay is at most the limit at the head of the loop and doubles in every
iteration, so enough iterations are those that would double it past the limit. -/
theorem reconnectLoop_eq {maxDelay attempt : Int64} (iterations : Nat) {i delay : Int64}
    (counts : 0 ≤ i.toInt) (positive : 0 < delay.toInt) (bounded : delay.toInt ≤ maxDelay.toInt)
    (enough : maxDelay.toInt < delay.toInt * 2 ^ iterations) :
    reconnectLoop arithmetic maxDelay attempt iterations i delay =
      some (Int64.ofInt
        (min maxDelay.toInt (delay.toInt * 2 ^ (attempt.toInt - i.toInt).toNat))) := by
  induction iterations generalizing i delay with
  | zero => omega
  | succ iterations ih =>
    have limit := maxDelay.toInt_lt
    simp only [reconnectLoop, Int64.lt_iff_toInt_lt, gt_iff_lt]
    by_cases more : i.toInt < attempt.toInt ∧ delay.toInt < maxDelay.toInt
    · have last := attempt.toInt_lt
      have remaining : (attempt.toInt - i.toInt).toNat =
          (attempt.toInt - (i.toInt + 1)).toNat + 1 := by omega
      have half := toInt_half (by omega : 0 ≤ maxDelay.toInt)
      have halves : arithmetic.div maxDelay 2 = some (maxDelay / 2) := by
        apply faithful.div (by decide)
        rw [half]
        exact (Int.tdiv_eq_ediv_of_nonneg (by omega)).symm
      simp only [if_pos more, halves, Option.bind_eq_bind, Option.bind_some, half]
      rw [remaining, Int.pow_succ', ← Int.mul_assoc]
      by_cases past : maxDelay.toInt / 2 < delay.toInt
      · have grown := le_mul_two_pow (by omega : 0 ≤ delay.toInt * 2)
          (attempt.toInt - (i.toInt + 1)).toNat
        rw [if_pos past, Int.min_eq_left (by omega), Int64.ofInt_toInt]
      · have doubled := toInt_double (Int.le_of_lt positive) (by omega)
        have next := toInt_next counts (by omega)
        have doubles : arithmetic.mul delay 2 = some (delay * 2) := faithful.mul doubled
        have advances : arithmetic.add i 1 = some (i + 1) := faithful.add next
        rw [Int.pow_succ', ← Int.mul_assoc, ← doubled] at enough
        simp only [if_neg past, doubles, advances, Option.bind_some]
        rw [ih (by omega) (by omega) (by omega) enough, doubled, next]
    · simp only [if_neg more, if_neg (Int.not_lt.mpr bounded)]
      by_cases reached : delay.toInt = maxDelay.toInt
      · have grown := le_mul_two_pow (Int.le_of_lt positive) (attempt.toInt - i.toInt).toNat
        rw [Int.min_eq_left (by omega), ← reached, Int64.ofInt_toInt]
      · have ended : (attempt.toInt - i.toInt).toNat = 0 := by omega
        rw [ended, Int.pow_zero, Int.mul_one, Int.min_eq_right bounded, Int64.ofInt_toInt]

include faithful in
theorem withReconnectBackoff_ok {minDelay maxDelay : Int64} (positive : 0 < minDelay.toInt)
    (ordered : minDelay.toInt ≤ maxDelay.toInt) {iterations : Nat} (enough : 63 ≤ iterations)
    (options : Options) :
    withReconnectBackoff arithmetic iterations minDelay maxDelay options = .ok { options with
      customReconnectDelayCB := some fun attempt =>
        some (Int64.ofInt (backoff minDelay.toInt maxDelay.toInt attempt.toInt)) } := by
  have zero : (0 : Int64).toInt = 0 := rfl
  have one : (1 : Int64).toInt = 1 := rfl
  have limit := maxDelay.toInt_lt
  have valid : ¬ (minDelay ≤ 0 ∨ maxDelay ≤ 0 ∨ maxDelay < minDelay) := by
    simp only [Int64.le_iff_toInt_le, Int64.lt_iff_toInt_lt]
    omega
  have passes : maxDelay.toInt < minDelay.toInt * 2 ^ iterations := by
    obtain ⟨more, rfl⟩ := Nat.exists_eq_add_of_le enough
    have grown := le_mul_two_pow (by omega : 0 ≤ minDelay.toInt * 2 ^ 63) more
    rw [Int.pow_add, ← Int.mul_assoc]
    omega
  simp only [withReconnectBackoff, if_neg valid, backoff]
  congr 3
  funext attempt
  rw [reconnectLoop_eq faithful iterations (by omega) positive ordered passes, one]

end Loop

theorem backoff_bounds {minDelay maxDelay : Int} (positive : 0 < minDelay)
    (ordered : minDelay ≤ maxDelay) (attempt : Int) :
    minDelay ≤ backoff minDelay maxDelay attempt ∧
      backoff minDelay maxDelay attempt ≤ maxDelay := by
  have grown := le_mul_two_pow (Int.le_of_lt positive) (attempt - 1).toNat
  unfold backoff
  omega

theorem backoff_mono {minDelay : Int} (positive : 0 < minDelay) (maxDelay : Int)
    {attempt later : Int} (after : attempt ≤ later) :
    backoff minDelay maxDelay attempt ≤ backoff minDelay maxDelay later := by
  obtain ⟨more, later_eq⟩ : ∃ more, (later - 1).toNat = (attempt - 1).toNat + more :=
    Nat.exists_eq_add_of_le (by omega)
  have nonneg : 0 ≤ minDelay * 2 ^ (attempt - 1).toNat :=
    Int.mul_nonneg (Int.le_of_lt positive) (Int.le_of_lt (Int.pow_pos (by decide)))
  have grown := le_mul_two_pow nonneg more
  unfold backoff
  rw [later_eq, Int.pow_add, ← Int.mul_assoc]
  omega

/-- The installed function returns for every attempt, on the operations of the machine
and on the exact ones alike, and 63 iterations are enough; what it returns is the delay
in unbounded integers. -/
theorem reconnect_delay_exact (minDelay maxDelay : Int64) (positive : 0 < minDelay)
    (ordered : minDelay ≤ maxDelay) (options : Options) :
    ∃ delay : Int64 → Int64,
      (∀ arithmetic ∈ [machine Int64.toInt, checked Int64.toInt], ∀ iterations ≥ 63,
        withReconnectBackoff arithmetic iterations minDelay maxDelay options = .ok { options with
          customReconnectDelayCB := some fun attempt => some (delay attempt) }) ∧
      (∀ attempt : Int64, (delay attempt).toInt =
        min maxDelay.toInt (minDelay.toInt * 2 ^ (attempt.toInt - 1).toNat)) ∧
      (∀ attempt : Int64, minDelay ≤ delay attempt ∧ delay attempt ≤ maxDelay) ∧
      ∀ attempt later : Int64, attempt ≤ later → delay attempt ≤ delay later := by
  have above : 0 < minDelay.toInt := Int64.lt_iff_toInt_lt.mp positive
  have below : minDelay.toInt ≤ maxDelay.toInt := Int64.le_iff_toInt_le.mp ordered
  have bounds := backoff_bounds above below
  have denotes : ∀ attempt : Int64,
      (Int64.ofInt (backoff minDelay.toInt maxDelay.toInt attempt.toInt)).toInt =
        backoff minDelay.toInt maxDelay.toInt attempt.toInt := by
    intro attempt
    have bound := bounds attempt.toInt
    exact toInt_bounded (by omega) bound.2
  refine ⟨fun attempt => Int64.ofInt (backoff minDelay.toInt maxDelay.toInt attempt.toInt),
    ?_, denotes, fun attempt => ?_, fun attempt later after => ?_⟩
  · intro arithmetic member iterations enough
    have faithful : Faithful Int64.toInt arithmetic := by
      simp only [List.mem_cons, List.not_mem_nil, or_false] at member
      rcases member with rfl | rfl
      · exact machine_faithful _
      · exact checked_faithful _
    exact withReconnectBackoff_ok faithful above below enough options
  · simp only [Int64.le_iff_toInt_le, denotes]
    exact bounds attempt.toInt
  · simp only [Int64.le_iff_toInt_le, denotes]
    exact backoff_mono above _ (Int64.le_iff_toInt_le.mp after)

theorem reconnect_delay_to_the_limit :
    (0 : Int64) < 10000000 ∧ (10000000 : Int64) ≤ 9223372036854775807 ∧
      ∃ delay : Int64 → Int64, withReconnectBackoff (machine Int64.toInt) 63 10000000
        9223372036854775807 {} = .ok {
          customReconnectDelayCB := some fun attempt => some (delay attempt) } ∧
        (delay 40).toInt = 10000000 * 2 ^ 39 ∧ (delay 41).toInt = 9223372036854775807 := by
  refine ⟨by decide, by decide, ?_⟩
  obtain ⟨delay, installed, value, _⟩ :=
    reconnect_delay_exact 10000000 9223372036854775807 (by decide) (by decide) {}
  refine ⟨delay, installed _ (by simp) 63 (Nat.le_refl _), ?_, ?_⟩
  · rw [value]
    decide
  · rw [value]
    decide

end Telekit.Nats
