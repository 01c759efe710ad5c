import Telekit.Library.WordArithmetic
import Telekit.Primitives

/-! The settings of the KCP transport: `transports/transport_kcp/settings.go`. The
integers of a `Transport` are 64-bit words and so is every product; an `int` that
cannot be negative is a natural number. The computation is written a second time over
any arithmetic, with a result only where each of its operations has one: on the exact
operations it is the proof that no divisor is zero and no word overflows. -/

namespace Telekit.Kcp

open WordArithmetic

def defaultMTU : Nat := 1200
def defaultTTI : Nat := 50
def defaultUplinkCapacity : UInt32 := 5
def defaultDownlinkCapacity : UInt32 := 30
def defaultCwndMultiplier : UInt32 := 20
def defaultMaxSendingWindow : Nat := 2 * 2 ^ 20

def minKCPMTU : Int := 50
def maxKCPMTU : Int := 1500
def minKCPInterval : Int := 10
def maxKCPInterval : Int := 1000
def minControlWindow : Nat := 16

structure Transport where
  mtu : Int64
  tti : Int64
  uplinkCapacity : UInt32
  downlinkCapacity : UInt32
  cwndMultiplier : UInt32
  maxSendingWindow : Int64

structure Settings where
  mtu : Nat
  tti : Nat
  sendWindow : Nat
  initialSendWindow : Nat
  receiveWindow : Nat
  deriving DecidableEq

def clampKCPWindow (size : UInt64) : Nat :=
  let maxInt : UInt64 := 0x7fffffffffffffff
  let maxWindow : UInt64 := if 0xffffffff > maxInt then maxInt else 0xffffffff
  if size = 0 then 1 else if size > maxWindow then maxWindow.toNat else size.toNat

def xrayInFlightWindow (capacity : UInt32) (mtu tti : Nat) : Nat :=
  let intervalsPerSecond := 1000 / tti
  let size := capacity.toUInt64 * 1024 * 1024
  let size := size / UInt64.ofNat mtu
  let size := size / UInt64.ofNat intervalsPerSecond
  clampKCPWindow (if size < 8 then 8 else size)

def orDefault (value standard : UInt32) : UInt32 := if value = 0 then standard else value

def within (low high : Int) (value : Int64) (standard : Nat) : Nat :=
  if value.toInt < low ∨ value.toInt > high then standard else value.toInt.toNat

def Transport.effectiveMTU (t : Transport) : Nat := within minKCPMTU maxKCPMTU t.mtu defaultMTU

def Transport.effectiveTTI (t : Transport) : Nat :=
  within minKCPInterval maxKCPInterval t.tti defaultTTI

def Transport.effectiveMaxSendingWindow (t : Transport) : Nat :=
  if t.maxSendingWindow.toInt ≤ 0 then defaultMaxSendingWindow else t.maxSendingWindow.toInt.toNat

def Transport.sendInFlight (t : Transport) : Nat :=
  xrayInFlightWindow (orDefault t.uplinkCapacity defaultUplinkCapacity) t.effectiveMTU
    t.effectiveTTI

def Transport.receiveInFlight (t : Transport) : Nat :=
  xrayInFlightWindow (orDefault t.downlinkCapacity defaultDownlinkCapacity) t.effectiveMTU
    t.effectiveTTI

def Transport.boundedWindow (t : Transport) : UInt64 :=
  let sendBuffer := UInt64.ofNat (t.effectiveMaxSendingWindow / t.effectiveMTU)
  let sendBuffer := if sendBuffer = 0 then 1 else sendBuffer
  let sendWindow := UInt64.ofNat t.sendInFlight *
    (orDefault t.cwndMultiplier defaultCwndMultiplier).toUInt64
  if sendWindow > sendBuffer then sendBuffer else sendWindow

def xrayKCPSettings (t : Transport) : Settings :=
  let sendWindow := UInt64.ofNat (clampKCPWindow t.boundedWindow)
  let initialSendWindow := if sendWindow > 128 then 128 else sendWindow
  { mtu := t.effectiveMTU
    tti := t.effectiveTTI
    sendWindow := sendWindow.toNat
    initialSendWindow := clampKCPWindow initialSendWindow
    receiveWindow := clampKCPWindow (UInt64.ofNat t.receiveInFlight) }

theorem clampKCPWindow_eq (size : UInt64) :
    clampKCPWindow size = max 1 (min size.toNat (2 ^ 32 - 1)) := by
  unfold clampKCPWindow
  have small : ¬ ((0xffffffff : UInt64) > 0x7fffffffffffffff) := by decide
  simp only [if_neg small]
  split_ifs with zero large
  · simp [zero]
  · rw [gt_iff_lt, UInt64.lt_iff_toNat_lt] at large
    have limit : (0xffffffff : UInt64).toNat = 2 ^ 32 - 1 := rfl
    omega
  · rw [gt_iff_lt, UInt64.lt_iff_toNat_lt] at large
    have limit : (0xffffffff : UInt64).toNat = 2 ^ 32 - 1 := rfl
    have filled : size.toNat ≠ 0 := fun empty => zero (UInt64.toNat_inj.mp empty)
    omega

theorem clampKCPWindow_bounds (size : UInt64) :
    1 ≤ clampKCPWindow size ∧ clampKCPWindow size ≤ 2 ^ 32 - 1 := by
  rw [clampKCPWindow_eq]
  omega

theorem toNat_clampKCPWindow (size : UInt64) :
    (UInt64.ofNat (clampKCPWindow size)).toNat = clampKCPWindow size := by
  have bounds := clampKCPWindow_bounds size
  rw [UInt64.toNat_ofNat']
  exact Nat.mod_eq_of_lt (by omega)

theorem within_bounds {low high : Int} {standard : Nat} (low_pos : 0 ≤ low)
    (inside : low ≤ standard ∧ (standard : Int) ≤ high) (value : Int64) :
    low ≤ within low high value standard ∧ (within low high value standard : Int) ≤ high := by
  unfold within
  split_ifs with outside
  · exact inside
  · omega

theorem effectiveMTU_bounds (t : Transport) : 50 ≤ t.effectiveMTU ∧ t.effectiveMTU ≤ 1500 := by
  have bounds := within_bounds (by decide : 0 ≤ minKCPMTU)
    (by decide : minKCPMTU ≤ defaultMTU ∧ (defaultMTU : Int) ≤ maxKCPMTU) t.mtu
  simp only [minKCPMTU, maxKCPMTU] at bounds
  exact ⟨by exact_mod_cast bounds.1, by exact_mod_cast bounds.2⟩

theorem effectiveTTI_bounds (t : Transport) : 10 ≤ t.effectiveTTI ∧ t.effectiveTTI ≤ 1000 := by
  have bounds := within_bounds (by decide : 0 ≤ minKCPInterval)
    (by decide : minKCPInterval ≤ defaultTTI ∧ (defaultTTI : Int) ≤ maxKCPInterval) t.tti
  simp only [minKCPInterval, maxKCPInterval] at bounds
  exact ⟨by exact_mod_cast bounds.1, by exact_mod_cast bounds.2⟩

theorem xrayKCPSettings_windows (t : Transport) :
    1 ≤ (xrayKCPSettings t).sendWindow ∧ (xrayKCPSettings t).sendWindow ≤ 2 ^ 32 - 1 ∧
      (xrayKCPSettings t).initialSendWindow = min 128 (xrayKCPSettings t).sendWindow := by
  have bounds := clampKCPWindow_bounds t.boundedWindow
  have word := toNat_clampKCPWindow t.boundedWindow
  simp only [xrayKCPSettings]
  generalize UInt64.ofNat (clampKCPWindow t.boundedWindow) = sendWindow at word
  refine ⟨by omega, by omega, ?_⟩
  rw [clampKCPWindow_eq]
  split_ifs with large
  · rw [gt_iff_lt, UInt64.lt_iff_toNat_lt] at large
    have limit : (128 : UInt64).toNat = 128 := rfl
    omega
  · rw [gt_iff_lt, UInt64.lt_iff_toNat_lt] at large
    have limit : (128 : UInt64).toNat = 128 := rfl
    omega

/-- The chunk that `Dial` and `Accept` give a connection: `settings.mtu - 24`. -/
def Settings.writeChunkSize (settings : Settings) : Int := settings.mtu - 24

section Arithmetic
variable (ints : Arithmetic Nat) (words : Arithmetic UInt64)

def xrayInFlightWindowOver (capacity : UInt32) (mtu tti : Nat) : Option Nat := do
  let intervalsPerSecond ← ints.div 1000 tti
  let size ← words.mul capacity.toUInt64 1024
  let size ← words.mul size 1024
  let size ← words.div size (UInt64.ofNat mtu)
  let size ← words.div size (UInt64.ofNat intervalsPerSecond)
  some (clampKCPWindow (if size < 8 then 8 else size))

/-- `xrayKCPSettings` with every division and product taken from the arithmetic. -/
def xrayKCPSettingsOver (t : Transport) : Option Settings := do
  let mtu := t.effectiveMTU
  let tti := t.effectiveTTI
  let sendInFlight ← xrayInFlightWindowOver ints words
    (orDefault t.uplinkCapacity defaultUplinkCapacity) mtu tti
  let receiveInFlight ← xrayInFlightWindowOver ints words
    (orDefault t.downlinkCapacity defaultDownlinkCapacity) mtu tti
  let sendBuffer ← ints.div t.effectiveMaxSendingWindow mtu
  let sendBuffer := if UInt64.ofNat sendBuffer = 0 then 1 else UInt64.ofNat sendBuffer
  let sendWindow ← words.mul (UInt64.ofNat sendInFlight)
    (orDefault t.cwndMultiplier defaultCwndMultiplier).toUInt64
  let sendWindow := if sendWindow > sendBuffer then sendBuffer else sendWindow
  let sendWindow := UInt64.ofNat (clampKCPWindow sendWindow)
  let initialSendWindow := if sendWindow > 128 then 128 else sendWindow
  some {
    mtu, tti, sendWindow := sendWindow.toNat
    initialSendWindow := clampKCPWindow initialSendWindow
    receiveWindow := clampKCPWindow (UInt64.ofNat receiveInFlight) }

end Arithmetic

def intValue (n : Nat) : Int := n

def wordValue (w : UInt64) : Int := w.toNat

theorem wordValue_mul {x y : UInt64} (small : x.toNat * y.toNat < 2 ^ 64) :
    wordValue (x * y) = wordValue x * wordValue y := by
  unfold wordValue
  rw [UInt64.toNat_mul, Nat.mod_eq_of_lt small, Int.natCast_mul]

structure Divisors (mtu tti : Nat) : Prop where
  mtu_pos : 0 < mtu
  mtu_le : mtu ≤ 1500
  tti_pos : 0 < tti
  tti_le : tti ≤ 1000

theorem effective_divisors (t : Transport) : Divisors t.effectiveMTU t.effectiveTTI := by
  have mtu := effectiveMTU_bounds t
  have tti := effectiveTTI_bounds t
  exact ⟨by omega, by omega, by omega, by omega⟩

theorem Divisors.intervals {mtu tti : Nat} (valid : Divisors mtu tti) :
    0 < 1000 / tti ∧ 1000 / tti ≤ 1000 :=
  ⟨Nat.div_pos valid.tti_le valid.tti_pos, Nat.div_le_self _ _⟩

theorem capacity_products (capacity : UInt32) :
    (capacity.toUInt64 * 1024).toNat = capacity.toNat * 2 ^ 10 ∧
      (capacity.toUInt64 * 1024 * 1024).toNat = capacity.toNat * 2 ^ 20 := by
  have small := capacity.toNat_lt
  have kibi : (1024 : UInt64).toNat = 2 ^ 10 := rfl
  have first : (capacity.toUInt64 * 1024).toNat = capacity.toNat * 2 ^ 10 := by
    rw [UInt64.toNat_mul, UInt32.toNat_toUInt64, kibi]
    exact Nat.mod_eq_of_lt (by omega)
  refine ⟨first, ?_⟩
  rw [UInt64.toNat_mul, first, kibi]
  rw [Nat.mod_eq_of_lt (by omega)]
  omega

theorem xrayInFlightWindow_eq {mtu tti : Nat} (valid : Divisors mtu tti) (capacity : UInt32) :
    xrayInFlightWindow capacity mtu tti =
      max 8 (min (capacity.toNat * 2 ^ 20 / mtu / (1000 / tti)) (2 ^ 32 - 1)) := by
  have size : (capacity.toUInt64 * 1024 * 1024 / UInt64.ofNat mtu /
      UInt64.ofNat (1000 / tti)).toNat = capacity.toNat * 2 ^ 20 / mtu / (1000 / tti) := by
    have mtu_le := valid.mtu_le
    have intervals := valid.intervals
    rw [UInt64.toNat_div, UInt64.toNat_div, (capacity_products capacity).2, UInt64.toNat_ofNat',
      UInt64.toNat_ofNat', Nat.mod_eq_of_lt (by omega), Nat.mod_eq_of_lt (by omega)]
  simp only [xrayInFlightWindow]
  generalize capacity.toUInt64 * 1024 * 1024 / UInt64.ofNat mtu / UInt64.ofNat (1000 / tti) = word
    at size
  have eight : (8 : UInt64).toNat = 8 := rfl
  rw [clampKCPWindow_eq, ← size]
  split_ifs with low
  · have less := UInt64.lt_iff_toNat_lt.mp low
    omega
  · have least := UInt64.le_iff_toNat_le.mp (UInt64.not_lt.mp low)
    omega

theorem xrayInFlightWindow_bounds {mtu tti : Nat} (valid : Divisors mtu tti) (capacity : UInt32) :
    8 ≤ xrayInFlightWindow capacity mtu tti ∧
      xrayInFlightWindow capacity mtu tti ≤ 2 ^ 32 - 1 := by
  rw [xrayInFlightWindow_eq valid]
  omega

theorem sendInFlight_bounds (t : Transport) : 8 ≤ t.sendInFlight ∧ t.sendInFlight ≤ 2 ^ 32 - 1 :=
  xrayInFlightWindow_bounds (effective_divisors t) _

theorem toNat_sendInFlight (t : Transport) :
    (UInt64.ofNat t.sendInFlight).toNat = t.sendInFlight := by
  have bounds := sendInFlight_bounds t
  rw [UInt64.toNat_ofNat', Nat.mod_eq_of_lt (by omega)]

theorem control_window_small (t : Transport) :
    (UInt64.ofNat t.sendInFlight).toNat *
      (orDefault t.cwndMultiplier defaultCwndMultiplier).toUInt64.toNat < 2 ^ 64 := by
  have inFlight := sendInFlight_bounds t
  have factor := (orDefault t.cwndMultiplier defaultCwndMultiplier).toNat_lt
  rw [toNat_sendInFlight, UInt32.toNat_toUInt64]
  calc t.sendInFlight * (orDefault t.cwndMultiplier defaultCwndMultiplier).toNat
      ≤ (2 ^ 32 - 1) * (2 ^ 32 - 1) := Nat.mul_le_mul inFlight.2 (by omega)
    _ < 2 ^ 64 := by decide

section Faithful
variable {ints : Arithmetic Nat} {words : Arithmetic UInt64} (whole : Faithful intValue ints)
  (word : Faithful wordValue words)

include whole in
theorem ints_div (x : Nat) {y : Nat} (positive : 0 < y) : ints.div x y = some (x / y) := by
  apply whole.div
  · unfold intValue
    omega
  · exact Int.natCast_div x y

include word in
theorem words_div (x : UInt64) {y : Nat} (positive : 0 < y) (small : y < 2 ^ 64) :
    words.div x (UInt64.ofNat y) = some (x / UInt64.ofNat y) := by
  have denotes : (UInt64.ofNat y).toNat = y := by
    rw [UInt64.toNat_ofNat', Nat.mod_eq_of_lt small]
  apply word.div
  · unfold wordValue
    omega
  · unfold wordValue
    rw [UInt64.toNat_div]
    exact Int.natCast_div _ _

include whole word in
theorem xrayInFlightWindowOver_eq {mtu tti : Nat} (valid : Divisors mtu tti) (capacity : UInt32) :
    xrayInFlightWindowOver ints words capacity mtu tti =
      some (xrayInFlightWindow capacity mtu tti) := by
  have products := capacity_products capacity
  have small := capacity.toNat_lt
  have kibi : (1024 : UInt64).toNat = 2 ^ 10 := rfl
  have mtu_le := valid.mtu_le
  have intervals := valid.intervals
  have first : words.mul capacity.toUInt64 1024 = some (capacity.toUInt64 * 1024) := by
    apply word.mul
    apply wordValue_mul
    rw [UInt32.toNat_toUInt64, kibi]
    omega
  have second : words.mul (capacity.toUInt64 * 1024) 1024 =
      some (capacity.toUInt64 * 1024 * 1024) := by
    apply word.mul
    apply wordValue_mul
    rw [products.1, kibi]
    omega
  simp only [xrayInFlightWindowOver, xrayInFlightWindow, Option.bind_eq_bind, Option.bind_some,
    ints_div whole _ valid.tti_pos, first, second,
    words_div word _ valid.mtu_pos (by omega : mtu < 2 ^ 64),
    words_div word _ intervals.1 (by omega : 1000 / tti < 2 ^ 64)]

include whole word in
theorem xrayKCPSettingsOver_eq (t : Transport) :
    xrayKCPSettingsOver ints words t = some (xrayKCPSettings t) := by
  have valid := effective_divisors t
  simp only [xrayKCPSettingsOver, xrayInFlightWindowOver_eq whole word valid,
    ints_div whole _ valid.mtu_pos, Option.bind_eq_bind, Option.bind_some]
  have product := word.mul (wordValue_mul (control_window_small t))
  unfold Transport.sendInFlight at product
  rw [product]
  rfl

end Faithful

theorem effectiveMaxSendingWindow_lt (t : Transport) : t.effectiveMaxSendingWindow < 2 ^ 63 := by
  have bound := t.maxSendingWindow.toInt_lt
  unfold Transport.effectiveMaxSendingWindow defaultMaxSendingWindow
  split_ifs <;> omega

theorem boundedWindow_eq (t : Transport) :
    t.boundedWindow.toNat =
      min (t.sendInFlight * (orDefault t.cwndMultiplier defaultCwndMultiplier).toNat)
        (max 1 (t.effectiveMaxSendingWindow / t.effectiveMTU)) := by
  have product := Nat.mod_eq_of_lt (control_window_small t)
  rw [← UInt64.toNat_mul, toNat_sendInFlight, UInt32.toNat_toUInt64] at product
  have buffer : (UInt64.ofNat (t.effectiveMaxSendingWindow / t.effectiveMTU)).toNat =
      t.effectiveMaxSendingWindow / t.effectiveMTU := by
    have less := effectiveMaxSendingWindow_lt t
    have quotient := Nat.div_le_self t.effectiveMaxSendingWindow t.effectiveMTU
    rw [UInt64.toNat_ofNat', Nat.mod_eq_of_lt (by omega)]
  simp only [Transport.boundedWindow, ← product]
  generalize UInt64.ofNat t.sendInFlight * _ = window
  generalize UInt64.ofNat (t.effectiveMaxSendingWindow / t.effectiveMTU) = segments at buffer
  rw [← buffer]
  have one : (1 : UInt64).toNat = 1 := rfl
  by_cases empty : segments = 0
  · have zero : segments.toNat = 0 := congrArg UInt64.toNat empty
    simp only [if_pos empty, gt_iff_lt, UInt64.lt_iff_toNat_lt]
    split_ifs <;> omega
  · have filled : segments.toNat ≠ 0 := fun none => empty (UInt64.toNat_inj.mp none)
    simp only [if_neg empty, gt_iff_lt, UInt64.lt_iff_toNat_lt]
    split_ifs <;> omega

theorem sendWindow_eq (t : Transport) :
    (xrayKCPSettings t).sendWindow = max 1 (min t.boundedWindow.toNat (2 ^ 32 - 1)) :=
  (toNat_clampKCPWindow _).trans (clampKCPWindow_eq _)

theorem receiveWindow_eq (t : Transport) :
    (xrayKCPSettings t).receiveWindow = t.receiveInFlight := by
  have bounds : 8 ≤ t.receiveInFlight ∧ t.receiveInFlight ≤ 2 ^ 32 - 1 :=
    xrayInFlightWindow_bounds (effective_divisors t) _
  simp only [xrayKCPSettings]
  rw [clampKCPWindow_eq, UInt64.toNat_ofNat', Nat.mod_eq_of_lt (by omega)]
  omega

theorem sendWindow_bytes (t : Transport) :
    (xrayKCPSettings t).sendWindow * t.effectiveMTU ≤
      max t.effectiveMaxSendingWindow t.effectiveMTU := by
  have window : (xrayKCPSettings t).sendWindow ≤
      max 1 (t.effectiveMaxSendingWindow / t.effectiveMTU) := by
    rw [sendWindow_eq, boundedWindow_eq]
    omega
  calc (xrayKCPSettings t).sendWindow * t.effectiveMTU
      ≤ max 1 (t.effectiveMaxSendingWindow / t.effectiveMTU) * t.effectiveMTU :=
        Nat.mul_le_mul_right _ window
    _ = max t.effectiveMTU (t.effectiveMaxSendingWindow / t.effectiveMTU * t.effectiveMTU) := by
        rw [← Nat.mul_max_mul_right, Nat.one_mul]
    _ ≤ max t.effectiveMaxSendingWindow t.effectiveMTU := by
        have quotient := Nat.div_mul_le_self t.effectiveMaxSendingWindow t.effectiveMTU
        omega

theorem xrayInFlightWindow_mono {mtu tti : Nat} (valid : Divisors mtu tti)
    {capacity capacity' : UInt32} (positive : 0 < capacity) (more : capacity ≤ capacity')
    (standard : UInt32) :
    xrayInFlightWindow (orDefault capacity standard) mtu tti ≤
      xrayInFlightWindow (orDefault capacity' standard) mtu tti := by
  have given : orDefault capacity standard = capacity := if_neg (by rintro rfl; cases positive)
  have given' : orDefault capacity' standard = capacity' := by
    apply if_neg
    rintro rfl
    exact absurd (UInt32.lt_of_lt_of_le positive more) (by decide)
  rw [given, given', xrayInFlightWindow_eq valid, xrayInFlightWindow_eq valid]
  have bytes : capacity.toNat * 2 ^ 20 / mtu / (1000 / tti) ≤
      capacity'.toNat * 2 ^ 20 / mtu / (1000 / tti) :=
    Nat.div_le_div_right (Nat.div_le_div_right
      (Nat.mul_le_mul_right _ (UInt32.le_iff_toNat_le.mp more)))
  omega

theorem sendWindow_mono {t t' : Transport}
    (inFlight : t.sendInFlight ≤ t'.sendInFlight)
    (multiplier : t.cwndMultiplier = t'.cwndMultiplier)
    (mtu : t.effectiveMTU = t'.effectiveMTU)
    (limit : t.effectiveMaxSendingWindow = t'.effectiveMaxSendingWindow) :
    (xrayKCPSettings t).sendWindow ≤ (xrayKCPSettings t').sendWindow := by
  rw [sendWindow_eq, sendWindow_eq, boundedWindow_eq, boundedWindow_eq, multiplier, mtu, limit]
  have control := Nat.mul_le_mul_right
    (orDefault t'.cwndMultiplier defaultCwndMultiplier).toNat inFlight
  omega

/-- The settings of any transport: the computation divides by no zero and overflows
nowhere, its results are within their bounds, and more capacity never gives smaller
windows. -/
theorem settings_arithmetic (t : Transport) :
    xrayKCPSettingsOver (checked intValue) (checked wordValue) t = some (xrayKCPSettings t) ∧
      (50 ≤ (xrayKCPSettings t).mtu ∧ (xrayKCPSettings t).mtu ≤ 1500) ∧
      (10 ≤ (xrayKCPSettings t).tti ∧ (xrayKCPSettings t).tti ≤ 1000) ∧
      (1 ≤ (xrayKCPSettings t).initialSendWindow ∧
        (xrayKCPSettings t).initialSendWindow ≤ min 128 (xrayKCPSettings t).sendWindow) ∧
      (xrayKCPSettings t).sendWindow ≤ 2 ^ 32 - 1 ∧
      (8 ≤ (xrayKCPSettings t).receiveWindow ∧
        (xrayKCPSettings t).receiveWindow ≤ 2 ^ 32 - 1) ∧
      (xrayKCPSettings t).sendWindow * (xrayKCPSettings t).mtu ≤
        max t.effectiveMaxSendingWindow (xrayKCPSettings t).mtu ∧
      0 < (xrayKCPSettings t).writeChunkSize ∧
      (∀ uplink uplink' downlink downlink' : UInt32, 0 < uplink → uplink ≤ uplink' →
        (xrayKCPSettings { t with
          uplinkCapacity := uplink, downlinkCapacity := downlink }).sendWindow ≤
        (xrayKCPSettings { t with
          uplinkCapacity := uplink', downlinkCapacity := downlink' }).sendWindow) ∧
      ∀ uplink uplink' downlink downlink' : UInt32, 0 < downlink → downlink ≤ downlink' →
        (xrayKCPSettings { t with
          uplinkCapacity := uplink, downlinkCapacity := downlink }).receiveWindow ≤
        (xrayKCPSettings { t with
          uplinkCapacity := uplink', downlinkCapacity := downlink' }).receiveWindow := by
  have windows := xrayKCPSettings_windows t
  have mtu := effectiveMTU_bounds t
  refine ⟨xrayKCPSettingsOver_eq (checked_faithful _) (checked_faithful _) t, mtu,
    effectiveTTI_bounds t, by omega, windows.2.1, ?_, sendWindow_bytes t, ?_, ?_, ?_⟩
  · rw [receiveWindow_eq]
    exact xrayInFlightWindow_bounds (effective_divisors t) _
  · have chunk : (xrayKCPSettings t).writeChunkSize = (t.effectiveMTU : Int) - 24 := rfl
    omega
  · intro uplink uplink' downlink downlink' positive more
    exact sendWindow_mono (xrayInFlightWindow_mono (effective_divisors t) positive more _) rfl rfl
      rfl
  · intro uplink uplink' downlink downlink' positive more
    rw [receiveWindow_eq, receiveWindow_eq]
    exact xrayInFlightWindow_mono (effective_divisors t) positive more _

end Telekit.Kcp
