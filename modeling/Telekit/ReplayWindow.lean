import Mathlib.Order.Basic
import Mathlib.Tactic.Common

/-! The sliding replay window of `peer/replay.go`. Sequence numbers and the bit
map are 64-bit words, so the shift and the masks are the machine operations.
The specification is a history: the list of sequence numbers accepted since
construction or the last reset. -/

namespace Telekit

structure ReplayWindow where
  highest : UInt64
  seen : UInt64
  deriving DecidableEq, Repr

namespace ReplayWindow

def empty : ReplayWindow := ⟨0, 0⟩

def accept (w : ReplayWindow) (sequence : UInt64) : Bool × ReplayWindow :=
  if sequence = 0 then (false, w)
  else if w.highest = 0 then (true, ⟨sequence, 1⟩)
  else if w.highest < sequence then
    let shift := sequence - w.highest
    let seen := if 64 ≤ shift then 0 else w.seen <<< shift
    (true, ⟨sequence, seen ||| 1⟩)
  else
    let delta := w.highest - sequence
    if 64 ≤ delta then (false, w)
    else
      let mask := (1 : UInt64) <<< delta
      if w.seen &&& mask ≠ 0 then (false, w)
      else (true, { w with seen := w.seen ||| mask })

def reset (_ : ReplayWindow) : ReplayWindow := empty

def bit (w : ReplayWindow) (i : Nat) : Bool := w.seen.toBitVec.getLsbD i

theorem bit_one (i : Nat) : (1 : UInt64).toBitVec.getLsbD i = decide (i = 0) := by
  have one : (1 : UInt64).toBitVec = 1#64 := rfl
  rw [one, BitVec.getLsbD_one]
  by_cases h : i = 0 <;> simp [h]

theorem bit_shift (x shift : UInt64) (small : shift.toNat < 64) (i : Nat) :
    (x <<< shift).toBitVec.getLsbD i =
      (decide (i < 64) && !decide (i < shift.toNat) && x.toBitVec.getLsbD (i - shift.toNat)) := by
  have amount : (shift.toBitVec % 64).toNat = shift.toNat := by
    simp [Nat.mod_eq_of_lt small]
  rw [UInt64.toBitVec_shiftLeft, BitVec.shiftLeft_eq', amount, BitVec.getLsbD_shiftLeft]

theorem bit_mask (delta : UInt64) (small : delta.toNat < 64) (i : Nat) :
    ((1 : UInt64) <<< delta).toBitVec.getLsbD i = decide (i = delta.toNat) := by
  rw [bit_shift 1 delta small, bit_one]
  by_cases h : i = delta.toNat
  · simp [h, small]
  · simp only [h, decide_false]
    by_cases low : i < delta.toNat
    · simp [low]
    · have nonzero : i - delta.toNat ≠ 0 := by omega
      simp [nonzero]

theorem and_mask_ne_zero (x delta : UInt64) (small : delta.toNat < 64) :
    x &&& ((1 : UInt64) <<< delta) ≠ 0 ↔ x.toBitVec.getLsbD delta.toNat = true := by
  constructor
  · intro nonzero
    by_contra unset
    apply nonzero
    apply UInt64.toBitVec_inj.mp
    apply BitVec.eq_of_getLsbD_eq
    intro i _
    rw [UInt64.toBitVec_and, BitVec.getLsbD_and, bit_mask delta small]
    by_cases h : i = delta.toNat
    · simp_all
    · simp [h]
  · intro set zero
    have bits : (x &&& ((1 : UInt64) <<< delta)).toBitVec.getLsbD delta.toNat = true := by
      rw [UInt64.toBitVec_and, BitVec.getLsbD_and, set, bit_mask delta small]
      simp
    rw [zero] at bits
    simp at bits

/-- The window represents the history of accepted sequence numbers. -/
structure Tracks (w : ReplayWindow) (history : List UInt64) : Prop where
  bound : ∀ s ∈ history, 0 < s.toNat ∧ s.toNat ≤ w.highest.toNat
  top : w.highest ≠ 0 → w.highest ∈ history
  bits : ∀ i < 64, w.bit i = true ↔ ∃ s ∈ history, s.toNat + i = w.highest.toNat

/-- What the window is for: a sequence number is accepted when it is non-zero,
new, and at most 63 behind everything accepted before. -/
def Fresh (history : List UInt64) (sequence : UInt64) : Prop :=
  sequence ≠ 0 ∧ sequence ∉ history ∧ ∀ t ∈ history, t.toNat < sequence.toNat + 64

theorem tracks_empty : Tracks empty [] := by
  refine ⟨by simp, fun h => absurd rfl h, ?_⟩
  intro i _
  simp [bit, empty]

variable {w : ReplayWindow} {history : List UInt64}

theorem Tracks.history_nil (tracks : Tracks w history) (zero : w.highest = 0) : history = [] := by
  cases history with
  | nil => rfl
  | cons s rest =>
    have bound := tracks.bound s (by simp)
    simp [zero] at bound
    omega

variable {s : UInt64}

theorem pos_of_ne_zero (h : s ≠ 0) : 0 < s.toNat := by
  rcases Nat.eq_zero_or_pos s.toNat with zero | pos
  · exact absurd (UInt64.toNat_inj.mp zero) h
  · exact pos

theorem accept_first (tracks : Tracks w history) (hs : s ≠ 0) (zero : w.highest = 0) :
    Fresh history s ∧ Tracks ⟨s, 1⟩ (s :: history) := by
  rw [tracks.history_nil zero]
  refine ⟨⟨hs, by simp, by simp⟩, ⟨?_, ?_, ?_⟩⟩
  · intro t ht
    obtain rfl : t = s := by simpa using ht
    exact ⟨pos_of_ne_zero hs, Nat.le_refl _⟩
  · simp
  · intro i _
    simp only [bit, bit_one, decide_eq_true_eq, List.mem_singleton, exists_eq_left]
    omega

theorem accept_ahead (tracks : Tracks w history) (hs : s ≠ 0) (ahead : w.highest < s) :
    Fresh history s ∧
      Tracks ⟨s, (if 64 ≤ s - w.highest then 0 else w.seen <<< (s - w.highest)) ||| 1⟩
        (s :: history) := by
  have less : w.highest.toNat < s.toNat := UInt64.lt_iff_toNat_lt.mp ahead
  have distance : (s - w.highest).toNat = s.toNat - w.highest.toNat :=
    UInt64.toNat_sub_of_le _ _ (UInt64.le_iff_toNat_le.mpr (Nat.le_of_lt less))
  refine ⟨⟨hs, ?_, ?_⟩, ⟨?_, ?_, ?_⟩⟩
  · intro old
    have bound := tracks.bound s old
    omega
  · intro t ht
    have bound := tracks.bound t ht
    omega
  · intro t ht
    rcases List.mem_cons.mp ht with rfl | old
    · exact ⟨pos_of_ne_zero hs, Nat.le_refl _⟩
    · have bound := tracks.bound t old
      exact ⟨bound.1, by simp only; omega⟩
  · simp
  · intro i small
    simp only [bit, UInt64.toBitVec_or, BitVec.getLsbD_or, bit_one, Bool.or_eq_true,
      decide_eq_true_eq, List.mem_cons, exists_eq_or_imp]
    have zero : s.toNat + i = s.toNat ↔ i = 0 := by omega
    rw [zero, or_comm]
    apply or_congr_right
    by_cases far : 64 ≤ s - w.highest
    · have jump : 64 ≤ s.toNat - w.highest.toNat := by
        simpa [distance] using UInt64.le_iff_toNat_le.mp far
      simp only [far, if_true]
      constructor
      · intro impossible
        simp at impossible
      · rintro ⟨t, old, place⟩
        have bound := tracks.bound t old
        omega
    · have jump : (s - w.highest).toNat < 64 := by
        have := UInt64.not_le.mp far
        simpa using UInt64.lt_iff_toNat_lt.mp this
      simp only [far, if_false]
      rw [bit_shift _ _ jump]
      simp only [small, decide_true, Bool.true_and, Bool.and_eq_true, Bool.not_eq_true',
        decide_eq_false_iff_not]
      constructor
      · rintro ⟨high, set⟩
        obtain ⟨t, old, place⟩ := (tracks.bits (i - (s - w.highest).toNat) (by omega)).mp set
        exact ⟨t, old, by omega⟩
      · rintro ⟨t, old, place⟩
        have bound := tracks.bound t old
        have high : ¬ i < (s - w.highest).toNat := by omega
        refine ⟨high, (tracks.bits (i - (s - w.highest).toNat) (by omega)).mpr ⟨t, old, ?_⟩⟩
        omega

theorem accept_behind (tracks : Tracks w history) (hs : s ≠ 0) (behind : ¬ w.highest < s)
    (close : ¬ 64 ≤ w.highest - s) :
    (w.bit (w.highest - s).toNat = false ↔ Fresh history s) ∧
      Tracks { w with seen := w.seen ||| (1 : UInt64) <<< (w.highest - s) } (s :: history) := by
  have less : s.toNat ≤ w.highest.toNat := UInt64.le_iff_toNat_le.mp (UInt64.not_lt.mp behind)
  have distance : (w.highest - s).toNat = w.highest.toNat - s.toNat :=
    UInt64.toNat_sub_of_le _ _ (UInt64.le_iff_toNat_le.mpr less)
  have near : (w.highest - s).toNat < 64 := by
    simpa using UInt64.lt_iff_toNat_lt.mp (UInt64.not_le.mp close)
  have recorded : w.bit (w.highest - s).toNat = true ↔ s ∈ history := by
    rw [tracks.bits _ near]
    constructor
    · rintro ⟨t, old, place⟩
      have same : t = s := UInt64.toNat_inj.mp (by omega)
      exact same ▸ old
    · intro old
      exact ⟨s, old, by omega⟩
  refine ⟨?_, ⟨?_, ?_, ?_⟩⟩
  · rw [← Bool.not_eq_true, recorded]
    refine ⟨fun new => ⟨hs, new, ?_⟩, fun fresh => fresh.2.1⟩
    intro t old
    have bound := tracks.bound t old
    omega
  · intro t ht
    rcases List.mem_cons.mp ht with rfl | old
    · exact ⟨pos_of_ne_zero hs, less⟩
    · exact tracks.bound t old
  · intro nonzero
    exact List.mem_cons_of_mem _ (tracks.top nonzero)
  · intro i small
    simp only [bit, UInt64.toBitVec_or, BitVec.getLsbD_or, bit_mask _ near, Bool.or_eq_true,
      decide_eq_true_eq, List.mem_cons, exists_eq_or_imp]
    have place : i = (w.highest - s).toNat ↔ s.toNat + i = w.highest.toNat := by omega
    rw [place, or_comm]
    exact or_congr_right (tracks.bits i small)

theorem accept_spec (tracks : Tracks w history) (s : UInt64) :
    ((w.accept s).1 = true ↔ Fresh history s) ∧
      Tracks (w.accept s).2 (if (w.accept s).1 then s :: history else history) := by
  by_cases zero : s = 0
  · simp only [accept, zero, if_true]
    exact ⟨⟨fun h => by simp at h, fun fresh => absurd rfl fresh.1⟩, by simpa using tracks⟩
  by_cases start : w.highest = 0
  · simp only [accept, zero, start, if_true, if_false]
    have first := accept_first tracks zero start
    exact ⟨iff_of_true trivial first.1, first.2⟩
  by_cases ahead : w.highest < s
  · simp only [accept, zero, start, ahead, if_true, if_false]
    have new := accept_ahead tracks zero ahead
    exact ⟨iff_of_true trivial new.1, new.2⟩
  by_cases far : 64 ≤ w.highest - s
  · simp only [accept, zero, start, ahead, far, if_true, if_false]
    refine ⟨⟨fun h => by simp at h, fun fresh => ?_⟩, by simpa using tracks⟩
    have less := UInt64.le_iff_toNat_le.mp (UInt64.not_lt.mp ahead)
    have distance := UInt64.le_iff_toNat_le.mp far
    rw [UInt64.toNat_sub_of_le _ _ (UInt64.not_lt.mp ahead)] at distance
    have recent := fresh.2.2 w.highest (tracks.top start)
    simp at distance
    omega
  · have old := accept_behind tracks zero ahead far
    have near : (w.highest - s).toNat < 64 := by
      simpa using UInt64.lt_iff_toNat_lt.mp (UInt64.not_le.mp far)
    simp only [accept, zero, start, ahead, far, if_false]
    by_cases set : w.seen &&& (1 : UInt64) <<< (w.highest - s) ≠ 0
    · have recorded := (and_mask_ne_zero _ _ near).mp set
      have replay : ¬ Fresh history s := fun fresh =>
        Bool.false_ne_true ((old.1.mpr fresh).symm.trans recorded)
      rw [if_pos set]
      exact ⟨iff_of_false Bool.false_ne_true replay, by simpa using tracks⟩
    · have unset : w.bit (w.highest - s).toNat = false := by
        rw [← Bool.not_eq_true, bit, ← and_mask_ne_zero _ _ near]
        exact set
      rw [if_neg set]
      exact ⟨iff_of_true rfl (old.1.mp unset), old.2⟩

theorem accept_true (tracks : Tracks w history) (ok : (w.accept s).1 = true) :
    Fresh history s ∧ Tracks (w.accept s).2 (s :: history) := by
  obtain ⟨answer, next⟩ := accept_spec tracks s
  exact ⟨answer.mp ok, by simpa [ok] using next⟩

theorem accept_false (refused : (w.accept s).1 = false) : (w.accept s).2 = w := by
  revert refused
  simp only [accept]
  split_ifs <;> simp

/-- The methods of a window. Each holds the mutex throughout, so the calls of any number
of handlers come one after the other. -/
inductive Call
  | accept (sequence : UInt64)
  | reset

def call : ReplayWindow × List UInt64 → Call → ReplayWindow × List UInt64
  | (w, accepted), .accept s =>
    ((w.accept s).2, if (w.accept s).1 then s :: accepted else accepted)
  | (w, _), .reset => (w.reset, [])

def calls (made : List Call) : ReplayWindow × List UInt64 := made.foldl call (empty, [])

theorem call_tracks {state : ReplayWindow × List UInt64} (tracks : Tracks state.1 state.2)
    (c : Call) : Tracks (call state c).1 (call state c).2 := by
  cases c with
  | accept s => exact (accept_spec tracks s).2
  | reset => exact tracks_empty

theorem calls_track (made : List Call) : Tracks (calls made).1 (calls made).2 := by
  suffices run : ∀ state : ReplayWindow × List UInt64, Tracks state.1 state.2 →
      Tracks (made.foldl call state).1 (made.foldl call state).2 from run _ tracks_empty
  induction made with
  | nil => intro state tracks; exact tracks
  | cons c made ih => intro state tracks; exact ih _ (call_tracks tracks c)

/-- The difference is that of the machine: below zero it wraps to a number above
`highest`, which is not in the history. -/
theorem Tracks.bit_iff (tracks : Tracks w history) {i : UInt64} (small : i < 64) :
    w.bit i.toNat = true ↔ w.highest - i ∈ history := by
  have inside : i.toNat < 64 := by simpa using UInt64.lt_iff_toNat_lt.mp small
  rw [tracks.bits _ inside]
  by_cases wraps : w.highest < i
  · have less := UInt64.lt_iff_toNat_lt.mp wraps
    have distance : (w.highest - i).toNat = 2 ^ 64 - i.toNat + w.highest.toNat := by
      rw [UInt64.toNat_sub]
      exact Nat.mod_eq_of_lt (by omega)
    constructor
    · rintro ⟨t, _, place⟩
      omega
    · intro old
      have bound := tracks.bound _ old
      omega
  · have distance := UInt64.toNat_sub_of_le _ _ (UInt64.not_lt.mp wraps)
    have less := UInt64.le_iff_toNat_le.mp (UInt64.not_lt.mp wraps)
    constructor
    · rintro ⟨t, old, place⟩
      have same : w.highest - i = t := UInt64.toNat_inj.mp (by omega)
      exact same ▸ old
    · intro old
      exact ⟨w.highest - i, old, by omega⟩

/-- After any calls, `Accept` answers true exactly for a number that is not zero, was not
accepted before and is less than 64 behind each accepted number; bit `i` of the map says
whether `highest - i` was accepted. -/
theorem accept_exact (made : List Call) :
    let w := (calls made).1
    let accepted := (calls made).2
    (∀ s : UInt64, (w.accept s).1 = true ↔
      s ≠ 0 ∧ s ∉ accepted ∧ ¬ ∃ t ∈ accepted, s.toNat + 64 ≤ t.toNat) ∧
      ∀ i : UInt64, i < 64 → (w.bit i.toNat = true ↔ w.highest - i ∈ accepted) := by
  intro w accepted
  have tracks : Tracks w accepted := calls_track made
  refine ⟨fun s => ?_, fun i small => tracks.bit_iff small⟩
  rw [(accept_spec tracks s).1, Fresh]
  simp only [not_exists, not_and, Nat.not_le]

end ReplayWindow
end Telekit
