import Mathlib.Algebra.Ring.Int.Defs
import Mathlib.Algebra.Ring.Nat

/-! The pacer of both senders: `transport_quic/congestion/common/pacer.go`, a token bucket
in bytes. Byte counts, durations in nanoseconds and times are integers. Products and the
sums they enter wrap around as 64-bit words, byte counts do not get that far. The
constants of the QUIC library are given, and so is the bandwidth a call finds.

The bucket never grants more than a burst and the rate times the time passed, and when
the time that `TimeUntilSend` names has come, there is budget for a datagram. -/

namespace Telekit.Quic

def int64 (n : Int) : Int := n.bmod (2 ^ 64)

def uint64 (n : Int) : Nat := (n % 2 ^ 64).toNat

theorem int64_eq {n : Int} (nonneg : 0 ≤ n) (fits : n < 2 ^ 63) : int64 n = n :=
  Int.bmod_eq_of_le (by omega) (by omega)

theorem int64_range (n : Int) : -2 ^ 63 ≤ int64 n ∧ int64 n < 2 ^ 63 := by
  have lower : -((2 ^ 64 : Nat) : Int) / 2 ≤ int64 n := Int.le_bmod (by decide)
  have upper : int64 n < (((2 ^ 64 : Nat) : Int) + 1) / 2 := Int.bmod_lt (by decide)
  omega

theorem uint64_eq {n : Int} (nonneg : 0 ≤ n) (fits : n < 2 ^ 64) : (uint64 n : Int) = n := by
  unfold uint64
  omega

structure QuicConstants where
  initialPacketSize : Int
  minPacingDelay : Int

def maxBurstPackets : Int := 10
def maxBurstPacingDelayMultiplier : Int := 4
def second : Int := 1000000000

structure Pacer where
  budgetAtLastSent : Int
  maxDatagramSize : Int
  lastSentTime : Int := 0

namespace Pacer

section Code
variable (quic : QuicConstants)

def new : Pacer :=
  { budgetAtLastSent := maxBurstPackets * quic.initialPacketSize
    maxDatagramSize := quic.initialPacketSize }

def maxBurstSize (p : Pacer) (bandwidth : Int) : Int :=
  max ((int64 (maxBurstPacingDelayMultiplier * quic.minPacingDelay * bandwidth)).tdiv second)
    (maxBurstPackets * p.maxDatagramSize)

def budget (p : Pacer) (bandwidth now : Int) : Int :=
  if p.lastSentTime = 0 then p.maxBurstSize quic bandwidth
  else
    let budget := int64 (p.budgetAtLastSent +
      (int64 (bandwidth * (now - p.lastSentTime))).tdiv second)
    let budget := if budget < 0 then 2 ^ 62 - 1 else budget
    min (p.maxBurstSize quic bandwidth) budget

def sentPacket (p : Pacer) (bandwidth sendTime size : Int) : Pacer :=
  let budget := p.budget quic bandwidth sendTime
  { p with
    budgetAtLastSent := if size > budget then 0 else budget - size
    lastSentTime := sendTime }

/-- The time of the next packet, zero for at once; a bandwidth of zero panics. -/
def timeUntilSend (p : Pacer) (bandwidth : Int) : Option Int :=
  if p.budgetAtLastSent ≥ p.maxDatagramSize then some 0
  else
    let diff := uint64 (second * uint64 (p.maxDatagramSize - p.budgetAtLastSent))
    let bw := uint64 bandwidth
    if bw = 0 then none
    else
      let d := diff / bw
      let d := if diff % bw > 0 then d + 1 else d
      some (p.lastSentTime + max quic.minPacingDelay (int64 d))

def setMaxDatagramSize (p : Pacer) (s : Int) : Pacer := { p with maxDatagramSize := s }

end Code

inductive Event
  | sent (bandwidth sendTime size : Int)
  | resized (size : Int)

def step (quic : QuicConstants) (p : Pacer) : Event → Pacer
  | .sent bandwidth sendTime size => p.sentPacket quic bandwidth sendTime size
  | .resized size => p.setMaxDatagramSize size

def run (quic : QuicConstants) (p : Pacer) (events : List Event) : Pacer :=
  events.foldl (step quic) p

def Event.Sized : Event → Prop
  | .sent _ _ size => 0 ≤ size
  | .resized size => 0 ≤ size ∧ size ≤ 2 ^ 32

/-- The range of a pacer's state, whatever overflows on the way to it. -/
structure Ranged (p : Pacer) : Prop where
  nonneg : 0 ≤ p.budgetAtLastSent
  bounded : p.budgetAtLastSent ≤ 2 ^ 36
  size : 0 ≤ p.maxDatagramSize
  small : p.maxDatagramSize ≤ 2 ^ 32

section Range
variable {quic : QuicConstants} {p : Pacer}

theorem tdiv_second (n : Int) : -(2 ^ 63 / second) ≤ (int64 n).tdiv second ∧
    (int64 n).tdiv second ≤ 2 ^ 63 / second := by
  have range := int64_range n
  unfold second
  rcases Int.le_total 0 (int64 n) with nonneg | negative
  · rw [Int.tdiv_eq_ediv_of_nonneg nonneg]
    omega
  · have opposite : (int64 n).tdiv 1000000000 = -(-int64 n / 1000000000) := by
      rw [← Int.tdiv_eq_ediv_of_nonneg (by omega), Int.neg_tdiv, Int.neg_neg]
    omega

theorem Ranged.burst (quic : QuicConstants) (ranged : p.Ranged) (bandwidth : Int) :
    p.maxDatagramSize ≤ p.maxBurstSize quic bandwidth ∧ 0 ≤ p.maxBurstSize quic bandwidth ∧
      p.maxBurstSize quic bandwidth ≤ 2 ^ 36 := by
  have size := ranged.size
  have small := ranged.small
  have delay := tdiv_second (maxBurstPacingDelayMultiplier * quic.minPacingDelay * bandwidth)
  unfold maxBurstSize
  generalize (int64 (maxBurstPacingDelayMultiplier * quic.minPacingDelay * bandwidth)).tdiv second =
    rate at delay
  unfold second at delay
  unfold maxBurstPackets
  omega

theorem Ranged.budget (quic : QuicConstants) (ranged : p.Ranged) (bandwidth now : Int) :
    0 ≤ p.budget quic bandwidth now ∧ p.budget quic bandwidth now ≤ 2 ^ 36 := by
  have burst := ranged.burst quic bandwidth
  unfold Pacer.budget
  split
  · exact burst.2
  · simp only
    split <;> omega

theorem Ranged.step (ranged : p.Ranged) {e : Event} (sized : e.Sized) : (p.step quic e).Ranged := by
  cases e with
  | sent bandwidth sendTime size =>
    have budget := ranged.budget quic bandwidth sendTime
    have size : 0 ≤ size := sized
    refine ⟨?_, ?_, ranged.size, ranged.small⟩ <;>
    · simp only [Pacer.step, sentPacket]
      split <;> omega
  | resized size => exact ⟨ranged.nonneg, ranged.bounded, sized.1, sized.2⟩

theorem run_ranged (ranged : p.Ranged) {events : List Event} (sized : ∀ e ∈ events, e.Sized) :
    (p.run quic events).Ranged := by
  induction events generalizing p with
  | nil => exact ranged
  | cons e events ih =>
    exact ih (ranged.step (sized e List.mem_cons_self))
      fun e member => sized e (List.mem_cons_of_mem _ member)

theorem new_ranged (nonneg : 0 ≤ quic.initialPacketSize) (small : quic.initialPacketSize ≤ 2 ^ 32) :
    (new quic).Ranged := by
  refine ⟨?_, ?_, nonneg, small⟩ <;>
  · simp only [new, maxBurstPackets]
    omega

theorem budget_eq {bandwidth now : Int} (started : p.lastSentTime ≠ 0)
    (nonneg : 0 ≤ p.budgetAtLastSent) (rate : 0 ≤ bandwidth * (now - p.lastSentTime))
    (fits : bandwidth * (now - p.lastSentTime) < 2 ^ 63)
    (bounded : p.budgetAtLastSent + bandwidth * (now - p.lastSentTime) / second < 2 ^ 63) :
    p.budget quic bandwidth now = min (p.maxBurstSize quic bandwidth)
      (p.budgetAtLastSent + bandwidth * (now - p.lastSentTime) / second) := by
  have earned : 0 ≤ bandwidth * (now - p.lastSentTime) / second :=
    Int.ediv_nonneg rate (by decide)
  rw [budget, if_neg started, int64_eq rate fits, Int.tdiv_eq_ediv_of_nonneg rate,
    int64_eq (by omega) bounded]
  simp only
  rw [if_neg (by omega)]

theorem ceil_mul (diff : Nat) {bw : Nat} (positive : 0 < bw) :
    diff ≤ bw * (if diff % bw > 0 then diff / bw + 1 else diff / bw) := by
  have parts := Nat.div_add_mod diff bw
  have below := Nat.mod_lt diff positive
  split
  · rw [Nat.mul_add, Nat.mul_one]
    omega
  · omega

theorem Ranged.granted (quic : QuicConstants) (ranged : p.Ranged) {bandwidth now : Int}
    (rate : 0 ≤ bandwidth * (now - p.lastSentTime))
    (fits : bandwidth * (now - p.lastSentTime) < 2 ^ 63)
    (earned : p.maxDatagramSize - p.budgetAtLastSent ≤
      bandwidth * (now - p.lastSentTime) / second) :
    p.maxDatagramSize ≤ p.budget quic bandwidth now := by
  have burst := ranged.burst quic bandwidth
  by_cases started : p.lastSentTime = 0
  · rw [Pacer.budget, if_pos started]
    exact burst.1
  · have bounded := ranged.bounded
    have most : bandwidth * (now - p.lastSentTime) / second ≤ 2 ^ 34 := by
      unfold second
      omega
    rw [budget_eq started ranged.nonneg rate fits (by omega)]
    omega

/-- What is missing for a datagram comes in within the time that `TimeUntilSend` adds. -/
theorem Ranged.timeUntilSend_missing (quic : QuicConstants) (ranged : p.Ranged) {bandwidth : Int}
    (positive : 0 < bandwidth) (word : bandwidth < 2 ^ 63)
    (missing : ¬ p.budgetAtLastSent ≥ p.maxDatagramSize) :
    ∃ d : Int, p.timeUntilSend quic bandwidth =
        some (p.lastSentTime + max quic.minPacingDelay d) ∧
      second * (p.maxDatagramSize - p.budgetAtLastSent) ≤ bandwidth * d := by
  have nonneg := ranged.nonneg
  have small := ranged.small
  have amount : (uint64 (p.maxDatagramSize - p.budgetAtLastSent) : Int) =
      p.maxDatagramSize - p.budgetAtLastSent := uint64_eq (by omega) (by omega)
  have diff : (uint64 (second * (uint64 (p.maxDatagramSize - p.budgetAtLastSent) : Int)) : Int) =
      second * (p.maxDatagramSize - p.budgetAtLastSent) := by
    rw [amount]
    unfold second
    exact uint64_eq (by omega) (by omega)
  have bw : (uint64 bandwidth : Int) = bandwidth := uint64_eq (by omega) (by omega)
  rw [timeUntilSend, if_neg missing]
  simp only
  generalize uint64 (second * (uint64 (p.maxDatagramSize - p.budgetAtLastSent) : Int)) = total
    at diff ⊢
  generalize uint64 bandwidth = rate at bw ⊢
  have some : 0 < rate := by omega
  rw [if_neg (by omega)]
  have rounded := ceil_mul total some
  generalize up : (if total % rate > 0 then total / rate + 1 else total / rate) = d at rounded ⊢
  have length : d ≤ total + 1 := by
    have quotient := Nat.div_le_self total rate
    split at up <;> omega
  have duration : int64 d = d := by
    unfold second at diff
    exact int64_eq (by omega) (by omega)
  rw [duration]
  refine ⟨d, rfl, ?_⟩
  rw [← diff, ← bw]
  exact_mod_cast rounded

end Range

/-- For every pacer that is reached and every bandwidth above zero: `TimeUntilSend` does
not divide by zero, and from the time it names on there is budget for a datagram, unless
the time passed at that rate overflows a word. -/
theorem budget_when_due (quic : QuicConstants) (events : List Event)
    (initial : 0 ≤ quic.initialPacketSize ∧ quic.initialPacketSize ≤ 2 ^ 32)
    (sized : ∀ e ∈ events, e.Sized) (bandwidth : Int) (positive : 0 < bandwidth)
    (word : bandwidth < 2 ^ 63) :
    let p := (new quic).run quic events
    ∃ due, p.timeUntilSend quic bandwidth = some due ∧
      ∀ now, due ≤ now → p.lastSentTime ≤ now → bandwidth * (now - p.lastSentTime) < 2 ^ 63 →
        p.maxDatagramSize ≤ p.budget quic bandwidth now := by
  intro p
  have ranged : p.Ranged := run_ranged (new_ranged initial.1 initial.2) sized
  have rate {now : Int} (later : p.lastSentTime ≤ now) : 0 ≤ bandwidth * (now - p.lastSentTime) :=
    Int.mul_nonneg (Int.le_of_lt positive) (Int.sub_nonneg_of_le later)
  by_cases ready : p.budgetAtLastSent ≥ p.maxDatagramSize
  · refine ⟨0, if_pos ready, fun now _ later fits => ranged.granted quic (rate later) fits ?_⟩
    have earned := Int.ediv_nonneg (rate later) (b := second) (by decide)
    omega
  · obtain ⟨d, named, enough⟩ := ranged.timeUntilSend_missing quic positive word ready
    refine ⟨_, named, fun now due later fits => ranged.granted quic (rate later) fits ?_⟩
    have waited : d ≤ now - p.lastSentTime := by omega
    rw [Int.le_ediv_iff_mul_le (by decide), Int.mul_comm]
    exact Int.le_trans enough (Int.mul_le_mul_of_nonneg_left waited (Int.le_of_lt positive))

namespace Sample

def quic : QuicConstants := ⟨1200, 1000000⟩

def spent : Pacer := (new quic).run quic [.sent 1000000 1 12000]

end Sample

theorem due_after_burst :
    ∃ due, Sample.spent.timeUntilSend Sample.quic 1000000 = some due ∧
      Sample.spent.maxDatagramSize ≤ Sample.spent.budget Sample.quic 1000000 1200001 := by
  obtain ⟨due, named, granted⟩ := budget_when_due Sample.quic [.sent 1000000 1 12000] (by decide)
    (by simp [Event.Sized]) 1000000 (by decide) (by decide)
  have time : Sample.spent.timeUntilSend Sample.quic 1000000 = some 1200001 := by decide
  have same : 1200001 = due := Option.some.inj (time.symm.trans named)
  exact ⟨_, time, granted _ (Int.le_of_eq same.symm) (by decide) (by decide)⟩

/-- The times do not go back, and every packet fits the budget of its time at a bandwidth
of at most `most`. -/
def Conforms (quic : QuicConstants) (most : Int) : Pacer → List Event → Prop
  | _, [] => True
  | p, .sent bandwidth sendTime size :: events =>
    p.lastSentTime ≤ sendTime ∧ 0 ≤ bandwidth ∧ bandwidth ≤ most ∧ 0 ≤ size ∧
      size ≤ p.budget quic bandwidth sendTime ∧
      Conforms quic most (p.sentPacket quic bandwidth sendTime size) events
  | p, .resized size :: events =>
    (0 ≤ size ∧ size ≤ 2 ^ 29) ∧ Conforms quic most (p.setMaxDatagramSize size) events

def sentBytes : List Event → Int
  | [] => 0
  | .sent _ _ size :: events => size + sentBytes events
  | .resized _ :: events => sentBytes events

section Bucket
variable {quic : QuicConstants} {most : Int}

theorem conforms_sized {p : Pacer} {events : List Event} (conforms : Conforms quic most p events) :
    ∀ e ∈ events, e.Sized := by
  induction events generalizing p with
  | nil => nofun
  | cons e events ih =>
    intro d member
    cases e with
    | sent bandwidth sendTime size =>
      rcases List.mem_cons.mp member with rfl | later
      · exact conforms.2.2.2.1
      · exact ih conforms.2.2.2.2.2 d later
    | resized size =>
      rcases List.mem_cons.mp member with rfl | later
      · exact ⟨conforms.1.1, Int.le_trans conforms.1.2 (by decide)⟩
      · exact ih conforms.2 d later

theorem budget_le_burst (quic : QuicConstants) (p : Pacer) (bandwidth now : Int) :
    p.budget quic bandwidth now ≤ p.maxBurstSize quic bandwidth := by
  unfold budget
  split
  · exact Int.le_refl _
  · exact Int.min_le_left _ _

theorem sentPacket_left {p : Pacer} {bandwidth sendTime size : Int}
    (within : size ≤ p.budget quic bandwidth sendTime) :
    (p.sentPacket quic bandwidth sendTime size).budgetAtLastSent =
      p.budget quic bandwidth sendTime - size := if_neg (Int.not_lt.mpr within)

/-- The budget is at most what was left and what has come in since. Where the product of
the code overflows, more has come in than the largest burst. -/
theorem Ranged.budget_le_earned (quic : QuicConstants) {p : Pacer} (ranged : p.Ranged)
    (size : p.maxDatagramSize ≤ 2 ^ 29) (started : p.lastSentTime ≠ 0) {bandwidth now : Int}
    (rate : 0 ≤ bandwidth * (now - p.lastSentTime)) :
    p.budget quic bandwidth now ≤
      p.budgetAtLastSent + bandwidth * (now - p.lastSentTime) / second := by
  have nonneg := ranged.nonneg
  have bounded := ranged.bounded
  by_cases fits : bandwidth * (now - p.lastSentTime) < 2 ^ 63
  · have earned : bandwidth * (now - p.lastSentTime) / second ≤ 2 ^ 34 := by
      unfold second
      omega
    rw [budget_eq started nonneg rate fits (by omega)]
    exact Int.min_le_right _ _
  · have earned : 2 ^ 63 / second ≤ bandwidth * (now - p.lastSentTime) / second := by
      unfold second
      omega
    have delay := tdiv_second (maxBurstPacingDelayMultiplier * quic.minPacingDelay * bandwidth)
    have burst : p.maxBurstSize quic bandwidth ≤ 2 ^ 63 / second :=
      Int.max_le.mpr ⟨delay.2, by unfold second maxBurstPackets; omega⟩
    have most := budget_le_burst quic p bandwidth now
    omega

theorem earned_split {bandwidth first middle : Int} (atMost : bandwidth ≤ most)
    (early : first ≤ middle) (last : Int) :
    bandwidth * (middle - first) / second + most * (last - middle) / second ≤
      most * (last - first) / second := by
  have slower : bandwidth * (middle - first) ≤ most * (middle - first) :=
    Int.mul_le_mul_of_nonneg_right atMost (by omega)
  have whole : most * (last - first) = most * (middle - first) + most * (last - middle) := by
    rw [← Int.mul_add]
    congr 1
    omega
  unfold second
  omega

theorem sentBytes_le {p : Pacer} {events : List Event} (conforms : Conforms quic most p events)
    (ranged : p.Ranged) (small : p.maxDatagramSize ≤ 2 ^ 29) (started : 0 < p.lastSentTime) :
    sentBytes events + (p.run quic events).budgetAtLastSent ≤ p.budgetAtLastSent +
      most * ((p.run quic events).lastSentTime - p.lastSentTime) / second := by
  induction events generalizing p with
  | nil =>
    rw [run, List.foldl_nil, Int.sub_self, Int.mul_zero, sentBytes, Int.zero_ediv]
    omega
  | cons e events ih =>
    have sized := conforms_sized conforms e List.mem_cons_self
    cases e with
    | resized size =>
      have next : (p.setMaxDatagramSize size).Ranged := @Ranged.step quic p ranged _ sized
      exact ih conforms.2 next conforms.1.2 started
    | sent bandwidth sendTime size =>
      obtain ⟨later, rate, atMost, real, within, rest⟩ := conforms
      have whole : p.run quic (.sent bandwidth sendTime size :: events) =
        (p.sentPacket quic bandwidth sendTime size).run quic events := rfl
      have time : (p.sentPacket quic bandwidth sendTime size).lastSentTime = sendTime := rfl
      have granted := ranged.budget_le_earned quic small (Int.ne_of_gt started)
        (Int.mul_nonneg rate (Int.sub_nonneg_of_le later))
      have earned := earned_split atMost later
        ((p.sentPacket quic bandwidth sendTime size).run quic events).lastSentTime
      have next := ih rest (ranged.step sized) small (Int.lt_of_lt_of_le started later)
      rw [sentPacket_left within, time] at next
      rw [whole, sentBytes]
      omega

end Bucket

/-- For every pacer that is reached and every run of packets from it that its budget
allows: together they have no more bytes than one burst and what the largest bandwidth
of the run carries from the first to the last of them. -/
theorem sent_within_rate (quic : QuicConstants) (earlier : List Event)
    (initial : 0 ≤ quic.initialPacketSize ∧ quic.initialPacketSize ≤ 2 ^ 32)
    (sized : ∀ e ∈ earlier, e.Sized) (most bandwidth sendTime size : Int) (later : List Event)
    (started : 0 < sendTime) :
    let p := (new quic).run quic earlier
    let q := p.run quic (.sent bandwidth sendTime size :: later)
    p.maxDatagramSize ≤ 2 ^ 29 →
    Conforms quic most p (.sent bandwidth sendTime size :: later) →
    sentBytes (.sent bandwidth sendTime size :: later) ≤
      p.maxBurstSize quic bandwidth + most * (q.lastSentTime - sendTime) / second := by
  intro p q small conforms
  obtain ⟨_, rate, atMost, real, within, rest⟩ := conforms
  have ranged : p.Ranged := run_ranged (new_ranged initial.1 initial.2) sized
  have burst := budget_le_burst quic p bandwidth sendTime
  have first : (p.sentPacket quic bandwidth sendTime size).Ranged :=
    ranged.step (e := .sent bandwidth sendTime size) real
  have last : q.Ranged := run_ranged first (conforms_sized rest)
  have total : sentBytes later + q.budgetAtLastSent ≤
      (p.sentPacket quic bandwidth sendTime size).budgetAtLastSent +
        most * (q.lastSentTime - sendTime) / second :=
    sentBytes_le rest first small started
  have left := sentPacket_left within
  have nonneg := last.nonneg
  rw [sentBytes]
  omega

theorem burst_within_rate :
    Conforms Sample.quic 1000000 (new Sample.quic)
      [.sent 1000000 1 12000, .sent 1000000 1200001 1200] ∧
    sentBytes [.sent 1000000 1 12000, .sent 1000000 1200001 1200] ≤
      (new Sample.quic).maxBurstSize Sample.quic 1000000 +
        1000000 * (((new Sample.quic).run Sample.quic
          [.sent 1000000 1 12000, .sent 1000000 1200001 1200]).lastSentTime - 1) / second := by
  have conforms : Conforms Sample.quic 1000000 (new Sample.quic)
      [.sent 1000000 1 12000, .sent 1000000 1200001 1200] :=
    ⟨by decide, by decide, by decide, by decide, by decide,
      by decide, by decide, by decide, by decide, by decide, trivial⟩
  exact ⟨conforms, sent_within_rate Sample.quic [] (by decide) nofun 1000000 1000000 1 12000
    [.sent 1000000 1200001 1200] (by decide) (by decide) conforms⟩

end Pacer

end Telekit.Quic
