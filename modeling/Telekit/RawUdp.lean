import Telekit.ReadLoop

/-! The connection of `transports/transport_rawudp`: one datagram for each `Write` and
for each `Read`. The base connection copies as much of one datagram as fits into the
slice it is given. `Read` gives it the slice of the caller or, when that is shorter
than the largest datagram, a slice of its own. `Write` remembers its first error. -/

namespace Telekit.RawUdp

def maxDatagramSize : Nat := 64 * 2 ^ 10

def baseRead (datagram slice : Bytes) : Nat × Bytes :=
  (min datagram.length slice.length, datagram.take slice.length ++ slice.drop datagram.length)

/-- `Conn.Read`: the count, the error of the base connection, and the slice of the
caller afterwards. -/
def read (datagram : Bytes) (err : Option Failure) (p : Bytes) : Nat × Option Failure × Bytes :=
  if p.length = 0 then (0, none, p)
  else if p.length < maxDatagramSize then
    let r := baseRead datagram (List.replicate maxDatagramSize 0)
    if r.1 > p.length then (p.length, err, r.2.take p.length) else (r.1, err, p)
  else
    let r := baseRead datagram p
    if r.1 > p.length then (p.length, err, r.2.take p.length) else (r.1, err, r.2)

variable {err : Option Failure}

theorem read_long {datagram p : Bytes} (long : maxDatagramSize ≤ p.length) :
    read datagram err p =
      (min datagram.length p.length, err, datagram.take p.length ++ p.drop datagram.length) := by
  have room : p.length ≠ 0 := by
    simp only [maxDatagramSize] at long
    omega
  rw [read, if_neg room, if_neg (Nat.not_lt.mpr long)]
  exact if_neg (Nat.not_lt.mpr (Nat.min_le_right _ _))

theorem read_truncated {datagram p : Bytes} (room : 0 < p.length)
    (bounded : datagram.length ≤ maxDatagramSize) (longer : p.length < datagram.length) :
    read datagram err p = (p.length, err, datagram.take p.length) := by
  rw [read, if_neg (by omega), if_pos (by omega)]
  simp only [baseRead, List.length_replicate]
  rw [if_pos (by omega), List.take_of_length_le bounded, List.take_append_of_le_length (by omega)]

theorem read_untouched {datagram p : Bytes} (room : 0 < p.length)
    (short : p.length < maxDatagramSize) (fits : datagram.length ≤ p.length) :
    read datagram err p = (datagram.length, err, p) := by
  rw [read, if_neg (by omega), if_pos short]
  simp only [baseRead, List.length_replicate]
  rw [if_neg (by omega), Nat.min_eq_left (by omega)]

def delivered (datagram : Bytes) (err : Option Failure) (p : Bytes) : Bytes :=
  (read datagram err p).2.2.take (read datagram err p).1

theorem read_count {datagram p : Bytes} (room : 0 < p.length)
    (bounded : datagram.length ≤ maxDatagramSize) :
    (read datagram err p).1 = min datagram.length p.length := by
  by_cases long : maxDatagramSize ≤ p.length
  · rw [read_long long]
  · by_cases longer : p.length < datagram.length
    · rw [read_truncated room bounded longer]
      simp only
      omega
    · rw [read_untouched room (by omega) (by omega)]
      simp only
      omega

theorem delivered_iff {datagram p : Bytes} (err : Option Failure) (room : 0 < p.length)
    (bounded : datagram.length ≤ maxDatagramSize) :
    delivered datagram err p = datagram.take (min datagram.length p.length) ↔
      maxDatagramSize ≤ p.length ∨ p.length < datagram.length ∨
        p.take datagram.length = datagram := by
  by_cases long : maxDatagramSize ≤ p.length
  · have whole : datagram.length ≤ p.length := Nat.le_trans bounded long
    simp only [delivered, read_long long, long, true_or, iff_true]
    rw [List.take_append_of_le_length (by simp), List.take_take]
    congr 1
    omega
  · by_cases longer : p.length < datagram.length
    · have count : min datagram.length p.length = p.length := by omega
      simp only [delivered, read_truncated room bounded longer, longer, true_or, or_true, iff_true]
      rw [List.take_take, Nat.min_self, count]
    · have count : min datagram.length p.length = datagram.length := by omega
      simp only [delivered, read_untouched room (Nat.lt_of_not_le long) (Nat.le_of_not_lt longer),
        long, longer, false_or]
      rw [count, List.take_length]

/-- `Read` delivers a datagram exactly when the slice has room for the largest one, is
too short for this one, or happens to hold its bytes already. With the slice of
`readRawTransport` only the first and the last remain for a datagram that fits. -/
theorem read_delivers_iff (datagram p : Bytes) (err : Option Failure)
    (bounded : datagram.length ≤ maxDatagramSize) (room : 0 < p.length) :
    ((read datagram err p).1 = min datagram.length p.length ∧
        (read datagram err p).2.2.take (read datagram err p).1 =
          datagram.take (min datagram.length p.length) ↔
      maxDatagramSize ≤ p.length ∨ p.length < datagram.length ∨
        p.take datagram.length = datagram) ∧
    ∀ maxFrameSize, 1024 ≤ maxFrameSize →
      p.length = maxFrameSize + frameHeaderSize + dataFrameSequenceSize →
      datagram.length ≤ p.length →
      ((read datagram err p).2.2.take (read datagram err p).1 = datagram ↔
        maxDatagramSize ≤ maxFrameSize + frameHeaderSize + dataFrameSequenceSize ∨
          p.take datagram.length = datagram) := by
  have delivers := delivered_iff err room bounded
  refine ⟨?_, ?_⟩
  · rw [← delivers, delivered]
    exact and_iff_right (read_count room bounded)
  · intro maxFrameSize _ size fits
    have shorter : ¬ p.length < datagram.length := Nat.not_lt.mpr fits
    rw [Nat.min_eq_left fits, List.take_length] at delivers
    simp only [shorter, false_or] at delivers
    rw [← size, ← delivers, delivered]

theorem read_delivers_iff_sample :
    ((read [7, 8] none [0]).1 = 1 ∧
      (read [7, 8] none [0]).2.2.take (read [7, 8] none [0]).1 = [7]) ∧
    (read [7] none (List.replicate 65536 0)).2.2.take
      (read [7] none (List.replicate 65536 0)).1 = [7] :=
  ⟨(read_delivers_iff [7, 8] [0] none (by decide) (by decide)).1.mpr (Or.inr (Or.inl (by decide))),
    ((read_delivers_iff [7] (List.replicate 65536 0) none (by decide)
      (by rw [List.length_replicate]; decide)).2 65520 (by decide) List.length_replicate
      (by rw [List.length_replicate]; decide)).mpr (Or.inl (by decide))⟩

theorem short_slice_untouched :
    (read [7] none (List.replicate (1024 + frameHeaderSize + dataFrameSequenceSize) 0)).1 = 1 ∧
    (read [7] none (List.replicate (1024 + frameHeaderSize + dataFrameSequenceSize) 0)).2.2.take 1 ≠
      [7] := by
  rw [read_untouched (by rw [List.length_replicate]; decide)
    (by rw [List.length_replicate]; decide) (by rw [List.length_replicate]; decide)]
  simp only [List.take_replicate]
  decide

/-- The packet loop starts with a slice of zeros. Where `Read` leaves it alone, the first
datagram ends the loop, since a frame of length zero is refused. -/
theorem readRawTransport_finishes (l : ReadLoop) (datagram : Bytes)
    (short : l.maxFrameSize + frameHeaderSize + dataFrameSequenceSize < maxDatagramSize)
    (fits : datagram.length ≤ l.maxFrameSize + frameHeaderSize + dataFrameSequenceSize) :
    l.checked true (l.received (delivered datagram none
      (List.replicate (l.maxFrameSize + frameHeaderSize + dataFrameSequenceSize) 0))
        false .readPacket) = .finished := by
  have zeros : delivered datagram none
      (List.replicate (l.maxFrameSize + frameHeaderSize + dataFrameSequenceSize) 0) =
        List.replicate datagram.length 0 := by
    rw [delivered, read_untouched (by simp [frameHeaderSize]) (by simpa using short)
      (by simpa using fits)]
    simp only [List.take_replicate]
    rw [Nat.min_eq_left fits]
  have whole : (List.replicate datagram.length (0 : UInt8)).take
      (l.maxFrameSize + frameHeaderSize + dataFrameSequenceSize) =
        List.replicate datagram.length 0 := by
    rw [List.take_replicate, Nat.min_eq_right fits]
  have refused : l.checkedPacket (List.replicate datagram.length 0) = .finished := by
    simp only [ReadLoop.checkedPacket, List.take_replicate, BigEndian.decode_replicate_zero]
    split_ifs
    · rfl
    · rfl
  rw [zeros]
  simp only [ReadLoop.received, whole]
  rw [if_neg (by simp)]
  split_ifs
  · rfl
  · exact refused

/-! `Conn.Write`. -/

/-- `sent` lists the datagrams given to the base connection, each with the count it
returned. -/
structure Writer where
  writeErr : Option Failure := none
  sent : List (Bytes × Nat) := []
  deriving DecidableEq

def write (p : Bytes) (result : Nat × Option Failure) (w : Writer) :
    (Nat × Option Failure) × Writer :=
  match w.writeErr with
  | some err => ((0, some err), w)
  | none =>
    let sent := w.sent ++ [(p, result.1)]
    match result.2 with
    | some err => (result, ⟨some err, sent⟩)
    | none =>
      if result.1 ≠ p.length then ((result.1, some .shortWrite), ⟨some .shortWrite, sent⟩)
      else (result, ⟨none, sent⟩)

def writes (calls : List (Bytes × (Nat × Option Failure))) (w : Writer) : Writer :=
  calls.foldl (fun w call => (write call.1 call.2 w).2) w

structure Writer.Whole (w : Writer) : Prop where
  earlier : ∀ d ∈ w.sent.dropLast, d.2 = d.1.length
  all : w.writeErr = none → ∀ d ∈ w.sent, d.2 = d.1.length

theorem write_whole {p : Bytes} {result : Nat × Option Failure} {w : Writer} (whole : w.Whole) :
    (write p result w).2.Whole := by
  unfold write
  split
  · exact whole
  next fresh =>
    have before := whole.all fresh
    split
    · exact ⟨by simpa using before, by simp⟩
    · split_ifs with short
      · exact ⟨by simpa using before, by simp⟩
      · refine ⟨by simpa using before, fun _ d member => ?_⟩
        rcases List.mem_append.mp member with old | new
        · exact before d old
        · rw [List.mem_singleton.mp new]
          exact not_not.mp short

/-- After an error nothing more reaches the base connection, so in every run only the
last datagram can have been cut. -/
theorem writes_whole (calls : List (Bytes × (Nat × Option Failure))) {w : Writer}
    (whole : w.Whole) : (writes calls w).Whole := by
  induction calls generalizing w with
  | nil => exact whole
  | cons call rest ih => exact ih (write_whole whole)

end Telekit.RawUdp
