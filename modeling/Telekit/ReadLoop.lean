import Telekit.DataChannel

/-! The reader goroutines `readTransport` and `readRawTransport` of
`peer/server/conn.go` and `peer/client/connect.go`, as a program counter and
one transition for each kind of step: bytes arriving from the transport, the
answer of `isCurrentTransport`, the budget, `OpenFrame` and the receive buffer.
The server accounts a frame to the shared budget while it holds it; the client
does not. After `finished` the goroutine closes its connection. The time of the
last read, which only the monitor looks at, is left out. -/

namespace Telekit

def frameHeaderSize : Nat := 8

structure ReadLoop where
  role : DataRole
  packetMode : Bool
  maxFrameSize : Nat
  deriving DecidableEq

/-- A state of the loop. `got` is what `io.ReadFull` has read so far, and a
`reserve` with a packet is the one of `readRawTransport`. -/
inductive ReadPc
  | readHeader (got : Bytes)
  | checkHeader (length : Nat)
  | readSequence (length : Nat) (got : Bytes)
  | reserve (length : Nat) (sequence : UInt64) (packet : Option Bytes)
  | readFrame (length : Nat) (sequence : UInt64) (got : Bytes)
  | abandon (length : Nat)
  | readPacket
  | checkPacket (packet : Bytes)
  | openFrame (length : Nat) (sequence : UInt64) (frame : Bytes)
  | release (length : Nat) (result : Except Failure (DataFrameType × Bytes))
  | recheck (frameType : DataFrameType) (raw : Bytes)
  | writeBuffer (raw : Bytes)
  | finished

namespace ReadLoop

def start (l : ReadLoop) : ReadPc := if l.packetMode then .readPacket else .readHeader []

def sequenceOf (bytes : Bytes) : UInt64 := UInt64.ofNat (BigEndian.decode bytes)

/-- One `conn.Read` inside `io.ReadFull`, or the one of `readRawTransport`. A
read may deliver bytes together with its error; `io.ReadFull` drops the error
when the bytes complete the request. -/
def received (l : ReadLoop) (chunk : Bytes) (failed : Bool) : ReadPc → ReadPc
  | .readHeader got =>
    let got := got ++ chunk.take (frameHeaderSize - got.length)
    if got.length ≥ frameHeaderSize then .checkHeader (BigEndian.decode got)
    else if failed then .finished else .readHeader got
  | .readSequence length got =>
    let got := got ++ chunk.take (dataFrameSequenceSize - got.length)
    if got.length ≥ dataFrameSequenceSize then
      match l.role with
      | .server => .reserve length (sequenceOf got) none
      | .client => .readFrame length (sequenceOf got) []
    else if failed then .finished else .readSequence length got
  | .readFrame length sequence got =>
    let got := got ++ chunk.take (length - got.length)
    if got.length ≥ length then .openFrame length sequence got
    else if failed then
      match l.role with
      | .server => .abandon length
      | .client => .finished
    else .readFrame length sequence got
  | .readPacket =>
    let packet := chunk.take (l.maxFrameSize + frameHeaderSize + dataFrameSequenceSize)
    if failed then .finished
    else if l.role = .server ∧ packet.length < frameHeaderSize then .finished
    else .checkPacket packet
  | pc => pc

/-- The header checks of `readRawTransport` after `isCurrentTransport`. -/
def checkedPacket (l : ReadLoop) (packet : Bytes) : ReadPc :=
  let length := BigEndian.decode (packet.take frameHeaderSize)
  let sequenceOffset := frameHeaderSize + dataFrameSequenceSize
  if packet.length < frameHeaderSize then .finished
  else if length = 0 then .finished
  else if packet.length < sequenceOffset ∨ length > l.maxFrameSize ∨
      length ≠ packet.length - sequenceOffset then .finished
  else
    let sequence := sequenceOf ((packet.drop frameHeaderSize).take dataFrameSequenceSize)
    match l.role with
    | .server => .reserve length sequence (some (packet.drop sequenceOffset))
    | .client => .openFrame length sequence (packet.drop sequenceOffset)

def checked (l : ReadLoop) (current : Bool) : ReadPc → ReadPc
  | .checkHeader length =>
    if current = false then .finished
    else if length = 0 then .finished
    else if length > l.maxFrameSize then .finished
    else .readSequence length []
  | .checkPacket packet => if current = false then .finished else l.checkedPacket packet
  | .recheck frameType raw =>
    if current = false then .finished
    else if frameType = .heartbeat then l.start
    else .writeBuffer raw
  | pc => pc

def reserved (accepted : Bool) : ReadPc → ReadPc
  | .reserve length sequence packet =>
    if accepted = false then .finished
    else
      match packet with
      | none => .readFrame length sequence []
      | some frame => .openFrame length sequence frame
  | pc => pc

/-- What follows `OpenFrame`, on the server after its release. Only the packet
loop goes on after a replayed frame. -/
def checkFrame (l : ReadLoop) (result : Except Failure (DataFrameType × Bytes)) : ReadPc :=
  match result with
  | .error err => if l.packetMode ∧ err = .dataFrameReplay then l.start else .finished
  | .ok (frameType, raw) =>
    if raw.length > l.maxFrameSize then .finished else .recheck frameType raw

def opened (l : ReadLoop) (result : Except Failure (DataFrameType × Bytes)) : ReadPc → ReadPc
  | .openFrame length _ _ =>
    match l.role with
    | .server => .release length result
    | .client => l.checkFrame result
  | pc => pc

def released (l : ReadLoop) : ReadPc → ReadPc
  | .abandon _ => .finished
  | .release _ result => l.checkFrame result
  | pc => pc

def wrote (l : ReadLoop) (result : Except Failure Unit) : ReadPc → ReadPc
  | .writeBuffer _ =>
    match result with
    | .error _ => .finished
    | .ok () => l.start
  | pc => pc

end ReadLoop

/-- How many steps the loop is away from its next read, at most. -/
def ReadPc.remaining : ReadPc → Nat
  | .checkPacket _ => 6
  | .reserve _ _ _ => 5
  | .openFrame _ _ _ => 4
  | .release _ _ => 3
  | .recheck _ _ => 2
  | .checkHeader _ => 1
  | .writeBuffer _ => 1
  | _ => 0

theorem ReadPc.remaining_le (pc : ReadPc) : pc.remaining ≤ 6 := by
  unfold remaining
  split <;> omega

namespace ReadLoop
variable (l : ReadLoop)

theorem start_remaining : l.start.remaining = 0 := by
  unfold start
  split <;> rfl

theorem checkedPacket_remaining (packet : Bytes) : (l.checkedPacket packet).remaining ≤ 5 := by
  simp only [checkedPacket]
  split_ifs
  · exact Nat.zero_le _
  · exact Nat.zero_le _
  · exact Nat.zero_le _
  · cases l.role
    · exact Nat.le_of_ble_eq_true rfl
    · exact Nat.le_of_ble_eq_true rfl

theorem checkHeader_remaining (current : Bool) (length : Nat) :
    (l.checked current (.checkHeader length)).remaining ≤ 0 := by
  simp only [checked]
  split_ifs <;> exact Nat.le_refl 0

theorem checkPacket_remaining (current : Bool) (packet : Bytes) :
    (l.checked current (.checkPacket packet)).remaining ≤ 5 := by
  simp only [checked]
  split_ifs
  · exact Nat.zero_le _
  · exact l.checkedPacket_remaining packet

theorem recheck_remaining (current : Bool) (frameType : DataFrameType) (raw : Bytes) :
    (l.checked current (.recheck frameType raw)).remaining ≤ 1 := by
  simp only [checked]
  split_ifs
  · exact Nat.zero_le _
  · simp [l.start_remaining]
  · exact Nat.le_refl 1

theorem reserved_remaining (accepted : Bool) (length : Nat) (sequence : UInt64)
    (packet : Option Bytes) :
    (reserved accepted (.reserve length sequence packet)).remaining ≤ 4 := by
  simp only [reserved]
  split_ifs
  · exact Nat.zero_le _
  · cases packet
    · exact Nat.zero_le _
    · exact Nat.le_refl 4

theorem checkFrame_remaining (result : Except Failure (DataFrameType × Bytes)) :
    (l.checkFrame result).remaining ≤ 2 := by
  unfold checkFrame
  cases result with
  | error err =>
    simp only
    split_ifs
    · simp [l.start_remaining]
    · exact Nat.zero_le _
  | ok opened =>
    simp only
    split_ifs
    · exact Nat.zero_le _
    · exact Nat.le_refl 2

theorem opened_remaining (result : Except Failure (DataFrameType × Bytes)) (length : Nat)
    (sequence : UInt64) (frame : Bytes) :
    (l.opened result (.openFrame length sequence frame)).remaining ≤ 3 := by
  simp only [opened]
  cases l.role with
  | server => exact Nat.le_refl 3
  | client => exact Nat.le_succ_of_le (l.checkFrame_remaining result)

theorem wrote_remaining (result : Except Failure Unit) (raw : Bytes) :
    (l.wrote result (.writeBuffer raw)).remaining = 0 := by
  cases result with
  | error err => rfl
  | ok _ => exact l.start_remaining

end ReadLoop
end Telekit
