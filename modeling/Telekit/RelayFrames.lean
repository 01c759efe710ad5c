import Telekit.Relay

/-! Frames of the WebSocket relay decode to what they were made from. An address has
one decoded form, its 16 bytes, and equals it: a 4-byte address and its mapped form
give the same frame. What the decoder accepts is in that form, so the frames that
the relay makes of it on the next hop say the same. -/

namespace Telekit.Relay

theorem v4InV6Prefix_length : v4InV6Prefix.length = 12 := by decide

theorem frameMagic_length : frameMagic.length = 3 := by decide

section Shape
variable {family : UInt8} {ip : IP} {port : Nat} {payload : Bytes}

def field (ip : IP) : Bytes := ip ++ List.replicate (16 - ip.length) 0

theorem field_length (short : ip.length ≤ 16) : (field ip).length = 16 := by
  simp only [field, List.length_append, List.length_replicate]
  omega

theorem frameOf_eq : frameOf family ip port payload =
    frameMagic ++ ([family] ++ (BigEndian.encode 2 port ++ (field ip ++ payload))) := by
  simp [frameOf, field]

theorem frameOf_length (short : ip.length ≤ 16) :
    (frameOf family ip port payload).length = frameHeaderSize + payload.length := by
  rw [frameOf_eq]
  simp only [List.length_append, List.length_singleton, frameMagic_length,
    BigEndian.encode_length, field_length short, frameHeaderSize]
  omega

theorem frameOf_magic : (frameOf family ip port payload).take 3 = frameMagic := by
  rw [frameOf_eq, ← frameMagic_length, List.take_left]

theorem frameOf_family : (frameOf family ip port payload)[3]? = some family := by
  rw [frameOf_eq, List.getElem?_append_right (by rw [frameMagic_length]), frameMagic_length]
  rfl

theorem frameOf_behind_family : (frameOf family ip port payload).drop 4 =
    BigEndian.encode 2 port ++ (field ip ++ payload) := by
  rw [frameOf_eq, ← List.append_assoc, List.drop_left' (by simp [frameMagic_length])]

theorem frameOf_port : ((frameOf family ip port payload).drop 4).take 2 =
    BigEndian.encode 2 port := by
  rw [frameOf_behind_family, List.take_left' (by simp)]

theorem frameOf_behind_port : (frameOf family ip port payload).drop 6 = field ip ++ payload := by
  rw [show 6 = 4 + 2 from rfl, ← List.drop_drop, frameOf_behind_family,
    List.drop_left' (by simp)]

theorem frameOf_payload (short : ip.length ≤ 16) :
    (frameOf family ip port payload).drop frameHeaderSize = payload := by
  rw [show frameHeaderSize = 6 + 16 from rfl, ← List.drop_drop, frameOf_behind_port,
    List.drop_left' (field_length short)]

theorem frameOf_checked (short : ip.length ≤ 16) :
    ¬ ((frameOf family ip port payload).length < frameHeaderSize ∨
      (frameOf family ip port payload).take 3 ≠ frameMagic) := by
  rw [frameOf_length short, frameOf_magic]
  simp

theorem decode_port (fits : port < 65536) : BigEndian.decode (BigEndian.encode 2 port) = port :=
  BigEndian.decode_encode_of_lt (by simpa using fits)

theorem decodeFrame_frameOf4 (four : ip.length = 4) (fits : port < 65536) :
    decodeFrame (frameOf 4 ip port payload) = .ok (⟨v4InV6Prefix ++ ip, port⟩, payload) := by
  have short : ip.length ≤ 16 := by omega
  have start : (field ip ++ payload).take 4 = ip := by
    rw [field, List.append_assoc, List.take_left' four]
  rw [decodeFrame, if_neg (frameOf_checked short)]
  simp only [frameOf_port, frameOf_family, frameOf_behind_port, frameOf_payload short,
    decode_port fits, start]

theorem decodeFrame_frameOf6 (sixteen : ip.length = 16) (fits : port < 65536) :
    decodeFrame (frameOf 6 ip port payload) = .ok (⟨ip, port⟩, payload) := by
  have short : ip.length ≤ 16 := by omega
  have start : (field ip ++ payload).take 16 = ip := by
    rw [field, sixteen, Nat.sub_self, List.replicate_zero, List.append_nil, List.take_left' sixteen]
  rw [decodeFrame, if_neg (frameOf_checked short)]
  simp only [frameOf_port, frameOf_family, frameOf_behind_port, frameOf_payload short,
    decode_port fits, start]

end Shape

section Address
variable {ip ip' : IP}

theorem ipEqual_to16 (form : to16 ip = some ip') : ipEqual ip' ip = true := by
  unfold to16 at form
  split_ifs at form with four sixteen
  · cases form
    have length : (v4InV6Prefix ++ ip).length = 16 := by
      rw [List.length_append, v4InV6Prefix_length, four]
    unfold ipEqual
    rw [if_neg (by omega), if_neg (by omega), if_pos ⟨length, four⟩]
    rw [List.take_left' v4InV6Prefix_length, List.drop_left' v4InV6Prefix_length]
    simp
  · cases form
    simp [ipEqual]

theorem to16_length (form : to16 ip = some ip') : ip'.length = 16 := by
  unfold to16 at form
  split_ifs at form with four sixteen
  · cases form
    rw [List.length_append, v4InV6Prefix_length, four]
  · cases form
    exact sixteen

theorem to16_of_length (sixteen : ip.length = 16) : to16 ip = some ip := by
  rw [to16, if_neg (by omega), if_pos sixteen]

theorem to4_ok {short : IP} (mapped : to4 ip = some short) :
    short.length = 4 ∧ to16 ip = some (v4InV6Prefix ++ short) := by
  unfold to4 at mapped
  split_ifs at mapped with four sixteen
  · cases mapped
    exact ⟨four, by rw [to16, if_pos four]⟩
  · cases mapped
    obtain ⟨length, start⟩ := sixteen
    refine ⟨by rw [List.length_drop, length], ?_⟩
    rw [to16_of_length length, ← start, List.take_append_drop]

end Address

/-- The frame of an address, and the one form in which it decodes. -/
theorem encodeFrame_decodes {addr : UDPAddr} {ip : IP} {payload : Bytes}
    (form : to16 addr.ip = some ip) (low : 0 ≤ addr.port) (high : addr.port ≤ 65535)
    (fits : payload.length ≤ maxRelayPacket) :
    ∃ frame, encodeFrame addr payload = .ok frame ∧
      frame.length = frameHeaderSize + payload.length ∧
      decodeFrame frame = .ok (⟨ip, addr.port⟩, payload) := by
  have inside : addr.port.toNat < 65536 := by omega
  have port : (addr.port.toNat : Int) = addr.port := Int.toNat_of_nonneg low
  rw [encodeFrame, if_neg (by omega), if_neg (by omega)]
  cases mapped : to4 addr.ip with
  | some short =>
    obtain ⟨four, same⟩ := to4_ok mapped
    rw [form, Option.some.injEq] at same
    refine ⟨_, rfl, frameOf_length (by omega), ?_⟩
    rw [decodeFrame_frameOf4 four inside, port, same]
  | none =>
    have sixteen := to16_length form
    rw [form]
    refine ⟨_, rfl, frameOf_length (by omega), ?_⟩
    rw [decodeFrame_frameOf6 sixteen inside, port]

theorem decodeFrame_ok {frame payload : Bytes} {addr : UDPAddr}
    (accepted : decodeFrame frame = .ok (addr, payload)) :
    addr.ip.length = 16 ∧ 0 ≤ addr.port ∧ addr.port ≤ 65535 := by
  rw [decodeFrame, guard_ok] at accepted
  obtain ⟨header, accepted⟩ := accepted
  have long : frameHeaderSize ≤ frame.length := by
    have := not_or.mp header
    omega
  simp only [frameHeaderSize] at long
  have word := BigEndian.decode_lt ((frame.drop 4).take 2)
  rw [List.length_take, List.length_drop, Nat.min_eq_left (by omega)] at word
  generalize BigEndian.decode ((frame.drop 4).take 2) = port at accepted word
  have range : 0 ≤ (port : Int) ∧ (port : Int) ≤ 65535 := by omega
  simp only at accepted
  split at accepted
  · cases accepted
    refine ⟨?_, range⟩
    rw [List.length_append, v4InV6Prefix_length, List.length_take, List.length_drop]
    omega
  · cases accepted
    refine ⟨?_, range⟩
    rw [List.length_take, List.length_drop]
    omega
  · simp at accepted

theorem forward_frame {config : Config} {s : Server} {source : AllocateRequest}
    {destination : UDPAddr} {payload frame : Bytes} {j : Nat}
    (forwarded : s.forward config source destination payload = some (j, frame)) :
    payload.length ≤ maxRelayPacket ∧ encodeFrame config.addr payload = .ok frame ∧
      s.byEndpoint (endpointKey source.target) = some j := by
  unfold Server.forward at forwarded
  split_ifs at forwarded
  split at forwarded
  · cases forwarded
  next held =>
    split at forwarded
    · cases forwarded
    split_ifs at forwarded
    split at forwarded
    · cases forwarded
    next encoded =>
      cases forwarded
      exact ⟨(encodeFrame_addr config payload).mp ⟨_, encoded⟩, encoded, held⟩

theorem relay_frame_round_trip :
    (∀ (addr : UDPAddr) (payload : Bytes), addr.ip.length = 4 ∨ addr.ip.length = 16 →
      0 ≤ addr.port → addr.port ≤ 65535 → payload.length ≤ 65513 →
      ∃ frame decoded, encodeFrame addr payload = .ok frame ∧ frame.length ≤ 65535 ∧
        decodeFrame frame = .ok (decoded, payload) ∧ decoded.port = addr.port ∧
        ipEqual decoded.ip addr.ip = true) ∧
    ∀ (frame : Bytes) (addr : UDPAddr) (payload : Bytes),
      decodeFrame frame = .ok (addr, payload) → payload.length ≤ 65513 →
      ∃ again, encodeFrame addr payload = .ok again ∧
        decodeFrame again = .ok (addr, payload) := by
  constructor
  · intro addr payload valid low high fits
    have form : ∃ ip, to16 addr.ip = some ip := by
      unfold to16
      split_ifs <;> first | exact ⟨_, rfl⟩ | omega
    obtain ⟨ip, form⟩ := form
    obtain ⟨frame, encoded, length, decoded⟩ := encodeFrame_decodes form low high fits
    refine ⟨frame, ⟨ip, addr.port⟩, encoded, ?_, decoded, rfl, ipEqual_to16 form⟩
    rw [length, frameHeaderSize]
    omega
  · intro frame addr payload accepted fits
    obtain ⟨sixteen, low, high⟩ := decodeFrame_ok accepted
    obtain ⟨again, encoded, _, decoded⟩ :=
      encodeFrame_decodes (to16_of_length sixteen) low high fits
    exact ⟨again, encoded, decoded⟩

theorem mapped_address_round_trip :
    let addr : UDPAddr := ⟨v4InV6Prefix ++ [192, 0, 2, 1], 3478⟩
    let frame := frameOf 4 [192, 0, 2, 1] 3478 (str "ping")
    encodeFrame addr (str "ping") = .ok frame ∧
      (∃ frame decoded, encodeFrame addr (str "ping") = .ok frame ∧ frame.length ≤ 65535 ∧
        decodeFrame frame = .ok (decoded, str "ping") ∧ decoded.port = addr.port ∧
        ipEqual decoded.ip addr.ip = true) ∧
      ∃ again, encodeFrame addr (str "ping") = .ok again ∧
        decodeFrame again = .ok (addr, str "ping") := by
  refine ⟨by rfl, ?_, ?_⟩
  · exact relay_frame_round_trip.1 _ _ (by decide) (by decide) (by decide) (by decide)
  · exact relay_frame_round_trip.2 (frameOf 4 [192, 0, 2, 1] 3478 (str "ping")) _ _
      (by rfl) (by decide)

end Telekit.Relay
