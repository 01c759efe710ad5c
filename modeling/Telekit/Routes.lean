import Telekit.Library.Separated
import Telekit.MqttMachine

/-! The routes of the adapters that have a base route: `topic` of the MQTT and the
Centrifugo adapter and `subject` of the NATS adapter, over what `signaling/types.go`
validates. An adapter writes base, room and type one after the other with its own
separator, which no validated segment contains; so the route can be taken apart
again. -/

namespace Telekit.Signaling

def maxRoutePrefixLength : Nat := 128

def matchesRoomPattern (segment : GoString) : Bool :=
  !segment.isEmpty && segment.all isIdentifierByte

/-- `ValidateRoutePrefix`; a separator is the byte of its rune. -/
def validateRoutePrefix (base : GoString) (separator : UInt8) : Except Failure Unit :=
  if base.length = 0 ∨ base.length > maxRoutePrefixLength then
    fail "invalid route prefix length: must be between 1 and 128 bytes"
  else if separator ≠ 47 ∧ separator ≠ 46 ∧ separator ≠ 58 then
    .error (.text (str "unsupported route prefix separator '" ++ [separator] ++ str "'"))
  else if (base.splitOn separator).all matchesRoomPattern = false then
    .error (.text (str "invalid route prefix " ++ quote base ++
      str ": each segment must use letters, digits, underscore, or hyphen"))
  else .ok ()

theorem validateRoutePrefix_ok {base : GoString} {separator : UInt8}
    (ok : validateRoutePrefix base separator = .ok ()) :
    ∀ segment ∈ base.splitOn separator, matchesRoomPattern segment = true := by
  rw [validateRoutePrefix, guard_ok] at ok
  obtain ⟨_, ok⟩ := ok
  split_ifs at ok with unsupported invalid
  rw [Bool.not_eq_false] at invalid
  exact List.all_eq_true.mp invalid

theorem validateRoomID_matches {room : GoString} (ok : validateRoomID room = .ok ()) :
    matchesRoomPattern room = true := by
  rw [validateRoomID, guard_ok] at ok
  obtain ⟨bounds, ok⟩ := ok
  split_ifs at ok with invalid
  rw [Bool.not_eq_false] at invalid
  have filled : room ≠ [] := fun empty => bounds (.inl (by rw [empty]; rfl))
  simp [matchesRoomPattern, invalid, filled]

theorem validateMessageType_matches {typ : GoString}
    (ok : Mqtt.validateMessageType typ = .ok ()) : matchesRoomPattern typ = true := by
  rw [Mqtt.validateMessageType, guard_ok] at ok
  obtain ⟨bounds, ok⟩ := ok
  split_ifs at ok with invalid
  rw [Bool.not_eq_false] at invalid
  have filled : typ ≠ [] := fun empty => bounds (.inl (by rw [empty]; rfl))
  simp [matchesRoomPattern, invalid, filled]

theorem matches_free {segment : GoString} (ok : matchesRoomPattern segment = true) {b : UInt8}
    (special : isIdentifierByte b = false) : b ∉ segment := by
  intro member
  rw [matchesRoomPattern, Bool.and_eq_true, List.all_eq_true] at ok
  have plain := ok.2 b member
  rw [special] at plain
  cases plain

theorem matches_filled {segment : GoString} (ok : matchesRoomPattern segment = true) :
    segment ≠ [] := by
  rintro rfl
  cases ok

theorem validateRoutePrefix_free {base : GoString} {separator b : UInt8}
    (ok : validateRoutePrefix base separator = .ok ()) (special : isIdentifierByte b = false)
    (other : b ≠ separator) : b ∉ base := by
  intro member
  have joined : [separator].intercalate (base.splitOn separator) = base :=
    List.intercalate_splitOn separator
  rw [← joined] at member
  rcases Separated.mem_intercalate member with same | ⟨segment, among, inside⟩
  · exact other same
  · exact matches_free (validateRoutePrefix_ok ok segment among) special inside

def route (separator : UInt8) (base room typ : GoString) : GoString :=
  base ++ [separator] ++ room ++ [separator] ++ typ

end Signaling

namespace Centrifugo

def topic (baseChannel roomID typ : GoString) : GoString :=
  Signaling.route 58 baseChannel roomID typ

end Centrifugo

namespace Nats

def subject (baseSubject roomID typ : GoString) : GoString :=
  Signaling.route 46 baseSubject roomID typ

/-- The subject of a call; `connected` is that there is a connection that is not
closed. -/
def connectionAndSubject (baseSubject : GoString) (connected : Bool) (roomID typ : GoString) :
    Except Failure GoString := do
  validateRoomID roomID
  Mqtt.validateMessageType typ
  if connected then .ok (subject baseSubject roomID typ) else fail "signaling adapter is closed"

end Nats

namespace Signaling

inductive Routed
  | centrifugo
  | mqtt
  | nats
  deriving DecidableEq

namespace Routed

def separator : Routed → UInt8
  | centrifugo => 58
  | mqtt => 47
  | nats => 46

def route : Routed → GoString → GoString → GoString → GoString
  | centrifugo => Centrifugo.topic
  | mqtt => Mqtt.topic
  | nats => Nats.subject

theorem route_eq (adapter : Routed) (base room typ : GoString) :
    adapter.route base room typ = base ++ adapter.separator :: (room ++ adapter.separator :: typ) := by
  cases adapter <;>
    simp [route, separator, Centrifugo.topic, Mqtt.topic, Nats.subject, Signaling.route, str]

theorem separator_special (adapter : Routed) : isIdentifierByte adapter.separator = false := by
  cases adapter <;> decide

structure Valid (adapter : Routed) (base room typ : GoString) : Prop where
  base : validateRoutePrefix base adapter.separator = .ok ()
  room : validateRoomID room = .ok ()
  typ : Mqtt.validateMessageType typ = .ok ()

variable {adapter : Routed} {base room typ base' room' typ' : GoString}

theorem Valid.segments (valid : adapter.Valid base room typ) :
    ∀ segment ∈ base.splitOn adapter.separator ++ [room, typ],
      matchesRoomPattern segment = true := by
  intro segment member
  simp only [List.mem_append, List.mem_cons, List.not_mem_nil, or_false] at member
  rcases member with inner | rfl | rfl
  · exact validateRoutePrefix_ok valid.base segment inner
  · exact validateRoomID_matches valid.room
  · exact validateMessageType_matches valid.typ

theorem Valid.room_free (valid : adapter.Valid base room typ) : adapter.separator ∉ room :=
  matches_free (validateRoomID_matches valid.room) adapter.separator_special

theorem Valid.typ_free (valid : adapter.Valid base room typ) : adapter.separator ∉ typ :=
  matches_free (validateMessageType_matches valid.typ) adapter.separator_special

theorem Valid.splitOn_route (valid : adapter.Valid base room typ) :
    (adapter.route base room typ).splitOn adapter.separator =
      base.splitOn adapter.separator ++ [room, typ] := by
  rw [route_eq, List.splitOn_append_cons_self, List.splitOn_append_cons_self,
    List.splitOn_eq_singleton valid.room_free, List.splitOn_eq_singleton valid.typ_free]
  rfl

theorem Valid.route_inj (valid : adapter.Valid base room typ)
    (valid' : adapter.Valid base' room' typ')
    (same : adapter.route base room typ = adapter.route base' room' typ') :
    base = base' ∧ room = room' ∧ typ = typ' := by
  have segments := congrArg (List.splitOn adapter.separator) same
  rw [valid.splitOn_route, valid'.splitOn_route] at segments
  obtain ⟨bases, rest⟩ := List.append_inj' segments rfl
  simp only [List.cons.injEq, and_true] at rest
  have joined := congrArg (List.intercalate [adapter.separator]) bases
  rw [List.intercalate_splitOn, List.intercalate_splitOn] at joined
  exact ⟨joined, rest⟩

theorem Valid.special (valid : adapter.Valid base room typ) {b : UInt8}
    (special : isIdentifierByte b = false) (other : b ≠ adapter.separator) :
    b ∉ adapter.route base room typ := by
  rw [route_eq]
  simp only [List.mem_append, List.mem_cons, not_or]
  exact ⟨validateRoutePrefix_free valid.base special other, other,
    matches_free (validateRoomID_matches valid.room) special, other,
    matches_free (validateMessageType_matches valid.typ) special⟩

end Routed

def wildcards : Bytes := [43, 35, 42, 62]

theorem wildcards_special : ∀ b ∈ wildcards, isIdentifierByte b = false := by
  simp only [wildcards, List.forall_mem_cons, List.not_mem_nil, false_implies, implies_true, and_true]
  decide

theorem wildcards_plain (adapter : Routed) : ∀ b ∈ wildcards, b ≠ adapter.separator := by
  simp only [wildcards, List.forall_mem_cons, List.not_mem_nil, false_implies, implies_true, and_true]
  cases adapter <;> decide

theorem routes_identify (adapter : Routed) {base room typ base' room' typ' : GoString}
    (valid : adapter.Valid base room typ) (valid' : adapter.Valid base' room' typ') :
    (adapter.route base room typ).splitOn adapter.separator =
      base.splitOn adapter.separator ++ [room, typ] ∧
    (adapter.route base room typ = adapter.route base' room' typ' →
      base = base' ∧ room = room' ∧ typ = typ') ∧
    (∀ segment ∈ (adapter.route base room typ).splitOn adapter.separator, segment ≠ []) ∧
    ∀ b ∈ wildcards, b ∉ adapter.route base room typ := by
  refine ⟨valid.splitOn_route, valid.route_inj valid', ?_, ?_⟩
  · rw [valid.splitOn_route]
    intro segment member
    exact matches_filled (valid.segments segment member)
  · intro b member
    exact valid.special (wildcards_special b member) (wildcards_plain adapter b member)

theorem nested_bases_identify :
    Routed.nats.Valid (str "sensors.telekit") (str "room1") (str "offer") ∧
    Routed.nats.Valid (str "sensors") (str "telekit") (str "room1") ∧
    (Routed.nats.route (str "sensors.telekit") (str "room1") (str "offer")).splitOn 46 =
      [str "sensors", str "telekit", str "room1", str "offer"] := by
  have valid : Routed.nats.Valid (str "sensors.telekit") (str "room1") (str "offer") :=
    ⟨by rfl, by rfl, by rfl⟩
  have valid' : Routed.nats.Valid (str "sensors") (str "telekit") (str "room1") :=
    ⟨by rfl, by rfl, by rfl⟩
  refine ⟨valid, valid', ?_⟩
  exact (routes_identify .nats valid valid').1.trans (by decide)

end Signaling

namespace Nats

theorem connectionAndSubject_ok {base room typ subject : GoString} {connected : Bool}
    (accepted : Signaling.validateRoutePrefix base 46 = .ok ())
    (ok : connectionAndSubject base connected room typ = .ok subject) :
    subject = Nats.subject base room typ ∧ Signaling.Routed.nats.Valid base room typ := by
  rw [connectionAndSubject, bind_ok] at ok
  obtain ⟨_, valid_room, ok⟩ := ok
  rw [bind_ok] at ok
  obtain ⟨_, valid_typ, ok⟩ := ok
  cases connected with
  | false => simp at ok
  | true =>
    cases ok
    exact ⟨rfl, accepted, valid_room, valid_typ⟩

end Nats
end Telekit
