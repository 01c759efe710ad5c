import Telekit.Routes

/-! The leases of rooms: `roomOwners` of `peer/server/listen.go` and the `SignalingID` of
the built-in adapters. A key is the identity of the adapter, a colon and the room; the
identity is a label, the endpoint and the base route with colons between them. Only a
Centrifugo base may itself contain a colon, and there a key can be cut in two ways.

`Listen` up to the lease is one step, and so are the two places that give it back.
`url.Parse` is a parameter: the scheme of a URL, or an error. -/

namespace Telekit.Signaling

inductive Kind
  | centrifugo
  | mqtt
  | nats
  | websocket
  deriving DecidableEq

/-- What identifies an adapter; a WebSocket adapter has no base route. -/
@[ext]
structure Adapter where
  kind : Kind
  endpoint : GoString
  base : GoString := []
  deriving DecidableEq

def withBases (separator : UInt8) : GoString → List GoString → Except Failure GoString
  | base, [] => .ok base
  | _, option :: options => do
    validateRoutePrefix option separator
    withBases separator option options

theorem withBases_ok {separator : UInt8} {base result : GoString} {options : List GoString}
    (start : validateRoutePrefix base separator = .ok ())
    (ok : withBases separator base options = .ok result) :
    validateRoutePrefix result separator = .ok () := by
  induction options generalizing base with
  | nil =>
    cases ok
    exact start
  | cons option options ih =>
    rw [withBases, bind_ok] at ok
    obtain ⟨_, valid, ok⟩ := ok
    exact ih valid ok

end Signaling

open Signaling

namespace Centrifugo

def defaultBaseChannel : GoString := str "telekit"

def newAdapter (url : GoString) (baseChannels : List GoString) : Except Failure Adapter := do
  let baseChannel ← withBases 58 defaultBaseChannel baseChannels
  if url = [] then fail "wsURL is required" else .ok ⟨.centrifugo, url, baseChannel⟩

end Centrifugo

namespace Mqtt

def defaultBaseTopic : GoString := str "telekit"

def newMQTTAdapter (endpoint : GoString) (baseTopics : List GoString) : Except Failure Adapter := do
  let baseTopic ← withBases 47 defaultBaseTopic baseTopics
  .ok ⟨.mqtt, endpoint, baseTopic⟩

end Mqtt

namespace Nats

def newAdapterWithBaseSubject (url baseSubject : GoString) : Except Failure Adapter :=
  if url = [] then fail "NATS URL is required"
  else do
    validateRoutePrefix baseSubject 46
    .ok ⟨.nats, url, baseSubject⟩

def defaultBaseSubject : GoString := str "telekit"

def newAdapter (url : GoString) : Except Failure Adapter :=
  newAdapterWithBaseSubject url defaultBaseSubject

end Nats

namespace WebSocket

def trimRight (url : GoString) : GoString := (url.reverse.dropWhile fun b => b = 47).reverse

def newAdapter (scheme : GoString → Except Failure GoString) (baseURL : GoString) :
    Except Failure Adapter := do
  let scheme ← scheme baseURL
  if scheme ≠ str "ws" ∧ scheme ≠ str "wss" then fail "WebSocket URL must use ws or wss"
  else .ok ⟨.websocket, trimRight baseURL, []⟩

end WebSocket

namespace Signaling

namespace Kind

def label : Kind → GoString
  | centrifugo => str "centrifugo:"
  | mqtt => str "mqtt:"
  | nats => str "nats:"
  | websocket => str "websocket:"

end Kind

namespace Adapter

def signalingID (a : Adapter) : GoString :=
  match a.kind with
  | .websocket => a.kind.label ++ a.endpoint
  | _ => a.kind.label ++ a.endpoint ++ str ":" ++ a.base

inductive Built (scheme : GoString → Except Failure GoString) : Adapter → Prop
  | centrifugo {url : GoString} {baseChannels : List GoString} {a : Adapter}
      (ok : Centrifugo.newAdapter url baseChannels = .ok a) : Built scheme a
  | mqtt {endpoint : GoString} {baseTopics : List GoString} {a : Adapter}
      (ok : Mqtt.newMQTTAdapter endpoint baseTopics = .ok a) : Built scheme a
  | nats {url baseSubject : GoString} {a : Adapter}
      (ok : Nats.newAdapterWithBaseSubject url baseSubject = .ok a) : Built scheme a
  | websocket {baseURL : GoString} {a : Adapter}
      (ok : WebSocket.newAdapter scheme baseURL = .ok a) : Built scheme a

/-- A colon in the base route is only found with Centrifugo, and a WebSocket adapter has
no base route. -/
theorem Built.base {scheme : GoString → Except Failure GoString} {a : Adapter}
    (built : Built scheme a) :
    (a.kind ≠ .centrifugo → 58 ∉ a.base) ∧ (a.kind = .websocket → a.base = []) := by
  cases built with
  | centrifugo ok =>
    rw [Centrifugo.newAdapter, bind_ok] at ok
    obtain ⟨base, _, ok⟩ := ok
    rw [guard_ok] at ok
    cases ok.2
    exact ⟨fun other => absurd rfl other, fun other => nomatch other⟩
  | mqtt ok =>
    rw [Mqtt.newMQTTAdapter, bind_ok] at ok
    obtain ⟨base, chosen, ok⟩ := ok
    cases ok
    have valid := withBases_ok (by rfl) chosen
    exact ⟨fun _ => validateRoutePrefix_free valid (by decide) (by decide),
      fun other => nomatch other⟩
  | nats ok =>
    rw [Nats.newAdapterWithBaseSubject, guard_ok, bind_ok] at ok
    obtain ⟨_, _, valid, ok⟩ := ok
    cases ok
    exact ⟨fun _ => validateRoutePrefix_free valid (by decide) (by decide),
      fun other => nomatch other⟩
  | websocket ok =>
    rw [WebSocket.newAdapter, bind_ok] at ok
    obtain ⟨_, _, ok⟩ := ok
    rw [guard_ok] at ok
    cases ok.2
    exact ⟨fun _ => List.not_mem_nil, fun _ => rfl⟩

/-- One endpoint goes on where the other ends, with the first segments of the other's
base channel. -/
def Overlaps (a b : Adapter) : Prop :=
  a.kind = .centrifugo ∧ b.kind = .centrifugo ∧
    ∃ mid, (b.endpoint = a.endpoint ++ 58 :: mid ∧ a.base = mid ++ 58 :: b.base) ∨
      (a.endpoint = b.endpoint ++ 58 :: mid ∧ b.base = mid ++ 58 :: a.base)

end Adapter

structure Site (scheme : GoString → Except Failure GoString) where
  adapter : Adapter
  room : GoString
  built : adapter.Built scheme
  validRoom : validateRoomID room = .ok ()

namespace Site
variable {scheme : GoString → Except Failure GoString}

def leaseKey (site : Site scheme) : GoString :=
  site.adapter.signalingID ++ str ":" ++ site.room

def SameRoute (a b : Site scheme) : Prop := a.adapter = b.adapter ∧ a.room = b.room

def Overlaps (a b : Site scheme) : Prop := a.room = b.room ∧ a.adapter.Overlaps b.adapter

theorem leaseKey_eq (site : Site scheme) : site.leaseKey =
    site.adapter.kind.label ++ (site.adapter.endpoint ++
      (if site.adapter.kind = .websocket then [] else 58 :: site.adapter.base) ++
      58 :: site.room) := by
  have colon : str ":" = [58] := by decide
  unfold leaseKey Adapter.signalingID
  cases kind : site.adapter.kind <;> simp [colon]

theorem room_free (site : Site scheme) : (58 : UInt8) ∉ site.room :=
  matches_free (validateRoomID_matches site.validRoom) (by decide)

theorem leaseKey_kind {a b : Site scheme} (same : a.leaseKey = b.leaseKey) :
    a.adapter.kind = b.adapter.kind := by
  rw [leaseKey_eq, leaseKey_eq] at same
  have first := congrArg List.head? same
  cases kind : a.adapter.kind <;> cases kind' : b.adapter.kind <;>
    first | rfl | simp [kind, kind', Kind.label, str] at first

theorem leaseKey_rest {a b : Site scheme} (same : a.leaseKey = b.leaseKey) :
    a.adapter.kind = b.adapter.kind ∧ a.room = b.room ∧
      (a.adapter.kind = .websocket → a.adapter.endpoint = b.adapter.endpoint) ∧
      (a.adapter.kind ≠ .websocket → a.adapter.endpoint ++ 58 :: a.adapter.base =
        b.adapter.endpoint ++ 58 :: b.adapter.base) := by
  have kinds := leaseKey_kind same
  rw [leaseKey_eq, leaseKey_eq, kinds, List.append_right_inj] at same
  obtain ⟨rest, rooms⟩ := Separated.last_inj a.room_free b.room_free same
  refine ⟨kinds, rooms, ?_, ?_⟩
  · intro web
    rw [kinds] at web
    simpa [web] using rest
  · intro other
    rw [kinds] at other
    simpa [other] using rest

theorem not_overlaps_self {a b : Site scheme} (same : a.SameRoute b) : ¬ a.Overlaps b := by
  rintro ⟨_, _, _, mid, ⟨endpoint, _⟩ | ⟨endpoint, _⟩⟩
  · rw [same.1] at endpoint
    simp at endpoint
  · rw [same.1] at endpoint
    simp at endpoint

/-- Two servers have one key where they serve one route or their endpoints overlap. -/
theorem leaseKey_eq_iff {a b : Site scheme} :
    a.leaseKey = b.leaseKey ↔ a.SameRoute b ∨ a.Overlaps b := by
  constructor
  · intro same
    obtain ⟨kinds, rooms, web, other⟩ := leaseKey_rest same
    have bases := a.built.base
    have bases' := b.built.base
    by_cases websocket : a.adapter.kind = .websocket
    · refine .inl ⟨?_, rooms⟩
      have none := bases.2 websocket
      have none' := bases'.2 (kinds.symm.trans websocket)
      exact Adapter.ext kinds (web websocket) (none.trans none'.symm)
    · have rest := other websocket
      by_cases centrifugo : a.adapter.kind = .centrifugo
      · rcases Separated.cut_cases rest with ⟨endpoint, base⟩ | ⟨mid, cut⟩ | ⟨mid, cut⟩
        · exact .inl ⟨Adapter.ext kinds endpoint base, rooms⟩
        · exact .inr ⟨rooms, centrifugo, kinds.symm.trans centrifugo, mid, .inl cut⟩
        · exact .inr ⟨rooms, centrifugo, kinds.symm.trans centrifugo, mid, .inr cut⟩
      · obtain ⟨endpoint, base⟩ := Separated.last_inj (bases.1 centrifugo)
          (bases'.1 (kinds ▸ centrifugo)) rest
        exact .inl ⟨Adapter.ext kinds endpoint base, rooms⟩
  · rintro (⟨adapters, rooms⟩ | ⟨rooms, kind, kind', mid, ⟨endpoint, base⟩ | ⟨endpoint, base⟩⟩)
    · rw [leaseKey, leaseKey, adapters, rooms]
    · rw [leaseKey_eq, leaseKey_eq, kind, kind', rooms, endpoint, base]
      simp
    · rw [leaseKey_eq, leaseKey_eq, kind, kind', rooms, endpoint, base]
      simp

end Site

section Leases
variable {scheme : GoString → Except Failure GoString} (sites : Nat → Site scheme)

abbrev Owners := GoString → Option Nat

inductive Outcome
  | alreadyListening
  | refused
  | owned
  deriving DecidableEq

/-- `Listen` up to the lease; a server that owns its key is listening already. -/
def listen (owners : Owners) (n : Nat) : Outcome × Owners :=
  match owners (sites n).leaseKey with
  | some m => (if m = n then .alreadyListening else .refused, owners)
  | none => (.owned, Function.update owners (sites n).leaseKey (some n))

def giveBack (owners : Owners) (n : Nat) : Owners :=
  if owners (sites n).leaseKey = some n then
    Function.update owners (sites n).leaseKey none
  else owners

inductive LeaseOp
  | listen (n : Nat)
  | giveBack (n : Nat)

def leaseStep (owners : Owners) : LeaseOp → Owners
  | .listen n => (listen sites owners n).2
  | .giveBack n => giveBack sites owners n

def leaseRun (ops : List LeaseOp) : Owners := ops.foldl (leaseStep sites) fun _ => none

def Listening (owners : Owners) (n : Nat) : Prop := owners (sites n).leaseKey = some n

def Keyed (owners : Owners) : Prop := ∀ key n, owners key = some n → key = (sites n).leaseKey

variable {sites}

theorem Keyed.step {owners : Owners} (keyed : Keyed sites owners) (op : LeaseOp) :
    Keyed sites (leaseStep sites owners op) := by
  intro key n owned
  cases op with
  | listen m =>
    simp only [leaseStep, listen] at owned
    split at owned
    · exact keyed key n owned
    · simp only [Function.update_apply] at owned
      split_ifs at owned with same
      · cases owned
        exact same
      · exact keyed key n owned
  | giveBack m =>
    simp only [leaseStep, giveBack] at owned
    split_ifs at owned with own
    · rw [Function.update_apply] at owned
      split_ifs at owned with same
      exact keyed key n owned
    · exact keyed key n owned

theorem leaseRun_keyed (ops : List LeaseOp) : Keyed sites (leaseRun sites ops) := by
  suffices always : ∀ owners, Keyed sites owners →
      Keyed sites (ops.foldl (leaseStep sites) owners) from
    always _ fun _ _ none => nomatch none
  induction ops with
  | nil => exact fun _ keyed => keyed
  | cons op ops ih => exact fun owners keyed => ih _ (keyed.step op)

theorem Keyed.refused {owners : Owners} (keyed : Keyed sites owners) {n : Nat}
    (refused : (listen sites owners n).1 = .refused) :
    ∃ m, m ≠ n ∧ Listening sites owners m ∧ (sites m).leaseKey = (sites n).leaseKey := by
  unfold listen at refused
  cases found : owners (sites n).leaseKey with
  | none => simp [found] at refused
  | some m =>
    have key := keyed _ m found
    refine ⟨m, ?_, by rw [Listening, ← key, found], key.symm⟩
    rintro rfl
    simp [found] at refused

theorem second_refused {m n : Nat} (other : m ≠ n)
    (same : (sites m).leaseKey = (sites n).leaseKey) :
    (listen sites (leaseRun sites [.listen m]) n).1 = .refused := by
  simp [leaseRun, leaseStep, listen, same, other]

theorem listening_first {m k : Nat} (listening : Listening sites (leaseRun sites [.listen m]) k) :
    k = m := by
  simp only [Listening, leaseRun, leaseStep, listen, List.foldl_cons, List.foldl_nil,
    Function.update_apply] at listening
  split_ifs at listening
  cases listening
  rfl

theorem lease_keys_identify_iff (sites : Nat → Site scheme) :
    ((∀ m n, (sites m).leaseKey = (sites n).leaseKey → (sites m).SameRoute (sites n)) ↔
      ∀ m n, ¬ (sites m).Overlaps (sites n)) ∧
    ((∀ ops n, (listen sites (leaseRun sites ops) n).1 = .refused →
        ∃ m, m ≠ n ∧ Listening sites (leaseRun sites ops) m ∧ (sites m).SameRoute (sites n)) ↔
      ∀ m n, ¬ (sites m).Overlaps (sites n)) := by
  constructor
  · constructor
    · intro identify m n overlaps
      exact Site.not_overlaps_self (identify m n (Site.leaseKey_eq_iff.mpr (.inr overlaps))) overlaps
    · intro apart m n same
      exact (Site.leaseKey_eq_iff.mp same).resolve_right (apart m n)
  · constructor
    · intro justified m n overlaps
      have different : ¬ (sites m).SameRoute (sites n) :=
        fun same => Site.not_overlaps_self same overlaps
      have other : m ≠ n := by
        rintro rfl
        exact different ⟨rfl, rfl⟩
      obtain ⟨k, _, listening, same⟩ := justified _ n
        (second_refused other (Site.leaseKey_eq_iff.mpr (.inr overlaps)))
      rw [listening_first listening] at same
      exact different same
    · intro apart ops n refused
      obtain ⟨m, other, listening, same⟩ := (leaseRun_keyed ops).refused refused
      exact ⟨m, other, listening, (Site.leaseKey_eq_iff.mp same).resolve_right (apart m n)⟩

end Leases

namespace Sample

def scheme : GoString → Except Failure GoString := fun _ => .ok (str "ws")

def long : Site scheme where
  adapter := ⟨.centrifugo, str "ws://host/ws", str "sensors:telekit"⟩
  room := str "room1"
  built := .centrifugo
    (by rfl : Centrifugo.newAdapter (str "ws://host/ws") [str "sensors:telekit"] = _)
  validRoom := by rfl

def short : Site scheme where
  adapter := ⟨.centrifugo, str "ws://host/ws:sensors", str "telekit"⟩
  room := str "room1"
  built := .centrifugo (by rfl : Centrifugo.newAdapter (str "ws://host/ws:sensors") [] = _)
  validRoom := by rfl

def sites : Nat → Site scheme := fun n => if n = 0 then long else short

end Sample

/-- A server is refused its room although nobody listens on its channels. -/
theorem colon_in_base_confuses_keys :
    (Sample.sites 0).leaseKey = (Sample.sites 1).leaseKey ∧
    (Sample.sites 0).adapter.endpoint ≠ (Sample.sites 1).adapter.endpoint ∧
    (Sample.sites 0).adapter.base ≠ (Sample.sites 1).adapter.base ∧
    (listen Sample.sites (leaseRun Sample.sites [.listen 0]) 1).1 = .refused := by
  decide

end Telekit.Signaling
