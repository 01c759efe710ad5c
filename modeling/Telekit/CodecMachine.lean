import Telekit.Library.Interleaving
import Telekit.MessageCodec

/-! Codecs under concurrent use. `UpdateSecret` replaces the encryption instance
of a codec under its mutex, while an encryption reads the pointer to the instance
and draws its nonce afterwards, so an instance can be used after it was replaced.
The compare-and-swap loop of the nonce source is a load and a swap. One call of
`EncodeMessage` is one or two encryptions, and another call may come between.

The codecs of all parties are in one pool; those without a key, `&peer.Codec{}`,
too. The log holds every encryption with the nonce it used. -/

namespace Telekit.CodecMachine

structure Kit where
  owner : Nat
  secret : Bytes
  kit : EncryptionKit

structure CodecObject where
  codec : Codec
  kit : Option Nat

/-- What an encryption is asked for: application data or a data frame with its
context, or a part of a message. -/
inductive Request
  | data (data context : Bytes)
  | header (message : Message)
  | payload (message : Message)

structure Encryption where
  codec : Nat
  kit : Nat
  typ : EncryptionType
  secret : Bytes
  nonce : Bytes
  aad : Bytes
  plaintext : Bytes
  request : Request

structure Shared where
  codecs : List CodecObject := []
  kits : List Kit := []
  calls : List (Nat × Message) := []
  log : List Encryption := []

/-- Positions of an encryption: the pointer is read, then the counter, then the
counter is swapped. -/
inductive Thread
  | load (i : Nat) (request : Request)
  | counter (i k : Nat) (request : Request)
  | swap (i k : Nat) (request : Request) (current : UInt64)
  | finished (ok : Bool)

inductive Call
  | zeroCodec
  | newCodec (typ : EncryptionType) (secret aad : Bytes) (random : Random)
  | updateSecret (i : Nat) (typ : EncryptionType) (secret : Bytes) (random : Random)
  | encrypt (i : Nat) (data context : Bytes)
  | encodeMessage (i : Nat) (message : Message)

namespace Request

def plaintext (P : Primitives) : Request → Bytes
  | .data bytes _ => bytes
  | .header m => P.encodeHeader (m.header.getD {})
  | .payload m => P.encodePayload (m.payload.getD {})

def domain : Request → UInt8
  | .data _ _ => aadDomainData
  | .header _ => aadDomainHeader
  | .payload _ => aadDomainPayload

def context (P : Primitives) : Request → Bytes
  | .data _ context => context
  | .header _ => []
  | .payload m => P.encodeHeader (m.header.getD {})

def message : Request → Option Message
  | .data _ _ => none
  | .header m => some m
  | .payload m => some m

/-- The header of a message is encrypted before its payload. -/
def next (i : Nat) : Request → Thread
  | .header m => .load i (.payload m)
  | _ => .finished true

end Request

namespace Shared

def view (s : Shared) (o : CodecObject) : Codec :=
  { o.codec with encryptionKit := (o.kit.bind (s.kits[·]?)).map Kit.kit }

def addCodec (s : Shared) (codec : Codec) : Shared :=
  { s with codecs := s.codecs ++ [⟨codec, none⟩] }

def rekey (s : Shared) (i : Nat) (typ : EncryptionType) (secret : Bytes) (kit : EncryptionKit) :
    Shared :=
  { s with
    kits := s.kits ++ [⟨i, secret, kit⟩]
    codecs := s.codecs.modify i fun o =>
      ⟨{ o.codec with typ := typ, secret := secret }, some s.kits.length⟩ }

def encrypted (P : Primitives) (s : Shared) (i k : Nat) (o : CodecObject) (kit : Kit)
    (nonce : Bytes) (source : NonceSource) (request : Request) : Shared :=
  { s with
    kits := s.kits.set k { kit with kit := { kit.kit with nonce := source } }
    log := s.log ++ [⟨i, k, kit.kit.typ, kit.secret, nonce,
      o.codec.additionalDataFor request.domain (request.context P), request.plaintext P, request⟩] }

end Shared

section Step
variable (P : Primitives)

def advance (_ : Unit) (s : Shared) : Thread → Option (Shared × Thread × List Thread)
  | .finished _ => none
  | .load i request =>
    match s.codecs[i]? with
    | none => none
    | some o =>
      if (request.plaintext P).length = 0 then some (s, .finished false, [])
      else
        match o.kit with
        | none => some (s, .finished false, [])
        | some k => some (s, .counter i k request, [])
  | .counter i k request =>
    match s.kits[k]? with
    | none => none
    | some kit =>
      match kit.kit.nonce.next kit.kit.typ.nonceSize with
      | .error _ => some (s, .finished false, [])
      | .ok _ => some (s, .swap i k request kit.kit.nonce.counter, [])
  | .swap i k request current =>
    match s.kits[k]?, s.codecs[i]? with
    | some kit, some o =>
      if kit.kit.nonce.counter = current then
        match kit.kit.nonce.next kit.kit.typ.nonceSize with
        | .error _ => some (s, .finished false, [])
        | .ok (nonce, source) =>
          some (s.encrypted P i k o kit nonce source request, request.next i, [])
      else some (s, .counter i k request, [])
    | _, _ => none

def occur (s : Shared) : Call → Option (Shared × List Thread)
  | .zeroCodec => some (s.addCodec {}, [])
  | .newCodec typ secret aad random =>
    match Codec.new P typ secret aad random with
    | .error _ => none
    | .ok codec =>
      match codec.encryptionKit with
      | none => none
      | some kit => some ((s.addCodec codec).rekey s.codecs.length typ secret kit, [])
  | .updateSecret i typ secret random =>
    match s.codecs[i]? with
    | none => none
    | some o =>
      if o.codec.typ = typ ∧ o.codec.secret = secret then none
      else
        match createEncryptKit P typ secret random with
        | .error _ => none
        | .ok kit => some (s.rekey i typ secret kit, [])
  | .encrypt i data context => some (s, [.load i (.data data context)])
  | .encodeMessage i m =>
    some ({ s with calls := s.calls ++ [(i, m)] },
      [.load i (if m.encrypt then .header m else .payload m)])

def program : Interleaving.Program Shared Thread Unit Call :=
  ⟨advance P, fun call s => occur P s call⟩

def run (actions : List (Interleaving.Action Unit Call)) : Interleaving.Config Shared Thread :=
  (program P).run ⟨{}, []⟩ actions

inductive Steps (s : Shared) : Thread → Shared → Thread → Prop
  | fails {t : Thread} : Steps s t s (.finished false)
  | loads {i k : Nat} {request : Request} {o : CodecObject} (present : s.codecs[i]? = some o)
      (points : o.kit = some k) : Steps s (.load i request) s (.counter i k request)
  | reads {i k : Nat} {request : Request} {current : UInt64} :
      Steps s (.counter i k request) s (.swap i k request current)
  | retries {i k : Nat} {request : Request} {current : UInt64} :
      Steps s (.swap i k request current) s (.counter i k request)
  | encrypts {i k : Nat} {request : Request} {o : CodecObject} {kit : Kit} {current : UInt64}
      {nonce : Bytes} {source : NonceSource} (found : s.kits[k]? = some kit)
      (present : s.codecs[i]? = some o)
      (drawn : kit.kit.nonce.next kit.kit.typ.nonceSize = .ok (nonce, source)) :
      Steps s (.swap i k request current) (s.encrypted P i k o kit nonce source request)
        (request.next i)

inductive Occurs (s : Shared) : Call → Shared → List Thread → Prop
  | enters : Occurs s .zeroCodec (s.addCodec {}) []
  | creates {typ : EncryptionType} {secret aad : Bytes} {random : Random} {codec : Codec}
      {kit : EncryptionKit} (created : Codec.new P typ secret aad random = .ok codec)
      (keyed : codec.encryptionKit = some kit) :
      Occurs s (.newCodec typ secret aad random)
        ((s.addCodec codec).rekey s.codecs.length typ secret kit) []
  | rekeys {i : Nat} {o : CodecObject} {typ : EncryptionType} {secret : Bytes} {random : Random}
      {kit : EncryptionKit} (present : s.codecs[i]? = some o)
      (other : ¬ (o.codec.typ = typ ∧ o.codec.secret = secret))
      (made : createEncryptKit P typ secret random = .ok kit) :
      Occurs s (.updateSecret i typ secret random) (s.rekey i typ secret kit) []
  | encrypts {i : Nat} {data context : Bytes} :
      Occurs s (.encrypt i data context) s [.load i (.data data context)]
  | encodes {i : Nat} {m : Message} {request : Request} (part : request.message = some m) :
      Occurs s (.encodeMessage i m) { s with calls := s.calls ++ [(i, m)] } [.load i request]

variable {P}

theorem advance_steps {s s' : Shared} {t t' : Thread} {spawned : List Thread}
    (moved : advance P () s t = some (s', t', spawned)) : spawned = [] ∧ Steps P s t s' t' := by
  cases t with
  | finished ok => simp [advance] at moved
  | load i request =>
    simp only [advance] at moved
    split at moved
    · cases moved
    next o present =>
      split_ifs at moved
      · cases moved
        exact ⟨rfl, .fails⟩
      · split at moved
        · cases moved
          exact ⟨rfl, .fails⟩
        next k points =>
          cases moved
          exact ⟨rfl, .loads present points⟩
  | counter i k request =>
    simp only [advance] at moved
    split at moved
    · cases moved
    · split at moved
      · cases moved
        exact ⟨rfl, .fails⟩
      · cases moved
        exact ⟨rfl, .reads⟩
  | swap i k request current =>
    simp only [advance] at moved
    split at moved
    next kit o found present =>
      split_ifs at moved
      · split at moved
        · cases moved
          exact ⟨rfl, .fails⟩
        next drawn =>
          cases moved
          exact ⟨rfl, .encrypts found present drawn⟩
      · cases moved
        exact ⟨rfl, .retries⟩
    · cases moved

theorem occur_occurs {s s' : Shared} {call : Call} {spawned : List Thread}
    (happened : occur P s call = some (s', spawned)) : Occurs P s call s' spawned := by
  cases call with
  | zeroCodec =>
    cases happened
    exact .enters
  | newCodec typ secret aad random =>
    simp only [occur] at happened
    split at happened
    · cases happened
    next codec created =>
      split at happened
      · cases happened
      next kit keyed =>
        cases happened
        exact .creates created keyed
  | updateSecret i typ secret random =>
    simp only [occur] at happened
    split at happened
    · cases happened
    next o present =>
      split_ifs at happened with same
      split at happened
      · cases happened
      next kit made =>
        cases happened
        exact .rekeys present same made
  | encrypt i data context =>
    cases happened
    exact .encrypts
  | encodeMessage i m =>
    cases happened
    refine .encodes ?_
    split_ifs <;> rfl

end Step

def Kit.Same (kit kit' : Kit) : Prop :=
  kit'.owner = kit.owner ∧ kit'.secret = kit.secret ∧ kit'.kit.typ = kit.kit.typ ∧
    kit'.kit.key = kit.kit.key ∧ kit'.kit.nonce.prefixBytes = kit.kit.nonce.prefixBytes

def CodecObject.Same (o o' : CodecObject) : Prop :=
  o'.codec.additionalData = o.codec.additionalData ∧ o'.codec.dataAAD = o.codec.dataAAD ∧
    o'.codec.headerAAD = o.codec.headerAAD

structure Grows (s s' : Shared) : Prop where
  kits : ∀ (k : Nat) (kit : Kit), s.kits[k]? = some kit →
    ∃ kit', s'.kits[k]? = some kit' ∧ kit.Same kit'
  codecs : ∀ (i : Nat) (o : CodecObject), s.codecs[i]? = some o →
    ∃ o', s'.codecs[i]? = some o' ∧ o.Same o'
  calls : s.calls ⊆ s'.calls

theorem Kit.Same.refl (kit : Kit) : kit.Same kit := ⟨rfl, rfl, rfl, rfl, rfl⟩

theorem CodecObject.Same.refl (o : CodecObject) : o.Same o := ⟨rfl, rfl, rfl⟩

variable {o : CodecObject}

theorem CodecObject.Same.additionalDataFor {o' : CodecObject} (same : o.Same o') (domain : UInt8)
    (context : Bytes) :
    o'.codec.additionalDataFor domain context = o.codec.additionalDataFor domain context := by
  simp only [Codec.additionalDataFor, same.1, same.2.1, same.2.2]

theorem Grows.refl (s : Shared) : Grows s s :=
  ⟨fun _ kit found => ⟨kit, found, .refl kit⟩, fun _ o found => ⟨o, found, .refl o⟩,
    List.Subset.refl _⟩

theorem Grows.trans {a b c : Shared} (first : Grows a b) (second : Grows b c) : Grows a c := by
  refine ⟨fun k kit found => ?_, fun i o found => ?_, List.Subset.trans first.calls second.calls⟩
  · obtain ⟨kit', found', s₁, s₂, s₃, s₄, s₅⟩ := first.kits k kit found
    obtain ⟨kit'', found'', t₁, t₂, t₃, t₄, t₅⟩ := second.kits k kit' found'
    exact ⟨kit'', found'', t₁.trans s₁, t₂.trans s₂, t₃.trans s₃, t₄.trans s₄, t₅.trans s₅⟩
  · obtain ⟨o', found', s₁, s₂, s₃⟩ := first.codecs i o found
    obtain ⟨o'', found'', t₁, t₂, t₃⟩ := second.codecs i o' found'
    exact ⟨o'', found'', t₁.trans s₁, t₂.trans s₂, t₃.trans s₃⟩

theorem addCodec_grows (s : Shared) (codec : Codec) : Grows s (s.addCodec codec) := by
  refine ⟨(Grows.refl s).kits, fun i o found => ⟨o, ?_, .refl o⟩, List.Subset.refl _⟩
  exact List.getElem?_append_left (List.getElem?_eq_some_iff.mp found).1 ▸ found

theorem rekey_grows (s : Shared) (i : Nat) (typ : EncryptionType) (secret : Bytes)
    (kit : EncryptionKit) : Grows s (s.rekey i typ secret kit) := by
  refine ⟨fun k old found => ⟨old, ?_, .refl old⟩, fun j o found => ?_, List.Subset.refl _⟩
  · exact List.getElem?_append_left (List.getElem?_eq_some_iff.mp found).1 ▸ found
  · simp only [Shared.rekey, List.getElem?_modify, found]
    split_ifs
    · exact ⟨_, rfl, rfl, rfl, rfl⟩
    · exact ⟨_, rfl, .refl o⟩

variable {request : Request}

theorem encrypted_grows {P : Primitives} {s : Shared} {i k : Nat} {kit : Kit} {nonce : Bytes}
    {source : NonceSource} (found : s.kits[k]? = some kit)
    (drawn : kit.kit.nonce.next kit.kit.typ.nonceSize = .ok (nonce, source)) :
    Grows s (s.encrypted P i k o kit nonce source request) := by
  refine ⟨fun j old present => ?_, (Grows.refl s).codecs, List.Subset.refl _⟩
  simp only [Shared.encrypted, List.getElem?_set, (List.getElem?_eq_some_iff.mp found).1]
  split_ifs with same
  · subst same
    rw [found] at present
    cases present
    exact ⟨_, rfl, rfl, rfl, rfl, rfl, NonceSource.next_prefixBytes drawn⟩
  · exact ⟨old, present, .refl old⟩

structure Kit.WellFormed (P : Primitives) (s : Shared) (kit : Kit) : Prop where
  key : kit.kit.key = P.hkdfSha512 kit.secret kit.kit.typ.keySize
  size : kit.kit.typ.nonceSize = kit.kit.nonce.prefixBytes.length + nonceCounterSize
  owner : ∃ o, s.codecs[kit.owner]? = some o

/-- The associated data is short enough for its length byte, what is cached of it
is built from it or empty, and the instance in use holds the secret. -/
structure CodecObject.WellFormed (s : Shared) (i : Nat) (o : CodecObject) : Prop where
  short : o.codec.additionalData.length ≤ 64
  dataAAD : o.codec.dataAAD =
    Codec.buildAdditionalData o.codec.additionalData aadDomainData [] ∨ o.codec.dataAAD = []
  headerAAD : o.codec.headerAAD =
    Codec.buildAdditionalData o.codec.additionalData aadDomainHeader [] ∨ o.codec.headerAAD = []
  current : ∀ k, o.kit = some k → ∃ kit, s.kits[k]? = some kit ∧ kit.owner = i ∧
    kit.secret = o.codec.secret ∧ kit.kit.typ = o.codec.typ

def Request.Asked (s : Shared) (i : Nat) (request : Request) : Prop :=
  ∀ m, request.message = some m → (i, m) ∈ s.calls

structure Encryption.Recorded (P : Primitives) (s : Shared) (e : Encryption) : Prop where
  kit : ∃ kit, s.kits[e.kit]? = some kit ∧ kit.owner = e.codec ∧ kit.secret = e.secret ∧
    kit.kit.typ = e.typ
  aad : ∃ o, s.codecs[e.codec]? = some o ∧
    e.aad = o.codec.additionalDataFor e.request.domain (e.request.context P)
  plaintext : e.plaintext = e.request.plaintext P
  asked : e.request.Asked s e.codec

def Thread.Knows (s : Shared) : Thread → Prop
  | .load i request => request.Asked s i
  | .counter i k request => request.Asked s i ∧ ∃ kit, s.kits[k]? = some kit ∧ kit.owner = i
  | .swap i k request _ => request.Asked s i ∧ ∃ kit, s.kits[k]? = some kit ∧ kit.owner = i
  | .finished _ => True

structure Pool (P : Primitives) (s : Shared) : Prop where
  kits : ∀ (k : Nat) (kit : Kit), s.kits[k]? = some kit → kit.WellFormed P s
  codecs : ∀ (i : Nat) (o : CodecObject), s.codecs[i]? = some o → o.WellFormed s i

structure Invariant (P : Primitives) (c : Interleaving.Config Shared Thread) : Prop where
  pool : Pool P c.shared
  log : ∀ e ∈ c.shared.log, e.Recorded P c.shared
  threads : ∀ t ∈ c.threads, t.Knows c.shared

section Growth
variable {P : Primitives} {s s' : Shared}

theorem Request.Asked.grows {i : Nat} (asked : request.Asked s i) (grows : Grows s s') :
    request.Asked s' i :=
  fun m part => grows.calls (asked m part)

theorem Grows.owned {i k : Nat} (grows : Grows s s')
    (owned : ∃ kit, s.kits[k]? = some kit ∧ kit.owner = i) :
    ∃ kit, s'.kits[k]? = some kit ∧ kit.owner = i := by
  obtain ⟨kit, found, owner⟩ := owned
  obtain ⟨kit', found', same⟩ := grows.kits k kit found
  exact ⟨kit', found', same.1.trans owner⟩

theorem Thread.Knows.grows {t : Thread} (knows : t.Knows s) (grows : Grows s s') : t.Knows s' := by
  cases t with
  | load i request => exact Request.Asked.grows knows grows
  | counter | swap => exact ⟨knows.1.grows grows, grows.owned knows.2⟩
  | finished ok => trivial

theorem Encryption.Recorded.grows {e : Encryption} (recorded : e.Recorded P s)
    (grows : Grows s s') : e.Recorded P s' := by
  obtain ⟨kit, found, owner, secret, typ⟩ := recorded.kit
  obtain ⟨kit', found', same₁, same₂, same₃, _⟩ := grows.kits _ _ found
  obtain ⟨o, present, aad⟩ := recorded.aad
  obtain ⟨o', present', same⟩ := grows.codecs _ _ present
  exact ⟨⟨kit', found', same₁.trans owner, same₂.trans secret, same₃.trans typ⟩,
    ⟨o', present', by rw [aad, same.additionalDataFor]⟩, recorded.plaintext,
    recorded.asked.grows grows⟩

theorem Kit.WellFormed.grows {kit kit' : Kit} (formed : kit.WellFormed P s) (same : kit.Same kit')
    (grows : Grows s s') : kit'.WellFormed P s' := by
  obtain ⟨owner, secret, typ, key, prefixed⟩ := same
  obtain ⟨o, present⟩ := formed.owner
  obtain ⟨o', present', _⟩ := grows.codecs _ _ present
  refine ⟨?_, ?_, o', by rw [owner]; exact present'⟩
  · rw [key, secret, typ]
    exact formed.key
  · rw [typ, prefixed]
    exact formed.size

theorem CodecObject.WellFormed.grows {i : Nat} (formed : o.WellFormed s i) (grows : Grows s s') :
    o.WellFormed s' i := by
  refine ⟨formed.short, formed.dataAAD, formed.headerAAD, fun k points => ?_⟩
  obtain ⟨kit, found, owner, secret, typ⟩ := formed.current k points
  obtain ⟨kit', found', same₁, same₂, same₃, _⟩ := grows.kits _ _ found
  exact ⟨kit', found', same₁.trans owner, same₂.trans secret, same₃.trans typ⟩

def Inherits (s s' : Shared) : Prop :=
  ∀ (k : Nat) (kit' : Kit), s'.kits[k]? = some kit' → ∃ kit, s.kits[k]? = some kit ∧ kit.Same kit'

theorem encrypted_inherits {i k : Nat} {kit : Kit} {nonce : Bytes} {source : NonceSource}
    (found : s.kits[k]? = some kit)
    (drawn : kit.kit.nonce.next kit.kit.typ.nonceSize = .ok (nonce, source)) :
    Inherits s (s.encrypted P i k o kit nonce source request) := by
  intro j kit' present
  simp only [Shared.encrypted, List.getElem?_set] at present
  split_ifs at present with same inside
  · subst same
    cases present
    exact ⟨kit, found, rfl, rfl, rfl, rfl, NonceSource.next_prefixBytes drawn⟩
  · exact ⟨kit', present, .refl kit'⟩

theorem Steps.grows {t t' : Thread} (steps : Steps P s t s' t') : Grows s s' := by
  cases steps with
  | encrypts found present drawn => exact encrypted_grows found drawn
  | _ => exact .refl s

theorem Steps.inherits {t t' : Thread} (steps : Steps P s t s' t') : Inherits s s' := by
  cases steps with
  | encrypts found present drawn => exact encrypted_inherits found drawn
  | _ => exact fun k kit found => ⟨kit, found, .refl kit⟩

theorem Steps.codecs {t t' : Thread} (steps : Steps P s t s' t') : s'.codecs = s.codecs := by
  cases steps <;> rfl

theorem next_knows {i : Nat} (asked : request.Asked s i) : (request.next i).Knows s := by
  cases request with
  | header m => exact fun m' part => asked m' part
  | _ => trivial

theorem Steps.knows {t t' : Thread} (steps : Steps P s t s' t') (pool : Pool P s)
    (knows : t.Knows s) : t'.Knows s' := by
  cases steps with
  | fails => trivial
  | loads present points =>
    obtain ⟨kit, found, owner, _⟩ := (pool.codecs _ _ present).current _ points
    exact ⟨knows, kit, found, owner⟩
  | reads | retries => exact knows
  | encrypts found present drawn =>
    exact (next_knows knows.1).grows (encrypted_grows found drawn)

theorem Steps.recorded {t t' : Thread} (steps : Steps P s t s' t') (knows : t.Knows s)
    (log : ∀ e ∈ s.log, e.Recorded P s) : ∀ e ∈ s'.log, e.Recorded P s' := by
  intro e member
  have grows := steps.grows
  cases steps with
  | encrypts found present drawn =>
    rcases List.mem_append.mp member with old | new
    · exact (log e old).grows grows
    · obtain ⟨kit', found', owner⟩ := knows.2
      obtain rfl := Option.some.inj (found.symm.trans found')
      rw [List.mem_singleton.mp new]
      refine Encryption.Recorded.grows ?_ grows
      exact ⟨⟨_, found, owner, rfl, rfl⟩, ⟨_, present, rfl⟩, rfl, knows.1⟩
  | _ => exact log e member

theorem Steps.pool {t t' : Thread} (steps : Steps P s t s' t') (pool : Pool P s) : Pool P s' := by
  refine ⟨fun k kit' found' => ?_, fun i o present => ?_⟩
  · obtain ⟨kit, found, same⟩ := steps.inherits k kit' found'
    exact (pool.kits k kit found).grows same steps.grows
  · rw [steps.codecs] at present
    exact (pool.codecs i o present).grows steps.grows

theorem Pool.addCodec (pool : Pool P s) {codec : Codec}
    (short : codec.additionalData.length ≤ 64)
    (dataAAD : codec.dataAAD = Codec.buildAdditionalData codec.additionalData aadDomainData [] ∨
      codec.dataAAD = [])
    (headerAAD : codec.headerAAD =
      Codec.buildAdditionalData codec.additionalData aadDomainHeader [] ∨ codec.headerAAD = []) :
    Pool P (s.addCodec codec) := by
  have grows := addCodec_grows s codec
  refine ⟨fun k kit found => (pool.kits k kit found).grows (.refl kit) grows, fun i o present => ?_⟩
  simp only [Shared.addCodec, List.getElem?_append] at present
  split_ifs at present with old
  · exact (pool.codecs i o present).grows grows
  · obtain rfl := List.mem_singleton.mp (List.mem_of_getElem? present)
    exact ⟨short, dataAAD, headerAAD, fun k points => by cases points⟩

theorem Pool.rekey (pool : Pool P s) {i : Nat} (present : s.codecs[i]? = some o)
    {typ : EncryptionType} {secret : Bytes} {random : Random} {kit : EncryptionKit}
    (made : createEncryptKit P typ secret random = .ok kit) :
    Pool P (s.rekey i typ secret kit) := by
  obtain ⟨_, kitTyp, key, prefixed, _⟩ := createEncryptKit_ok P made
  have grows := rekey_grows s i typ secret kit
  have current : (s.rekey i typ secret kit).kits[s.kits.length]? = some ⟨i, secret, kit⟩ := by
    simp [Shared.rekey]
  refine ⟨fun k kit' found => ?_, fun j o' found => ?_⟩
  · simp only [Shared.rekey, List.getElem?_append] at found
    split_ifs at found with old
    · exact (pool.kits k kit' found).grows (.refl kit') grows
    · obtain rfl := List.mem_singleton.mp (List.mem_of_getElem? found)
      obtain ⟨o', present', _⟩ := grows.codecs _ _ present
      refine ⟨by rw [key, kitTyp], ?_, o', present'⟩
      have sizes := EncryptionKit.nonceSize_le kit.typ
      rw [prefixed, Random.read_length, nonceCounterSize, kitTyp]
      rw [kitTyp] at sizes
      omega
  · simp only [Shared.rekey, List.getElem?_modify] at found
    cases old : s.codecs[j]? with
    | none => simp [old] at found
    | some o₀ =>
      rw [old] at found
      have formed := (pool.codecs j o₀ old).grows grows
      split_ifs at found with same
      · subst same
        cases found
        refine ⟨formed.short, formed.dataAAD, formed.headerAAD, fun k points => ?_⟩
        cases points
        exact ⟨_, current, rfl, rfl, kitTyp⟩
      · cases found
        exact formed

theorem new_kit {typ : EncryptionType} {secret aad : Bytes} {random : Random} {codec : Codec}
    {kit : EncryptionKit} (created : Codec.new P typ secret aad random = .ok codec)
    (keyed : codec.encryptionKit = some kit) : createEncryptKit P typ secret random = .ok kit := by
  obtain ⟨_, known, rfl⟩ := Codec.new_ok created
  cases keyed
  exact createEncryptKit_known P known secret random

theorem addCodec_last (codec : Codec) :
    (s.addCodec codec).codecs[s.codecs.length]? = some ⟨codec, none⟩ := by
  simp [Shared.addCodec]

variable {spawned : List Thread} {call : Call}

theorem Occurs.grows (occurs : Occurs P s call s' spawned) : Grows s s' := by
  cases occurs with
  | enters => exact addCodec_grows s {}
  | creates created keyed => exact (addCodec_grows s _).trans (rekey_grows _ _ _ _ _)
  | rekeys present other made => exact rekey_grows _ _ _ _ _
  | encrypts => exact .refl s
  | encodes part => exact ⟨(Grows.refl s).kits, (Grows.refl s).codecs, List.subset_append_left _ _⟩

theorem Occurs.pool (occurs : Occurs P s call s' spawned) (pool : Pool P s) : Pool P s' := by
  have grows := occurs.grows
  cases occurs with
  | enters => exact pool.addCodec (by simp) (.inr rfl) (.inr rfl)
  | creates created keyed =>
    have made := new_kit created keyed
    obtain ⟨short, _, rfl⟩ := Codec.new_ok created
    exact (pool.addCodec short (.inl rfl) (.inl rfl)).rekey (addCodec_last _) made
  | rekeys present other made => exact pool.rekey present made
  | encrypts => exact pool
  | encodes part =>
    exact ⟨fun k kit found => (pool.kits k kit found).grows (.refl kit) grows,
      fun i o present => (pool.codecs i o present).grows grows⟩

theorem Occurs.log (occurs : Occurs P s call s' spawned) : s'.log = s.log := by
  cases occurs <;> rfl

theorem Occurs.knows (occurs : Occurs P s call s' spawned) : ∀ t ∈ spawned, t.Knows s' := by
  intro t member
  cases occurs with
  | encrypts =>
    rw [List.mem_singleton.mp member]
    exact fun m part => by cases part
  | encodes part =>
    rw [List.mem_singleton.mp member]
    intro m' part'
    obtain rfl := Option.some.inj (part.symm.trans part')
    exact List.mem_append_right _ (List.mem_singleton_self _)
  | _ => cases member

end Growth

section Run
variable {P : Primitives}

theorem moves_invariant {c c' : Interleaving.Config Shared Thread} (inv : Invariant P c)
    (moved : (program P).Moves c c') : Invariant P c' := by
  cases moved with
  | stays => exact inv
  | advances running moved =>
    obtain ⟨rfl, steps⟩ := advance_steps moved
    have knows := inv.threads _ (List.mem_of_getElem? running)
    refine ⟨steps.pool inv.pool, steps.recorded knows inv.log, ?_⟩
    exact Interleaving.forall_advance inv.threads
      (fun _ _ _ _ other => other.grows steps.grows) (steps.knows inv.pool knows) (by simp)
  | occurs happened =>
    have occurs := occur_occurs happened
    refine ⟨occurs.pool inv.pool, ?_, ?_⟩
    · rw [occurs.log]
      exact fun e member => (inv.log e member).grows occurs.grows
    · intro t member
      rcases List.mem_append.mp member with old | new
      · exact (inv.threads t old).grows occurs.grows
      · exact occurs.knows t new

theorem run_invariant (actions : List (Interleaving.Action Unit Call)) :
    Invariant P (run P actions) := by
  refine (program P).run_keeps _ (fun c c' => moves_invariant) ?_ actions
  exact ⟨⟨by simp, by simp⟩, by simp, by simp⟩

end Run
end Telekit.CodecMachine
