import Mathlib.Data.List.Nodup
import Telekit.CodecMachine

/-! Nonces of a codec. One nonce source never repeats a nonce and stops at its
last counter value, so the nonces of one instance are its prefix with the counters
from one on. `UpdateSecret` keeps the instance when it is given the key in use, but
it makes a new one for a key the codec held before. Two instances of one key are
told apart by their random prefixes alone, so uniqueness over all encryptions
under a key holds for the runs in which a key that comes back draws a prefix it
did not have before. -/

namespace Telekit

theorem NonceSource.next_ok {s s' : NonceSource} {size : Nat} {nonce : Bytes}
    (drawn : s.next size = .ok (nonce, s')) :
    s'.counter.toNat = s.counter.toNat + 1 ∧
      nonce = s.prefixBytes ++ BigEndian.encode 8 (s.counter.toNat + 1) := by
  unfold next at drawn
  split_ifs at drawn with wrong exhausted
  · simp at drawn
  · simp at drawn
  · cases drawn
    have counted : (s.counter + 1).toNat = s.counter.toNat + 1 := by
      have bound := s.counter.toNat_lt
      rw [UInt64.toNat_add, UInt64.toNat_one, Nat.mod_eq_of_lt]
      omega
    exact ⟨counted, by rw [counted]⟩

namespace CodecMachine

def issued (source : NonceSource) : List Bytes :=
  (List.range source.counter.toNat).map fun c => source.prefixBytes ++ BigEndian.encode 8 (c + 1)

def made (s : Shared) (k : Nat) : List Encryption := s.log.filter fun e => decide (e.kit = k)

def Counted (s : Shared) : Prop :=
  ∀ (k : Nat) (kit : Kit), s.kits[k]? = some kit →
    (made s k).map Encryption.nonce = issued kit.kit.nonce

theorem issued_nodup (source : NonceSource) : (issued source).Nodup := by
  refine List.Nodup.map_on (fun a ha b hb equal => ?_) List.nodup_range
  have bound := source.counter.toNat_lt
  rw [List.mem_range] at ha hb
  have suffixes := List.append_cancel_left equal
  have values := congrArg BigEndian.decode suffixes
  rw [BigEndian.decode_encode_of_lt (by norm_num; omega),
    BigEndian.decode_encode_of_lt (by norm_num; omega)] at values
  omega

theorem issued_next {source source' : NonceSource} {size : Nat} {nonce : Bytes}
    (drawn : source.next size = .ok (nonce, source')) :
    issued source' = issued source ++ [nonce] := by
  obtain ⟨counter, rfl⟩ := NonceSource.next_ok drawn
  simp only [issued, counter, NonceSource.next_prefixBytes drawn, List.range_succ, List.map_append,
    List.map_cons, List.map_nil]

section Step
variable {P : Primitives} {s s' : Shared}

theorem Steps.counted {t t' : Thread} (steps : Steps P s t s' t') (counted : Counted s) :
    Counted s' := by
  cases steps with
  | @encrypts i k request o kit current nonce source found present drawn =>
    intro j kit' present'
    simp only [Shared.encrypted, List.getElem?_set] at present'
    simp only [made, Shared.encrypted, List.filter_append, List.map_append]
    split_ifs at present' with same inside
    · subst same
      cases present'
      rw [issued_next drawn, ← counted k kit found]
      simp [made]
    · rw [← counted j kit' present']
      simp [made, same]
  | _ => exact counted

theorem made_fresh (log : ∀ e ∈ s.log, e.Recorded P s) : made s s.kits.length = [] := by
  refine List.filter_eq_nil_iff.mpr fun e member => ?_
  obtain ⟨kit, found, _⟩ := (log e member).kit
  have inside := (List.getElem?_eq_some_iff.mp found).1
  simp only [decide_eq_true_eq]
  omega

theorem rekey_counted {i : Nat} {typ : EncryptionType} {secret : Bytes} {random : Random}
    {kit : EncryptionKit} (made : createEncryptKit P typ secret random = .ok kit)
    (log : ∀ e ∈ s.log, e.Recorded P s) (counted : Counted s) :
    Counted (s.rekey i typ secret kit) := by
  intro k kit' found
  simp only [Shared.rekey, List.getElem?_append] at found
  split_ifs at found with old
  · exact counted k kit' found
  · have last : k = s.kits.length := by
      have inside := (List.getElem?_eq_some_iff.mp found).1
      simp only [List.length_singleton] at inside
      omega
    obtain rfl := List.mem_singleton.mp (List.mem_of_getElem? found)
    obtain ⟨_, _, _, _, zero⟩ := createEncryptKit_ok P made
    have unused : (CodecMachine.made (s.rekey i typ secret kit) s.kits.length) = [] :=
      made_fresh log
    rw [last, unused]
    simp [issued, zero]

theorem Occurs.counted {call : Call} {spawned : List Thread}
    (occurs : Occurs P s call s' spawned) (log : ∀ e ∈ s.log, e.Recorded P s)
    (counted : Counted s) : Counted s' := by
  cases occurs with
  | enters | encrypts | encodes => exact counted
  | @creates _ _ _ _ codec _ created keyed =>
    exact rekey_counted (new_kit created keyed)
      (fun e member => (log e member).grows (addCodec_grows s codec)) counted
  | rekeys present other made => exact rekey_counted made log counted

end Step

section Run
variable {P : Primitives}

theorem run_counted (actions : List (Interleaving.Action Unit Call)) :
    Counted (run P actions).shared := by
  have kept : Invariant P (run P actions) ∧ Counted (run P actions).shared := by
    refine (program P).run_keeps (fun c => Invariant P c ∧ Counted c.shared) ?_ ?_ actions
    · intro c c' kept moved
      refine ⟨moves_invariant kept.1 moved, ?_⟩
      cases moved with
      | stays => exact kept.2
      | advances running moved => exact (advance_steps moved).2.counted kept.2
      | occurs happened => exact (occur_occurs happened).counted kept.1.log kept.2
    · exact ⟨run_invariant [], fun k kit found => by simp at found⟩
  exact kept.2

variable {s : Shared} {k : Nat} {kit : Kit}

theorem made_nonces_nodup (counted : Counted s) (found : s.kits[k]? = some kit) :
    ((made s k).map Encryption.nonce).Nodup := by
  rw [counted k kit found]
  exact issued_nodup _

theorem nonce_of_made (counted : Counted s) {e : Encryption} (member : e ∈ s.log)
    (found : s.kits[e.kit]? = some kit) :
    ∃ c, e.nonce = kit.kit.nonce.prefixBytes ++ BigEndian.encode 8 (c + 1) := by
  have handed : e.nonce ∈ (made s e.kit).map Encryption.nonce :=
    List.mem_map_of_mem (List.mem_filter.mpr ⟨member, by simp⟩)
  rw [counted _ _ found] at handed
  obtain ⟨c, _, equal⟩ := List.mem_map.mp handed
  exact ⟨c, equal.symm⟩

/-- A key that `UpdateSecret` brings back to a codec draws a prefix that no
earlier instance of this key had there. -/
def drawsFresh (c : Interleaving.Config Shared Thread) : Interleaving.Action Unit Call → Bool
  | .event (.updateSecret i typ secret random) =>
    (c.shared.codecs[i]?.any fun o => decide (o.codec.typ = typ ∧ o.codec.secret = secret)) ||
      c.shared.kits.all fun kit => decide (¬ (kit.owner = i ∧ kit.kit.typ = typ ∧
        kit.secret = secret ∧ kit.kit.nonce.prefixBytes = random.read (typ.nonceSize - 8)))
  | _ => true

def Apart (s : Shared) : Prop :=
  ∀ (j k : Nat) (kit kit' : Kit), j < k → s.kits[j]? = some kit → s.kits[k]? = some kit' →
    kit.owner = kit'.owner → kit.kit.typ = kit'.kit.typ → kit.secret = kit'.secret →
    kit.kit.nonce.prefixBytes ≠ kit'.kit.nonce.prefixBytes

theorem Apart.inherits {s' : Shared} (apart : Apart s) (inherits : Inherits s s') : Apart s' := by
  intro j k kit kit' before found found' owner typ secret
  obtain ⟨old, oldFound, o₁, o₂, o₃, _, o₅⟩ := inherits j kit found
  obtain ⟨old', oldFound', n₁, n₂, n₃, _, n₅⟩ := inherits k kit' found'
  rw [o₅, n₅]
  exact apart j k old old' before oldFound oldFound' (by rw [← o₁, owner, n₁])
    (by rw [← o₃, typ, n₃]) (by rw [← o₂, secret, n₂])

theorem Apart.rekey (apart : Apart s) {i : Nat} {typ : EncryptionType}
    {secret : Bytes} {random : Random} {kit : EncryptionKit}
    (made : createEncryptKit P typ secret random = .ok kit)
    (fresh : ∀ old ∈ s.kits, ¬ (old.owner = i ∧ old.kit.typ = typ ∧ old.secret = secret ∧
      old.kit.nonce.prefixBytes = random.read (typ.nonceSize - 8))) :
    Apart (s.rekey i typ secret kit) := by
  obtain ⟨_, kitTyp, _, drawn, _⟩ := createEncryptKit_ok P made
  intro j k first second before found found' owner typ' secret' equal
  simp only [Shared.rekey, List.getElem?_append] at found found'
  split_ifs at found' with old
  · rw [if_pos (by omega)] at found
    exact apart j k first second before found found' owner typ' secret' equal
  · have inside := (List.getElem?_eq_some_iff.mp found').1
    simp only [List.length_singleton] at inside
    rw [if_pos (by omega)] at found
    obtain rfl := List.mem_singleton.mp (List.mem_of_getElem? found')
    refine fresh first (List.mem_of_getElem? found) ⟨owner, typ'.trans kitTyp, secret', ?_⟩
    rw [equal, drawn]

theorem Occurs.apart {s' : Shared} {call : Call} {spawned : List Thread} {threads : List Thread}
    (occurs : Occurs P s call s' spawned) (pool : Pool P s)
    (fresh : drawsFresh ⟨s, threads⟩ (.event call) = true) (apart : Apart s) : Apart s' := by
  cases occurs with
  | enters | encrypts | encodes => exact apart
  | @creates _ _ _ _ codec _ created keyed =>
    have entered : Apart (s.addCodec codec) := apart
    refine entered.rekey (new_kit created keyed) fun old member same => ?_
    obtain ⟨k, found⟩ := List.mem_iff_getElem?.mp member
    obtain ⟨o, present⟩ := (pool.kits k old found).owner
    have inside := (List.getElem?_eq_some_iff.mp present).1
    omega
  | rekeys present other made =>
    simp only [drawsFresh, present, Option.any_some, other, decide_false, Bool.false_or,
      List.all_eq_true, decide_eq_true_eq] at fresh
    exact apart.rekey made fresh

theorem run_apart (actions : List (Interleaving.Action Unit Call))
    (fresh : (program P).along drawsFresh ⟨{}, []⟩ actions = true) :
    Apart (run P actions).shared := by
  have kept : Invariant P (run P actions) ∧ Apart (run P actions).shared := by
    refine (program P).run_along_keeps (fun c => Invariant P c ∧ Apart c.shared) drawsFresh ?_ ?_
      actions fresh
    · intro c a c' kept condition taken
      cases taken with
      | stays => exact kept
      | advances running moved =>
        exact ⟨moves_invariant kept.1 (.advances running moved),
          kept.2.inherits (advance_steps moved).2.inherits⟩
      | occurs happened =>
        exact ⟨moves_invariant kept.1 (.occurs happened),
          (occur_occurs happened).apart kept.1.pool condition kept.2⟩
    · exact ⟨run_invariant [], fun j k kit kit' _ found => by simp at found⟩
  exact kept.2

theorem same_kit_nonces (counted : Counted s) (found : s.kits[k]? = some kit) :
    s.log.Pairwise fun e e' => e.kit = k → e'.kit = k → e.nonce ≠ e'.nonce := by
  have distinct := made_nonces_nodup counted found
  rw [made, List.Nodup, List.pairwise_map, List.pairwise_filter] at distinct
  exact distinct.imp fun apart first second => apart (by simpa using first) (by simpa using second)

theorem other_kit_nonces (pool : Pool P s) (log : ∀ e ∈ s.log, e.Recorded P s) (counted : Counted s)
    (apart : Apart s) {e e' : Encryption} (member : e ∈ s.log) (member' : e' ∈ s.log)
    (codec : e.codec = e'.codec) (typ : e.typ = e'.typ) (secret : e.secret = e'.secret)
    (other : e.kit < e'.kit) : e.nonce ≠ e'.nonce := by
  obtain ⟨kit, found, owner, kitSecret, kitTyp⟩ := (log e member).kit
  obtain ⟨kit', found', owner', kitSecret', kitTyp'⟩ := (log e' member').kit
  obtain ⟨c, nonce⟩ := nonce_of_made counted member found
  obtain ⟨c', nonce'⟩ := nonce_of_made counted member' found'
  have sameTyp : kit.kit.typ = kit'.kit.typ := by rw [kitTyp, kitTyp', typ]
  have sizes := (pool.kits _ _ found).size
  rw [sameTyp, (pool.kits _ _ found').size] at sizes
  intro equal
  rw [nonce, nonce'] at equal
  refine apart _ _ kit kit' other found found' ?_ sameTyp ?_ (List.append_inj equal (by omega)).1
  · rw [owner, owner', codec]
  · rw [kitSecret, kitSecret', secret]

theorem run_log_extends (actions later : List (Interleaving.Action Unit Call)) :
    (run P actions).shared.log <+: (run P (actions ++ later)).shared.log := by
  rw [run, run, (program P).run_append]
  refine (program P).run_keeps (fun c => _ <+: c.shared.log) ?_ (List.prefix_refl _) later
  intro c c' kept moved
  cases moved with
  | stays => exact kept
  | advances running moved =>
    refine kept.trans ?_
    cases (advance_steps moved).2 with
    | encrypts found present drawn => exact List.prefix_append _ _
    | _ => exact List.prefix_refl _
  | occurs happened =>
    rw [(occur_occurs happened).log]
    exact kept

theorem made_length (counted : Counted s) (found : s.kits[k]? = some kit) :
    (made s k).length = kit.kit.nonce.counter.toNat := by
  have lengths := congrArg List.length (counted k kit found)
  simpa [issued] using lengths

theorem made_kit (log : ∀ e ∈ s.log, e.Recorded P s) (some_made : made s k ≠ []) :
    ∃ kit, s.kits[k]? = some kit := by
  obtain ⟨e, member⟩ := List.exists_mem_of_ne_nil _ some_made
  obtain ⟨logged, same⟩ := List.mem_filter.mp member
  obtain ⟨kit, found, _⟩ := (log e logged).kit
  rw [decide_eq_true_eq] at same
  exact ⟨kit, same ▸ found⟩

theorem exhausted_fails (found : s.kits[k]? = some kit)
    (last : kit.kit.nonce.counter.toNat = 2 ^ 64 - 1) (i : Nat) (request : Request) :
    advance P () s (.counter i k request) = some (s, .finished false, []) := by
  have refused : ∃ err, kit.kit.nonce.next kit.kit.typ.nonceSize = .error err := by
    unfold NonceSource.next
    split_ifs with wrong
    · exact ⟨_, rfl⟩
    · exact ⟨_, rfl⟩
  obtain ⟨err, refused⟩ := refused
  simp only [advance, found, refused]

theorem exhausted_stops (actions later : List (Interleaving.Action Unit Call))
    (used : (made (run P actions).shared k).length = 2 ^ 64 - 1) :
    made (run P (actions ++ later)).shared k = made (run P actions).shared k ∧
      ∀ i request, advance P () (run P (actions ++ later)).shared (.counter i k request) =
        some ((run P (actions ++ later)).shared, .finished false, []) := by
  have extends_made : made (run P actions).shared k <+: made (run P (actions ++ later)).shared k :=
    (run_log_extends actions later).filter _
  have nonempty : made (run P (actions ++ later)).shared k ≠ [] := by
    intro empty
    rw [empty, List.prefix_nil] at extends_made
    rw [extends_made] at used
    simp at used
  obtain ⟨kit, found⟩ := made_kit (run_invariant (actions ++ later)).log nonempty
  have total := made_length (run_counted (actions ++ later)) found
  have bound := kit.kit.nonce.counter.toNat_lt
  have longer := extends_made.length_le
  refine ⟨(extends_made.eq_of_length (by omega)).symm, exhausted_fails found (by omega)⟩

/-- In a run in which a key that comes back draws a new prefix, no two encryptions
of a codec under one cipher type and secret use the same nonce, and an instance
that has used its last counter value encrypts nothing more. -/
theorem nonces_unique (actions : List (Interleaving.Action Unit Call))
    (fresh : (program P).along drawsFresh ⟨{}, []⟩ actions = true) :
    ((run P actions).shared.log.Pairwise fun e e' => e.codec = e'.codec → e.typ = e'.typ →
      e.secret = e'.secret → e.nonce ≠ e'.nonce) ∧
    ∀ k, (made (run P actions).shared k).length = 2 ^ 64 - 1 →
      ∀ later, made (run P (actions ++ later)).shared k = made (run P actions).shared k ∧
        ∀ i request, advance P () (run P (actions ++ later)).shared (.counter i k request) =
          some ((run P (actions ++ later)).shared, .finished false, []) := by
  have inv := run_invariant (P := P) actions
  have counted := run_counted (P := P) actions
  have apart := run_apart actions fresh
  refine ⟨?_, fun k used later => exhausted_stops actions later used⟩
  rw [List.pairwise_iff_getElem]
  intro p q hp hq before codec typ secret
  have first := List.getElem_mem hp
  have second := List.getElem_mem hq
  rcases Nat.lt_trichotomy (run P actions).shared.log[p].kit (run P actions).shared.log[q].kit
    with less | same | more
  · exact other_kit_nonces inv.pool inv.log counted apart first second codec typ secret less
  · obtain ⟨kit, found, _⟩ := (inv.log _ first).kit
    have distinct := same_kit_nonces counted found
    rw [List.pairwise_iff_getElem] at distinct
    exact distinct p q hp hq before rfl same.symm
  · exact (other_kit_nonces inv.pool inv.log counted apart second first codec.symm typ.symm
      secret.symm more).symm

end Run

namespace Sample

/-- A codec encrypts under a key, gets another key and the first one again, and
encrypts once more; `random` is what the third instance draws. -/
def returning (random : Random) : List (Interleaving.Action Unit Call) :=
  [.event (.newCodec .chacha20Poly1305 [1] [] UInt8.ofNat), .event (.encrypt 0 [7] []),
    .advance 0 (), .advance 0 (), .advance 0 (),
    .event (.updateSecret 0 .chacha20Poly1305 [2] UInt8.ofNat),
    .event (.updateSecret 0 .chacha20Poly1305 [1] random), .event (.encrypt 0 [8] []),
    .advance 1 (), .advance 1 (), .advance 1 ()]

end Sample

theorem nonces_unique_sample :
    (run Plain.primitives (Sample.returning fun _ => 9)).shared.log.length = 2 ∧
    (run Plain.primitives (Sample.returning fun _ => 9)).shared.log.Pairwise fun e e' =>
      e.codec = e'.codec → e.typ = e'.typ → e.secret = e'.secret → e.nonce ≠ e'.nonce :=
  ⟨by decide +kernel, (nonces_unique _ (by decide +kernel)).1⟩

/-- A key that comes back with the prefix it had repeats its first nonce. -/
theorem returning_key_repeats : ∃ e e', (run Plain.primitives
    (Sample.returning UInt8.ofNat)).shared.log[0]? = some e ∧
    (run Plain.primitives (Sample.returning UInt8.ofNat)).shared.log[1]? = some e' ∧
    e.codec = e'.codec ∧ e.typ = e'.typ ∧ e.secret = e'.secret ∧ e.nonce = e'.nonce := by
  have evaluated : ((run Plain.primitives (Sample.returning UInt8.ofNat)).shared.log[0]?.any
      fun (e : Encryption) =>
      (run Plain.primitives (Sample.returning UInt8.ofNat)).shared.log[1]?.any
      fun (e' : Encryption) =>
        decide (e.codec = e'.codec ∧ e.typ = e'.typ ∧ e.secret = e'.secret ∧
          e.nonce = e'.nonce)) = true := by decide +kernel
  obtain ⟨e, first, rest⟩ := (Option.any_eq_true _ _).mp evaluated
  obtain ⟨e', second, facts⟩ := (Option.any_eq_true _ _).mp rest
  rw [decide_eq_true_eq] at facts
  exact ⟨e, e', first, second, facts⟩

end CodecMachine
end Telekit
