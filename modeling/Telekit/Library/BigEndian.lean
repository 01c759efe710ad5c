import Mathlib.Data.List.Basic
import Mathlib.Tactic.Ring

/-! Big-endian byte words of a fixed width, and lists of byte strings in which
every entry carries its length in such a word. Both are total functions on
naturals: a number too large for its word keeps only its low bytes, as a Go
conversion to an unsigned type does. The injectivity results therefore assume
that the lengths fit. -/

namespace BigEndian

abbrev Bytes := List UInt8

def encode : (width : Nat) → (n : Nat) → Bytes
  | 0, _ => []
  | width + 1, n => UInt8.ofNat (n / 256 ^ width) :: encode width n

def decode (bytes : Bytes) : Nat :=
  bytes.foldl (fun value byte => value * 256 + byte.toNat) 0

@[simp] theorem encode_length (width n : Nat) : (encode width n).length = width := by
  induction width with
  | zero => rfl
  | succ width ih => simp [encode, ih]

theorem foldl_encode (width n start : Nat) :
    (encode width n).foldl (fun value byte => value * 256 + byte.toNat) start =
      start * 256 ^ width + n % 256 ^ width := by
  induction width generalizing start with
  | zero => simp [encode, Nat.mod_one]
  | succ width ih =>
    have digit : (UInt8.ofNat (n / 256 ^ width)).toNat = n / 256 ^ width % 256 := by
      simp
    rw [encode, List.foldl_cons, ih, digit, pow_succ, Nat.mod_mul]
    ring

theorem decode_encode (width n : Nat) : decode (encode width n) = n % 256 ^ width := by
  rw [decode, foldl_encode, Nat.zero_mul, Nat.zero_add]

theorem decode_encode_of_lt {width n : Nat} (fits : n < 256 ^ width) :
    decode (encode width n) = n := by
  rw [decode_encode, Nat.mod_eq_of_lt fits]

theorem foldl_lt (bytes : Bytes) (start : Nat) :
    bytes.foldl (fun value byte => value * 256 + byte.toNat) start <
      (start + 1) * 256 ^ bytes.length := by
  induction bytes generalizing start with
  | nil => simp
  | cons byte bytes ih =>
    have digit := byte.toNat_lt
    rw [List.foldl_cons, List.length_cons, pow_succ]
    calc
      _ < (start * 256 + byte.toNat + 1) * 256 ^ bytes.length := ih _
      _ ≤ ((start + 1) * 256) * 256 ^ bytes.length := Nat.mul_le_mul_right _ (by omega)
      _ = _ := by ring

theorem decode_lt (bytes : Bytes) : decode bytes < 256 ^ bytes.length := by
  simpa [decode] using foldl_lt bytes 0

theorem decode_replicate_zero (n : Nat) : decode (List.replicate n 0) = 0 := by
  unfold decode
  induction n with
  | zero => rfl
  | succ n ih =>
    rw [List.replicate_succ, List.foldl_cons]
    exact ih

theorem encode_inj {width m n : Nat} (hm : m < 256 ^ width) (hn : n < 256 ^ width)
    (equal : encode width m = encode width n) : m = n := by
  rw [← decode_encode_of_lt hm, ← decode_encode_of_lt hn, equal]

theorem encode_mod (width n : Nat) : encode width (n % 256 ^ width) = encode width n := by
  induction width generalizing n with
  | zero => rfl
  | succ width ih =>
    have digit : UInt8.ofNat (n % 256 ^ (width + 1) / 256 ^ width) =
        UInt8.ofNat (n / 256 ^ width) := by
      apply UInt8.toNat_inj.mp
      rw [pow_succ, Nat.mod_mul_right_div_self]
      simp
    have low : n % 256 ^ (width + 1) % 256 ^ width = n % 256 ^ width :=
      Nat.mod_mod_of_dvd n (pow_dvd_pow 256 (by omega))
    rw [encode, encode, digit, ← ih (n % 256 ^ (width + 1)), low, ih]

def field (content : Bytes) : Bytes := encode 4 content.length ++ content

def fields (contents : List Bytes) : Bytes := contents.flatMap field

@[simp] theorem fields_nil : fields [] = [] := rfl

@[simp] theorem fields_cons (content : Bytes) (rest : List Bytes) :
    fields (content :: rest) = field content ++ fields rest := rfl

/-- A field followed by anything determines its content and what follows. -/
theorem field_append_inj {a b s t : Bytes} (ha : a.length < 2 ^ 32) (hb : b.length < 2 ^ 32)
    (equal : field a ++ s = field b ++ t) : a = b ∧ s = t := by
  simp only [field, List.append_assoc] at equal
  obtain ⟨lengths, contents⟩ := List.append_inj equal (by simp)
  have size : a.length = b.length := encode_inj (by simpa using ha) (by simpa using hb) lengths
  exact List.append_inj contents size

theorem fields_inj {xs ys : List Bytes} (hx : ∀ x ∈ xs, x.length < 2 ^ 32)
    (hy : ∀ y ∈ ys, y.length < 2 ^ 32) (equal : fields xs = fields ys) : xs = ys := by
  induction xs generalizing ys with
  | nil =>
    cases ys with
    | nil => rfl
    | cons y ys =>
      have size := congrArg List.length equal
      simp [field] at size
      omega
  | cons x xs ih =>
    cases ys with
    | nil =>
      have size := congrArg List.length equal
      simp [field] at size
    | cons y ys =>
      simp only [fields_cons] at equal
      obtain ⟨rfl, rest⟩ := field_append_inj (hx x (by simp)) (hy y (by simp)) equal
      rw [ih (fun z hz => hx z (by simp [hz])) (fun z hz => hy z (by simp [hz])) rest]

end BigEndian
