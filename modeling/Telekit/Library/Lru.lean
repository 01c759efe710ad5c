import Mathlib.Data.List.Basic

/-! A least-recently-used cache given only by its interface. The behaviour
assumed of an implementation is stated through a view of its state as a list of
entries, the most recently used first: reading an entry moves it to the front,
and adding one may push out only the entry at the end. -/

namespace Lru

variable {κ ν : Type} [DecidableEq κ]

structure Cache (κ ν : Type) where
  State : Type
  empty : State
  get : State → κ → Option ν × State
  add : State → κ → ν → State

def lookup (k : κ) (entries : List (κ × ν)) : Option ν :=
  (entries.find? fun e => e.1 = k).map Prod.snd

def promote (k : κ) (entries : List (κ × ν)) : List (κ × ν) :=
  match entries.find? fun e => e.1 = k with
  | none => entries
  | some e => e :: entries.eraseP fun e => e.1 = k

def insert (capacity : Nat) (k : κ) (v : ν) (entries : List (κ × ν)) : List (κ × ν) :=
  ((k, v) :: entries.filter fun e => e.1 ≠ k).take capacity

/-- The cache keeps at most `capacity` entries and evicts only the one at the
end of the recency order. -/
structure Evicts (cache : Cache κ ν) (capacity : Nat) where
  view : cache.State → List (κ × ν)
  empty : view cache.empty = []
  get_value : ∀ s k, (cache.get s k).1 = lookup k (view s)
  get_view : ∀ s k, view (cache.get s k).2 = promote k (view s)
  add_view : ∀ s k v, view (cache.add s k v) = insert capacity k v (view s)

/-- The entry is present with at most `r` more recently used entries. -/
def Holds (k : κ) (v : ν) (r : Nat) (entries : List (κ × ν)) : Prop :=
  ∃ before after, entries = before ++ (k, v) :: after ∧ (∀ e ∈ before, e.1 ≠ k) ∧
    before.length ≤ r

variable {entries : List (κ × ν)}

theorem Holds.lookup {k : κ} {v : ν} {r : Nat} (h : Holds k v r entries) :
    Lru.lookup k entries = some v := by
  obtain ⟨before, after, rfl, other, _⟩ := h
  have skip : before.find? (fun e => e.1 = k) = none := by
    simpa [List.find?_eq_none] using fun a b member => other (a, b) member
  simp [Lru.lookup, List.find?_append, skip]

omit [DecidableEq κ] in
theorem Holds.mono {k : κ} {v : ν} {r r' : Nat} (h : Holds k v r entries) (le : r ≤ r') :
    Holds k v r' entries := by
  obtain ⟨before, after, split, other, short⟩ := h
  exact ⟨before, after, split, other, by omega⟩

theorem Holds.insert_self (k : κ) (v : ν) {capacity : Nat} (room : 0 < capacity)
    (entries : List (κ × ν)) : Holds k v 0 (insert capacity k v entries) := by
  obtain ⟨n, rfl⟩ : ∃ n, capacity = n + 1 := ⟨capacity - 1, by omega⟩
  exact ⟨[], (entries.filter fun e => e.1 ≠ k).take n, rfl, by simp, by simp⟩

theorem Holds.promote_self {k : κ} {v : ν} {r : Nat} (h : Holds k v r entries) :
    Holds k v 0 (promote k entries) := by
  obtain ⟨before, after, rfl, other, _⟩ := h
  have skip : before.find? (fun e => e.1 = k) = none := by
    simpa [List.find?_eq_none] using fun a b member => other (a, b) member
  refine ⟨[], (before ++ (k, v) :: after).eraseP (fun e => e.1 = k), ?_, by simp, by simp⟩
  simp [promote, List.find?_append, skip]

theorem Holds.promote_other {k k' : κ} {v : ν} {r : Nat} (h : Holds k v r entries)
    (different : k' ≠ k) : Holds k v (r + 1) (promote k' entries) := by
  obtain ⟨before, after, rfl, other, short⟩ := h
  unfold promote
  split
  · exact ⟨before, after, rfl, other, by omega⟩
  next e found =>
    have key : e.1 = k' := by simpa using List.find?_some found
    have shorter := (List.eraseP_sublist (p := fun e => decide (e.1 = k')) (l := before)).length_le
    have ahead : ∀ x ∈ e :: before.eraseP (fun e => decide (e.1 = k')), x.1 ≠ k := by
      intro x member
      rcases List.mem_cons.mp member with rfl | rest
      · rw [key]
        exact different
      · exact other x (List.eraseP_subset rest)
    by_cases inside : before.any fun e => decide (e.1 = k')
    · refine ⟨e :: before.eraseP (fun e => decide (e.1 = k')), after, ?_, ahead, ?_⟩
      · obtain ⟨x, member, same⟩ := List.any_eq_true.mp inside
        rw [List.eraseP_append_left (p := fun e => decide (e.1 = k')) same _ member,
          List.cons_append]
      · simp only [List.length_cons]
        omega
    · have none : ∀ x ∈ before, ¬ decide (x.1 = k') = true := fun x member same =>
        inside (List.any_eq_true.mpr ⟨x, member, same⟩)
      refine ⟨e :: before, after.eraseP (fun e => decide (e.1 = k')), ?_, ?_, ?_⟩
      · rw [List.eraseP_append_right _ none, List.eraseP_cons_of_neg (by simpa using different.symm),
          List.cons_append]
      · intro x member
        rcases List.mem_cons.mp member with rfl | rest
        · rw [key]
          exact different
        · exact other x rest
      · simp only [List.length_cons]
        omega

theorem Holds.insert_other {k k' : κ} {v v' : ν} {r capacity : Nat} (h : Holds k v r entries)
    (different : k' ≠ k) (room : r + 1 < capacity) :
    Holds k v (r + 1) (insert capacity k' v' entries) := by
  obtain ⟨before, after, rfl, other, short⟩ := h
  have kept := List.length_filter_le (fun e => decide (e.1 ≠ k')) before
  obtain ⟨n, rfl⟩ : ∃ n, capacity = n + 1 := ⟨capacity - 1, by omega⟩
  refine ⟨(k', v') :: before.filter (fun e => e.1 ≠ k'),
    (after.filter (fun e => e.1 ≠ k')).take (n - (before.filter (fun e => e.1 ≠ k')).length - 1),
    ?_, ?_, by simp only [List.length_cons]; omega⟩
  · have fits : (before.filter fun e => decide (e.1 ≠ k')).length + 1 ≤ n := by omega
    simp only [insert, List.filter_append, List.take_succ_cons, List.cons_append]
    rw [List.take_append, List.take_of_length_le (by omega), List.filter_cons_of_pos
      (by simpa using different.symm), List.take_cons (by omega)]
  · intro e member
    rcases List.mem_cons.mp member with rfl | rest
    · exact different
    · exact other e (List.mem_filter.mp rest).1

def listCache (κ ν : Type) [DecidableEq κ] (capacity : Nat) : Cache κ ν where
  State := List (κ × ν)
  empty := []
  get entries k := (lookup k entries, promote k entries)
  add entries k v := insert capacity k v entries

def listCache_evicts (κ ν : Type) [DecidableEq κ] (capacity : Nat) :
    Evicts (listCache κ ν capacity) capacity :=
  ⟨id, rfl, fun _ _ => rfl, fun _ _ => rfl, fun _ _ _ => rfl⟩

end Lru
