/-!
# Finite maps in insertion order

A `Table` is a list of pairs whose keys are distinct; the type carries that. Its view is
`Table.get?`. The main statements give the view of each operation (`Table.get?_insert`,
`Table.get?_erase`, `Table.get?_filter`) and what an insertion does to the number of entries
(`Table.size_insert`).
-/

namespace AccessGate

/-- A finite map from `κ` to `ν`. -/
structure Table (κ ν : Type) where
  entries : List (κ × ν)
  distinct : (entries.map Prod.fst).Nodup

namespace Table

variable {κ ν : Type}

/-- The map without entries. -/
def empty : Table κ ν := ⟨[], .nil⟩

instance : Inhabited (Table κ ν) := ⟨empty⟩

/-- The number of entries. -/
def size (t : Table κ ν) : Nat := t.entries.length

/-- A map without entries. -/
def isEmpty (t : Table κ ν) : Bool := t.entries.isEmpty

/-- The keys, oldest first. -/
def keys (t : Table κ ν) : List κ := t.entries.map Prod.fst

/-- The values, oldest key first. -/
def values (t : Table κ ν) : List ν := t.entries.map Prod.snd

/-- No key stands in a table twice. -/
theorem nodup_keys (t : Table κ ν) : t.keys.Nodup := t.distinct

/-- The map with only the entries that satisfy a test. -/
def filter (p : κ → ν → Bool) (t : Table κ ν) : Table κ ν :=
  ⟨t.entries.filter fun e => p e.1 e.2, t.distinct.sublist (List.filter_sublist.map _)⟩

/-- Filtering by keys filters the keys. -/
theorem keys_filterKeys (t : Table κ ν) (p : κ → Bool) :
    (t.filter fun k _ => p k).keys = t.keys.filter p := by
  simp [keys, filter, List.filter_map, Function.comp_def]

section
variable [DecidableEq κ]

/-- The first value under a key in a list of pairs. -/
def lookup (k : κ) : List (κ × ν) → Option ν
  | [] => none
  | e :: es => if e.1 = k then some e.2 else lookup k es

/-- The value under a key. -/
def get? (t : Table κ ν) (k : κ) : Option ν := lookup k t.entries

/-- Whether a key has a value. -/
def contains (t : Table κ ν) (k : κ) : Bool := (t.get? k).isSome

/-- Puts a value in the place of the key's old one, or at the end. -/
def put (k : κ) (v : ν) : List (κ × ν) → List (κ × ν)
  | [] => [(k, v)]
  | e :: es => if e.1 = k then (k, v) :: es else e :: put k v es

/-- Putting a value under a key adds the key at the end, unless it is there. -/
theorem map_fst_put (k : κ) (v : ν) (es : List (κ × ν)) :
    (put k v es).map Prod.fst = if k ∈ es.map Prod.fst then es.map Prod.fst
      else es.map Prod.fst ++ [k] := by
  induction es with
  | nil => simp [put]
  | cons e es ih =>
    by_cases h : e.1 = k
    · simp [put, h]
    · have h' : ¬ k = e.1 := fun he => h he.symm
      simp only [put, if_neg h, List.map_cons, List.mem_cons, h', false_or, ih]
      split <;> simp

/-- The map with a value under a key, in the old one's place if there was one. -/
def insert (t : Table κ ν) (k : κ) (v : ν) : Table κ ν :=
  ⟨put k v t.entries, by
    rw [map_fst_put]
    split
    · exact t.distinct
    · next h =>
      exact List.nodup_append.2 ⟨t.distinct, by simp, fun a ha b hb hab => by
        simp at hb; subst hb; subst hab; exact h ha⟩⟩

/-- The map without a key. -/
def erase (t : Table κ ν) (k : κ) : Table κ ν := t.filter fun k' _ => k' != k

/-- A map holding the pairs of a list, later pairs winning. -/
def ofList (es : List (κ × ν)) : Table κ ν := es.foldl (fun t e => t.insert e.1 e.2) empty

/-! ## The view of each operation -/

@[simp] theorem get?_empty (k : κ) : (empty : Table κ ν).get? k = none := rfl

/-- A value that was put is found under its key, and the others under theirs. -/
theorem lookup_put (k k' : κ) (v : ν) (es : List (κ × ν)) :
    lookup k' (put k v es) = if k' = k then some v else lookup k' es := by
  induction es with
  | nil => simp [put, lookup, eq_comm]
  | cons e es ih =>
    by_cases h : e.1 = k
    · by_cases h' : k' = k
      · simp [put, lookup, h, h']
      · have : ¬ k = k' := fun he => h' he.symm
        simp [put, lookup, h, h', this]
    · by_cases h' : k' = k
      · subst h'; simp [put, lookup, h, ih]
      · simp [put, lookup, h, ih, h']

/-- An inserted value is found under its key, and the others under theirs. -/
theorem get?_insert (t : Table κ ν) (k k' : κ) (v : ν) :
    (t.insert k v).get? k' = if k' = k then some v else t.get? k' := lookup_put k k' v t.entries

@[simp] theorem get?_insert_self (t : Table κ ν) (k : κ) (v : ν) :
    (t.insert k v).get? k = some v := by simp [get?_insert]

/-- Filtering by keys leaves what is found under the keys that stay. -/
theorem lookup_filter_fst (p : κ → Bool) (k : κ) (es : List (κ × ν)) :
    lookup k (es.filter fun e => p e.1) = if p k then lookup k es else none := by
  induction es with
  | nil => simp [lookup]
  | cons e es ih =>
    by_cases hp : p e.1 <;> by_cases hk : e.1 = k
    · subst hk; simp [lookup, hp]
    · simp [lookup, hp, hk, ih]
    · subst hk; simp [hp, ih]
    · simp [lookup, hp, hk, ih]

/-- Filtering by keys leaves what is found under the keys that stay. -/
theorem get?_filterKeys (t : Table κ ν) (p : κ → Bool) (k : κ) :
    (t.filter fun k' _ => p k').get? k = if p k then t.get? k else none :=
  lookup_filter_fst p k t.entries

/-- What is erased is no longer found, and the others are. -/
theorem get?_erase (t : Table κ ν) (k k' : κ) :
    (t.erase k).get? k' = if k' = k then none else t.get? k' := by
  rw [erase, get?_filterKeys]
  by_cases h : k' = k <;> simp [h]

@[simp] theorem get?_erase_self (t : Table κ ν) (k : κ) : (t.erase k).get? k = none := by
  simp [get?_erase]

/-- What is found is among the entries. -/
theorem mem_of_lookup {k : κ} {v : ν} {es : List (κ × ν)} (h : lookup k es = some v) :
    (k, v) ∈ es := by
  induction es with
  | nil => simp [lookup] at h
  | cons e es ih =>
    unfold lookup at h
    split at h
    · next he => simp at h; subst he; subst h; exact List.mem_cons_self
    · exact List.mem_cons_of_mem _ (ih h)

/-- An entry is found if no key stands there twice. -/
theorem lookup_of_mem {k : κ} {v : ν} {es : List (κ × ν)} (hnd : (es.map Prod.fst).Nodup)
    (h : (k, v) ∈ es) : lookup k es = some v := by
  induction es with
  | nil => simp at h
  | cons e es ih =>
    have ⟨hn, hnd⟩ := List.nodup_cons.1 hnd
    rcases List.mem_cons.1 h with rfl | h
    · simp [lookup]
    · have hne : e.1 ≠ k := fun he => hn (he ▸ List.mem_map_of_mem h)
      simp [lookup, hne, ih hnd h]

/-- A pair is an entry exactly when the key has the value. -/
theorem get?_eq_some_iff (t : Table κ ν) {k : κ} {v : ν} :
    t.get? k = some v ↔ (k, v) ∈ t.entries :=
  ⟨mem_of_lookup, lookup_of_mem t.distinct⟩

/-- A key stands in a table exactly if something is found under it. -/
theorem mem_keys_iff (t : Table κ ν) {k : κ} : k ∈ t.keys ↔ (t.get? k).isSome := by
  constructor
  · intro h
    obtain ⟨⟨k', v⟩, hm, rfl⟩ := List.mem_map.1 h
    rw [t.get?_eq_some_iff.2 hm]; rfl
  · intro h
    obtain ⟨v, hv⟩ := Option.isSome_iff_exists.1 h
    exact List.mem_map_of_mem (t.get?_eq_some_iff.1 hv)

/-- Filtering leaves what is found where it passes. -/
theorem get?_filter (t : Table κ ν) (p : κ → ν → Bool) (k : κ) :
    (t.filter p).get? k = (t.get? k).filter (p k) := by
  cases h : t.get? k with
  | none =>
    cases h' : (t.filter p).get? k with
    | none => rfl
    | some v =>
      have := List.mem_filter.1 ((t.filter p).get?_eq_some_iff.1 h')
      rw [t.get?_eq_some_iff.2 this.1] at h; cases h
  | some v =>
    have hm := t.get?_eq_some_iff.1 h
    by_cases hp : p k v
    · rw [(t.filter p).get?_eq_some_iff.2 (List.mem_filter.2 ⟨hm, hp⟩), Option.filter_some,
        if_pos hp]
    · cases h' : (t.filter p).get? k with
      | none => rw [Option.filter_some, if_neg hp]
      | some w =>
        have hw := List.mem_filter.1 ((t.filter p).get?_eq_some_iff.1 h')
        rw [t.get?_eq_some_iff.2 hw.1] at h
        cases h
        exact absurd hw.2 hp

/-! ## Keys -/

/-- An insertion under a key that has a value leaves the keys in their order. -/
theorem keys_insert_of_get? {t : Table κ ν} {k : κ} {v : ν} (h : t.get? k = some v) (v' : ν) :
    (t.insert k v').keys = t.keys :=
  (map_fst_put k v' t.entries).trans (if_pos (t.mem_keys_iff.2 (by rw [h]; rfl)))

/-- Every entry is found under its key. -/
theorem get?_getElem (t : Table κ ν) {i : Nat} (hi : i < t.entries.length) :
    t.get? t.entries[i].1 = some t.entries[i].2 := t.get?_eq_some_iff.2 (List.getElem_mem hi)

/-- Two maps with the same keys in the same order, and the same view, are the same. -/
theorem ext_get? {t t' : Table κ ν} (hkeys : t.keys = t'.keys) (h : ∀ k, t.get? k = t'.get? k) :
    t = t' := by
  have hlength : t.entries.length = t'.entries.length := by
    simpa [keys] using congrArg List.length hkeys
  have hentries : t.entries = t'.entries := by
    refine List.ext_getElem hlength fun i hi hi' => ?_
    have hkey : t.entries[i].1 = t'.entries[i].1 := by
      simpa [keys, hi, hi'] using congrArg (·[i]?) hkeys
    have hvalue := (h _).symm.trans (t.get?_getElem hi)
    rw [hkey, t'.get?_getElem hi', Option.some.injEq] at hvalue
    exact Prod.ext hkey hvalue.symm
  obtain ⟨entries, distinct⟩ := t
  obtain ⟨entries', distinct'⟩ := t'
  cases hentries
  rfl

/-! ## The number of entries -/

/-- An insertion adds an entry unless the key is there. -/
theorem size_insert (t : Table κ ν) (k : κ) (v : ν) :
    (t.insert k v).size = if t.contains k then t.size else t.size + 1 := by
  have h : (t.insert k v).entries.map Prod.fst = _ := map_fst_put k v t.entries
  have hl := congrArg List.length h
  simp only [List.length_map] at hl
  rw [size, hl]
  by_cases hk : k ∈ t.keys
  · have := t.mem_keys_iff.1 hk
    simp only [keys] at hk
    simp [hk, contains, this, size]
  · have hn : (t.get? k).isSome = false := by
      rw [Bool.eq_false_iff]; exact fun h => hk (t.mem_keys_iff.2 h)
    simp only [keys] at hk
    simp [hk, contains, hn, size]

/-- Taking away a key that has a value leaves one entry less. -/
theorem size_erase {t : Table κ ν} {k : κ} {v : ν} (h : t.get? k = some v) :
    (t.erase k).size + 1 = t.size := by
  have hmem : k ∈ t.keys := t.mem_keys_iff.2 (by rw [h]; rfl)
  have hkeys : (t.erase k).keys = t.keys.erase k :=
    (t.keys_filterKeys _).trans (t.nodup_keys.erase_eq_filter k).symm
  have hlength := congrArg List.length hkeys
  rw [List.length_erase_of_mem hmem] at hlength
  have hpos := List.length_pos_of_mem hmem
  simp only [keys, List.length_map] at hlength hpos
  simp only [size]
  omega

end

end Table

end AccessGate
