import AccessGate.Proofs.Json.Integers
import AccessGate.Proofs.Json.Members

/-!
# How far a value extends

`Json.depth` is how many arrays and objects of a value are open at once at most, and `Json.numbers`
lists the numbers in it; `Json.Readable` bounds both. Neither grows when the value is taken as a map
(`Json.depth_canonical_le`, `Json.numbers_canonical_subset`), and a value taken as a map is one
already (`Json.canonical_canonical`). Proofs about all values go by `Json.induct`, with one case for
each kind of value.
-/

namespace AccessGate.Json

variable {items : List Json} {ms : List (String × Json)} {n : Nat} {x : Number}

/-! ## Induction -/

/-- What holds of an array or object when it holds of all that is in it, and of every other value,
holds of every value. -/
@[elab_as_elim]
theorem induct {P : Json → Prop} (null : P null) (bool : ∀ b, P (bool b))
    (number : ∀ n, P (number n)) (string : ∀ s, P (string s))
    (array : ∀ items, (∀ j ∈ items, P j) → P (array items))
    (object : ∀ ms, (∀ m ∈ ms, P m.2) → P (object ms)) (j : Json) : P j :=
  @Json.rec P (fun items => ∀ j ∈ items, P j) (fun ms => ∀ m ∈ ms, P m.2) (fun m => P m.2)
    null bool number string array object nofun
    (fun _ _ h hs => List.forall_mem_cons.2 ⟨h, hs⟩) nofun
    (fun _ _ h hs => List.forall_mem_cons.2 ⟨h, hs⟩) (fun _ _ h => h) j

/-! ## Depth -/

mutual

/-- How many arrays and objects of a value are open at once at most. -/
def depth : Json → Nat
  | array items => depthItems items + 1
  | object members => depthMembers members + 1
  | null | bool _ | number _ | string _ => 0

/-- The greatest depth of the values of a list. -/
def depthItems : List Json → Nat
  | [] => 0
  | x :: xs => max (depth x) (depthItems xs)

/-- The greatest depth of the values of members. -/
def depthMembers : List (String × Json) → Nat
  | [] => 0
  | (_, v) :: ms => max (depth v) (depthMembers ms)

end

/-- Items are as deep as the deepest of them. -/
theorem depthItems_le_iff : depthItems items ≤ n ↔ ∀ j ∈ items, j.depth ≤ n := by
  induction items with
  | nil => simp [depthItems]
  | cons j items ih => rw [depthItems, Nat.max_le, ih, List.forall_mem_cons]

/-- Members are as deep as the deepest of their values. -/
theorem depthMembers_le_iff : depthMembers ms ≤ n ↔ ∀ m ∈ ms, m.2.depth ≤ n := by
  induction ms with
  | nil => simp [depthMembers]
  | cons m ms ih => rw [depthMembers, Nat.max_le, ih, List.forall_mem_cons]

/-- An array is one level deeper than its items. -/
@[simp] theorem depth_array_le_succ_iff :
    (array items).depth ≤ n + 1 ↔ ∀ j ∈ items, j.depth ≤ n := by
  rw [depth, Nat.add_le_add_iff_right, depthItems_le_iff]

/-- An object is one level deeper than its values. -/
@[simp] theorem depth_object_le_succ_iff :
    (object ms).depth ≤ n + 1 ↔ ∀ m ∈ ms, m.2.depth ≤ n := by
  rw [depth, Nat.add_le_add_iff_right, depthMembers_le_iff]

/-! ## Numbers -/

mutual

/-- The numbers in a value, in their order. -/
def numbers : Json → List Number
  | number n => [n]
  | array items => numbersItems items
  | object members => numbersMembers members
  | null | bool _ | string _ => []

/-- The numbers in the values of a list. -/
def numbersItems : List Json → List Number
  | [] => []
  | x :: xs => numbers x ++ numbersItems xs

/-- The numbers in the values of members. -/
def numbersMembers : List (String × Json) → List Number
  | [] => []
  | (_, v) :: ms => numbers v ++ numbersMembers ms

end

/-- The numbers of an array are those of its items. -/
@[simp] theorem mem_numbers_array : x ∈ (array items).numbers ↔ ∃ j ∈ items, x ∈ j.numbers := by
  rw [numbers]
  induction items with
  | nil => simp [numbersItems]
  | cons j items ih => simp [numbersItems, ih]

/-- The numbers of an object are those of its values. -/
@[simp] theorem mem_numbers_object : x ∈ (object ms).numbers ↔ ∃ m ∈ ms, x ∈ m.2.numbers := by
  rw [numbers]
  induction ms with
  | nil => simp [numbersMembers]
  | cons m ms ih => simp [numbersMembers, ih]

/-- A value that can be read back once it is written: its numbers are integers of 64 bits, and it
nests at most so deep. -/
structure Readable (n : Nat) (j : Json) : Prop where
  integers : ∀ x ∈ j.numbers, x.IsInteger
  depth_le : j.depth ≤ n

/-- What can be read at a depth can be read where more depth is left. -/
theorem Readable.mono {m : Nat} {j : Json} (h : j.Readable n) (hle : n ≤ m) : j.Readable m :=
  ⟨h.integers, Nat.le_trans h.depth_le hle⟩

theorem readable_null : null.Readable n := ⟨nofun, Nat.zero_le _⟩

theorem readable_bool (b : Bool) : (bool b).Readable n := ⟨nofun, Nat.zero_le _⟩

theorem readable_string (s : String) : (string s).Readable n := ⟨nofun, Nat.zero_le _⟩

/-- A whole number of 64 bits can be read. -/
theorem readable_ofInt {i : Int} (h : (Number.integer i).IsInteger) : (ofInt i).Readable n where
  integers x hx := by
    obtain rfl := List.mem_singleton.1 hx
    exact h
  depth_le := Nat.zero_le _

/-- An array can be read if its items can be a level below. -/
theorem readable_array (h : ∀ j ∈ items, j.Readable n) : (array items).Readable (n + 1) where
  integers x hx := by
    obtain ⟨j, hj, hx⟩ := mem_numbers_array.1 hx
    exact (h j hj).integers x hx
  depth_le := depth_array_le_succ_iff.2 fun j hj => (h j hj).depth_le

/-- An object can be read if its values can be a level below. -/
theorem readable_object (h : ∀ m ∈ ms, m.2.Readable n) : (object ms).Readable (n + 1) where
  integers x hx := by
    obtain ⟨m, hm, hx⟩ := mem_numbers_object.1 hx
    exact (h m hm).integers x hx
  depth_le := depth_object_le_succ_iff.2 fun m hm => (h m hm).depth_le

/-! ## Values as maps -/

/-- Items are made canonical one by one. -/
theorem canonicalItems_eq_map (items : List Json) : canonicalItems items = items.map canonical := by
  induction items with
  | nil => rw [canonicalItems, List.map_nil]
  | cons j items ih => rw [canonicalItems, ih, List.map_cons]

/-- Sorted members are members. -/
theorem sortMembers_subset (ms : List (String × Json)) : sortMembers ms ⊆ ms := by
  induction ms using List.reverseRecOn with
  | nil => exact List.Subset.refl _
  | append_singleton ms m ih =>
    rw [sortMembers_concat]
    intro m' hm'
    rcases mem_insertMember hm' with rfl | hm'
    · exact List.mem_append_right _ (List.mem_singleton_self _)
    · exact List.mem_append_left _ (ih hm')

/-- The values of an object as a map are values of the object as maps. -/
theorem exists_of_mem_canonical {m : String × Json} (h : m ∈ (object ms).canonical.members) :
    ∃ m' ∈ ms, m = (m'.1, m'.2.canonical) := by
  rw [canonical, members, canonicalMembers_eq_map] at h
  obtain ⟨m', hm', rfl⟩ := List.mem_map.1 (sortMembers_subset _ h)
  exact ⟨m', hm', rfl⟩

/-- The object that an object is as a map. -/
theorem canonical_object (ms : List (String × Json)) :
    (object ms).canonical = object (object ms).canonical.members := by
  rw [canonical, members]

/-- Nothing gets deeper by being made canonical. -/
theorem depth_canonical_le (j : Json) : j.canonical.depth ≤ j.depth := by
  induction j using induct with
  | null | bool | number | string => exact Nat.le_of_eq (by rw [canonical])
  | array items ih =>
    rw [canonical, canonicalItems_eq_map, depth.eq_def (array items), depth_array_le_succ_iff]
    intro v hv
    obtain ⟨j, hj, rfl⟩ := List.mem_map.1 hv
    exact Nat.le_trans (ih j hj) (depthItems_le_iff.1 (Nat.le_refl _) j hj)
  | object ms ih =>
    rw [canonical_object, depth.eq_def (object ms), depth_object_le_succ_iff]
    intro v hv
    obtain ⟨m, hm, rfl⟩ := exists_of_mem_canonical hv
    exact Nat.le_trans (ih m hm) (depthMembers_le_iff.1 (Nat.le_refl _) m hm)

/-- No number comes in by making something canonical. -/
theorem numbers_canonical_subset (j : Json) : j.canonical.numbers ⊆ j.numbers := by
  induction j using induct with
  | null | bool | number | string => rw [canonical]; exact List.Subset.refl _
  | array items ih =>
    intro x hx
    rw [canonical, canonicalItems_eq_map, mem_numbers_array] at hx
    obtain ⟨v, hv, hx⟩ := hx
    obtain ⟨j, hj, rfl⟩ := List.mem_map.1 hv
    exact mem_numbers_array.2 ⟨j, hj, ih j hj hx⟩
  | object ms ih =>
    intro x hx
    rw [canonical_object, mem_numbers_object] at hx
    obtain ⟨v, hv, hx⟩ := hx
    obtain ⟨m, hm, rfl⟩ := exists_of_mem_canonical hv
    exact mem_numbers_object.2 ⟨m, hm, ih m hm hx⟩

/-- A member with a key beyond all others goes to the end. -/
theorem insertMember_of_lt {k : String} {v : Json} (h : ∀ m ∈ ms, m.1 < k) :
    insertMember k v ms = ms ++ [(k, v)] := by
  induction ms with
  | nil => rfl
  | cons m ms ih =>
    obtain ⟨hm, hms⟩ := List.forall_mem_cons.1 h
    have hne : ¬ k = m.1 := fun he => String.lt_irrefl _ (he ▸ hm)
    have hnlt : ¬ k < m.1 := fun hlt => String.lt_irrefl _ (String.lt_trans hlt hm)
    rw [insertMember, if_neg hne, if_neg hnlt, ih hms]
    rfl

/-- Members in order are sorted as they are. -/
theorem sortMembers_of_pairwise (h : ms.Pairwise (·.1 < ·.1)) : sortMembers ms = ms := by
  induction ms using List.reverseRecOn with
  | nil => rfl
  | append_singleton ms m ih =>
    obtain ⟨hms, -, hlast⟩ := List.pairwise_append.1 h
    have hbeyond : ∀ m' ∈ ms, m'.1 < m.1 := fun m' hm' =>
      hlast m' hm' m (List.mem_singleton_self _)
    rw [sortMembers_concat, ih hms, insertMember_of_lt hbeyond]

/-- A value taken as a map is a map already. -/
theorem canonical_canonical (j : Json) : j.canonical.canonical = j.canonical := by
  induction j using induct with
  | null | bool | number | string => simp only [canonical]
  | array items ih =>
    rw [canonical, canonical, canonicalItems_eq_map, canonicalItems_eq_map, List.map_map]
    exact congrArg Json.array (List.map_congr_left ih)
  | object ms ih =>
    have hvalues : canonicalMembers (object ms).canonical.members =
        (object ms).canonical.members := by
      rw [canonicalMembers_eq_map]
      refine (List.map_congr_left fun v hv => ?_).trans (List.map_id _)
      obtain ⟨m, hm, rfl⟩ := exists_of_mem_canonical hv
      exact Prod.ext rfl (ih m hm)
    have hsorted : (object ms).canonical.members.Pairwise (·.1 < ·.1) := by
      rw [canonical]
      exact sortMembers_pairwise _
    rw [canonical_object, canonical, hvalues, sortMembers_of_pairwise hsorted]

end AccessGate.Json
