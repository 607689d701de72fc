import AccessGate.Json.Basic
import Mathlib.Data.List.Induction
import Mathlib.Data.List.Nodup

/-!
# The members of an object as a map

`Json.valueOf?` is the value of the first member with a key. Sorting members gives the map in which
of members with one key the last counts (`Json.valueOf?_sortMembers`), and keys ascend strictly
(`Json.sortMembers_pairwise`), so no key is there twice. Where none was there twice before, the
first member with a key is the last one too (`Json.valueOf?_reverse`).
-/

namespace AccessGate.Json

variable {ms : List (String × Json)} {key : String} {v : Json}

/-- The value of the first member with a key. -/
def valueOf? (ms : List (String × Json)) (key : String) : Option Json :=
  (ms.find? (·.1 == key)).map Prod.snd

/-- The first member with a key has its value. -/
theorem valueOf?_cons (m : String × Json) (ms : List (String × Json)) (key : String) :
    valueOf? (m :: ms) key = if key = m.1 then some m.2 else valueOf? ms key := by
  by_cases h : key = m.1
  · subst h
    simp [valueOf?]
  · have h' : (m.1 == key) = false := by simpa using fun he => h he.symm
    rw [if_neg h, valueOf?, valueOf?, List.find?_cons, h']

/-- A member with the value of its key is among the members. -/
theorem mem_of_valueOf? (h : valueOf? ms key = some v) : (key, v) ∈ ms := by
  obtain ⟨m, hm, rfl⟩ := Option.map_eq_some_iff.1 h
  have hkey : m.1 = key := by simpa using List.find?_some hm
  rw [← hkey]
  exact List.mem_of_find?_eq_some hm

/-- Where no key is there twice, a member has the value of its key. -/
theorem valueOf?_eq_some_iff (hnd : (ms.map Prod.fst).Nodup) :
    valueOf? ms key = some v ↔ (key, v) ∈ ms := by
  refine ⟨mem_of_valueOf?, fun hmem => ?_⟩
  induction ms with
  | nil => cases hmem
  | cons m ms ih =>
    obtain ⟨hnot, hnd⟩ := List.nodup_cons.1 hnd
    rw [valueOf?_cons]
    rcases List.mem_cons.1 hmem with rfl | hmem
    · exact if_pos rfl
    · have hne : key ≠ m.1 := by
        rintro rfl
        exact hnot (List.mem_map.2 ⟨_, hmem, rfl⟩)
      rw [if_neg hne]
      exact ih hnd hmem

/-- Where no key is there twice, the order of the members does not matter. -/
theorem valueOf?_reverse (hnd : (ms.map Prod.fst).Nodup) (key : String) :
    valueOf? ms.reverse key = valueOf? ms key := by
  have hnd' : (ms.reverse.map Prod.fst).Nodup := by
    rw [List.map_reverse]
    exact List.nodup_reverse.2 hnd
  refine Option.ext fun v => ?_
  rw [valueOf?_eq_some_iff hnd', valueOf?_eq_some_iff hnd, List.mem_reverse]

/-- Members with other keys can be left out. -/
theorem valueOf?_filter {p : String → Bool} (hp : p key = true) (ms : List (String × Json)) :
    valueOf? (ms.filter fun m => p m.1) key = valueOf? ms key := by
  induction ms with
  | nil => rfl
  | cons m ms ih =>
    rw [valueOf?_cons]
    cases hm : p m.1 with
    | true => simp only [List.filter_cons, hm, if_true, valueOf?_cons, ih]
    | false =>
      have hne : key ≠ m.1 := by
        rintro rfl
        rw [hp] at hm
        cases hm
      simp only [List.filter_cons, hm, Bool.false_eq_true, if_false, if_neg hne, ih]

/-! ## Sorted members -/

/-- What is among members with one inserted is that member or was among them. -/
theorem mem_insertMember {k : String} {m : String × Json} (h : m ∈ insertMember k v ms) :
    m = (k, v) ∨ m ∈ ms := by
  induction ms with
  | nil => exact .inl (List.mem_singleton.1 h)
  | cons n ms ih =>
    unfold insertMember at h
    split at h
    · rcases List.mem_cons.1 h with h | h
      · exact .inl h
      · exact .inr (List.mem_cons_of_mem _ h)
    · split at h
      · rcases List.mem_cons.1 h with h | h
        · exact .inl h
        · exact .inr h
      · rcases List.mem_cons.1 h with h | h
        · exact .inr (h ▸ List.mem_cons_self)
        · exact (ih h).imp_right (List.mem_cons_of_mem _)

/-- An inserted member has its key, and the others keep theirs. -/
theorem valueOf?_insertMember (k : String) (v : Json) (ms : List (String × Json)) (key : String) :
    valueOf? (insertMember k v ms) key = if key = k then some v else valueOf? ms key := by
  induction ms with
  | nil => exact valueOf?_cons _ _ _
  | cons m ms ih =>
    unfold insertMember
    split
    · next hk =>
      rw [valueOf?_cons, valueOf?_cons, ← hk]
      by_cases h : key = k
      · rw [if_pos h, if_pos h]
      · rw [if_neg h, if_neg h, if_neg h]
    · next hk =>
      split
      · exact valueOf?_cons _ _ _
      · rw [valueOf?_cons, valueOf?_cons, ih]
        by_cases h : key = k
        · have hne : key ≠ m.1 := fun he => hk (h.symm.trans he)
          rw [if_neg hne, if_pos h, if_pos h]
        · rw [if_neg h, if_neg h]

/-- One more member is inserted last, so it wins. -/
theorem sortMembers_concat (ms : List (String × Json)) (m : String × Json) :
    sortMembers (ms ++ [m]) = insertMember m.1 m.2 (sortMembers ms) := by
  rw [sortMembers, List.foldl_append]
  rfl

/-- Of members with one key, the last counts. -/
theorem valueOf?_sortMembers (ms : List (String × Json)) (key : String) :
    valueOf? (sortMembers ms) key = valueOf? ms.reverse key := by
  induction ms using List.reverseRecOn with
  | nil => rfl
  | append_singleton ms m ih =>
    rw [sortMembers_concat, valueOf?_insertMember, List.reverse_append, List.reverse_singleton,
      List.singleton_append, valueOf?_cons, ih]

/-- Inserting keeps members sorted. -/
theorem insertMember_pairwise (k : String) (v : Json) (h : ms.Pairwise (·.1 < ·.1)) :
    (insertMember k v ms).Pairwise (·.1 < ·.1) := by
  induction ms with
  | nil => exact List.pairwise_singleton _ _
  | cons m ms ih =>
    obtain ⟨hm, hms⟩ := List.pairwise_cons.1 h
    unfold insertMember
    split
    · next hk =>
      refine List.pairwise_cons.2 ⟨fun n hn => ?_, hms⟩
      rw [hk]
      exact hm n hn
    · next hk =>
      split
      · next hlt =>
        refine List.pairwise_cons.2 ⟨fun n hn => ?_, h⟩
        rcases List.mem_cons.1 hn with rfl | hn
        · exact hlt
        · exact String.lt_trans hlt (hm n hn)
      · next hnlt =>
        refine List.pairwise_cons.2 ⟨fun n hn => ?_, ih hms⟩
        rcases mem_insertMember hn with rfl | hn
        · exact Decidable.by_contra fun hn =>
            hk (String.le_antisymm (String.not_lt.1 hn) (String.not_lt.1 hnlt))
        · exact hm n hn

/-- The keys of sorted members ascend strictly. -/
theorem sortMembers_pairwise (ms : List (String × Json)) :
    (sortMembers ms).Pairwise (·.1 < ·.1) := by
  induction ms using List.reverseRecOn with
  | nil => exact List.Pairwise.nil
  | append_singleton ms m ih =>
    rw [sortMembers_concat]
    exact insertMember_pairwise _ _ ih

/-- No key is there twice among sorted members. -/
theorem nodup_keys_sortMembers (ms : List (String × Json)) :
    ((sortMembers ms).map Prod.fst).Nodup := by
  refine List.pairwise_map.2 ((sortMembers_pairwise ms).imp fun {m n} h => ?_)
  intro he
  rw [he] at h
  exact String.lt_irrefl _ h

/-! ## Values as maps -/

/-- Members are made canonical one by one. -/
theorem canonicalMembers_eq_map (ms : List (String × Json)) :
    canonicalMembers ms = ms.map fun m => (m.1, m.2.canonical) := by
  induction ms with
  | nil => rw [canonicalMembers, List.map_nil]
  | cons m ms ih =>
    obtain ⟨k, v⟩ := m
    rw [canonicalMembers, ih, List.map_cons]

/-- Making members canonical makes the value under each key canonical. -/
theorem valueOf?_canonicalMembers (ms : List (String × Json)) (key : String) :
    valueOf? (canonicalMembers ms) key = (valueOf? ms key).map canonical := by
  induction ms with
  | nil => rw [canonicalMembers]; rfl
  | cons m ms ih =>
    obtain ⟨k, v⟩ := m
    rw [canonicalMembers, valueOf?_cons, valueOf?_cons, ih]
    by_cases h : key = k
    · rw [if_pos h, if_pos h]
      rfl
    · rw [if_neg h, if_neg h]

/-- The members of an object as a map: under each key the last value as a map. -/
theorem valueOf?_canonical (ms : List (String × Json)) (key : String) :
    valueOf? (object ms).canonical.members key = (valueOf? ms.reverse key).map canonical := by
  rw [canonical, members, valueOf?_sortMembers, canonicalMembers_eq_map, ← List.map_reverse,
    ← canonicalMembers_eq_map, valueOf?_canonicalMembers]

end AccessGate.Json
