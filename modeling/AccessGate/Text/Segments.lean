/-!
# Texts cut at a separator

`Text.split` cuts a list of characters at every occurrence of a separator and `Text.join` puts the
parts together again. Splitting loses nothing (`Text.join_split`), no part holds the separator
(`Text.not_mem_of_mem_split`), and parts without it come back as they were (`Text.split_join`).
`Text.segments` is the cut of a name at its colons.
-/

namespace AccessGate.Text

/-- The parts of a text between the occurrences of `sep`; always at least one part. -/
def split (sep : Char) : List Char → List (List Char)
  | [] => [[]]
  | c :: cs =>
    if c = sep then [] :: split sep cs
    else
      match split sep cs with
      | [] => [[c]]
      | part :: parts => (c :: part) :: parts

/-- Parts put together with `sep` between them. -/
def join (sep : Char) : List (List Char) → List Char
  | [] => []
  | [part] => part
  | part :: parts => part ++ sep :: join sep parts

/-- There is always a first part. -/
theorem split_ne_nil (sep : Char) (cs : List Char) : split sep cs ≠ [] := by
  induction cs with
  | nil => simp [split]
  | cons c cs ih =>
    unfold split
    split
    · simp
    · split <;> simp

/-- Splitting loses nothing. -/
theorem join_split (sep : Char) (cs : List Char) : join sep (split sep cs) = cs := by
  induction cs with
  | nil => rfl
  | cons c cs ih =>
    have hne := split_ne_nil sep cs
    unfold split
    by_cases h : c = sep
    · rw [if_pos h]
      cases hs : split sep cs with
      | nil => exact absurd hs hne
      | cons p ps => rw [hs] at ih; simp [join, ih, h]
    · rw [if_neg h]
      cases hs : split sep cs with
      | nil => exact absurd hs hne
      | cons p ps =>
        rw [hs] at ih
        cases ps with
        | nil => simp [join] at ih ⊢; exact ih
        | cons q qs => simp [join] at ih ⊢; exact ih

/-- No part holds the separator. -/
theorem not_mem_of_mem_split {sep : Char} {cs part : List Char} (h : part ∈ split sep cs) :
    sep ∉ part := by
  induction cs generalizing part with
  | nil => simp [split] at h; simp [h]
  | cons c cs ih =>
    unfold split at h
    split at h
    · rcases List.mem_cons.1 h with rfl | h
      · simp
      · exact ih h
    · next hc =>
      split at h
      · simp at h; subst h; simpa using fun he => hc he.symm
      · next p ps hs =>
        rcases List.mem_cons.1 h with rfl | h
        · intro hm
          rcases List.mem_cons.1 hm with he | hm
          · exact hc he.symm
          · exact ih (hs ▸ List.mem_cons_self) hm
        · exact ih (hs ▸ List.mem_cons_of_mem _ h)

/-- A text without the separator is one part. -/
theorem split_of_not_mem {sep : Char} {cs : List Char} (h : sep ∉ cs) : split sep cs = [cs] := by
  induction cs with
  | nil => rfl
  | cons c cs ih =>
    have ⟨h1, h2⟩ := not_or.1 (mt List.mem_cons.2 h)
    simp [split, ih h2, Ne.symm h1]

/-- What comes before the first separator is the first part. -/
theorem split_append {sep : Char} {part : List Char} (h : sep ∉ part) (rest : List Char) :
    split sep (part ++ sep :: rest) = part :: split sep rest := by
  induction part with
  | nil => simp [split]
  | cons c cs ih =>
    have ⟨h1, h2⟩ := not_or.1 (mt List.mem_cons.2 h)
    rw [List.cons_append, split, if_neg (Ne.symm h1), ih h2]

/-- Two texts with the separator between them are cut one by one. -/
theorem split_append_sep (sep : Char) (cs rest : List Char) :
    split sep (cs ++ sep :: rest) = split sep cs ++ split sep rest := by
  induction cs with
  | nil => simp [split]
  | cons c cs ih =>
    rw [List.cons_append, split, split, ih]
    split
    · rfl
    · cases hs : split sep cs with
      | nil => exact absurd hs (split_ne_nil sep cs)
      | cons part parts => rfl

/-- Parts that do not hold the separator come back as they were. -/
theorem split_join {sep : Char} {parts : List (List Char)} (hne : parts ≠ [])
    (h : ∀ part ∈ parts, sep ∉ part) : split sep (join sep parts) = parts := by
  induction parts with
  | nil => exact absurd rfl hne
  | cons p ps ih =>
    cases ps with
    | nil => exact split_of_not_mem (h p List.mem_cons_self)
    | cons q qs =>
      show split sep (p ++ sep :: join sep (q :: qs)) = _
      rw [split_append (h p List.mem_cons_self),
        ih (by simp) fun part hp => h part (List.mem_cons_of_mem _ hp)]

/-- The segments of a name: its parts between colons. -/
def segments (name : String) : List String := (split ':' name.toList).map String.ofList

/-- A name made of segments, with colons between them. -/
def ofSegments (parts : List String) : String :=
  String.ofList (join ':' (parts.map String.toList))

/-- The name made of segments is what writing them with colons between them gives. -/
theorem ofSegments_eq_intercalate (parts : List String) :
    ofSegments parts = ":".intercalate parts := by
  apply String.toList_injective
  rw [ofSegments, String.toList_ofList, String.toList_intercalate]
  induction parts with
  | nil => rfl
  | cons part parts ih =>
    cases parts with
    | nil => exact List.intercalate_singleton.symm
    | cons next parts =>
      show part.toList ++ ':' :: join ':' ((next :: parts).map String.toList) = _
      rw [ih, List.map_cons, List.map_cons, List.map_cons, List.intercalate_cons_cons,
        List.append_assoc]
      rfl

/-- A name is made of its segments. -/
theorem ofSegments_segments (name : String) : ofSegments (segments name) = name := by
  simp [ofSegments, segments, Function.comp_def, join_split]

/-- Parts without separators are the segments of the name that they make. -/
theorem segments_ofSegments {parts : List String} (hne : parts ≠ [])
    (h : ∀ part ∈ parts, ':' ∉ part.toList) : segments (ofSegments parts) = parts := by
  rw [segments, ofSegments, String.toList_ofList, split_join (by simpa using hne)]
  · simp [Function.comp_def]
  · simpa using h

/-- A name is its segments. -/
theorem segments_inj {a b : String} : segments a = segments b ↔ a = b := by
  refine ⟨fun h => ?_, congrArg segments⟩
  rw [← ofSegments_segments a, h, ofSegments_segments]

/-- Every name has a segment. -/
theorem segments_ne_nil (name : String) : segments name ≠ [] := by
  simpa [segments] using split_ne_nil ':' name.toList

/-- No segment holds a colon. -/
theorem not_mem_of_mem_segments {name part : String} (h : part ∈ segments name) :
    ':' ∉ part.toList := by
  obtain ⟨cs, hcs, rfl⟩ := List.mem_map.1 h
  rw [String.toList_ofList]
  exact not_mem_of_mem_split hcs

/-- A text without a colon is one segment. -/
theorem segments_of_not_mem {part : String} (h : ':' ∉ part.toList) : segments part = [part] := by
  rw [segments, split_of_not_mem h, List.map_singleton, String.ofList_toList]

/-- What comes before the first colon is the first segment. -/
theorem segments_append {part : String} (h : ':' ∉ part.toList) (rest : String) :
    segments (part ++ ":" ++ rest) = part :: segments rest := by
  have hlist : (part ++ ":" ++ rest).toList = part.toList ++ ':' :: rest.toList := by simp
  rw [segments, hlist, split_append h, List.map_cons, String.ofList_toList, segments]

/-- Names with a colon between them have the segments of the one and then of the other. -/
theorem segments_append_segments (front rest : String) :
    segments (front ++ ":" ++ rest) = segments front ++ segments rest := by
  have hlist : (front ++ ":" ++ rest).toList = front.toList ++ ':' :: rest.toList := by simp
  rw [segments, hlist, split_append_sep, List.map_append, segments, segments]

/-- What comes after the last colon is the last segment. -/
theorem getLast?_segments {name last : String} (hlast : ':' ∉ last.toList)
    (h : ':' :: last.toList <:+ name.toList) : (segments name).getLast? = some last := by
  obtain ⟨front, hfront⟩ := h
  rw [segments, ← hfront, split_append_sep, split_of_not_mem hlast, List.map_append,
    List.map_singleton, String.ofList_toList, List.getLast?_concat]

end AccessGate.Text
