import AccessGate.Proofs.Permission.Grammar
import AccessGate.Proofs.Permission.Satisfaction

/-!
# Being enough is an order

A step of implication takes away from the effort of a search, so none leads back to where it began
(`Domain.Reaches.effort_lt`), and it leads to names of the domain that are no wildcards. What a
wildcard stands for goes on from its stem, and so does the stem of every wildcard among it
(`Domain.prefix_stem`). Hence names that are enough for each other are the same, and what is enough
for a name is enough for all that the name is enough for, if it is no wildcard or the wildcard of
the whole domain. The main statement is `Domain.satisfies_order`.
-/

namespace AccessGate

open Text (segments)

/-- Administration of a scope implies whatever any action on it implies. -/
theorem mem_boundImplies_admin {action word : String} (h : word ∈ boundImplies action) :
    word ∈ boundImplies "admin" := by
  unfold boundImplies at h
  split at h
  · exact h
  · rw [List.mem_singleton.1 h]
    decide
  · rw [List.mem_singleton.1 h]
    decide
  · cases h

namespace Domain

variable {d : Domain} {a b c name next last : String}

/-! ## Where implication leads -/

/-- A name makes no more effort than the list that it is in. -/
theorem effort_le_efforts {names : List String} (h : name ∈ names) :
    d.effort name ≤ d.efforts names := by
  induction names with
  | nil => cases h
  | cons first names ih =>
    rw [efforts]
    rcases List.mem_cons.1 h with rfl | h
    · exact Nat.le_add_right _ _
    · exact Nat.le_add_left_of_le (ih h)

/-- What a name implies takes less effort. -/
theorem effort_lt_of_mem_implications (h : next ∈ d.implications name) :
    d.effort next < d.effort name := by
  have hle := effort_le_efforts (d := d) h
  have hname := d.efforts_implications name
  omega

/-- What a name reaches takes less effort. -/
theorem Reaches.effort_lt (h : d.Reaches name last) : d.effort last < d.effort name := by
  induction h with
  | step hnext => exact effort_lt_of_mem_implications hnext
  | trans hnext _ ih => exact Nat.lt_trans ih (effort_lt_of_mem_implications hnext)

/-- What is reached from what a name reaches, the name reaches. -/
theorem Reaches.further (h : d.Reaches name next) (h' : d.Reaches next last) :
    d.Reaches name last := by
  induction h with
  | step hnext => exact .trans hnext h'
  | trans hnext _ ih => exact .trans hnext (ih h')

/-- A name that ends in a word without a star is no wildcard. -/
theorem not_wildcard_append (front : String) {word : String} (hne : word ≠ "")
    (hstar : '*' ∉ word.toList) : ¬ [':', '*'] <:+ (front ++ word).toList := by
  rintro ⟨stem, hstem⟩
  have hne' : word.toList ≠ [] := by simpa using hne
  obtain ⟨c, hc⟩ := Option.isSome_iff_exists.1 (List.getLast?_isSome.2 hne')
  have hlast := congrArg List.getLast? hstem
  simp only [String.toList_append, List.getLast?_append, List.getLast?_cons_cons,
    List.getLast?_singleton, hc, Option.some_or, Option.some.injEq] at hlast
  exact hstar (hlast ▸ List.mem_of_getLast? hc)

/-- What a name reaches is a name of the domain and no wildcard. -/
theorem Reaches.shape (h : d.Reaches name last) :
    d.name.toList ++ [':'] <+: last.toList ∧ ¬ [':', '*'] <:+ last.toList := by
  obtain ⟨before, hlast⟩ := h.last_step
  rcases implications_cases hlast with ⟨scope, action, word, -, hword, rfl⟩ | ⟨-, s, -, -, rfl⟩
  · have hwords : ∀ word ∈ boundImplies "admin", word ≠ "" ∧ '*' ∉ word.toList := by decide
    obtain ⟨hne, hstar⟩ := hwords word (mem_boundImplies_admin hword)
    exact ⟨by simp [boundName], not_wildcard_append _ hne hstar⟩
  · have hsuffix : s.suffix ≠ "" ∧ '*' ∉ s.suffix.toList := by cases s <;> decide
    exact ⟨by simp [nameOf, qualify], not_wildcard_append _ hsuffix.1 hsuffix.2⟩

/-! ## What a wildcard stands for -/

/-- The stem of a wildcard ends in a colon, and a star follows it. -/
theorem exists_stem (hwild : [':', '*'] <:+ name.toList) :
    ∃ front, name.toList.dropLast = front ++ [':'] ∧ name.toList = front ++ [':'] ++ ['*'] := by
  obtain ⟨front, hname⟩ := hwild
  have hsplit : name.toList = front ++ [':'] ++ ['*'] := by rw [← hname, List.append_assoc]; rfl
  exact ⟨front, by rw [hsplit, List.dropLast_concat], hsplit⟩

/-- A wildcard that goes on from what ends in a colon does so with its stem. -/
theorem prefix_stem {front : List Char} (hwild : [':', '*'] <:+ name.toList)
    (h : front ++ [':'] <+: name.toList) : front ++ [':'] <+: name.toList.dropLast := by
  obtain ⟨cs, hdrop, hname⟩ := exists_stem hwild
  rw [hname, List.prefix_concat_iff] at h
  rw [hdrop]
  refine h.resolve_left fun hsame => ?_
  obtain ⟨-, hlast⟩ := List.append_inj' hsame rfl
  cases hlast

/-- Wildcards that go on from each other's stem are the same. -/
theorem eq_of_stems (ha : [':', '*'] <:+ a.toList) (hb : [':', '*'] <:+ b.toList)
    (hab : a.toList.dropLast <+: b.toList) (hba : b.toList.dropLast <+: a.toList) : a = b := by
  obtain ⟨fa, hdropa, hnamea⟩ := exists_stem ha
  obtain ⟨fb, hdropb, hnameb⟩ := exists_stem hb
  rw [hdropa] at hab
  rw [hdropb] at hba
  have hab' := prefix_stem hb hab
  have hba' := prefix_stem ha hba
  rw [hdropb] at hab'
  rw [hdropa] at hba'
  have hstem : fa ++ [':'] = fb ++ [':'] := hab'.eq_of_length_le hba'.length_le
  exact String.toList_injective (by rw [hnamea, hnameb, hstem])

theorem toList_qualify_star (d : Domain) :
    (d.qualify "*").toList = d.name.toList ++ [':'] ++ ['*'] := by simp [qualify]

/-- The wildcard of the whole domain is enough for the names that begin with the domain and a
colon, cross-service ones among them. -/
theorem satisfies_qualify_star_iff :
    d.satisfies (d.qualify "*") name = true ↔ d.name.toList ++ [':'] <+: name.toList := by
  have hwild : [':', '*'] <:+ (d.qualify "*").toList :=
    ⟨d.name.toList, by rw [toList_qualify_star, List.append_assoc]; rfl⟩
  rw [satisfies_iff]
  constructor
  · rintro (rfl | ⟨-, hstem, -⟩ | ⟨hnot, -, -⟩)
    · rw [toList_qualify_star]
      exact List.prefix_append _ _
    · rwa [toList_qualify_star, List.dropLast_concat] at hstem
    · exact absurd hwild hnot
  · intro h
    refine .inr (.inl ⟨hwild, ?_, .inr d.qualify_star⟩)
    rwa [toList_qualify_star, List.dropLast_concat]

/-- The wildcard of a domain is enough for every standard permission. -/
theorem satisfies_qualify_star_nameOf (d : Domain) (s : Standard) :
    d.satisfies (d.qualify "*") (d.nameOf s) = true :=
  satisfies_qualify_star_iff.2 (by simp [nameOf, qualify])

/-- The names of a domain begin with the domain and a colon. -/
theorem prefix_of_validate (h : d.validate name = .ok ()) :
    d.name.toList ++ [':'] <+: name.toList := by
  obtain ⟨htwo, hhead, -⟩ := validate_eq_ok_iff.1 h
  match hsegments : segments name, htwo with
  | first :: second :: rest, _ =>
    rw [hsegments] at hhead
    obtain rfl : first = d.name := Option.some.inj hhead
    have hname := Text.ofSegments_segments name
    rw [hsegments] at hname
    rw [← hname]
    simp [Text.ofSegments, Text.join]

/-! ## The order -/

/-- A name is enough for itself. -/
theorem satisfies_refl (d : Domain) (a : String) : d.satisfies a a = true :=
  satisfies_iff.2 (.inl rfl)

/-- Names that are enough for each other are the same. -/
theorem satisfies_antisymm (hab : d.satisfies a b = true) (hba : d.satisfies b a = true) :
    a = b := by
  rcases satisfies_iff.1 hab with hsame | ⟨ha, hstem, -⟩ | ⟨ha, -, hreach⟩
  · exact hsame
  · rcases satisfies_iff.1 hba with hsame | ⟨hb, hstem', -⟩ | ⟨-, -, hreach'⟩
    · exact hsame.symm
    · exact eq_of_stems ha hb hstem hstem'
    · exact absurd ha hreach'.shape.2
  · rcases satisfies_iff.1 hba with hsame | ⟨hb, -, -⟩ | ⟨-, -, hreach'⟩
    · exact hsame.symm
    · exact absurd hb hreach.shape.2
    · exact absurd (hreach.further hreach').effort_lt (Nat.lt_irrefl _)

/-- A name that is no wildcard is enough for all that a name is enough for which it is enough
for. -/
theorem satisfies_trans_of_not_wildcard (ha : ¬ [':', '*'] <:+ a.toList)
    (hab : d.satisfies a b = true) (hbc : d.satisfies b c = true) : d.satisfies a c = true := by
  rcases satisfies_iff.1 hab with rfl | ⟨hwild, -, -⟩ | ⟨-, -, hreach⟩
  · exact hbc
  · exact absurd hwild ha
  · rcases satisfies_iff.1 hbc with rfl | ⟨hb, -, -⟩ | ⟨-, -, hreach'⟩
    · exact hab
    · exact absurd hb hreach.shape.2
    · have hac := hreach.further hreach'
      refine satisfies_iff.2 (.inr (.inr ⟨ha, ?_, hac⟩))
      rintro rfl
      exact absurd hac.effort_lt (Nat.lt_irrefl _)

/-- So is the wildcard of the whole domain. -/
theorem satisfies_trans_of_qualify_star (hab : d.satisfies (d.qualify "*") b = true)
    (hbc : d.satisfies b c = true) : d.satisfies (d.qualify "*") c = true := by
  rw [satisfies_qualify_star_iff] at hab ⊢
  rcases satisfies_iff.1 hbc with rfl | ⟨hb, hstem, -⟩ | ⟨-, -, hreach⟩
  · exact hab
  · exact (prefix_stem hb hab).trans hstem
  · exact hreach.shape.1

/-- **Being enough is an order.** In every domain, each name is enough for itself, and no two names
are enough for each other. What is enough for a name is enough for all that the name is enough for,
if it is no wildcard or the wildcard of the whole domain. And that wildcard is enough for every name
of the domain, cross-service ones included. -/
theorem satisfies_order (d : Domain) :
    (∀ a, d.satisfies a a = true) ∧
    (∀ a b, d.satisfies a b = true → d.satisfies b a = true → a = b) ∧
    (∀ a b c, isWildcard a = false ∨ a = d.qualify "*" →
      d.satisfies a b = true → d.satisfies b c = true → d.satisfies a c = true) ∧
    ∀ name, d.validate name = .ok () → d.satisfies (d.qualify "*") name = true := by
  refine ⟨d.satisfies_refl, fun a b => satisfies_antisymm, fun a b c ha hab hbc => ?_,
    fun name h => satisfies_qualify_star_iff.2 (prefix_of_validate h)⟩
  rcases ha with ha | rfl
  · rw [← Bool.not_eq_true, isWildcard_iff] at ha
    exact satisfies_trans_of_not_wildcard ha hab hbc
  · exact satisfies_trans_of_qualify_star hab hbc

/-- System administration is enough for reading by way of full administration, which is not enough
for system administration; the wildcard of the domain is enough for a cross-service name. -/
theorem satisfies_order_of_state :
    isWildcard "state:admin:system" = false ∧
      state.satisfies "state:admin:system" "state:data:read" = true ∧
      state.satisfies "state:admin:full" "state:admin:system" = false ∧
      state.satisfies "state:*" "state:cross-service:main:read" = true := by
  obtain ⟨-, hantisymm, htrans, hwhole⟩ := satisfies_order state
  have hplain : isWildcard "state:admin:system" = false := by decide
  have hfull : state.satisfies "state:admin:system" "state:admin:full" = true := by decide +kernel
  have hread : state.satisfies "state:admin:full" "state:data:read" = true := by decide +kernel
  have hname : state.validate "state:cross-service:main:read" = .ok () := by
    rw [validate, show state.nameFault? "state:cross-service:main:read" = none by decide +kernel]
  refine ⟨hplain, htrans _ _ _ (.inl hplain) hfull hread, ?_, hwhole _ hname⟩
  rw [Bool.eq_false_iff]
  intro h
  exact absurd (hantisymm _ _ hfull h) (by decide)

-- A wildcard short of the whole domain stands for names, and not for what these imply.
example :
    state.satisfies "state:admin:*" "state:admin:full" = true ∧
      state.satisfies "state:admin:full" "state:data:read" = true ∧
      state.satisfies "state:admin:*" "state:data:read" = false := by decide +kernel

end Domain

end AccessGate
