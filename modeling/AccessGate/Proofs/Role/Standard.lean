import AccessGate.Proofs.Role.Catalog

/-!
# Which domains have the standard roles

A catalog takes in a list of roles exactly when all of them are sound, their names are free, and no
two have the same (`RoleCatalog.exists_foldlM_register_iff`). The standard roles hold no wildcards
and have six names, so only their permissions decide, and these are names of the domain exactly if
the domain is plain. Together with what the names of a domain are, this is
`RoleCatalog.grammar_exactly`.
-/

namespace AccessGate

namespace RoleCatalog

variable {c c' : RoleCatalog} {d : Domain} {r : Role} {rs : List Role}

/-! ## Taking in a list of roles -/

/-- A role can be registered exactly if it is sound and its name is free. -/
theorem exists_register_iff :
    (∃ c', c.register r = .ok c') ↔ r.Sound c.domain ∧ c.get? r.name = none := by
  simp only [register_eq_ok_iff, exists_and_left, exists_eq, and_true]

/-- After a role was taken in, the names that were free are free but for its own. -/
theorem get?_eq_none_of_register (h : c.register r = .ok c') (name : String) :
    c'.get? name = none ↔ c.get? name = none ∧ name ≠ r.name := by
  obtain ⟨⟨hsound, -⟩, -⟩ := register_eq_ok_iff.1 h
  rw [← offer_of_ok h, get?_offer, Option.or_eq_none_iff]
  simp [hsound, eq_comm]

/-- Registering leaves the domain alone. -/
theorem domain_of_register (h : c.register r = .ok c') : c'.domain = c.domain := by
  rw [← offer_of_ok h, domain_offer]

/-- Roles are all taken in exactly when each is sound, each name is free, and no two have the same
name. -/
theorem exists_foldlM_register_iff :
    (∃ c', rs.foldlM register c = .ok c') ↔
      (∀ r ∈ rs, r.Sound c.domain ∧ c.get? r.name = none) ∧ (rs.map Role.name).Nodup := by
  induction rs generalizing c with
  | nil => exact iff_of_true ⟨c, rfl⟩ ⟨nofun, .nil⟩
  | cons r rs ih =>
    rw [List.foldlM_cons, List.forall_mem_cons, List.map_cons, List.nodup_cons,
      ← exists_register_iff (r := r)]
    cases h : c.register r with
    | error e => exact iff_of_false (by rintro ⟨_, ⟨⟩⟩) (by rintro ⟨⟨⟨_, ⟨⟩⟩, _⟩, _⟩)
    | ok next =>
      show (∃ c', rs.foldlM register next = .ok c') ↔ _
      simp only [ih, domain_of_register h, get?_eq_none_of_register h, Except.ok.injEq, exists_eq',
        true_and]
      constructor
      · rintro ⟨hall, hdistinct⟩
        refine ⟨fun r' hr' => ⟨(hall r' hr').1, (hall r' hr').2.1⟩, fun hmem => ?_, hdistinct⟩
        obtain ⟨r', hr', hname⟩ := List.mem_map.1 hmem
        exact (hall r' hr').2.2 hname
      · rintro ⟨hall, hnew, hdistinct⟩
        refine ⟨fun r' hr' => ⟨(hall r' hr').1, (hall r' hr').2, fun hname => ?_⟩, hdistinct⟩
        exact hnew (hname ▸ List.mem_map_of_mem hr')

/-! ## The standard roles -/

/-- The names of the standard roles. -/
def standardNames : List String :=
  ["system-admin", "admin", "reader", "writer", "service", "monitor"]

/-- The names of the standard roles are the same in every domain. -/
theorem map_name_standardRoles (d : Domain) :
    (standardRoles d).map Role.name = standardNames := rfl

/-- Every standard role has a name. -/
theorem isBlank_of_mem_standardRoles (hr : r ∈ standardRoles d) : Text.isBlank r.name = false := by
  have hall : ∀ name ∈ standardNames, Text.isBlank name = false := by decide
  exact hall _ (map_name_standardRoles d ▸ List.mem_map_of_mem hr)

/-- The standard roles grant standard permissions. -/
theorem grants_of_mem_standardRoles (hr : r ∈ standardRoles d) :
    r.permissions ≠ [] ∧ ∀ p ∈ r.permissions, ∃ s, p = d.nameOf s := by
  simp only [standardRoles, List.mem_cons, List.not_mem_nil, or_false] at hr
  rcases hr with rfl | rfl | rfl | rfl | rfl | rfl <;> simp

/-- The standard roles are sound for a domain whose standard permissions are names. -/
theorem sound_of_mem_standardRoles (hd : ':' ∉ d.name.toList) (hplain : IsPlain d.name)
    (hr : r ∈ standardRoles d) : r.Sound d := by
  obtain ⟨hgrants, hstandard⟩ := grants_of_mem_standardRoles hr
  refine ⟨isBlank_of_mem_standardRoles hr, hgrants, fun p hp => ?_, .inr fun p hp => ?_⟩
  · obtain ⟨s, rfl⟩ := hstandard p hp
    exact Domain.validate_eq_ok_iff.2 (Domain.isName_nameOf hd hplain s)
  · obtain ⟨s, rfl⟩ := hstandard p hp
    exact Domain.isWildcard_nameOf hd s

/-- A domain has the standard roles exactly if it has names. -/
theorem exists_standard_iff : (∃ c, standard d = .ok c) ↔ ∃ name, d.IsName name := by
  rw [standard, exists_foldlM_register_iff, map_name_standardRoles]
  constructor
  · rintro ⟨hall, -⟩
    -- The first role has one permission, and it is accepted.
    have hfirst := (hall _ List.mem_cons_self).1.names _ List.mem_cons_self
    exact ⟨_, Domain.validate_eq_ok_iff.1 hfirst⟩
  · rintro ⟨name, hname⟩
    obtain ⟨hplain, hd⟩ := hname.plain_domain
    exact ⟨fun r hr => ⟨sound_of_mem_standardRoles hd hplain hr, rfl⟩, by decide⟩

/-- **The grammar of names.** A text is accepted as a name of a domain exactly if it is the domain,
any number of segments and a last segment, with colons between them, where no segment is empty or
holds a colon, none but the last holds a star, and the last holds none or is one. So a domain has
names exactly if it is not empty and holds neither a colon nor a star, and exactly then it has the
standard roles. -/
theorem grammar_exactly (d : Domain) :
    (∀ name, d.validate name = .ok () ↔ ∃ middle last,
      name = ":".intercalate (d.name :: (middle ++ [last])) ∧ d.Spelling middle last) ∧
    ((∃ name, d.validate name = .ok ()) ↔
      d.name ≠ "" ∧ ':' ∉ d.name.toList ∧ '*' ∉ d.name.toList) ∧
    ((∃ c, standard d = .ok c) ↔ d.name ≠ "" ∧ ':' ∉ d.name.toList ∧ '*' ∉ d.name.toList) := by
  simp only [Domain.validate_eq_ok_iff, exists_standard_iff]
  exact ⟨fun name => Domain.isName_iff_spelling, Domain.exists_isName_iff, Domain.exists_isName_iff⟩

end RoleCatalog

end AccessGate
