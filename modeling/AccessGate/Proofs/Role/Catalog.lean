import AccessGate.Proofs.Permission.Names
import AccessGate.Role

/-!
# What a catalog of roles keeps

A catalog takes in a role exactly when the role is sound and its name is free
(`RoleCatalog.register_eq_ok_iff`), so after any series of roles that were put forward it has, under
each name, the role that it had before, or else the first sound one of that name
(`RoleCatalog.get?_offerAll`). What it lists for a role is the role's permissions with all that they
reach (`RoleCatalog.mem_effective_iff`); without wildcards that is what the permissions are enough
for. The main statement is `RoleCatalog.catalog_agrees`.
-/

namespace AccessGate

open Text (segments)

/-- What a domain asks of a role. -/
structure Role.Sound (d : Domain) (r : Role) : Prop where
  named : Text.isBlank r.name = false
  grants : r.permissions ≠ []
  names : ∀ p ∈ r.permissions, d.validate p = .ok ()
  /-- Only a role that applies everywhere may use wildcards. -/
  wildcards : r.scopeClass = .global ∨ ∀ p ∈ r.permissions, isWildcard p = false

/-- When a role is sound, in one line. -/
theorem Role.sound_iff {d : Domain} {r : Role} :
    Text.isBlank r.name = false ∧ r.permissions ≠ [] ∧ (∀ p ∈ r.permissions, d.accepts p = true) ∧
      (r.scopeClass = .global ∨ ∀ p ∈ r.permissions, isWildcard p = false) ↔ r.Sound d := by
  simp only [Domain.accepts_iff, ← Domain.validate_eq_ok_iff]
  exact ⟨fun ⟨named, grants, names, wildcards⟩ => ⟨named, grants, names, wildcards⟩,
    fun ⟨named, grants, names, wildcards⟩ => ⟨named, grants, names, wildcards⟩⟩

instance (d : Domain) (r : Role) : Decidable (r.Sound d) := decidable_of_iff _ Role.sound_iff

namespace RoleCatalog

variable {c c' : RoleCatalog} {d : Domain} {r role : Role} {name n : String} {e : Error}
  {granted : List String}

/-! ## Taking in a role -/

/-- A role breaks no rule exactly when it is sound and its name is free. -/
theorem fault?_eq_none_iff : c.fault? r = none ↔ r.Sound c.domain ∧ c.get? r.name = none := by
  have hnames : (r.permissions.findSome? fun p => (c.domain.nameFault? p).map (p, ·)) = none ↔
      ∀ p ∈ r.permissions, c.domain.validate p = .ok () := by
    simp only [List.findSome?_eq_none_iff, Option.map_eq_none_iff, Domain.validate_eq_ok_iff,
      Domain.nameFault?_eq_none_iff]
  rw [fault?]
  by_cases hblank : Text.isBlank r.name = true
  · rw [if_pos hblank]
    refine iff_of_false (Option.some_ne_none _) fun ⟨hsound, _⟩ => ?_
    rw [hsound.named] at hblank
    cases hblank
  rw [if_neg hblank]
  by_cases htaken : c.roles.contains r.name = true
  · rw [if_pos htaken]
    refine iff_of_false (Option.some_ne_none _) fun ⟨_, hfree⟩ => ?_
    rw [Table.contains, ← get?, hfree] at htaken
    cases htaken
  rw [if_neg htaken]
  by_cases hempty : r.permissions.isEmpty = true
  · rw [if_pos hempty]
    exact iff_of_false (Option.some_ne_none _) fun ⟨hsound, _⟩ =>
      hsound.grants (List.isEmpty_iff.1 hempty)
  rw [if_neg hempty]
  cases hfound : r.permissions.findSome? fun p => (c.domain.nameFault? p).map (p, ·) with
  | some fault =>
    refine iff_of_false (Option.some_ne_none _) fun ⟨hsound, _⟩ => ?_
    rw [hnames.2 hsound.names] at hfound
    cases hfound
  | none =>
    have hwild : (r.scopeClass ≠ .global ∧ r.permissions.any isWildcard = true) ↔
        ¬ (r.scopeClass = .global ∨ ∀ p ∈ r.permissions, isWildcard p = false) := by
      simp [List.any_eq_true]
    have hfree : c.get? r.name = none := by
      rw [Table.contains, ← get?] at htaken
      simpa using htaken
    simp only [hwild, ite_eq_right_iff, reduceCtorEq, imp_false, not_not]
    exact ⟨fun h => ⟨⟨by simpa using hblank, by simpa using hempty, hnames.1 hfound, h⟩, hfree⟩,
      fun h => h.1.wildcards⟩

/-- A catalog takes in a role exactly when the role is sound and its name is free. -/
theorem register_eq_ok_iff :
    c.register r = .ok c' ↔ (r.Sound c.domain ∧ c.get? r.name = none) ∧
      c' = { c with roles := c.roles.insert r.name r } := by
  rw [← fault?_eq_none_iff, register]
  cases c.fault? r <;> simp [eq_comm]

/-- The catalog after a role was put forward: with the role, if it is taken in. -/
def offer (c : RoleCatalog) (r : Role) : RoleCatalog :=
  match c.register r with
  | .ok c => c
  | .error _ => c

/-- The catalog after roles were put forward one after the other. -/
def offerAll (c : RoleCatalog) (rs : List Role) : RoleCatalog := rs.foldl offer c

/-- A role that can be registered is. -/
theorem offer_of_ok (h : c.register r = .ok c') : c.offer r = c' := by rw [offer, h]

/-- A role that is refused leaves the catalog as it is. -/
theorem offer_of_error (h : c.register r = .error e) : c.offer r = c := by rw [offer, h]

/-- What a catalog has under a name after a role was put forward. -/
theorem get?_offer (c : RoleCatalog) (r : Role) (name : String) :
    (c.offer r).get? name =
      (c.get? name).or (if r.name = name ∧ r.Sound c.domain then some r else none) := by
  cases h : c.register r with
  | ok c' =>
    obtain ⟨⟨hsound, hfree⟩, rfl⟩ := register_eq_ok_iff.1 h
    rw [offer_of_ok h, get?, Table.get?_insert]
    by_cases hname : r.name = name
    · subst hname
      rw [if_pos rfl, if_pos ⟨rfl, hsound⟩, hfree, Option.none_or]
    · rw [if_neg (Ne.symm hname), if_neg fun h => hname h.1, Option.or_none, get?]
  | error e =>
    rw [offer_of_error h]
    by_cases hfits : r.name = name ∧ r.Sound c.domain
    · obtain ⟨rfl, hsound⟩ := hfits
      cases hget : c.get? r.name with
      | some old => rfl
      | none =>
        rw [register_eq_ok_iff.2 ⟨⟨hsound, hget⟩, rfl⟩] at h
        cases h
    · rw [if_neg hfits, Option.or_none]

theorem domain_offer (c : RoleCatalog) (r : Role) : (c.offer r).domain = c.domain := by
  cases h : c.register r with
  | ok c' =>
    obtain ⟨-, rfl⟩ := register_eq_ok_iff.1 h
    rw [offer_of_ok h]
  | error e => rw [offer_of_error h]

/-- Offering roles leaves the domain alone. -/
theorem domain_offerAll (c : RoleCatalog) (rs : List Role) :
    (c.offerAll rs).domain = c.domain := by
  induction rs generalizing c with
  | nil => rfl
  | cons r rs ih => exact (ih (c.offer r)).trans (domain_offer c r)

/-- What a catalog has under a name after roles were put forward: what it had before, or else the
first sound one of that name. -/
theorem get?_offerAll (c : RoleCatalog) (rs : List Role) (name : String) :
    (c.offerAll rs).get? name =
      (c.get? name).or (rs.find? fun r => r.name = name ∧ r.Sound c.domain) := by
  induction rs generalizing c with
  | nil => exact (Option.or_none).symm
  | cons r rs ih =>
    rw [offerAll, List.foldl_cons, ← offerAll, ih, get?_offer, domain_offer, Option.or_assoc,
      List.find?_cons]
    by_cases hfits : r.name = name ∧ r.Sound c.domain <;> simp [hfits]

/-- Roles are offered one after the other. -/
theorem offerAll_append (c : RoleCatalog) (rs more : List Role) :
    c.offerAll (rs ++ more) = (c.offerAll rs).offerAll more := List.foldl_append

/-- A role that a catalog has is never replaced or lost. -/
theorem get?_offerAll_of_get? (h : c.get? name = some role) (more : List Role) :
    (c.offerAll more).get? name = some role := by
  rw [get?_offerAll, h, Option.some_or]

/-! ## The roles that a catalog can have -/

/-- That a catalog has only sound roles, each under its own name. -/
def Holds (c : RoleCatalog) : Prop :=
  ∀ name role, c.get? name = some role → role.name = name ∧ role.Sound c.domain

/-- Roles that are put forward leave only sound ones in a catalog. -/
theorem Holds.offerAll (h : c.Holds) (rs : List Role) : (c.offerAll rs).Holds := by
  intro name role hget
  rw [domain_offerAll]
  rw [get?_offerAll, Option.or_eq_some_iff] at hget
  rcases hget with hold | ⟨-, hnew⟩
  · exact h name role hold
  · simpa using List.find?_some hnew

/-- The empty catalog holds what it should. -/
theorem holds_empty (d : Domain) : (empty d).Holds := by
  intro name role hget
  cases hget

/-- Where every role is taken in, the catalog is the one after all of them were put forward. -/
theorem eq_offerAll_of_foldlM {rs : List Role} (h : rs.foldlM register c = .ok c') :
    c' = c.offerAll rs := by
  induction rs generalizing c with
  | nil => exact (Except.ok.inj h).symm
  | cons r rs ih =>
    rw [List.foldlM_cons] at h
    cases hr : c.register r with
    | ok c₁ =>
      rw [hr] at h
      rw [offerAll, List.foldl_cons, offer_of_ok hr]
      exact ih h
    | error e =>
      rw [hr] at h
      cases h

/-- The standard catalog comes of offering the standard roles. -/
theorem standard_eq (h : standard d = .ok c) : c = (empty d).offerAll (standardRoles d) :=
  eq_offerAll_of_foldlM h

/-! ## What a role grants -/

/-- The names that are listed for a role are its permissions and what they reach. -/
theorem effective_eq (h : c.get? name = some role) :
    ∃ granted, c.effective name = some granted ∧
      ∀ n, n ∈ granted ↔ ∃ p ∈ role.permissions, n = p ∨ c.domain.Reaches p n := by
  refine ⟨_, by rw [effective, h, Option.map_some], fun n => ?_⟩
  simp only [Text.mem_sortedSet, List.mem_flatMap, List.mem_cons, Domain.mem_impliedBy]
  refine exists_congr fun p => and_congr_right fun _ => ?_
  by_cases hsame : n = p <;> simp [hsame]

/-- A role as a catalog has it, and the names that are listed for it. -/
structure Stored (d : Domain) (name : String) (role : Role) (granted : List String) : Prop where
  key : role.name = name
  sound : role.Sound d
  /-- Where wildcards are not allowed, the list says what the permissions are enough for. -/
  agrees : role.scopeClass = .organization ∨ role.scopeClass = .service →
    ∀ n, n ∈ granted ↔ ∃ p ∈ role.permissions, d.satisfies p n = true
  closed : ∀ n ∈ granted, d.impliedBy n ⊆ granted
  accepted : ∀ n ∈ granted, d.validate n = .ok ()
  crossService : ∀ n ∈ granted, isCrossService n = true → n ∈ role.permissions

/-- A sound role of a catalog and the names that are listed for it. -/
theorem Holds.stored (h : c.Holds) (hget : c.get? name = some role) :
    ∃ granted, c.effective name = some granted ∧ Stored c.domain name role granted := by
  obtain ⟨hkey, hsound⟩ := h name role hget
  obtain ⟨granted, heffective, hmem⟩ := effective_eq hget
  refine ⟨granted, heffective, hkey, hsound, fun hclass n => ?_, fun n hn m hm => ?_,
    fun n hn => ?_, fun n hn hcross => ?_⟩
  · have hplain : ∀ p ∈ role.permissions, isWildcard p = false := by
      refine hsound.wildcards.resolve_left ?_
      rcases hclass with hclass | hclass <;> simp [hclass]
    rw [hmem]
    refine exists_congr fun p => and_congr_right fun hp => ?_
    have hnot : ¬ [':', '*'] <:+ p.toList := by
      rw [← isWildcard_iff, hplain p hp]
      exact Bool.false_ne_true
    rw [Domain.satisfies_iff]
    by_cases hsame : n = p
    · simp [hsame]
    · simp [hsame, Ne.symm hsame, hnot]
  · obtain ⟨p, hp, hreach⟩ := (hmem n).1 hn
    have hstep := (Domain.mem_impliedBy.1 hm).2
    refine (hmem m).2 ⟨p, hp, .inr ?_⟩
    rcases hreach with rfl | hreach
    · exact hstep
    · exact hreach.further hstep
  · obtain ⟨p, hp, hreach⟩ := (hmem n).1 hn
    have hname := Domain.validate_eq_ok_iff.1 (hsound.names p hp)
    rw [Domain.validate_eq_ok_iff]
    rcases hreach with rfl | hreach
    · exact hname
    · exact hname.of_reaches hreach
  · obtain ⟨p, hp, hreach⟩ := (hmem n).1 hn
    have hname := Domain.validate_eq_ok_iff.1 (hsound.names p hp)
    rcases hreach with rfl | hreach
    · exact hp
    · exact absurd hreach
        (Domain.not_reaches_crossService hname.plain_domain.2 (isCrossService_iff.1 hcross))

/-! ## Every series of roles -/

/-- **A catalog agrees with what permissions are enough for.** Put forward any roles, one after the
other, for an empty catalog or that of the standard roles. A role is taken in exactly when it is
sound and its name is free, and a role that is refused leaves the catalog as it was; no role is
replaced or lost, so under each name stands the role of the catalog before, or else the first sound
one of that name. Each role stands under its own name and is sound: its name is not blank, it has
permissions, these are names of the domain, and no wildcards unless it applies everywhere. What is
listed for a role of an organization or of a service is what some permission of it is enough for;
what is listed for any role is closed under implication, consists of names of the domain, and holds
a cross-service name only if the role has it. -/
theorem catalog_agrees {d : Domain} {start : RoleCatalog}
    (hstart : start = empty d ∨ standard d = .ok start) (rs : List Role) :
    (∀ r, (∃ c, (start.offerAll rs).register r = .ok c) ↔
      r.Sound d ∧ (start.offerAll rs).get? r.name = none) ∧
    (∀ r e, (start.offerAll rs).register r = .error e →
      (start.offerAll rs).offer r = start.offerAll rs) ∧
    (∀ past, past <+: rs → ∀ name role, (start.offerAll past).get? name = some role →
      (start.offerAll rs).get? name = some role) ∧
    (∀ name, (start.offerAll rs).get? name =
      (start.get? name).or (rs.find? fun r => r.name = name ∧ r.Sound d)) ∧
    ∀ name role, (start.offerAll rs).get? name = some role →
      ∃ granted, (start.offerAll rs).effective name = some granted ∧
        Stored d name role granted := by
  have hbegins : start.Holds ∧ start.domain = d := by
    rcases hstart with rfl | hstandard
    · exact ⟨holds_empty d, rfl⟩
    · rw [standard_eq hstandard]
      exact ⟨(holds_empty d).offerAll _, domain_offerAll _ _⟩
  obtain ⟨hholds, rfl⟩ := hbegins
  have hdomain := domain_offerAll start rs
  refine ⟨fun r => ?_, fun r e h => offer_of_error h, ?_, get?_offerAll start rs, ?_⟩
  · simp only [register_eq_ok_iff, exists_and_left, exists_eq, and_true, hdomain]
  · rintro past ⟨more, rfl⟩ name role hget
    rw [offerAll_append]
    exact get?_offerAll_of_get? hget more
  · intro name role hget
    rw [← hdomain]
    exact (hholds.offerAll rs).stored hget

/-- A role of a service that administers a scope is taken in beside the standard roles, and one that
uses the name of a standard role is not. -/
theorem catalog_agrees_scopedAdmin :
    let keeper : Role := ⟨"keeper", "", ["state:scope:main:admin"], .service⟩
    let reader : Role := ⟨"reader", "", ["state:*"], .global⟩
    ∃ start granted, standard .state = .ok start ∧
      (start.offerAll [keeper, reader]).get? "keeper" = some keeper ∧
      (start.offerAll [keeper, reader]).get? "reader" = start.get? "reader" ∧
      (start.offerAll [keeper, reader]).effective "keeper" = some granted ∧
      "state:scope:main:read" ∈ granted ∧ "state:cross-service:main:read" ∉ granted := by
  intro keeper reader
  have hok : (standard .state).toOption.isSome = true := by decide +kernel
  cases hstandard : standard .state with
  | error e =>
    rw [hstandard] at hok
    cases hok
  | ok start =>
    obtain ⟨-, -, hkept, hget, hstored⟩ := catalog_agrees (.inr hstandard) [keeper, reader]
    have hstart := standard_eq hstandard
    have hkeeper : (start.offerAll [keeper, reader]).get? "keeper" = some keeper := by
      rw [hget, hstart]
      decide +kernel
    obtain ⟨old, hold⟩ : ∃ old, start.get? "reader" = some old := by
      refine Option.isSome_iff_exists.1 ?_
      rw [hstart]
      decide +kernel
    obtain ⟨granted, heffective, h⟩ := hstored "keeper" keeper hkeeper
    refine ⟨start, granted, rfl, hkeeper, ?_, heffective, ?_, fun hcross => ?_⟩
    · rw [hkept [] List.nil_prefix "reader" old hold, hold]
    · exact (h.agrees (.inr rfl) _).2 ⟨_, List.mem_cons_self, by decide +kernel⟩
    · exact absurd (h.crossService _ hcross (by decide +kernel)) (by decide)

end RoleCatalog

end AccessGate
