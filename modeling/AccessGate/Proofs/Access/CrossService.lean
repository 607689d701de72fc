import AccessGate.Proofs.Access.Administration
import AccessGate.Proofs.Permission.Order

/-!
# Cross-service access is explicit

The last pattern asks whether a grant is enough for the cross-service name of the request, and the
wildcard of the domain is enough for all of these. But it is enough for system administration as
well, so with it among the grants the first pattern holds already. What is left for the last one is
the name itself (`Access.eq_crossServiceVariant_of_satisfies`), which no implication leads to
(`Domain.not_reaches_crossService`) and no scope makes out of another name
(`Domain.name_eq_of_effectiveName`). The main statement is `Access.cross_service_is_explicit`.
-/

namespace AccessGate

open Text (segments)

namespace Domain

variable {d : Domain} {name : String} {p : Permission}

/-! ## Cross-service names -/

/-- No wildcard but that of the domain stands for a cross-service name. -/
theorem wildcardCovers_eq_false {granted required : String}
    (hcross : (segments required)[1]? = some "cross-service") (hne : granted ≠ d.name ++ ":*") :
    d.wildcardCovers granted required = false := by
  have hmarked : isCrossService required = true := isCrossService_iff.2 hcross
  rw [← d.qualify_star] at hne
  simp [wildcardCovers, hmarked, hne]

/-- No name of administration is a cross-service one. -/
theorem getElem?_segments_ne_of_mem_administration (hd : ':' ∉ d.name.toList)
    (h : name ∈ d.administration) : (segments name)[1]? ≠ some "cross-service" := by
  simp only [administration, nameOf, List.mem_cons, List.not_mem_nil, or_false] at h
  rcases h with rfl | rfl | rfl | rfl <;>
    rw [segments_qualify hd, List.getElem?_cons_succ] <;> decide

/-- A permission matched under a cross-service name has this name. -/
theorem name_eq_of_effectiveName (hd : ':' ∉ d.name.toList)
    (hcross : (segments (d.effectiveName p))[1]? = some "cross-service") :
    p.name = d.effectiveName p := by
  unfold effectiveName at hcross ⊢
  split at hcross
  · next scope hscope =>
    unfold scopedVariant at hcross ⊢
    split at hcross
    · next hsame => rw [if_pos hsame]
    · rw [getElem?_segments_boundName hd] at hcross
      exact absurd (Option.some.inj hcross) (by decide)
  · rfl

end Domain

namespace Access

variable {d : Domain} {o : Ownership} {p : Principal} {r : AccessRequest} {gs : List String}
  {service : Option String} {granted : String}

/-! ## What the last pattern takes -/

/-- Where administration does not hold, the wildcard of the domain is not granted. -/
theorem star_not_mem (hadmin : matchesPattern d o service gs r .admin = false) :
    d.name ++ ":*" ∉ gs := by
  intro hmem
  rw [← d.qualify_star] at hmem
  have hholds : holds d gs (d.nameOf .adminSystem) = true :=
    List.any_eq_true.2 ⟨_, hmem, d.satisfies_qualify_star_nameOf .adminSystem⟩
  rw [matchesPattern, hholds, Bool.true_or, Bool.true_or] at hadmin
  cases hadmin

/-- Where administration does not hold, only the name itself is enough for the cross-service name
of a request. -/
theorem eq_crossServiceVariant_of_satisfies (hd : ':' ∉ d.name.toList)
    (hadmin : matchesPattern d o service gs r .admin = false) (hgranted : granted ∈ gs)
    (h : d.satisfies granted (d.crossServiceVariant r.required r.scope) = true) :
    granted = d.crossServiceVariant r.required r.scope := by
  have hcross := Domain.getElem?_segments_crossServiceVariant hd r.required r.scope
  rcases Domain.eq_of_satisfies_crossService hd hcross h with hsame | rfl
  · exact hsame
  · exact absurd hgranted (star_not_mem hadmin)

/-- The last pattern asks for a scope, for a permission that can be bound to one, and, where
administration does not hold, for the cross-service name itself. -/
theorem matchesPattern_crossService_iff (hd : ':' ∉ d.name.toList)
    (hadmin : matchesPattern d o service gs r .admin = false) :
    matchesPattern d o service gs r .crossService = true ↔
      r.scope ≠ "" ∧ (d.isGlobal r.required = false ∨ r.required = d.nameOf .healthRead) ∧
        d.crossServiceVariant r.required r.scope ∈ gs := by
  have hexplicit : holds d gs (d.crossServiceVariant r.required r.scope) = true ↔
      d.crossServiceVariant r.required r.scope ∈ gs := by
    constructor
    · intro h
      obtain ⟨granted, hgranted, hsatisfies⟩ := List.any_eq_true.1 h
      exact eq_crossServiceVariant_of_satisfies hd hadmin hgranted hsatisfies ▸ hgranted
    · intro hmem
      exact List.any_eq_true.2 ⟨_, hmem, d.satisfies_refl _⟩
  simp only [matchesPattern, isBindable, Bool.and_eq_true, Bool.or_eq_true, Bool.not_eq_true',
    String.isEmpty_eq_false_iff, beq_iff_eq, hexplicit, and_assoc]

/-! ## The decision -/

/-- The last pattern grants what it takes and no other pattern grants. -/
theorem decide_eq_crossService_iff (hd : ':' ∉ d.name.toList) :
    decide d o p r = .ok .crossService ↔
      r.scope ≠ "" ∧ (d.isGlobal r.required = false ∨ r.required = d.nameOf .healthRead) ∧
        d.crossServiceVariant r.required r.scope ∈ grants d p ∧
        ∀ other ∈ [AccessPattern.admin, .global, .bound, .serviceOwnership],
          matchesPattern d o p.service (grants d p) r other = false := by
  have hothers (other : AccessPattern) :
      other ∈ [AccessPattern.admin, .global, .bound, .serviceOwnership] ↔
        other.rank < AccessPattern.crossService.rank := by
    cases other <;> decide
  simp only [decide_eq_ok_iff, hothers]
  constructor
  · rintro ⟨hlast, hnone⟩
    have hadmin := hnone .admin (by decide)
    obtain ⟨hne, hrequired, hmem⟩ := (matchesPattern_crossService_iff hd hadmin).1 hlast
    exact ⟨hne, hrequired, hmem, hnone⟩
  · rintro ⟨hne, hrequired, hmem, hnone⟩
    have hadmin := hnone .admin (by decide)
    exact ⟨(matchesPattern_crossService_iff hd hadmin).2 ⟨hne, hrequired, hmem⟩, hnone⟩

/-- **Cross-service access is explicit.** The last pattern grants a request exactly if this is on a
scope, the permission asked for is no global one or is reading health, the cross-service name of the
request is literally among the grants, and no other pattern holds. Then the principal has a
permission of this very name; no implication leads to it, and no wildcard among the grants stands
for it; and no other grant is enough for it, none of administration in particular. -/
theorem cross_service_is_explicit (hd : ':' ∉ d.name.toList) (o : Ownership) (p : Principal)
    (r : AccessRequest) :
    (decide d o p r = .ok .crossService ↔
      r.scope ≠ "" ∧ (d.isGlobal r.required = false ∨ r.required = d.nameOf .healthRead) ∧
        d.crossServiceVariant r.required r.scope ∈ grants d p ∧
        ∀ other ∈ [AccessPattern.admin, .global, .bound, .serviceOwnership],
          matchesPattern d o p.service (grants d p) r other = false) ∧
    (decide d o p r = .ok .crossService →
      (∃ permission ∈ p.permissions,
        permission.name = d.crossServiceVariant r.required r.scope) ∧
      (∀ name, ¬ d.Reaches name (d.crossServiceVariant r.required r.scope)) ∧
      ∀ granted ∈ grants d p,
        d.wildcardCovers granted (d.crossServiceVariant r.required r.scope) = false ∧
          (d.satisfies granted (d.crossServiceVariant r.required r.scope) = true →
            granted = d.crossServiceVariant r.required r.scope ∧
              granted ∉ d.administration)) := by
  have hcross := Domain.getElem?_segments_crossServiceVariant hd r.required r.scope
  refine ⟨decide_eq_crossService_iff hd, fun h => ?_⟩
  obtain ⟨-, -, hmem, hnone⟩ := (decide_eq_crossService_iff hd).1 h
  have hadmin := hnone .admin List.mem_cons_self
  refine ⟨?_, fun name => Domain.not_reaches_crossService hd hcross,
    fun granted hgranted => ⟨?_, fun hsatisfies => ?_⟩⟩
  · obtain ⟨permission, hpermission, hname⟩ := List.mem_map.1 hmem
    have hown := Domain.name_eq_of_effectiveName hd (hname ▸ hcross)
    exact ⟨permission, hpermission, hown.trans hname⟩
  · refine Domain.wildcardCovers_eq_false hcross ?_
    rintro rfl
    exact star_not_mem hadmin hgranted
  · obtain rfl := eq_crossServiceVariant_of_satisfies hd hadmin hgranted hsatisfies
    exact ⟨rfl, fun h => Domain.getElem?_segments_ne_of_mem_administration hd h hcross⟩

/-- The grant of reading on a scope of another service is found among others; the wildcard of the
domain in its place grants as administration. -/
theorem cross_service_is_explicit_of_read :
    let d := Domain.state
    let r : AccessRequest := ⟨"get", "state:data:read", "main"⟩
    let p : Principal :=
      { id := "u", permissions := [
          { name := "state:data:*", scope := some "side" },
          { name := "state:cross-service:main:read" }] }
    let p' : Principal := { id := "u", permissions := [{ name := "state:*" }] }
    ':' ∉ d.name.toList ∧ decide d {} p r = .ok .crossService ∧
      (∃ permission ∈ p.permissions,
        permission.name = d.crossServiceVariant r.required r.scope) ∧
      decide d {} p' r ≠ .ok .crossService := by
  intro d r p p'
  have hd : ':' ∉ d.name.toList := by decide
  obtain ⟨hiff, hname⟩ := cross_service_is_explicit hd {} p r
  obtain ⟨hiff', -⟩ := cross_service_is_explicit hd {} p' r
  have hgranted : decide d {} p r = .ok .crossService :=
    hiff.2 ⟨by decide, .inl (by decide), by decide +kernel, by decide +kernel⟩
  refine ⟨hd, hgranted, (hname hgranted).1, fun h => ?_⟩
  obtain ⟨-, -, hmem, -⟩ := hiff'.1 h
  exact absurd hmem (by decide +kernel)

end Access

end AccessGate
