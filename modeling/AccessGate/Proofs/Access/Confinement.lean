import AccessGate.Proofs.Access.Priority
import AccessGate.Proofs.Permission.Satisfaction

/-!
# Grants bound to scopes stay within them

A principal may hold any number of grants, each bound to some scope or to a scope of another service
(`Domain.BoundTo`). All of them together are enough only for names that are bound to one of these
scopes (`Access.segments_of_holds`), so none is enough for a name of three segments, and a name
bound to a scope takes a grant bound to the same one (`Access.boundTo_of_holds`). The main statement
is `Access.confined_to_scope`: such a principal is let in only on a scope of its grants or of its
service, and never for administration, the management of scopes or metrics.
-/

namespace AccessGate

open Text (segments)

variable {d : Domain} {gs : List String} {required scope action : String}

/-- A name bound to a scope, in one of the two ways, with an action of one segment. -/
def Domain.BoundTo (d : Domain) (scope name : String) : Prop :=
  ∃ kind action, action ≠ "" ∧ ':' ∉ action.toList ∧ name = d.boundName kind scope action

namespace Access

/-! ## What bound grants are enough for -/

/-- Every grant is bound to a scope that can be one. -/
def AllBound (d : Domain) (gs : List String) : Prop :=
  ∀ g ∈ gs, ∃ scope, validateScope scope = .ok () ∧ d.BoundTo scope g

/-- Grants bound to scopes are enough only for names that go on from one of these scopes. -/
theorem segments_of_holds (hd : ':' ∉ d.name.toList) (hgs : AllBound d gs)
    (h : holds d gs required = true) :
    ∃ g ∈ gs, ∃ kind scope rest, d.BoundTo scope g ∧ rest ≠ [] ∧
      segments required = d.name :: Binding.segment kind :: scope :: rest := by
  obtain ⟨g, hg, hsatisfies⟩ := List.any_eq_true.1 h
  obtain ⟨scope, hscope, hbound⟩ := hgs g hg
  have hfree := (validateScope_eq_ok_iff.1 hscope).2.1
  obtain ⟨kind, action, hne, haction, rfl⟩ := hbound
  have hsegments := Domain.segments_boundName hd kind hfree haction
  obtain ⟨rest, hrest, hrequired⟩ := Domain.segments_of_satisfies hsegments hsatisfies
  exact ⟨_, hg, kind, scope, rest, ⟨kind, action, hne, haction, rfl⟩, hrest, hrequired⟩

/-- Grants bound to scopes are not enough for a name of three segments. -/
theorem holds_eq_false (hd : ':' ∉ d.name.toList) (hgs : AllBound d gs)
    (hthree : (segments required).length = 3) : holds d gs required = false := by
  rw [Bool.eq_false_iff]
  intro h
  obtain ⟨g, -, kind, scope, rest, -, hrest, hsegments⟩ := segments_of_holds hd hgs h
  have hpos := List.length_pos_iff.2 hrest
  rw [hsegments] at hthree
  simp only [List.length_cons] at hthree
  omega

/-- For a name bound to a scope it takes a grant bound to the same scope. -/
theorem boundTo_of_holds (hd : ':' ∉ d.name.toList) (hgs : AllBound d gs) {kind : Binding}
    (hscope : ':' ∉ scope.toList) (haction : ':' ∉ action.toList)
    (h : holds d gs (d.boundName kind scope action) = true) : ∃ g ∈ gs, d.BoundTo scope g := by
  obtain ⟨g, hg, kind', scope', rest, hbound, -, hsegments⟩ := segments_of_holds hd hgs h
  rw [Domain.segments_boundName hd kind hscope haction] at hsegments
  simp only [List.cons.injEq] at hsegments
  obtain ⟨-, -, rfl, -⟩ := hsegments
  exact ⟨g, hg, hbound⟩

/-- For the variant of an unbound name for a scope it takes a grant bound to the scope. -/
theorem boundTo_of_holds_scopedVariant (hd : ':' ∉ d.name.toList) (hgs : AllBound d gs)
    (hscope : ':' ∉ scope.toList) (hne : scope ≠ "") (hthree : (segments required).length = 3)
    (h : holds d gs (d.scopedVariant required scope) = true) : ∃ g ∈ gs, d.BoundTo scope g := by
  have hunbound : d.isScoped required = false := Domain.isScoped_eq_false (by omega)
  rw [Domain.scopedVariant_of_not_isScoped hne hunbound] at h
  exact boundTo_of_holds hd hgs hscope (not_mem_boundAction required) h

/-! ## Which permissions can be asked for -/

/-- Reading health is the only permission without a scope that can be bound to one. -/
theorem eq_healthRead_of_isBindable (h : isBindable d required = true)
    (hglobal : d.isGlobal required = true) : required = d.nameOf .healthRead := by
  simpa [isBindable, hglobal] using h

/-- Reading health is the only permission without a scope for which it suffices to own one. -/
theorem eq_healthRead_of_ownershipSuffices (h : ownershipSuffices d required = true)
    (hglobal : d.isGlobal required = true) : required = d.nameOf .healthRead := by
  have hdata (s : Standard) (hs : s.isGlobal = false) : required ≠ d.nameOf s := by
    rintro rfl
    rw [Domain.isGlobal_nameOf, hs] at hglobal
    cases hglobal
  simp only [ownershipSuffices, Bool.or_eq_true, beq_iff_eq] at h
  rcases h with ((h | h) | h) | h
  · exact absurd h (hdata .dataRead rfl)
  · exact absurd h (hdata .dataWrite rfl)
  · exact absurd h (hdata .dataDelete rfl)
  · exact h

/-! ## The decision -/

/-- **Grants bound to scopes stay within them.** Let every grant of a principal be bound to some
scope, or to one of another service, and let a permission of three segments be asked for. If the
principal is let in, then on a scope; one of the grants is bound to this very scope, or it is owned
by the service of the principal; and what was asked for is none of the permissions that never take a
scope, which are administration, the management of scopes and metrics, reading health excepted. -/
theorem confined_to_scope (hd : ':' ∉ d.name.toList) {o : Ownership} {p : Principal}
    (hgrants : AllBound d (grants d p)) {r : AccessRequest}
    (hscope : r.scope = "" ∨ validateScope r.scope = .ok ())
    (hrequired : ∃ category action, segments r.required = [d.name, category, action])
    {pattern : AccessPattern} (h : decide d o p r = .ok pattern) :
    r.scope ≠ "" ∧
      ((∃ g ∈ grants d p, d.BoundTo r.scope g) ∨
        ∃ service, p.service = some service ∧ o.ownerOf r.scope = some service) ∧
      (d.isGlobal r.required = true → r.required = d.nameOf .healthRead) := by
  obtain ⟨category, action, hsegments⟩ := hrequired
  have hthree : (segments r.required).length = 3 := by rw [hsegments]; rfl
  have hstandard (s : Standard) : (segments (d.nameOf s)).length = 3 := by
    rw [Domain.segments_nameOf hd, List.length_cons, Standard.length_segments_suffix]
  have hfree (hne : r.scope ≠ "") : ':' ∉ r.scope.toList :=
    (validateScope_eq_ok_iff.1 (hscope.resolve_left hne)).2.1
  have hmatches := matchesPattern_of_decide h
  cases pattern with
  | admin =>
    simp only [matchesPattern, holds_eq_false hd hgrants (hstandard _), Bool.false_or,
      Bool.and_eq_true, Bool.not_eq_true', String.isEmpty_eq_false_iff] at hmatches
    obtain ⟨⟨hne, hglobal⟩, hholds⟩ := hmatches
    have hbound := boundTo_of_holds_scopedVariant hd hgrants (hfree hne) hne (hstandard _) hholds
    refine ⟨hne, .inl hbound, fun h => ?_⟩
    rw [hglobal] at h
    cases h
  | global =>
    rw [matchesPattern, holds_eq_false hd hgrants hthree] at hmatches
    cases hmatches
  | bound =>
    simp only [matchesPattern, Bool.and_eq_true, Bool.not_eq_true',
      String.isEmpty_eq_false_iff] at hmatches
    obtain ⟨⟨hne, hbindable⟩, hholds⟩ := hmatches
    have hbound := boundTo_of_holds_scopedVariant hd hgrants (hfree hne) hne hthree hholds
    exact ⟨hne, .inl hbound, eq_healthRead_of_isBindable hbindable⟩
  | serviceOwnership =>
    simp only [matchesPattern, Bool.and_eq_true, Bool.not_eq_true',
      String.isEmpty_eq_false_iff] at hmatches
    obtain ⟨⟨hne, hsuffices⟩, howner⟩ := hmatches
    obtain ⟨service, hservice, hown⟩ := (Option.any_eq_true _ _).1 howner
    exact ⟨hne, .inr ⟨service, hservice, eq_of_beq hown⟩,
      eq_healthRead_of_ownershipSuffices hsuffices⟩
  | crossService =>
    simp only [matchesPattern, Bool.and_eq_true, Bool.not_eq_true',
      String.isEmpty_eq_false_iff] at hmatches
    obtain ⟨⟨hne, hbindable⟩, hholds⟩ := hmatches
    have hbound := boundTo_of_holds hd hgrants (hfree hne) (not_mem_boundAction r.required) hholds
    exact ⟨hne, .inl hbound, eq_healthRead_of_isBindable hbindable⟩

/-- Administration bound to one scope lets in on it, as a wildcard on a scope of another service
does nothing. -/
theorem confined_to_scope_admin_of_main :
    let d := Domain.state
    let p : Principal :=
      { id := "u", permissions := [
          { name := "state:admin:full", scope := some "main" },
          { name := "state:cross-service:side:*" }] }
    let r : AccessRequest := ⟨"set", "state:data:write", "main"⟩
    AllBound d (grants d p) ∧ decide d {} p r = .ok .admin ∧
      (∃ g ∈ grants d p, d.BoundTo "main" g) ∧ d.isGlobal r.required = false := by
  intro d p r
  have hgrants : AllBound d (grants d p) := by
    have hnames : grants d p = ["state:scope:main:admin", "state:cross-service:side:*"] := by
      decide +kernel
    rw [hnames]
    intro g hg
    rcases List.mem_cons.1 hg with rfl | hg
    · exact ⟨"main", rfl, .scope, "admin", by decide, by decide, by decide⟩
    · obtain rfl := List.mem_singleton.1 hg
      exact ⟨"side", rfl, .crossService, "*", by decide, by decide, by decide⟩
  have hgranted : decide d {} p r = .ok .admin := by
    have hpattern : pattern? d {} p r = some .admin := by decide +kernel
    rw [decide, hpattern]
  have hscope : validateScope "main" = .ok () := rfl
  obtain ⟨-, hwhere, hglobal⟩ :=
    confined_to_scope (by decide) hgrants (.inr hscope) ⟨"data", "write", by decide⟩ hgranted
  refine ⟨hgrants, hgranted, hwhere.resolve_right ?_, Bool.eq_false_iff.2 fun h => ?_⟩
  · rintro ⟨service, hservice, -⟩
    cases hservice
  · exact absurd (hglobal h) (by decide)

end Access

end AccessGate
