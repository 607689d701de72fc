import AccessGate.Proofs.Permission.Names

/-!
# Scopes in permission names

A permission bound to a scope is one name again, with the scope as a segment of it
(`Domain.variant`). It has four segments (`Domain.Embeds.segments_variant`): the domain, the kind of
binding, the scope, and what is left of the permission, which is its last segment or a plain word.
So it is well formed, and whoever has the name can read off all four of them; no other binding has
the same name (`Domain.Embeds.variant_eq_variant_iff`). The main statement is
`Domain.embedding_unambiguous`.
-/

namespace AccessGate

open Text (segments)

namespace Domain

variable {d d' : Domain} {kind kind' : Binding} {base base' scope scope' : String}

/-- A permission bound to a scope in one of the two ways. -/
def variant (d : Domain) : Binding → String → String → String
  | .scope => d.scopedVariant
  | .crossService => d.crossServiceVariant

/-- What is bound in one of the two ways: a name of the domain, to a text that can stand as a scope.
A name bound to a scope already is not bound to another one, since it would stay as it is. -/
structure Embeds (d : Domain) (kind : Binding) (base scope : String) : Prop where
  base_ok : d.validate base = .ok ()
  scope_ok : validateScope scope = .ok ()
  unbound : kind = .scope → d.isScoped base = false

/-- What is left of a name once it is bound can stand as a last segment. -/
theorem IsName.ending (h : d.IsName base) :
    boundAction base ≠ "" ∧ ('*' ∉ (boundAction base).toList ∨ boundAction base = "*") := by
  rcases boundAction_cases base with haction | haction | hlast
  · rw [haction]
    decide
  · rw [haction]
    decide
  · exact ⟨h.nonempty _ (List.mem_of_getLast? hlast), h.last _ hlast⟩

namespace Embeds

/-- What is bound is a name. -/
theorem isName (h : d.Embeds kind base scope) : d.IsName base := validate_eq_ok_iff.1 h.base_ok

/-- A name that is bound keeps its scope and its action. -/
theorem variant_eq (h : d.Embeds kind base scope) :
    d.variant kind base scope = d.boundName kind scope (boundAction base) := by
  cases kind with
  | scope =>
    obtain ⟨hne, -, -⟩ := validateScope_eq_ok_iff.1 h.scope_ok
    exact scopedVariant_of_not_isScoped hne (h.unbound rfl)
  | crossService => rfl

/-- A bound permission has four segments, with the scope and the action as the last two. -/
theorem segments_variant (h : d.Embeds kind base scope) :
    segments (d.variant kind base scope) = [d.name, kind.segment, scope, boundAction base] := by
  obtain ⟨-, hscope, -⟩ := validateScope_eq_ok_iff.1 h.scope_ok
  obtain ⟨-, hd⟩ := h.isName.plain_domain
  rw [h.variant_eq, segments_boundName hd kind hscope (not_mem_boundAction base)]

/-- A bound permission is a name. -/
theorem isName_variant (h : d.Embeds kind base scope) : d.IsName (d.variant kind base scope) := by
  obtain ⟨hne, hscope, hstar⟩ := validateScope_eq_ok_iff.1 h.scope_ok
  obtain ⟨hplain, hd⟩ := h.isName.plain_domain
  obtain ⟨hactionNe, hending⟩ := h.isName.ending
  rw [h.variant_eq]
  exact isName_boundName hd hplain kind hscope ⟨hne, hstar⟩ (not_mem_boundAction base) hactionNe
    hending

/-- The scope and the action of a bound name are read back. -/
theorem bound?_variant (h : d.Embeds kind base scope) :
    d.bound? kind (d.variant kind base scope) = some (scope, boundAction base) :=
  bound?_eq_some_iff.2 h.segments_variant

/-- A bound name is one on a scope exactly if it was bound as such. -/
theorem isScoped_variant_iff (h : d.Embeds kind base scope) :
    d.isScoped (d.variant kind base scope) = true ↔ kind = .scope := by
  rw [isScoped_iff, h.segments_variant]
  constructor
  · rintro ⟨scope', action, hsegments⟩
    obtain ⟨hkind, -⟩ := List.cons.inj (List.cons.inj hsegments).2
    exact Binding.segment_inj.1 hkind
  · rintro rfl
    exact ⟨scope, boundAction base, rfl⟩

/-- A bound name is a cross-service one exactly if it was bound as such. -/
theorem isCrossService_variant_iff (h : d.Embeds kind base scope) :
    isCrossService (d.variant kind base scope) = true ↔ kind = .crossService := by
  rw [isCrossService_iff, h.segments_variant]
  show some kind.segment = some Binding.crossService.segment ↔ kind = .crossService
  rw [Option.some.injEq, Binding.segment_inj]

/-- Bound permissions have the same name exactly if all that their segments tell is the same. -/
theorem variant_eq_variant_iff (h : d.Embeds kind base scope) (h' : d'.Embeds kind' base' scope') :
    d.variant kind base scope = d'.variant kind' base' scope' ↔
      d = d' ∧ kind = kind' ∧ scope = scope' ∧ boundAction base = boundAction base' := by
  have hdomain : d = d' ↔ d.name = d'.name := by
    cases d
    cases d'
    simp
  rw [← Text.segments_inj, h.segments_variant, h'.segments_variant, hdomain]
  simp only [List.cons.injEq, Binding.segment_inj, and_true]

end Embeds

/-- Once it is bound to a scope, a name is bound to a scope, be it this one or that of before. -/
theorem isScoped_scopedVariant (hbase : d.validate base = .ok ())
    (hscope : validateScope scope = .ok ()) : d.isScoped (d.scopedVariant base scope) = true := by
  cases hbound : d.isScoped base with
  | true => rwa [scopedVariant_of_isScoped hbound]
  | false =>
    have hembeds : d.Embeds .scope base scope := ⟨hbase, hscope, fun _ => hbound⟩
    exact hembeds.isScoped_variant_iff.2 rfl

/-- **Scopes are embedded in names without ambiguity.** A name of the domain that is bound to a
scope, in either way, is a name of the domain again. It is taken for what it is, a name bound to a
scope or a cross-service one, and its scope and action are read off it. So two permissions that are
bound have the same name exactly if the domain, the kind of binding, the scope and the action are
the same. Binding a second time, to whatever scope, changes nothing. And all that a name implies are
names. -/
theorem embedding_unambiguous (d : Domain) :
    (∀ kind base scope, d.Embeds kind base scope →
      d.validate (d.variant kind base scope) = .ok () ∧
      (d.isScoped (d.variant kind base scope) = true ↔ kind = .scope) ∧
      (isCrossService (d.variant kind base scope) = true ↔ kind = .crossService) ∧
      d.bound? kind (d.variant kind base scope) = some (scope, boundAction base) ∧
      ∀ d' kind' base' scope', d'.Embeds kind' base' scope' →
        (d.variant kind base scope = d'.variant kind' base' scope' ↔
          d = d' ∧ kind = kind' ∧ scope = scope' ∧ boundAction base = boundAction base')) ∧
    (∀ base scope scope', d.validate base = .ok () → validateScope scope = .ok () →
      d.scopedVariant (d.scopedVariant base scope) scope' = d.scopedVariant base scope) ∧
    (∀ name scope, d.isScoped name = true → d.scopedVariant name scope = name) ∧
    ∀ base, d.validate base = .ok () → ∀ name ∈ d.impliedBy base, d.validate name = .ok () := by
  refine ⟨fun kind base scope h => ?_, fun base scope scope' hbase hscope => ?_,
    fun name scope hname => scopedVariant_of_isScoped hname scope, fun base hbase name hname => ?_⟩
  · exact ⟨validate_eq_ok_iff.2 h.isName_variant, h.isScoped_variant_iff,
      h.isCrossService_variant_iff, h.bound?_variant,
      fun d' kind' base' scope' h' => h.variant_eq_variant_iff h'⟩
  · exact scopedVariant_of_isScoped (isScoped_scopedVariant hbase hscope) scope'
  · exact validate_eq_ok_iff.2 ((validate_eq_ok_iff.1 hbase).of_mem_impliedBy hname)

/-- Full administration and system administration come to one name on a scope, since the same action
is left of them, and this name stays what it is on another scope. The wildcard of that other scope,
granted across services, comes to a different one. -/
theorem embedding_unambiguous_of_state :
    state.Embeds .scope "state:admin:full" "org.x" ∧
      state.Embeds .scope "state:admin:system" "org.x" ∧
      state.Embeds .crossService "state:scope:org.y:*" "org.x" ∧
      state.validate (state.variant .crossService "state:scope:org.y:*" "org.x") = .ok () ∧
      state.bound? .scope (state.variant .scope "state:admin:full" "org.x") =
        some ("org.x", "admin") ∧
      state.variant .scope "state:admin:full" "org.x" =
        state.variant .scope "state:admin:system" "org.x" ∧
      state.variant .scope "state:admin:full" "org.x" ≠
        state.variant .crossService "state:scope:org.y:*" "org.x" ∧
      state.scopedVariant (state.scopedVariant "state:admin:full" "org.x") "org.y" =
        state.scopedVariant "state:admin:full" "org.x" ∧
      state.scopedVariant "state:scope:org.x:admin" "org.y" = "state:scope:org.x:admin" ∧
      state.validate "state:scope:org.x:health" = .ok () := by
  have hok {name : String} (h : state.accepts name = true) : state.validate name = .ok () :=
    validate_eq_ok_iff.2 (accepts_iff.1 h)
  have hfull : state.Embeds .scope "state:admin:full" "org.x" :=
    ⟨hok (by decide), rfl, fun _ => by decide⟩
  have hsystem : state.Embeds .scope "state:admin:system" "org.x" :=
    ⟨hok (by decide), rfl, fun _ => by decide⟩
  have hall : state.Embeds .crossService "state:scope:org.y:*" "org.x" :=
    ⟨hok (by decide), rfl, nofun⟩
  have hadmin : state.validate "state:scope:org.x:admin" = .ok () := hok (by decide)
  have hhealth : "state:scope:org.x:health" ∈ state.impliedBy "state:scope:org.x:admin" :=
    mem_impliedBy.2 ⟨by decide, .step (by decide)⟩
  obtain ⟨hvariant, htwice, hbound, himplied⟩ := embedding_unambiguous state
  obtain ⟨-, -, -, hread, hsame⟩ := hvariant _ _ _ hfull
  obtain ⟨hname, -⟩ := hvariant _ _ _ hall
  refine ⟨hfull, hsystem, hall, hname, hread, ?_, fun h => ?_, ?_, ?_, ?_⟩
  · exact (hsame _ _ _ _ hsystem).2 ⟨rfl, rfl, rfl, by decide⟩
  · obtain ⟨-, hkind, -⟩ := (hsame _ _ _ _ hall).1 h
    exact absurd hkind (by decide)
  · exact htwice _ _ _ hfull.base_ok hfull.scope_ok
  · exact hbound _ _ (by decide)
  · exact himplied _ hadmin _ hhealth

-- What is bound keeps its scope, and with a colon in the scope the name is not bound at all.
example :
    state.scopedVariant "state:scope:org.x:read" "org.y" =
        state.scopedVariant "state:data:read" "org.x" ∧
      state.isScoped (state.scopedVariant "state:data:read" "org:x") = false := by decide

end Domain

end AccessGate
