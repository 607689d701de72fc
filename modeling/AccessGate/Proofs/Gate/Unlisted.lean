import AccessGate.Proofs.Access.Administration
import AccessGate.Proofs.Gate.Course

/-!
# Operations without a rule

An operation without a rule of its own needs the permission of system administration, and a scope.
Whatever else a principal has been granted, and whoever owns the scope, it takes system or full
administration to be let in (`World.unlisted_for_administrators_only`); the permission that is asked
for is not what decides, since full administration is not enough for it
(`World.unlisted_for_full_administration`).
-/

namespace AccessGate

namespace World

variable {w : World} {events : List (Moment × Event)} {i : Nat} {r : Request} {p : Principal}
  {a : Authorization}

/-- A principal that was vouched for is that of some answer. -/
theorem Warranted.ofReply (h : Warranted w events i r p) :
    ∃ reply, Principal.ofReply w.gate.domain reply = .ok p := by
  rcases h with ⟨stored, reply, -, -, -, hreply, -⟩ |
    ⟨past, found, -, -, stored, j, r', reply, ⟨-, -, -, hreply, -⟩, -⟩ <;>
  exact ⟨reply, hreply⟩

/-- **Operations without a rule are for administrators.** Let the table of a new gate be made for
its domain, whatever rules were added to it. In every run, a request for an operation without a
rule, made while authorization is on, is let in only on a scope, by the pattern of administration,
as a principal with a permission that is enough for system or for full administration; this
permission is bound to no scope and one of the four names that are. -/
theorem unlisted_for_administrators_only {c : Config} {parts : Gate.Parts} {start : Instant}
    {g : Gate} {past : List (Moment × Event)} {now : Moment}
    (hbuild : Gate.build c parts start = .ok g)
    (htable : g.operations.fallback = (OperationTable.empty g.domain).fallback)
    (hunlisted : g.operations.isKnown r.operation = false)
    (took : Took { gate := g } events past now i r .arrived)
    (hon : (run { gate := g } past).gate.enabled = true)
    (hgranted : (run { gate := g } events).requests[i]? = some (r, .ended (.ok a))) :
    validateScope r.scope = .ok () ∧ a.pattern = some .admin ∧
      ∃ permission ∈ a.principal.permissions, permission.scope = none ∧
        permission.name ∈ g.domain.administration ∧
        (g.domain.satisfies permission.name (g.domain.nameOf .adminSystem) = true ∨
          g.domain.satisfies permission.name (g.domain.nameOf .adminFull) = true) := by
  obtain ⟨-, hempty⟩ := Gate.build_eq_ok hbuild
  have hrule : g.operations.rule r.operation = ⟨g.domain.nameOf .adminSystem, true⟩ := by
    rw [OperationTable.rule_of_not_isKnown hunlisted, htable, OperationTable.empty]
  obtain ⟨p, pattern⟩ := a
  cases pattern with
  | none =>
    obtain ⟨past', now', took', hoff⟩ := came_run (Nat.zero_le i) events hgranted _ rfl rfl
    obtain ⟨rfl, -⟩ := took.unique took' rfl rfl
    rw [hon] at hoff
    cases hoff
  | some pattern =>
    obtain ⟨hform, hwarranted, hdecided⟩ :=
      (standing_run (w := { gate := g }) rfl hempty events).2 i r _ hgranted p pattern rfl
    obtain ⟨reply, hreply⟩ := hwarranted.ofReply
    obtain ⟨past', now', -, hpattern⟩ := hdecided
    have hscope : validateScope r.scope = .ok () := by
      refine hform.2.resolve_left fun hfree => ?_
      dsimp only at hfree
      rw [hrule] at hfree
      cases hfree.2
    dsimp only at hpattern
    rw [hrule, Access.decide_adminSystem] at hpattern
    split at hpattern
    · next hholds =>
      obtain rfl := Except.ok.inj hpattern
      refine ⟨hscope, rfl, ?_⟩
      simp only [Access.holds, Access.grants, List.any_map, List.any_eq_true,
        Function.comp_apply, ← exists_or, ← and_or_left] at hholds
      obtain ⟨permission, hmem, henough⟩ := hholds
      obtain ⟨hnone, haccepts⟩ := Principal.of_mem_permissions_ofReply hreply hmem
      rw [Domain.effectiveName, hnone] at henough
      exact ⟨permission, hmem, hnone, Domain.mem_administration_of_satisfies
        (Domain.not_mem_of_accepts haccepts) henough, henough⟩
    · cases hpattern

/-- A principal with full administration is let in. -/
theorem unlisted_for_administrators_only_full :
    let r : Request := ⟨"compact", "t", "org.x"⟩
    let a : Authorization :=
      ⟨{ id := "u", permissions := [{ name := "state:admin:full" }] }, some .admin⟩
    let reply : ValidationReply :=
      { valid := true, principalId := some "u", permissions := ["state:admin:full"] }
    let events : List (Moment × Event) :=
      [(⟨0, ⟨0, 0⟩⟩, .request r)] ++ List.replicate 4 (⟨1, ⟨0, 0⟩⟩, .step 0) ++
        [(⟨2, ⟨0, 0⟩⟩, .answer 0 (.ok reply))] ++ List.replicate 4 (⟨3, ⟨0, 0⟩⟩, .step 0)
    ∃ g, Gate.build {} {} 0 = .ok g ∧
      (run { gate := g } events).requests[0]? = some (r, .ended (.ok a)) ∧
      validateScope "org.x" = .ok () ∧
      ∃ permission ∈ a.principal.permissions,
        permission.name ∈ ["state:admin:system", "state:admin:full", "state:admin:*", "state:*"] := by
  intro r a reply events
  obtain ⟨g, hbuild, htable, hunlisted, hdomain, harrived, hon, hgranted⟩ :
      ∃ g, Gate.build {} {} 0 = .ok g ∧
        g.operations.fallback = (OperationTable.empty g.domain).fallback ∧
        g.operations.isKnown r.operation = false ∧ g.domain = .state ∧
        (run { gate := g } [(⟨0, ⟨0, 0⟩⟩, .request r)]).requests[0]? = some (r, .arrived) ∧
        (run { gate := g } [(⟨0, ⟨0, 0⟩⟩, .request r)]).gate.enabled = true ∧
        (run { gate := g } events).requests[0]? = some (r, .ended (.ok a)) :=
    ⟨_, rfl, by decide +kernel, by decide +kernel, rfl, by decide +kernel, by decide +kernel,
      by decide +kernel⟩
  have took : Took { gate := g } events [(⟨0, ⟨0, 0⟩⟩, .request r)] ⟨1, ⟨0, 0⟩⟩ 0 r .arrived :=
    ⟨⟨_, rfl⟩, harrived⟩
  obtain ⟨hscope, -, permission, hmem, -, hname, -⟩ :=
    unlisted_for_administrators_only hbuild htable hunlisted took hon hgranted
  rw [hdomain] at hname
  exact ⟨g, hbuild, hgranted, hscope, permission, hmem, hname⟩

/-- **Full administration is enough where only system administration is asked for.** An operation
without a rule needs system administration, yet a principal is let in with full administration,
which is not enough for it. And where the table was made for another domain, whose permissions take
a scope here, administration bound to the scope is enough. -/
theorem unlisted_for_full_administration :
    let r : Request := ⟨"compact", "t", "org.x"⟩
    let events (granted : String) : List (Moment × Event) :=
      [(⟨0, ⟨0, 0⟩⟩, .request r)] ++ List.replicate 4 (⟨1, ⟨0, 0⟩⟩, .step 0) ++
        [(⟨2, ⟨0, 0⟩⟩, .answer 0 (.ok
          { valid := true, principalId := some "u", permissions := [granted] }))] ++
        List.replicate 4 (⟨3, ⟨0, 0⟩⟩, .step 0)
    let authorization (granted : String) : Authorization :=
      ⟨{ id := "u", permissions := [{ name := granted }] }, some .admin⟩
    (∃ g, Gate.build {} {} 0 = .ok g ∧ g.enabled = true ∧ g.operations.isKnown "compact" = false ∧
      g.operations.rule "compact" = ⟨Domain.state.nameOf .adminSystem, true⟩ ∧
      (run { gate := g } (events "state:admin:full")).requests[0]? =
        some (r, .ended (.ok (authorization "state:admin:full"))) ∧
      Domain.state.satisfies "state:admin:full" (Domain.state.nameOf .adminSystem) = false) ∧
    ∃ g, Gate.build {} { operations := some (.empty ⟨"broker"⟩) } 0 = .ok g ∧ g.enabled = true ∧
      (run { gate := g } (events "state:scope:org.x:admin")).requests[0]? =
        some (r, .ended (.ok (authorization "state:scope:org.x:admin"))) ∧
      Domain.state.satisfies "state:scope:org.x:admin" (Domain.state.nameOf .adminSystem) = false ∧
      Domain.state.satisfies "state:scope:org.x:admin"
        (Domain.nameOf ⟨"broker"⟩ .adminSystem) = false := by
  intro r events authorization
  refine ⟨⟨_, rfl, rfl, ?_, ?_, ?_, ?_⟩, ⟨_, rfl, rfl, ?_, ?_, ?_⟩⟩ <;> decide +kernel

end World

end AccessGate
