import AccessGate.Operation
import AccessGate.Proofs.Access.Administration
import AccessGate.Proofs.Permission.Actions

/-!
# What a permission grants once it is bound

Once a permission is bound to a scope, only an action is left of its name, and the category is gone.
So what it grants depends on the action alone, and on nothing but its scope
(`Access.decide_bound_iff`). Unbound, it grants what its name is enough for, and the names that are
enough for anything that can be bound are few (`Access.mem_narrowing_of_decide`). The main
statement, `Access.binding_narrows_exactly`, compares the two.
-/

namespace AccessGate

open Text (segments)

variable {d : Domain} {name scope scope' action word : String} {s : Standard}

namespace Standard

/-- What is left of a standard permission once it is bound. -/
def verb : Standard → String
  | adminSystem | adminFull => "admin"
  | scopeCreate => "create"
  | scopeList | dataList => "list"
  | scopeDelete | dataDelete => "delete"
  | dataRead | metricsRead => "read"
  | dataWrite => "write"
  | healthRead => "health"

/-- Whether a permission can be asked for on a scope. -/
def isBindable (s : Standard) : Bool := !s.isGlobal || s == healthRead

/-- Between permissions that can be asked for on a scope, what covers another one implies it or is
it. -/
theorem mem_implies_of_covers {s s' : Standard} (hs : s.isBindable = true)
    (hs' : s'.isBindable = true) (h : Covers s.verb s'.verb) : s' = s ∨ s' ∈ s.implies := by
  have hall : ∀ s ∈ all, ∀ s' ∈ all, s.isBindable = true → s'.isBindable = true →
      Covers s.verb s'.verb → s' = s ∨ s' ∈ s.implies := by decide +kernel
  exact hall s s.mem_all s' s'.mem_all hs hs' h

/-- A permission that can be asked for on a scope is one on data or reading health. -/
theorem head?_of_isBindable {s : Standard} (hs : s.isBindable = true) :
    s ≠ healthRead ∧ (Text.segments s.suffix).head? = some "data" ∨ s = healthRead := by
  cases s with
  | dataRead | dataWrite | dataDelete | dataList => exact .inl ⟨Standard.noConfusion, rfl⟩
  | healthRead => exact .inr rfl
  | adminSystem | adminFull | scopeCreate | scopeList | scopeDelete | metricsRead => cases hs

/-- What implies a permission that can be asked for on a scope is such a permission, or
administration. -/
theorem isBindable_of_implies {s s' : Standard} (h : s' ∈ s.implies ∨ s = adminSystem)
    (hs' : s'.isBindable = true) : s.isBindable = true ∨ s = adminSystem ∨ s = adminFull := by
  rcases h with h | rfl
  · have hall : ∀ s' ∈ s.implies, s'.isBindable = true →
        s.isBindable = true ∨ s = adminSystem ∨ s = adminFull := by cases s <;> decide
    exact hall s' h hs'
  · exact .inr (.inl rfl)

end Standard

/-- A standard permission that is bound keeps its verb. -/
theorem boundAction_nameOf (hd : ':' ∉ d.name.toList) (s : Standard) :
    boundAction (d.nameOf s) = s.verb := by
  rw [boundAction, Domain.segments_nameOf hd]
  cases s <;> rfl

/-- A standard permission bound to a scope is the bound name with its verb. -/
theorem Domain.scopedVariant_nameOf (hd : ':' ∉ d.name.toList) (hne : scope ≠ "") (s : Standard) :
    d.scopedVariant (d.nameOf s) scope = d.boundName .scope scope s.verb := by
  rw [scopedVariant_of_not_isScoped hne (d.isScoped_nameOf s), boundAction_nameOf hd]

/-- No verb has a separator in it. -/
theorem Standard.not_mem_verb (s : Standard) : ':' ∉ s.verb.toList := by cases s <;> decide

/-- Whether a standard permission can be asked for on a scope is told by its name. -/
theorem Access.isBindable_nameOf (d : Domain) (s : Standard) :
    isBindable d (d.nameOf s) = s.isBindable := by
  rw [isBindable, Domain.isGlobal_nameOf, Standard.isBindable]
  congr 1
  rw [Bool.eq_iff_iff, beq_iff_eq, beq_iff_eq, Domain.nameOf_inj]

namespace Access

variable {o : Ownership} {p : Principal} {operation : String}

/-- A principal that no service stands behind holds one permission only. -/
structure HoldsOnly (permission : Permission) (p : Principal) : Prop where
  service : p.service = none
  permissions : p.permissions = [permission]

/-- Whether a principal is let in for an operation that every service has, or for one that has no
rule. -/
def Allowed (d : Domain) (o : Ownership) (p : Principal) (operation scope : String) : Prop :=
  ∃ pattern, decide d o p
    ⟨operation, ((OperationTable.standard d).rule operation).permission, scope⟩ = .ok pattern

/-- A principal who holds one permission only is granted its effective name, and nothing else. -/
theorem grants_of_holdsOnly {permission : Permission} (h : HoldsOnly permission p) :
    grants d p = [d.effectiveName permission] := by
  rw [grants, h.permissions, List.map_singleton]

/-- One granted name holds for what it satisfies. -/
theorem holds_singleton {granted required : String} :
    holds d [granted] required = d.satisfies granted required := by
  rw [holds, List.any_cons, List.any_nil, Bool.or_false]

/-- A grant bound to a scope is enough for no standard permission without one. -/
theorem holds_nameOf_eq_false (hd : ':' ∉ d.name.toList) (hscope : ':' ∉ scope.toList)
    (haction : ':' ∉ action.toList) (s : Standard) :
    holds d [d.boundName .scope scope action] (d.nameOf s) = false := by
  rw [holds_singleton, Bool.eq_false_iff]
  intro h
  obtain ⟨rest, hrest, hsegments⟩ :=
    Domain.segments_of_satisfies (Domain.segments_boundName hd .scope hscope haction) h
  have hlength := congrArg List.length hsegments
  have hpos := List.length_pos_iff.2 hrest
  rw [Domain.segments_nameOf hd, List.length_cons, Standard.length_segments_suffix] at hlength
  simp only [List.length_cons] at hlength
  omega

/-- A grant bound to a scope is enough for a standard permission on the scope if its action covers
what is left of it, and for none on another scope. -/
theorem holds_scopedVariant_iff (hd : ':' ∉ d.name.toList) (hscope : ':' ∉ scope.toList)
    (haction : ':' ∉ action.toList) (hne : scope' ≠ "") (hscope' : ':' ∉ scope'.toList)
    (s : Standard) :
    holds d [d.boundName .scope scope action] (d.scopedVariant (d.nameOf s) scope') = true ↔
      scope' = scope ∧ Covers action s.verb := by
  rw [holds_singleton, Domain.scopedVariant_nameOf hd hne,
    Domain.satisfies_boundName_iff hd hscope hscope' haction s.not_mem_verb]

/-- What covers administration of a scope covers what can be asked for on it. -/
theorem covers_verb_of_admin (h : Covers action "admin") (hs : s.isBindable = true) :
    Covers action s.verb := by
  rcases h with rfl | rfl | himplied
  · revert hs
    cases s <;> decide
  · exact .inr (.inl rfl)
  · unfold boundImplies at himplied
    split at himplied <;> exact absurd himplied (by decide)

/-- What the bound permission of a principal that holds no other is let in for: on its scope, what
its action covers. -/
theorem decide_bound_iff (hd : ':' ∉ d.name.toList) (hunbound : d.isScoped name = false)
    (hscope : validateScope scope = .ok ()) (hp : HoldsOnly ⟨name, some scope⟩ p)
    (hscope' : scope' = "" ∨ validateScope scope' = .ok ()) (s : Standard) :
    (∃ pattern, decide d o p ⟨operation, d.nameOf s, scope'⟩ = .ok pattern) ↔
      scope' = scope ∧ s.isBindable = true ∧ Covers (boundAction name) s.verb := by
  obtain ⟨hne, hfree, -⟩ := validateScope_eq_ok_iff.1 hscope
  have haction : ':' ∉ (boundAction name).toList := not_mem_boundAction name
  have hgrants : grants d p = [d.boundName .scope scope (boundAction name)] := by
    rw [grants_of_holdsOnly hp]
    exact congrArg (fun g => [g]) (Domain.scopedVariant_of_not_isScoped hne hunbound)
  have hfree' (hne' : scope' ≠ "") : ':' ∉ scope'.toList :=
    (validateScope_eq_ok_iff.1 (hscope'.resolve_left hne')).2.1
  rw [exists_decide_iff, hgrants, hp.service]
  constructor
  · rintro ⟨pattern, h⟩
    cases pattern with
    | admin =>
      simp only [matchesPattern, holds_nameOf_eq_false hd hfree haction, Bool.false_or,
        Bool.and_eq_true, Bool.not_eq_true', String.isEmpty_eq_false_iff,
        Domain.isGlobal_nameOf] at h
      obtain ⟨⟨hne', hglobal⟩, hholds⟩ := h
      obtain ⟨hsame, hcovers⟩ :=
        (holds_scopedVariant_iff hd hfree haction hne' (hfree' hne') _).1 hholds
      have hbindable : s.isBindable = true := by rw [Standard.isBindable, hglobal]; rfl
      exact ⟨hsame, hbindable, covers_verb_of_admin hcovers hbindable⟩
    | global =>
      rw [matchesPattern, holds_nameOf_eq_false hd hfree haction] at h
      cases h
    | bound =>
      simp only [matchesPattern, Bool.and_eq_true, Bool.not_eq_true', String.isEmpty_eq_false_iff,
        isBindable_nameOf] at h
      obtain ⟨⟨hne', hbindable⟩, hholds⟩ := h
      obtain ⟨hsame, hcovers⟩ :=
        (holds_scopedVariant_iff hd hfree haction hne' (hfree' hne') s).1 hholds
      exact ⟨hsame, hbindable, hcovers⟩
    | serviceOwnership =>
      rw [matchesPattern, Option.any_none, Bool.and_false] at h
      cases h
    | crossService =>
      simp only [matchesPattern, Bool.and_eq_true, Bool.not_eq_true',
        String.isEmpty_eq_false_iff, holds_singleton] at h
      obtain ⟨⟨hne', -⟩, hsatisfies⟩ := h
      obtain ⟨rest, -, hrest⟩ := Domain.segments_of_satisfies
        (Domain.segments_boundName hd .scope hfree haction) hsatisfies
      rw [Domain.crossServiceVariant,
        Domain.segments_boundName hd .crossService (hfree' hne') (not_mem_boundAction _)] at hrest
      simp [Binding.segment] at hrest
  · rintro ⟨rfl, hbindable, hcovers⟩
    refine ⟨.bound, ?_⟩
    simp only [matchesPattern, Bool.and_eq_true, Bool.not_eq_true', String.isEmpty_eq_false_iff,
      isBindable_nameOf]
    exact ⟨⟨hne, hbindable⟩,
      (holds_scopedVariant_iff hd hfree haction hne hfree s).2 ⟨rfl, hcovers⟩⟩

end Access

/-! ## Without a scope -/

namespace Domain

/-- A wildcard and a name that goes on from its stem have all segments of the stem in common. -/
theorem segments_of_wildcard {granted required : String} (hwild : [':', '*'] <:+ granted.toList)
    (hstem : granted.toList.dropLast <+: required.toList) :
    ∃ front rest, front ≠ [] ∧ rest ≠ [] ∧ segments granted = front ++ ["*"] ∧
      segments required = front ++ rest := by
  obtain ⟨cs, hgranted⟩ := hwild
  rw [← hgranted, List.dropLast_append_of_ne_nil (List.cons_ne_nil _ _)] at hstem
  obtain ⟨tail, hrequired⟩ := hstem
  have hsplit (tail : List Char) : (Text.split ':' (cs ++ ':' :: tail)).map String.ofList =
      segments (String.ofList cs) ++ segments (String.ofList tail) := by
    rw [Text.split_append_sep, List.map_append, segments, segments, String.toList_ofList,
      String.toList_ofList]
  refine ⟨segments (String.ofList cs), segments (String.ofList tail), Text.segments_ne_nil _,
    Text.segments_ne_nil _, ?_, ?_⟩
  · rw [segments, ← hgranted]
    exact hsplit ['*']
  · rw [segments, ← hrequired, List.append_assoc]
    exact hsplit tail

/-- A name is the domain with what follows it. -/
theorem eq_qualify_of_segments (hd : ':' ∉ d.name.toList) {suffix : String}
    (h : segments name = d.name :: segments suffix) : name = d.qualify suffix :=
  Text.segments_inj.1 (h.trans (segments_qualify hd suffix).symm)

/-- The names that bound to a scope grant no more than they do without one: those of administration,
the permissions that can be asked for on a scope, which are those on data and reading health, and
the wildcards of health and of all scopes. -/
def narrowing (d : Domain) : List String :=
  d.administration ++ (Standard.all.filter Standard.isBindable).map d.nameOf ++
    [d.qualify "health:*", d.qualify "scope:*"]

/-- The names that lose nothing by being bound: of administration, of what can be asked for on a
scope, and the wildcards of health and of scopes. -/
theorem mem_narrowing_iff : name ∈ d.narrowing ↔
    name ∈ d.administration ∨ (∃ s : Standard, s.isBindable = true ∧ name = d.nameOf s) ∨
      name = d.qualify "health:*" ∨ name = d.qualify "scope:*" := by
  simp only [narrowing, List.append_assoc, List.mem_append, List.mem_map, List.mem_filter,
    Standard.mem_all, true_and, List.mem_cons, List.not_mem_nil, or_false, eq_comm]

theorem mem_narrowing_of_mem_administration (h : name ∈ d.administration) : name ∈ d.narrowing :=
  mem_narrowing_iff.2 (.inl h)

/-- A standard permission that can be asked for on a scope loses nothing by being bound. -/
theorem nameOf_mem_narrowing (hs : s.isBindable = true) : d.nameOf s ∈ d.narrowing :=
  mem_narrowing_iff.2 (.inr (.inl ⟨s, hs, rfl⟩))

theorem wildcard_mem_administration (d : Domain) : d.qualify "*" ∈ d.administration := by
  simp [administration]

/-- A name without a scope that is enough for a name bound to one is a wildcard, of all scopes or of
the domain. -/
theorem mem_narrowing_of_satisfies_boundName (hd : ':' ∉ d.name.toList)
    (hunbound : d.isScoped name = false) (hscope : ':' ∉ scope.toList) (hword : ':' ∉ word.toList)
    (h : d.satisfies name (d.boundName .scope scope word) = true) : name ∈ d.narrowing := by
  have hnot : ¬ ∃ action, segments name = [d.name, Binding.scope.segment, scope, action] := by
    rintro ⟨action, hsegments⟩
    exact Bool.eq_false_iff.1 hunbound (isScoped_iff.2 ⟨scope, action, hsegments⟩)
  have hrequired := segments_boundName hd .scope hscope hword
  rcases satisfies_iff.1 h with hsame | ⟨hwild, hstem, -⟩ | ⟨-, -, hreach⟩
  · exact absurd ⟨word, hsame ▸ hrequired⟩ hnot
  · obtain ⟨front, rest, hfront, hrest, hname, hsegments⟩ := segments_of_wildcard hwild hstem
    rw [hrequired] at hsegments
    -- The stem is the domain, or goes on with the kind of binding, or with the scope as well.
    rcases front with _ | ⟨x, _ | ⟨y, _ | ⟨z, _ | ⟨u, front⟩⟩⟩⟩
    · exact absurd rfl hfront
    · obtain ⟨rfl, -⟩ := List.cons.inj hsegments
      have hqualify : name = d.qualify "*" := eq_qualify_of_segments hd hname
      exact mem_narrowing_of_mem_administration (hqualify ▸ wildcard_mem_administration d)
    · simp only [List.cons_append, List.cons.injEq] at hsegments
      obtain ⟨rfl, rfl, -⟩ := hsegments
      exact mem_narrowing_iff.2 (.inr (.inr (.inr (eq_qualify_of_segments hd hname))))
    · simp only [List.cons_append, List.cons.injEq] at hsegments
      obtain ⟨rfl, rfl, rfl, -⟩ := hsegments
      exact absurd ⟨"*", hname⟩ hnot
    · have hlength := congrArg List.length hsegments
      have hpos := List.length_pos_iff.2 hrest
      simp only [List.length_append, List.length_cons, List.length_nil] at hlength
      omega
  · obtain ⟨s, s', -, hsame, -⟩ := hreach.of_unbound hunbound
    have hbound := bound?_eq_some_iff.2 hrequired
    rw [hsame, bound?_nameOf] at hbound
    cases hbound

/-- A name without a scope that is enough for a permission that can be asked for on one narrows, but
for the wildcard of data. -/
theorem mem_narrowing_of_satisfies_nameOf (hd : ':' ∉ d.name.toList)
    (hunbound : d.isScoped name = false) (hs : s.isBindable = true)
    (h : d.satisfies name (d.nameOf s) = true) :
    name ∈ d.narrowing ∨ name = d.qualify "data:*" ∧ s ≠ .healthRead := by
  rcases satisfies_iff.1 h with rfl | ⟨hwild, hstem, -⟩ | ⟨-, -, hreach⟩
  · exact .inl (nameOf_mem_narrowing hs)
  · obtain ⟨front, rest, hfront, hrest, hname, hsegments⟩ := segments_of_wildcard hwild hstem
    rw [segments_nameOf hd] at hsegments
    -- The stem is the domain, or goes on with the category.
    rcases front with _ | ⟨x, _ | ⟨y, _ | ⟨z, front⟩⟩⟩
    · exact absurd rfl hfront
    · obtain ⟨rfl, -⟩ := List.cons.inj hsegments
      have hqualify : name = d.qualify "*" := eq_qualify_of_segments hd hname
      exact .inl <| mem_narrowing_of_mem_administration (hqualify ▸ wildcard_mem_administration d)
    · obtain ⟨rfl, hcategory⟩ := List.cons.inj hsegments
      have hhead : (segments s.suffix).head? = some y := by rw [hcategory]; rfl
      rcases Standard.head?_of_isBindable hs with ⟨hne, hdata⟩ | rfl
      · obtain rfl : "data" = y := Option.some.inj (hdata.symm.trans hhead)
        exact .inr ⟨eq_qualify_of_segments hd hname, hne⟩
      · obtain rfl : "health" = y := Option.some.inj hhead
        have hqualify : name = d.qualify "health:*" := eq_qualify_of_segments hd hname
        exact .inl (mem_narrowing_iff.2 (.inr (.inr (.inl hqualify))))
    · have hlength := congrArg List.length hsegments
      have hpos := List.length_pos_iff.2 hrest
      rw [List.length_cons, Standard.length_segments_suffix] at hlength
      simp only [List.length_append, List.length_cons] at hlength
      omega
  · obtain ⟨s₁, s₂, rfl, hsame, himplies⟩ := hreach.of_unbound hunbound
    obtain rfl := nameOf_inj.1 hsame
    rcases Standard.isBindable_of_implies himplies hs with hs₁ | rfl | rfl
    · exact .inl (nameOf_mem_narrowing hs₁)
    · exact .inl (mem_narrowing_of_mem_administration (by simp [administration]))
    · exact .inl (mem_narrowing_of_mem_administration (by simp [administration]))

/-- The names of administration are enough for system or for full administration. -/
theorem satisfies_of_mem_administration (hd : ':' ∉ d.name.toList) (h : name ∈ d.administration) :
    d.satisfies name (d.nameOf .adminSystem) = true ∨
      d.satisfies name (d.nameOf .adminFull) = true := by
  have hcross := getElem?_segments_nameOf_ne hd .adminSystem
  simp only [administration, List.mem_cons, List.not_mem_nil, or_false] at h
  rcases h with rfl | rfl | rfl | rfl
  · exact .inl (satisfies_iff.2 (.inl rfl))
  · exact .inr (satisfies_iff.2 (.inl rfl))
  · have hstar : (d.qualify "admin:*").toList = (d.name ++ ":admin").toList ++ [':', '*'] := by
      simp [qualify]
    refine .inl (satisfies_of_stem hstar ⟨"system".toList, ?_⟩ hcross)
    simp [nameOf, qualify, Standard.suffix]
  · exact .inl (d.satisfies_qualify_star_nameOf .adminSystem)

end Domain

/-! ## Both -/

namespace Access

variable {o : Ownership} {p : Principal} {operation : String}

/-- A rule that is set is that of its operation, and the others stay. -/
theorem rule_register (t : OperationTable) (operation permission : String) (requiresScope : Bool)
    (operation' : String) :
    (t.register operation permission requiresScope).rule operation' =
      if operation' = operation then ⟨permission, requiresScope⟩ else t.rule operation' := by
  rw [OperationTable.rule, OperationTable.register, Table.get?_insert]
  split <;> rfl

/-- The rule of each operation asks for a standard permission. -/
theorem exists_permission_rule (d : Domain) (operation : String) :
    ∃ s : Standard, ((OperationTable.standard d).rule operation).permission = d.nameOf s := by
  refine List.foldlRecOn
    (motive := fun t : OperationTable => ∃ s, (t.rule operation).permission = d.nameOf s)
    OperationTable.standardOperations _ ⟨.adminSystem, rfl⟩ fun t ht o _ => ?_
  show ∃ s, ((t.register o.1 (d.nameOf o.2.1) o.2.2).rule operation).permission = d.nameOf s
  rw [rule_register]
  split
  · exact ⟨o.2.1, rfl⟩
  · exact ht

/-- Each permission that can be asked for on a scope is asked for by some operation. -/
theorem exists_operation (d : Domain) (hs : s.isBindable = true) :
    ∃ operation, ((OperationTable.standard d).rule operation).permission = d.nameOf s := by
  cases s with
  | dataRead => exact ⟨"get", rfl⟩
  | dataWrite => exact ⟨"set", rfl⟩
  | dataDelete => exact ⟨"delete", rfl⟩
  | dataList => exact ⟨"list", rfl⟩
  | healthRead => exact ⟨"health", rfl⟩
  | adminSystem | adminFull | scopeCreate | scopeList | scopeDelete | metricsRead => cases hs

/-- What is let in without a scope, for a permission that can be asked for on one, is a name that
narrows or the wildcard of data. -/
theorem mem_narrowing_of_decide (hd : ':' ∉ d.name.toList) (hunbound : d.isScoped name = false)
    (hcross : isCrossService name = false) (hp : HoldsOnly ⟨name, none⟩ p)
    (hscope : validateScope scope = .ok ()) (hs : s.isBindable = true)
    (h : ∃ pattern, decide d o p ⟨operation, d.nameOf s, scope⟩ = .ok pattern) :
    name ∈ d.narrowing ∨ name = d.qualify "data:*" ∧ s ≠ .healthRead := by
  obtain ⟨hne, hfree, -⟩ := validateScope_eq_ok_iff.1 hscope
  have hgrants : grants d p = [name] := grants_of_holdsOnly hp
  rw [exists_decide_iff, hgrants, hp.service] at h
  have hbound (s : Standard) (h : holds d [name] (d.scopedVariant (d.nameOf s) scope) = true) :
      name ∈ d.narrowing := by
    rw [holds_singleton, Domain.scopedVariant_nameOf hd hne] at h
    exact Domain.mem_narrowing_of_satisfies_boundName hd hunbound hfree s.not_mem_verb h
  obtain ⟨pattern, h⟩ := h
  cases pattern with
  | admin =>
    simp only [matchesPattern, Bool.or_eq_true, Bool.and_eq_true] at h
    rcases h with h | ⟨-, h⟩
    · simp only [holds_singleton] at h
      exact .inl <| Domain.mem_narrowing_of_mem_administration
        (Domain.mem_administration_of_satisfies hd h)
    · exact .inl (hbound _ h)
  | global =>
    rw [matchesPattern, holds_singleton] at h
    exact Domain.mem_narrowing_of_satisfies_nameOf hd hunbound hs h
  | bound =>
    simp only [matchesPattern, Bool.and_eq_true] at h
    exact .inl (hbound s h.2)
  | serviceOwnership =>
    rw [matchesPattern, Option.any_none, Bool.and_false] at h
    cases h
  | crossService =>
    simp only [matchesPattern, Bool.and_eq_true, holds_singleton] at h
    have hkind : (segments (d.crossServiceVariant (d.nameOf s) scope))[1]? =
        some "cross-service" := Domain.getElem?_segments_crossServiceVariant hd _ _
    rcases Domain.eq_of_satisfies_crossService hd hkind h.2 with hsame | hwhole
    · rw [Bool.eq_false_iff, ne_eq, isCrossService_iff, hsame] at hcross
      exact absurd hkind hcross
    · rw [← d.qualify_star] at hwhole
      exact .inl <| Domain.mem_narrowing_of_mem_administration
        (hwhole ▸ Domain.wildcard_mem_administration d)

/-- A name that narrows is let in without a scope wherever it is on one. -/
theorem decide_of_mem_narrowing (hd : ':' ∉ d.name.toList) (hp : HoldsOnly ⟨name, none⟩ p)
    (hname : name ∈ d.narrowing) (hscope : validateScope scope = .ok ()) (hs : s.isBindable = true)
    (hcovers : Covers (boundAction name) s.verb) :
    ∃ pattern, decide d o p ⟨operation, d.nameOf s, scope⟩ = .ok pattern := by
  obtain ⟨hne, hfree, -⟩ := validateScope_eq_ok_iff.1 hscope
  have hgrants : grants d p = [name] := grants_of_holdsOnly hp
  rw [exists_decide_iff, hgrants]
  have hglobal (h : d.satisfies name (d.nameOf s) = true) :
      ∃ pattern, matchesPattern d o p.service [name] ⟨operation, d.nameOf s, scope⟩ pattern :=
    ⟨.global, by rw [matchesPattern, holds_singleton, h]⟩
  rcases Domain.mem_narrowing_iff.1 hname with hadmin | ⟨s', hs', rfl⟩ | rfl | rfl
  · have hholds := Domain.satisfies_of_mem_administration hd hadmin
    refine ⟨.admin, ?_⟩
    simp only [matchesPattern, holds_singleton, Bool.or_eq_true]
    exact .inl hholds
  · rw [boundAction_nameOf hd] at hcovers
    rcases Standard.mem_implies_of_covers hs' hs hcovers with rfl | himplies
    · exact hglobal (Domain.satisfies_iff.2 (.inl rfl))
    · exact hglobal (Domain.satisfies_of_mem_implies hd himplies)
  · have haction : boundAction (d.qualify "health:*") = "health" := by
      rw [boundAction, Domain.segments_qualify hd]
      rfl
    rw [haction] at hcovers
    rcases Standard.mem_implies_of_covers (s := .healthRead) rfl hs hcovers with rfl | himplies
    · have hstar : (d.qualify "health:*").toList = (d.name ++ ":health").toList ++ [':', '*'] := by
        simp [Domain.qualify]
      refine hglobal (Domain.satisfies_of_stem hstar ⟨"read".toList, ?_⟩
        (Domain.getElem?_segments_nameOf_ne hd _))
      simp [Domain.nameOf, Domain.qualify, Standard.suffix]
    · cases himplies
  · refine ⟨.bound, ?_⟩
    simp only [matchesPattern, Bool.and_eq_true, Bool.not_eq_true', String.isEmpty_eq_false_iff,
      isBindable_nameOf, holds_singleton, Domain.scopedVariant_nameOf hd hne]
    have hstar : (d.qualify "scope:*").toList = (d.name ++ ":scope").toList ++ [':', '*'] := by
      simp [Domain.qualify]
    refine ⟨⟨hne, hs⟩, Domain.satisfies_of_stem hstar ⟨(scope ++ ":" ++ s.verb).toList, ?_⟩ ?_⟩
    · simp [Domain.boundName, Binding.segment]
    · rw [Domain.segments_boundName hd .scope hfree s.not_mem_verb]
      exact fun h => absurd (Option.some.inj h) (by decide)

/-- The actions that cover something that can be asked for on a scope. -/
def grantedActions : List String := ["read", "write", "delete", "list", "health", "admin", "*"]

/-- An action that covers something that can be asked for on a scope is one of those listed. -/
theorem mem_grantedActions_of_covers (h : Covers action s.verb) (hs : s.isBindable = true) :
    action ∈ grantedActions := by
  rcases h with rfl | rfl | himplied
  · have hall : ∀ s ∈ Standard.all, s.isBindable = true → s.verb ∈ grantedActions := by decide
    exact hall s s.mem_all hs
  · decide
  · unfold boundImplies at himplied
    split at himplied
    · decide
    · decide
    · decide
    · cases himplied

/-- Each of these actions covers something; a wildcard covers reading health. -/
theorem exists_covers (haction : action ∈ grantedActions) :
    ∃ s : Standard, s.isBindable = true ∧ Covers action s.verb ∧
      (action = "*" → s = .healthRead) := by
  have hall : ∀ action ∈ grantedActions, ∃ s ∈ Standard.all, s.isBindable = true ∧
      Covers action s.verb ∧ (action = "*" → s = .healthRead) := by decide +kernel
  obtain ⟨s, -, hs⟩ := hall action haction
  exact ⟨s, hs⟩

/-- The permissions that take no scope and have an action that covers something else when they are
bound to one all the same. What one of these means then is not settled. -/
def widened : List Standard := [.scopeList, .scopeDelete, .metricsRead]

/-- **What binding a permission narrows.** A permission that is neither on a scope nor cross-service
is bound to a scope, and a principal that no service stands behind holds it alone. It is let in on
this scope only. What it is let in for, it would be let in for with the permission unbound, exactly
if nothing is lost with the category of the name: the name is one of administration, of a permission
that can be asked for on a scope, or a wildcard of health or of all scopes, or its action covers
nothing. Nothing is said here of listing scopes, deleting them, and metrics. -/
theorem binding_narrows_exactly (hd : ':' ∉ d.name.toList) (hunbound : d.isScoped name = false)
    (hcross : isCrossService name = false) (hscope : validateScope scope = .ok ()) :
    (∀ (o : Ownership) (p : Principal) (operation scope' : String),
      HoldsOnly ⟨name, some scope⟩ p → (scope' = "" ∨ validateScope scope' = .ok ()) →
      Allowed d o p operation scope' → scope' = scope) ∧
    (name ∉ widened.map d.nameOf →
      ((∀ (o : Ownership) (p p' : Principal) (operation scope' : String),
        HoldsOnly ⟨name, some scope⟩ p → HoldsOnly ⟨name, none⟩ p' →
        (scope' = "" ∨ validateScope scope' = .ok ()) →
        Allowed d o p operation scope' → Allowed d o p' operation scope') ↔
      name ∈ d.narrowing ∨ boundAction name ∉ grantedActions)) := by
  refine ⟨fun o p operation scope' hp hscope' hallowed => ?_, fun _ => ⟨fun hnarrows => ?_,
    fun hname o p p' operation scope' hp hp' hscope' hallowed => ?_⟩⟩
  · obtain ⟨s, hs⟩ := exists_permission_rule d operation
    rw [Allowed, hs] at hallowed
    exact ((decide_bound_iff hd hunbound hscope hp hscope' s).1 hallowed).1
  · by_contra hnot
    obtain ⟨hname, haction⟩ := not_or.1 hnot
    obtain ⟨s, hs, hcovers, hstar⟩ := exists_covers (not_not.1 haction)
    obtain ⟨operation, hoperation⟩ := exists_operation d hs
    let p : Principal := { id := "", permissions := [⟨name, some scope⟩] }
    let p' : Principal := { id := "", permissions := [⟨name, none⟩] }
    have hallowed : Allowed d {} p operation scope := by
      rw [Allowed, hoperation]
      exact (decide_bound_iff hd hunbound hscope ⟨rfl, rfl⟩ (.inr hscope) s).2 ⟨rfl, hs, hcovers⟩
    have hallowed' := hnarrows {} p p' operation scope ⟨rfl, rfl⟩ ⟨rfl, rfl⟩ (.inr hscope) hallowed
    rw [Allowed, hoperation] at hallowed'
    rcases mem_narrowing_of_decide hd hunbound hcross ⟨rfl, rfl⟩ hscope hs hallowed' with
      hmem | ⟨rfl, hne⟩
    · exact hname hmem
    · refine hne (hstar ?_)
      rw [boundAction, Domain.segments_qualify hd]
      rfl
  · obtain ⟨s, hs⟩ := exists_permission_rule d operation
    rw [Allowed, hs] at hallowed ⊢
    obtain ⟨rfl, hbindable, hcovers⟩ :=
      (decide_bound_iff hd hunbound hscope hp hscope' s).1 hallowed
    have hmem : name ∈ d.narrowing :=
      hname.resolve_right fun haction => haction (mem_grantedActions_of_covers hcovers hbindable)
    exact decide_of_mem_narrowing hd hp' hmem hscope hbindable hcovers

/-- Writing data, bound to a scope, lets in for reading there, as it does unbound, and nowhere
else. -/
theorem binding_narrows_exactly_dataWrite :
    let d := Domain.state
    let p : Principal := { id := "u", permissions := [⟨"state:data:write", some "org.x"⟩] }
    let p' : Principal := { id := "u", permissions := [⟨"state:data:write", none⟩] }
    d.validate "state:data:write" = .ok () ∧ d.isScoped "state:data:write" = false ∧
      validateScope "org.x" = .ok () ∧ Allowed d {} p "get" "org.x" ∧
      Allowed d {} p' "get" "org.x" ∧ ¬ Allowed d {} p "get" "org.y" := by
  intro d p p'
  have hunbound : d.isScoped "state:data:write" = false := by decide
  have hscope : validateScope "org.x" = .ok () := rfl
  have hallowed : Allowed d {} p "get" "org.x" := ⟨.bound, by
    have hpattern : pattern? d {} p ⟨"get", "state:data:read", "org.x"⟩ = some .bound := by
      decide +kernel
    show decide d {} p ⟨"get", "state:data:read", "org.x"⟩ = _
    rw [decide, hpattern]⟩
  obtain ⟨hwhere, hnarrows⟩ := binding_narrows_exactly (by decide) hunbound (by decide) hscope
  have hname : "state:data:write" ∈ d.narrowing := by decide
  refine ⟨by decide, hunbound, hscope, hallowed, ?_, fun h => ?_⟩
  · exact (hnarrows (by decide)).2 (.inl hname) {} p p' "get" "org.x" ⟨rfl, rfl⟩ ⟨rfl, rfl⟩
      (.inr hscope) hallowed
  · exact absurd (hwhere {} p "get" "org.y" ⟨rfl, rfl⟩ (.inr rfl) h) (by decide)

/-- A permission to write of a category that the service does not know, bound to a scope, is one to
write data there; unbound it grants nothing. -/
theorem bound_permission_loses_category :
    let d := Domain.state
    let p : Principal := { id := "u", permissions := [⟨"state:config:write", some "org.x"⟩] }
    let p' : Principal := { id := "u", permissions := [⟨"state:config:write", none⟩] }
    d.validate "state:config:write" = .ok () ∧ d.isScoped "state:config:write" = false ∧
      isCrossService "state:config:write" = false ∧ validateScope "org.x" = .ok () ∧
      Allowed d {} p "set" "org.x" ∧ ¬ Allowed d {} p' "set" "org.x" := by
  intro d p p'
  refine ⟨by decide, by decide, by decide, rfl, ⟨.bound, ?_⟩, ?_⟩
  · have hpattern : pattern? d {} p ⟨"set", "state:data:write", "org.x"⟩ = some .bound := by
      decide +kernel
    show decide d {} p ⟨"set", "state:data:write", "org.x"⟩ = _
    rw [decide, hpattern]
  · rintro ⟨pattern, h⟩
    have hpattern : pattern? d {} p' ⟨"set", "state:data:write", "org.x"⟩ = none := by
      decide +kernel
    have hdenied : decide d {} p' ⟨"set", "state:data:write", "org.x"⟩ =
        .error (.permissionDenied "set" "org.x") := by rw [decide, hpattern]
    cases hdenied.symm.trans h

end Access

end AccessGate
