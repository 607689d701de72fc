import AccessGate.Proofs.Permission.Order

/-!
# What an action is enough for

A name bound to a scope reaches the actions on the same scope that its own action implies
(`Domain.Reaches.action_of_bound`), so between names bound to scopes one is enough for another
exactly when the scope is the same and the action covers the other one
(`Domain.satisfies_boundName_iff`). A name bound to no scope reaches standard permissions only, and
is one (`Domain.Reaches.of_unbound`).
-/

namespace AccessGate

open Text (segments)

variable {d : Domain} {name scope scope' action word : String}

/-! ## Actions on a scope -/

/-- Whether an action on a scope is enough for another one on it. -/
def Covers (action word : String) : Prop :=
  action = word ∨ action = "*" ∨ word ∈ boundImplies action

instance (action word : String) : Decidable (Covers action word) :=
  inferInstanceAs (Decidable (_ ∨ _ ∨ _))

/-- What an action implies implies nothing that the action does not imply. -/
theorem boundImplies_trans {next last : String} (hnext : next ∈ boundImplies action)
    (hlast : last ∈ boundImplies next) : last ∈ boundImplies action := by
  unfold boundImplies at hnext
  split at hnext
  · have hadmin : ∀ next ∈ boundImplies "admin", ∀ last ∈ boundImplies next,
        last ∈ boundImplies "admin" := by decide
    exact hadmin next hnext last hlast
  · obtain rfl := List.mem_singleton.1 hnext
    cases hlast
  · obtain rfl := List.mem_singleton.1 hnext
    cases hlast
  · cases hnext

namespace Standard

/-- Nothing implies system administration. -/
theorem adminSystem_not_mem_implies (s : Standard) : adminSystem ∉ s.implies := by
  cases s <;> decide

/-- What a permission other than system administration implies implies nothing further. -/
theorem implies_trans (s : Standard) :
    ∀ s' ∈ s.implies, ∀ s'' ∈ s'.implies, s'' ∈ s.implies ∨ s = adminSystem := by
  cases s <;> decide

end Standard

namespace Domain

/-- What a name bound to a scope reaches is bound to it, with an action that the one of the name
implies. -/
theorem Reaches.action_of_bound {last : String} (h : d.Reaches name last)
    (hname : segments name = [d.name, Binding.scope.segment, scope, action]) :
    ∃ word ∈ boundImplies action, last = d.boundName .scope scope word := by
  induction h generalizing action with
  | @step name next hnext =>
    rw [implications, bound?_eq_some_iff.2 hname] at hnext
    obtain ⟨word, hword, rfl⟩ := List.mem_map.1 hnext
    exact ⟨word, hword, rfl⟩
  | @trans name next last hnext _ ih =>
    obtain ⟨hd, hscope, -, -⟩ := eq_boundName_of_bound? (bound?_eq_some_iff.2 hname)
    rw [implications, bound?_eq_some_iff.2 hname] at hnext
    obtain ⟨word, hword, rfl⟩ := List.mem_map.1 hnext
    obtain ⟨word', hword', rfl⟩ :=
      ih (segments_boundName hd .scope hscope (not_mem_of_mem_boundImplies hword))
    exact ⟨word', boundImplies_trans hword hword', rfl⟩

/-- A name that is no wildcard is enough for what it implies in one step. -/
theorem satisfies_of_mem_implications {granted required : String}
    (hstar : (segments granted).getLast? ≠ some "*") (h : required ∈ d.implications granted) :
    d.satisfies granted required = true := by
  have hwild : ¬ [':', '*'] <:+ granted.toList := fun hwild => hstar (getLast?_of_wildcard hwild)
  by_cases hsame : granted = required
  · exact satisfies_iff.2 (.inl hsame)
  · exact satisfies_iff.2 (.inr (.inr ⟨hwild, Ne.symm hsame, .step h⟩))

/-- A wildcard is enough for the names that go on from its stem and are not cross-service. -/
theorem satisfies_of_stem {granted required : String} {stem : List Char}
    (hgranted : granted.toList = stem ++ [':', '*']) (hrequired : stem ++ [':'] <+: required.toList)
    (hcross : (segments required)[1]? ≠ some "cross-service") :
    d.satisfies granted required = true := by
  refine satisfies_iff.2 (.inr (.inl ⟨⟨stem, hgranted.symm⟩, ?_, .inl hcross⟩))
  rw [hgranted, List.dropLast_append_of_ne_nil (List.cons_ne_nil _ _)]
  exact hrequired

/-- A grant bound to a scope is enough for the names bound to the same scope whose action its own
one covers. -/
theorem satisfies_boundName_iff (hd : ':' ∉ d.name.toList) (hscope : ':' ∉ scope.toList)
    (hscope' : ':' ∉ scope'.toList) (haction : ':' ∉ action.toList) (hword : ':' ∉ word.toList) :
    d.satisfies (d.boundName .scope scope action) (d.boundName .scope scope' word) = true ↔
      scope' = scope ∧ Covers action word := by
  have hgranted := segments_boundName hd .scope hscope haction
  have hrequired := segments_boundName hd .scope hscope' hword
  constructor
  · intro h
    obtain ⟨rest, -, hrest⟩ := segments_of_satisfies hgranted h
    rw [hrequired] at hrest
    simp only [List.cons.injEq, true_and] at hrest
    obtain ⟨rfl, -⟩ := hrest
    refine ⟨rfl, ?_⟩
    rcases satisfies_iff.1 h with hsame | ⟨hwild, -, -⟩ | ⟨-, -, hreach⟩
    · rw [← Text.segments_inj, hgranted, hrequired] at hsame
      simp only [List.cons.injEq, true_and, and_true] at hsame
      exact .inl hsame
    · have hlast := getLast?_of_wildcard hwild
      rw [hgranted] at hlast
      exact .inr (.inl (Option.some.inj hlast))
    · obtain ⟨word', hword', hsame⟩ := hreach.action_of_bound hgranted
      rw [← Text.segments_inj, hrequired,
        segments_boundName hd .scope hscope (not_mem_of_mem_boundImplies hword')] at hsame
      simp only [List.cons.injEq, true_and, and_true] at hsame
      exact .inr (.inr (hsame ▸ hword'))
  · rintro ⟨rfl, rfl | rfl | hword'⟩
    · exact satisfies_iff.2 (.inl rfl)
    · have hstar : (d.boundName .scope scope' "*").toList =
          (d.name ++ ":" ++ Binding.scope.segment ++ ":" ++ scope').toList ++ [':', '*'] := by
        simp [boundName]
      refine satisfies_of_stem hstar ⟨word.toList, by simp [boundName]⟩ ?_
      rw [hrequired]
      exact fun h => absurd (Option.some.inj h) (by decide)
    · refine satisfies_of_mem_implications (fun hlast => ?_) ?_
      · rw [hgranted] at hlast
        obtain rfl : action = "*" := Option.some.inj hlast
        cases hword'
      · rw [implications, bound?_boundName hd .scope hscope haction]
        exact List.mem_map_of_mem hword'

/-! ## Names bound to no scope -/

/-- No standard permission is bound to a scope. -/
theorem isScoped_nameOf (d : Domain) (s : Standard) : d.isScoped (d.nameOf s) = false := by
  rw [isScoped, bound?_nameOf]
  rfl

/-- What a name that is bound to no scope implies is a standard permission, and so is the name. -/
theorem exists_implies_of_mem_implications {next : String} (hunbound : d.isScoped name = false)
    (h : next ∈ d.implications name) :
    ∃ s, ∃ s' ∈ s.implies, name = d.nameOf s ∧ next = d.nameOf s' := by
  rcases implications_cases h with ⟨scope, action, -, hbound, -, -⟩ | hstandard
  · rw [isScoped, hbound] at hunbound
    cases hunbound
  · exact hstandard

/-- A name that is bound to no scope reaches standard permissions only, and is one: in one step, or
as system administration. -/
theorem Reaches.of_unbound {last : String} (h : d.Reaches name last)
    (hunbound : d.isScoped name = false) :
    ∃ s s', name = d.nameOf s ∧ last = d.nameOf s' ∧ (s' ∈ s.implies ∨ s = .adminSystem) := by
  induction h with
  | step hnext =>
    obtain ⟨s, s', hs', rfl, rfl⟩ := exists_implies_of_mem_implications hunbound hnext
    exact ⟨s, s', rfl, rfl, .inl hs'⟩
  | trans hnext _ ih =>
    obtain ⟨s, s', hs', rfl, rfl⟩ := exists_implies_of_mem_implications hunbound hnext
    obtain ⟨s₁, s₂, hsame, rfl, hlast⟩ := ih (d.isScoped_nameOf s')
    obtain rfl := nameOf_inj.1 hsame
    refine ⟨s, s₂, rfl, rfl, ?_⟩
    rcases hlast with hlast | rfl
    · exact Standard.implies_trans s s' hs' s₂ hlast
    · exact absurd hs' (Standard.adminSystem_not_mem_implies s)

/-- A standard permission is enough for those it implies. -/
theorem satisfies_of_mem_implies (hd : ':' ∉ d.name.toList) {s s' : Standard}
    (h : s' ∈ s.implies) : d.satisfies (d.nameOf s) (d.nameOf s') = true := by
  refine satisfies_of_mem_implications ?_ ?_
  · rw [segments_nameOf hd, List.getLast?_cons_of_ne_nil (Text.segments_ne_nil _)]
    cases s <;> decide
  · rw [implications, bound?_nameOf, standard?_nameOf]
    exact List.mem_map_of_mem h

end Domain

end AccessGate
