import AccessGate.Proofs.Permission.Closure

/-!
# What a grant is enough for

A grant is enough for itself; a wildcard for the names that go on from its stem, cross-service ones
only if it is the wildcard of the whole domain; any other grant for what it reaches by implication
(`Domain.satisfies_iff`). So nothing but the wildcards of its prefixes is enough for system
administration beside itself, nothing but the wildcard of the domain for a cross-service name
(`Domain.eq_of_satisfies_crossService`), and a grant bound to a scope is enough for names bound to
the same scope only (`Domain.segments_of_satisfies`). The main statement is
`Domain.satisfies_exactly`.
-/

namespace AccessGate

open Text (segments)

/-- A wildcard is a name that ends in a star after a separator. -/
theorem isWildcard_iff {name : String} :
    isWildcard name = true ↔ [':', '*'] <:+ name.toList :=
  List.isSuffixOf_iff_suffix

/-- A cross-service name is one whose second segment says so. -/
theorem isCrossService_iff {name : String} :
    isCrossService name = true ↔ (segments name)[1]? = some "cross-service" :=
  beq_iff_eq

namespace Domain

variable {d : Domain} {name granted required scope action : String} {kind : Binding}

/-- A wildcard ends in a segment of one star. -/
theorem getLast?_of_wildcard (h : [':', '*'] <:+ name.toList) :
    (segments name).getLast? = some "*" :=
  Text.getLast?_segments (show ':' ∉ "*".toList by decide) h

/-- A qualified suffix has the domain before its own segments. -/
theorem segments_qualify (hd : ':' ∉ d.name.toList) (suffix : String) :
    segments (d.qualify suffix) = d.name :: segments suffix :=
  Text.segments_append hd suffix

/-- No standard permission is a wildcard. -/
theorem isWildcard_nameOf (hd : ':' ∉ d.name.toList) (s : Standard) :
    isWildcard (d.nameOf s) = false := by
  rw [Bool.eq_false_iff, ne_eq, isWildcard_iff]
  intro hwild
  have hall : ∀ s ∈ Standard.all, (segments s.suffix).getLast? ≠ some "*" := by decide
  have hlast := getLast?_of_wildcard hwild
  have hend := List.getLast?_eq_some_getLast (Text.segments_ne_nil s.suffix)
  rw [segments_nameOf hd, ← List.singleton_append, List.getLast?_append, hend, Option.some_or,
    ← hend] at hlast
  exact hall s s.mem_all hlast

/-- The second segment of a bound name is the kind of binding, whatever the scope. -/
theorem getElem?_segments_boundName (hd : ':' ∉ d.name.toList) (kind : Binding)
    (scope action : String) :
    (segments (d.boundName kind scope action))[1]? = some kind.segment := by
  have hnested : d.boundName kind scope action =
      d.name ++ ":" ++ (kind.segment ++ ":" ++ (scope ++ ":" ++ action)) := by
    simp only [boundName, String.append_assoc]
  rw [hnested, Text.segments_append hd, Text.segments_append kind.not_mem_segment]
  rfl

/-- The second segment of a cross-service variant says what it is. -/
theorem getElem?_segments_crossServiceVariant (hd : ':' ∉ d.name.toList) (base scope : String) :
    (segments (d.crossServiceVariant base scope))[1]? = some "cross-service" :=
  getElem?_segments_boundName hd .crossService scope (boundAction base)

/-- No standard permission is a cross-service one. -/
theorem getElem?_segments_nameOf_ne (hd : ':' ∉ d.name.toList) (s : Standard) :
    (segments (d.nameOf s))[1]? ≠ some "cross-service" := by
  rw [segments_nameOf hd, List.getElem?_cons_succ]
  cases s <;> decide

/-- The wildcard of a domain. -/
theorem qualify_star (d : Domain) : d.qualify "*" = d.name ++ ":*" := by
  rw [qualify, String.append_assoc]
  rfl

/-- What a grant is enough for. -/
theorem satisfies_iff :
    d.satisfies granted required = true ↔
      granted = required ∨
      ([':', '*'] <:+ granted.toList ∧ granted.toList.dropLast <+: required.toList ∧
        ((segments required)[1]? ≠ some "cross-service" ∨ granted = d.name ++ ":*")) ∨
      (¬ [':', '*'] <:+ granted.toList ∧ required ≠ granted ∧ d.Reaches granted required) := by
  have hcross : (!isCrossService required) = true ↔
      (segments required)[1]? ≠ some "cross-service" := by
    rw [Bool.not_eq_true', ← Bool.not_eq_true, isCrossService_iff]
  rw [satisfies, Bool.or_eq_true, beq_iff_eq, ← isWildcard_iff]
  cases hw : isWildcard granted with
  | true =>
    simp only [if_true, wildcardCovers, Bool.and_eq_true, Bool.or_eq_true, beq_iff_eq,
      List.isPrefixOf_iff_prefix, hcross, qualify_star, true_and, not_true_eq_false, false_and,
      or_false]
  | false =>
    simp only [Bool.false_eq_true, if_false, List.contains_eq_mem, decide_eq_true_eq,
      mem_impliedBy, false_and, not_false_eq_true, true_and, false_or]

/-! ## Grants bound to a scope -/

/-- The names that a wildcard bound to a scope stands for are of the same domain, kind and scope. -/
theorem segments_of_stem (hd : ':' ∉ d.name.toList) (hscope : ':' ∉ scope.toList)
    (h : (d.boundName kind scope "*").toList.dropLast <+: required.toList) :
    ∃ rest, rest ≠ [] ∧ segments required = d.name :: kind.segment :: scope :: rest := by
  obtain ⟨tail, htail⟩ := h
  have hrequired : required =
      d.name ++ ":" ++ (kind.segment ++ ":" ++ (scope ++ ":" ++ String.ofList tail)) := by
    apply String.toList_injective
    rw [← htail]
    have hstem : (d.boundName kind scope "*").toList =
        (d.name.toList ++ ':' :: (kind.segment.toList ++ ':' :: (scope.toList ++ [':']))) ++
          ['*'] := by simp [boundName]
    rw [hstem, List.dropLast_concat]
    simp
  refine ⟨segments (String.ofList tail), Text.segments_ne_nil _, ?_⟩
  rw [hrequired, Text.segments_append hd, Text.segments_append kind.not_mem_segment,
    Text.segments_append hscope]

/-- What a grant bound to a scope is enough for is of the same domain, kind and scope. -/
theorem segments_of_satisfies (hgranted : segments granted = [d.name, kind.segment, scope, action])
    (h : d.satisfies granted required = true) :
    ∃ rest, rest ≠ [] ∧ segments required = d.name :: kind.segment :: scope :: rest := by
  obtain ⟨hd, hscope, -, rfl⟩ := eq_boundName_of_bound? (bound?_eq_some_iff.2 hgranted)
  rcases satisfies_iff.1 h with rfl | ⟨hwild, hstem, -⟩ | ⟨-, -, hreach⟩
  · exact ⟨[action], List.cons_ne_nil _ _, hgranted⟩
  · have hlast := getLast?_of_wildcard hwild
    rw [hgranted] at hlast
    obtain rfl : action = "*" := Option.some.inj hlast
    exact segments_of_stem hd hscope hstem
  · cases kind with
    | scope =>
      obtain ⟨action', hsegments⟩ := hreach.of_bound hgranted
      exact ⟨[action'], List.cons_ne_nil _ _, hsegments⟩
    | crossService =>
      have hnone := implications_of_crossService hgranted
      cases hreach with
      | step hnext | trans hnext =>
        rw [hnone] at hnext
        cases hnext

/-- A grant bound to a scope that is not a wildcard is enough for names bound to the same scope. -/
theorem segments_of_satisfies_bound
    (hgranted : segments granted = [d.name, Binding.scope.segment, scope, action])
    (hwild : ¬ [':', '*'] <:+ granted.toList) (h : d.satisfies granted required = true) :
    ∃ action', segments required = [d.name, Binding.scope.segment, scope, action'] := by
  rcases satisfies_iff.1 h with rfl | ⟨hw, -⟩ | ⟨-, -, hreach⟩
  · exact ⟨action, hgranted⟩
  · exact absurd hw hwild
  · exact hreach.of_bound hgranted

/-! ## What nothing implies -/

/-- No step of implication leads to a cross-service name. -/
theorem not_reaches_crossService (hd : ':' ∉ d.name.toList)
    (hcross : (segments required)[1]? = some "cross-service") : ¬ d.Reaches granted required := by
  intro hreach
  rcases hreach.target with ⟨s, -, rfl⟩ | ⟨scope, action, hsegments⟩
  · exact getElem?_segments_nameOf_ne hd s hcross
  · rw [hsegments] at hcross
    exact absurd (Option.some.inj hcross) (by decide)

/-- Only the wildcard of the domain, and the name itself, is enough for a cross-service name. -/
theorem eq_of_satisfies_crossService (hd : ':' ∉ d.name.toList)
    (hcross : (segments required)[1]? = some "cross-service")
    (h : d.satisfies granted required = true) :
    granted = required ∨ granted = d.name ++ ":*" := by
  rcases satisfies_iff.1 h with hsame | ⟨-, -, hkind⟩ | ⟨-, -, hreach⟩
  · exact .inl hsame
  · exact .inr (hkind.resolve_left fun hne => hne hcross)
  · exact absurd hreach (not_reaches_crossService hd hcross)

/-- Only wildcards, and the permission itself, are enough for system administration. -/
theorem stem_of_satisfies_adminSystem (hd : ':' ∉ d.name.toList)
    (h : d.satisfies granted (d.nameOf .adminSystem) = true) :
    granted = d.nameOf .adminSystem ∨
      [':', '*'] <:+ granted.toList ∧
        granted.toList.dropLast <+: (d.nameOf .adminSystem).toList := by
  rcases satisfies_iff.1 h with hsame | ⟨hwild, hstem, -⟩ | ⟨-, -, hreach⟩
  · exact .inl hsame
  · exact .inr ⟨hwild, hstem⟩
  · rcases hreach.target with ⟨s, hne, hsame⟩ | ⟨scope, action, hsegments⟩
    · exact absurd (nameOf_inj.1 hsame).symm hne
    · rw [segments_nameOf hd] at hsegments
      have hlength := congrArg List.length hsegments
      simp [Standard.length_segments_suffix] at hlength

/-! ## The whole of it -/

/-- **What a grant is enough for, exactly.** The search for what a grant implies is over after
finitely many turns, and lists the names that it reaches, itself left out. The grant is enough for
itself; if it is a wildcard, for the names that go on from its stem, cross-service ones only if it
stands for the whole domain; if not, for the names listed. So it takes the name itself or the
wildcard of the domain for a cross-service name, and the permission itself or a wildcard that it
goes on from for system administration; and a grant on a scope that is not a wildcard is enough
for names on the same scope only. -/
theorem satisfies_exactly (hd : ':' ∉ d.name.toList) (granted required : String) :
    (∃ n, ((Search.turn d granted)^[n] (.start granted)).pending = [] ∧
      (∀ name, name ∈ ((Search.turn d granted)^[n] (.start granted)).found ↔
        name ≠ granted ∧ d.Reaches granted name) ∧
      d.impliedBy granted = Text.sortedSet ((Search.turn d granted)^[n] (.start granted)).found) ∧
    (d.satisfies granted required = true ↔
      granted = required ∨
      ([':', '*'] <:+ granted.toList ∧ granted.toList.dropLast <+: required.toList ∧
        ((segments required)[1]? ≠ some "cross-service" ∨ granted = d.name ++ ":*")) ∨
      (¬ [':', '*'] <:+ granted.toList ∧ required ∈ d.impliedBy granted)) ∧
    (∀ name, name ∈ d.impliedBy granted ↔ name ≠ granted ∧ d.Reaches granted name) ∧
    (d.satisfies granted required = true → (segments required)[1]? = some "cross-service" →
      granted = required ∨ granted = d.name ++ ":*") ∧
    (d.satisfies granted (d.nameOf .adminSystem) = true →
      granted = d.nameOf .adminSystem ∨
        [':', '*'] <:+ granted.toList ∧
          granted.toList.dropLast <+: (d.nameOf .adminSystem).toList) ∧
    (∀ scope action, segments granted = [d.name, "scope", scope, action] →
      ¬ [':', '*'] <:+ granted.toList → d.satisfies granted required = true →
      ∃ action', segments required = [d.name, "scope", scope, action']) := by
  obtain ⟨n, hfinish, hover⟩ := Search.exists_iterate_turn d granted (.start granted)
  have hfaithful := (Search.faithful_start d granted).iterate_turn n
  refine ⟨⟨n, hover, hfaithful.mem_found_iff hover, by rw [impliedBy, hfinish]⟩, ?_,
    fun name => mem_impliedBy, fun h hcross => eq_of_satisfies_crossService hd hcross h,
    stem_of_satisfies_adminSystem hd, fun scope action => segments_of_satisfies_bound⟩
  rw [mem_impliedBy]
  exact satisfies_iff

/-- A scoped grant of administration is enough for writing in its scope, and for no cross-service
name. -/
theorem satisfies_exactly_scopedAdmin :
    ':' ∉ state.name.toList ∧
      state.satisfies "state:scope:main:admin" "state:scope:main:write" = true ∧
      state.Reaches "state:scope:main:admin" "state:scope:main:write" ∧
      state.satisfies "state:scope:main:admin" "state:cross-service:main:read" = false := by
  have hd : ':' ∉ state.name.toList := by decide
  obtain ⟨-, hiff, hreaches, -⟩ :=
    satisfies_exactly hd "state:scope:main:admin" "state:scope:main:write"
  have hsatisfies : state.satisfies "state:scope:main:admin" "state:scope:main:write" = true := by
    decide +kernel
  refine ⟨hd, hsatisfies, ?_, ?_⟩
  · rcases hiff.1 hsatisfies with h | ⟨h, -⟩ | ⟨-, h⟩
    · exact absurd h (by decide)
    · exact absurd h (by decide)
    · exact ((hreaches _).1 h).2
  · obtain ⟨-, -, -, hcross, -⟩ :=
      satisfies_exactly hd "state:scope:main:admin" "state:cross-service:main:read"
    rw [Bool.eq_false_iff]
    intro h
    rcases hcross h (by decide) with h | h
    · exact absurd h (by decide)
    · exact absurd h (by decide)

end Domain

end AccessGate
