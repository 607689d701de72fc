import AccessGate.Proofs.Permission.Actions

/-!
# Writing and deleting beside reading

Writing and deleting are enough for reading where the category is that of data, or a scope that the
permission is bound to, and in no other category (`Domain.reading_exactly`). Reading implies nothing
at all (`Domain.not_reaches_of_read`), so it is enough for neither.
-/

namespace AccessGate

open Text (segments)

/-- The words of the actions that change what they act on. -/
def changes : List String := ["write", "delete"]

theorem colon_not_mem_read : ':' ∉ "read".toList := by decide

/-- Writing and deleting are plain words other than reading, which they cover. -/
theorem of_mem_changes {word : String} (h : word ∈ changes) :
    ':' ∉ word.toList ∧ word ≠ "*" ∧ word ≠ "read" ∧ Covers word "read" := by
  revert word
  decide

namespace Domain

variable {d : Domain} {category scope action word last : String}

/-- The name of an action in a category, which is what stands between the domain and the action. -/
def actionName (d : Domain) (category action : String) : String :=
  d.qualify (category ++ ":" ++ action)

/-- An action on the category of a scope is the bound name. -/
theorem actionName_scope (d : Domain) (scope action : String) :
    d.actionName ("scope:" ++ scope) action = d.boundName .scope scope action := by
  apply String.toList_injective
  simp [actionName, qualify, boundName, Binding.segment]

/-- The segments of an action's name are the domain, the category and the action. -/
theorem segments_actionName (hd : ':' ∉ d.name.toList) (haction : ':' ∉ action.toList) :
    segments (d.actionName category action) = d.name :: (segments category ++ [action]) := by
  rw [actionName, segments_qualify hd, Text.segments_append_segments,
    Text.segments_of_not_mem haction]

/-- Two actions in one category have two names. -/
theorem actionName_inj (hd : ':' ∉ d.name.toList) (haction : ':' ∉ action.toList)
    (hword : ':' ∉ word.toList) (h : d.actionName category action = d.actionName category word) :
    action = word := by
  rw [← Text.segments_inj, segments_actionName hd haction, segments_actionName hd hword] at h
  simpa using h

/-- An action in a category is bound to a scope only if the category is that scope. -/
theorem eq_scope_of_isScoped (hd : ':' ∉ d.name.toList) (haction : ':' ∉ action.toList)
    (h : d.isScoped (d.actionName category action) = true) :
    ∃ scope, ':' ∉ scope.toList ∧ category = "scope:" ++ scope := by
  obtain ⟨⟨scope, action'⟩, hbound⟩ := Option.isSome_iff_exists.1 h
  obtain ⟨-, hscope, -, -⟩ := eq_boundName_of_bound? hbound
  have hsegments := bound?_eq_some_iff.1 hbound
  rw [segments_actionName hd haction, List.cons.injEq] at hsegments
  have hsplit : segments category ++ [action] = ["scope", scope] ++ [action'] := hsegments.2
  obtain ⟨hcategory, -⟩ := List.append_inj' hsplit rfl
  refine ⟨scope, hscope, Text.segments_inj.1 (hcategory.trans ?_)⟩
  have hscopeName : "scope:" ++ scope = "scope" ++ ":" ++ scope := rfl
  rw [hscopeName, Text.segments_append (by decide), Text.segments_of_not_mem hscope]

/-- An action in a category that is a standard permission has one of the suffixes. -/
theorem segments_suffix_of_actionName (hd : ':' ∉ d.name.toList) (haction : ':' ∉ action.toList)
    {s : Standard} (h : d.actionName category action = d.nameOf s) :
    segments s.suffix = segments category ++ [action] := by
  rw [← Text.segments_inj, segments_actionName hd haction, segments_nameOf hd] at h
  exact (List.cons.inj h).2.symm

/-- Of the standard permissions, reading implies nothing, and writing and deleting imply reading for
data only. -/
theorem eq_data_of_segments_suffix {s s' : Standard} {front : List String} (hword : word ∈ changes)
    (hs : segments s.suffix = front ++ [word]) (hs' : segments s'.suffix = front ++ ["read"]) :
    front = ["data"] := by
  have hall : ∀ word ∈ changes, ∀ s ∈ Standard.all, ∀ s' ∈ Standard.all,
      (segments s.suffix).getLast? = some word → (segments s'.suffix).getLast? = some "read" →
      (segments s.suffix).dropLast = (segments s'.suffix).dropLast →
      (segments s.suffix).dropLast = ["data"] := by decide +kernel
  have hfront := hall word hword s s.mem_all s' s'.mem_all
  rw [hs, hs', List.dropLast_concat, List.dropLast_concat, List.getLast?_concat,
    List.getLast?_concat] at hfront
  exact hfront rfl rfl rfl

/-- Reading implies nothing, in whatever category. -/
theorem implications_read (hd : ':' ∉ d.name.toList) (category : String) :
    d.implications (d.actionName category "read") = [] := by
  refine List.eq_nil_iff_forall_not_mem.2 fun next hnext => ?_
  rcases implications_cases hnext with ⟨scope, action, word, hbound, hword, -⟩ | ⟨s, s', hs', h, -⟩
  · have hlast := congrArg List.getLast? (bound?_eq_some_iff.1 hbound)
    rw [segments_actionName hd colon_not_mem_read, ← List.cons_append,
      List.getLast?_concat] at hlast
    obtain rfl : "read" = action := Option.some.inj hlast
    cases hword
  · have hlast := congrArg List.getLast? (segments_suffix_of_actionName hd colon_not_mem_read h)
    rw [List.getLast?_concat] at hlast
    have hall : ∀ s ∈ Standard.all, (segments s.suffix).getLast? = some "read" →
        s.implies = [] := by decide
    rw [hall s s.mem_all hlast] at hs'
    cases hs'

/-- Reading implies nothing. -/
theorem not_reaches_of_read (hd : ':' ∉ d.name.toList) :
    ¬ d.Reaches (d.actionName category "read") last := by
  intro hreach
  cases hreach with
  | step hnext | trans hnext _ =>
    rw [implications_read hd] at hnext
    cases hnext

/-- A name that ends in an action other than a star is no wildcard. -/
theorem not_wildcard_actionName (hd : ':' ∉ d.name.toList) (haction : ':' ∉ action.toList)
    (hstar : action ≠ "*") : ¬ [':', '*'] <:+ (d.actionName category action).toList := by
  intro hwild
  have hlast := getLast?_of_wildcard hwild
  rw [segments_actionName hd haction, ← List.cons_append, List.getLast?_concat] at hlast
  exact hstar (Option.some.inj hlast)

/-- Reading is not enough for any other action in its category. -/
theorem satisfies_of_read (hd : ':' ∉ d.name.toList) (haction : ':' ∉ action.toList)
    (h : d.satisfies (d.actionName category "read") (d.actionName category action) = true) :
    action = "read" := by
  rcases satisfies_iff.1 h with hsame | ⟨hwild, -⟩ | ⟨-, -, hreach⟩
  · exact (actionName_inj hd colon_not_mem_read haction hsame).symm
  · exact absurd hwild (not_wildcard_actionName hd colon_not_mem_read (by decide))
  · exact absurd hreach (not_reaches_of_read hd)

/-- What is not bound to a scope and changes data is enough for reading it, and what changes
anything else is not. -/
theorem eq_data_of_satisfies_read (hd : ':' ∉ d.name.toList) (hword : word ∈ changes)
    (hunbound : d.isScoped (d.actionName category word) = false)
    (h : d.satisfies (d.actionName category word) (d.actionName category "read") = true) :
    category = "data" := by
  obtain ⟨hfree, hstar, hne, -⟩ := of_mem_changes hword
  rcases satisfies_iff.1 h with hsame | ⟨hwild, -⟩ | ⟨-, -, hreach⟩
  · exact absurd (actionName_inj hd hfree colon_not_mem_read hsame) hne
  · exact absurd hwild (not_wildcard_actionName hd hfree hstar)
  · obtain ⟨s, s', hs, hs', -⟩ := hreach.of_unbound hunbound
    have hcategory := eq_data_of_segments_suffix hword (segments_suffix_of_actionName hd hfree hs)
      (segments_suffix_of_actionName hd colon_not_mem_read hs')
    exact Text.segments_inj.1 hcategory

/-- Changing data is enough for reading it. -/
theorem satisfies_read_of_data (hd : ':' ∉ d.name.toList) (hword : word ∈ changes) :
    d.satisfies (d.actionName "data" word) (d.actionName "data" "read") = true := by
  have hread : d.actionName "data" "read" = d.nameOf .dataRead := rfl
  have hwrite : d.actionName "data" "write" = d.nameOf .dataWrite := rfl
  have hdelete : d.actionName "data" "delete" = d.nameOf .dataDelete := rfl
  simp only [changes, List.mem_cons, List.not_mem_nil, or_false] at hword
  rcases hword with rfl | rfl
  · rw [hread, hwrite]
    exact satisfies_of_mem_implies hd (by decide)
  · rw [hread, hdelete]
    exact satisfies_of_mem_implies hd (by decide)

/-- **Where writing and deleting are enough for reading.** In a domain without a colon, whatever the
category is, writing or deleting in it is enough for reading in it exactly if the category is that
of data or a scope, that is, if the name is the standard one for data or is bound to a scope; and
reading is enough for neither. -/
theorem reading_exactly (hd : ':' ∉ d.name.toList) (hword : word ∈ changes) :
    (∀ category, d.satisfies (d.actionName category word) (d.actionName category "read") = true ↔
      category = "data" ∨ ∃ scope, ':' ∉ scope.toList ∧ category = "scope:" ++ scope) ∧
    (∀ category,
      d.satisfies (d.actionName category "read") (d.actionName category word) = false) ∧
    ∀ scope, ':' ∉ scope.toList →
      d.satisfies (d.boundName .scope scope word) (d.boundName .scope scope "read") = true ∧
      d.satisfies (d.boundName .scope scope "read") (d.boundName .scope scope word) = false := by
  obtain ⟨hfree, -, hne, hcovers⟩ := of_mem_changes hword
  have hbound (scope : String) (hscope : ':' ∉ scope.toList) :
      d.satisfies (d.boundName .scope scope word) (d.boundName .scope scope "read") = true :=
    (satisfies_boundName_iff hd hscope hscope hfree colon_not_mem_read).2 ⟨rfl, hcovers⟩
  have hreverse (category : String) :
      d.satisfies (d.actionName category "read") (d.actionName category word) = false := by
    rw [Bool.eq_false_iff]
    intro h
    exact hne (satisfies_of_read hd hfree h)
  refine ⟨fun category => ⟨fun h => ?_, ?_⟩, hreverse,
    fun scope hscope => ⟨hbound scope hscope, ?_⟩⟩
  · cases hscoped : d.isScoped (d.actionName category word) with
    | true => exact .inr (eq_scope_of_isScoped hd hfree hscoped)
    | false => exact .inl (eq_data_of_satisfies_read hd hword hscoped h)
  · rintro (rfl | ⟨scope, hscope, rfl⟩)
    · exact satisfies_read_of_data hd hword
    · rw [actionName_scope, actionName_scope]
      exact hbound scope hscope
  · rw [← actionName_scope, ← actionName_scope]
    exact hreverse _

/-- Writing settings that are a category of their own is a permission, and not enough for reading
them, though writing data is enough for reading it, and so is deleting in a scope. -/
theorem reading_exactly_of_state :
    "write" ∈ changes ∧ "delete" ∈ changes ∧
      state.satisfies "state:data:write" "state:data:read" = true ∧
      state.satisfies "state:scope:main:delete" "state:scope:main:read" = true ∧
      state.satisfies "state:config:write" "state:config:read" = false := by
  have hd : ':' ∉ state.name.toList := by decide
  have hwrite : "write" ∈ changes := by decide
  have hdelete : "delete" ∈ changes := by decide
  obtain ⟨hiff, -, -⟩ := reading_exactly hd hwrite
  obtain ⟨-, -, hbound⟩ := reading_exactly hd hdelete
  refine ⟨hwrite, hdelete, (hiff "data").2 (.inl rfl), (hbound "main" (by decide)).1, ?_⟩
  rw [Bool.eq_false_iff]
  intro h
  rcases (hiff "config").1 h with hdata | ⟨scope, -, hscope⟩
  · exact absurd hdata (by decide)
  · have hlist := congrArg String.toList hscope
    simp at hlist

/-- Writing in a category of one's own is a permission of the domain, and so is reading in it, and
writing is not enough for reading. -/
theorem write_without_read :
    state.validate "state:config:write" = .ok () ∧ state.validate "state:config:read" = .ok () ∧
      state.satisfies "state:config:write" "state:config:read" = false := by
  refine ⟨?_, ?_, by decide +kernel⟩
  · rw [validate, show state.nameFault? "state:config:write" = none by decide +kernel]
  · rw [validate, show state.nameFault? "state:config:read" = none by decide +kernel]

end Domain

end AccessGate
