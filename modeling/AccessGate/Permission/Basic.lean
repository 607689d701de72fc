import AccessGate.Text.Segments

/-!
# Permission names

A permission name is a row of segments with colons between them, the first of which is the domain
that owns it. The permissions every domain has are listed by `Standard`; a name may also be bound
to one scope (`Binding.scope`) or grant one scope of another service (`Binding.crossService`), and
then has exactly four segments: domain, kind of binding, scope, action.
-/

namespace AccessGate

/-- The permissions every domain has. -/
inductive Standard
  | adminSystem
  | adminFull
  | scopeCreate
  | scopeList
  | scopeDelete
  | dataRead
  | dataWrite
  | dataDelete
  | dataList
  | healthRead
  | metricsRead
deriving DecidableEq, Repr

namespace Standard

/-- What follows the domain in the name of a standard permission. -/
def suffix : Standard → String
  | adminSystem => "admin:system"
  | adminFull => "admin:full"
  | scopeCreate => "scope:create"
  | scopeList => "scope:list"
  | scopeDelete => "scope:delete"
  | dataRead => "data:read"
  | dataWrite => "data:write"
  | dataDelete => "data:delete"
  | dataList => "data:list"
  | healthRead => "health:read"
  | metricsRead => "metrics:read"

/-- Every standard permission. -/
def all : List Standard :=
  [adminSystem, adminFull, scopeCreate, scopeList, scopeDelete, dataRead, dataWrite, dataDelete,
    dataList, healthRead, metricsRead]

/-- There is no further standard permission. -/
theorem mem_all (s : Standard) : s ∈ all := by cases s <;> decide

/-- Whether a standard permission never takes a scope: all do but those on data. -/
def isGlobal : Standard → Bool
  | dataRead | dataWrite | dataDelete | dataList => false
  | _ => true

/-- The standard permission with a suffix. -/
def ofSuffix? (s : List Char) : Option Standard := all.find? fun p => p.suffix.toList == s

/-- A standard permission is known by its suffix. -/
theorem ofSuffix?_suffix (s : Standard) : ofSuffix? s.suffix.toList = some s := by
  cases s <;> decide

/-- No two standard permissions have the same suffix. -/
theorem ofSuffix?_eq_some_iff {cs : List Char} {s : Standard} :
    ofSuffix? cs = some s ↔ cs = s.suffix.toList := by
  constructor
  · intro h
    have hfound := List.find?_some (p := fun p : Standard => p.suffix.toList == cs) h
    exact (eq_of_beq hfound).symm
  · rintro rfl
    exact ofSuffix?_suffix s

/-- A suffix is a category and an action. -/
theorem length_segments_suffix (s : Standard) : (Text.segments s.suffix).length = 2 := by
  cases s <;> decide

end Standard

/-- The two ways a permission is bound to a scope. -/
inductive Binding
  /-- An action on the scope itself. -/
  | scope
  /-- An action on a scope that another service owns. -/
  | crossService
deriving DecidableEq, Repr

/-- The second segment of a bound name. -/
def Binding.segment : Binding → String
  | scope => "scope"
  | crossService => "cross-service"

/-- Two ways of binding have two segments. -/
theorem Binding.segment_inj {kind kind' : Binding} :
    kind.segment = kind'.segment ↔ kind = kind' := by
  cases kind <;> cases kind' <;> decide

theorem Binding.not_mem_segment (kind : Binding) : ':' ∉ kind.segment.toList := by
  cases kind <;> decide

/-- A permission domain, by its name: the first segment of every permission it owns. -/
structure Domain where
  name : String
deriving DecidableEq, Repr

/-- A granted permission, perhaps bound to a scope. -/
structure Permission where
  name : String
  scope : Option String := none
deriving DecidableEq, Repr

namespace Domain

open Text (segments)

/-- The domain of a service that keeps state; the one in force where none is chosen. -/
def state : Domain := ⟨"state"⟩

/-- A suffix with the domain in front. -/
def qualify (d : Domain) (suffix : String) : String := d.name ++ ":" ++ suffix

/-- The name of a standard permission. -/
def nameOf (d : Domain) (s : Standard) : String := d.qualify s.suffix

/-- What follows the domain and a colon in a name. -/
def suffix? (d : Domain) (name : String) : Option (List Char) :=
  (d.name.toList ++ [':']).isPrefixOf? name.toList

/-- The standard permission with a name. -/
def standard? (d : Domain) (name : String) : Option Standard :=
  (d.suffix? name).bind Standard.ofSuffix?

/-- Whether a name is that of a standard permission that never takes a scope. -/
def isGlobal (d : Domain) (name : String) : Bool := (d.standard? name).any Standard.isGlobal

/-- The name of an action bound to a scope. -/
def boundName (d : Domain) (kind : Binding) (scope action : String) : String :=
  d.name ++ ":" ++ kind.segment ++ ":" ++ scope ++ ":" ++ action

/-- The scope and action of a name bound in a given way. -/
def bound? (d : Domain) (kind : Binding) (name : String) : Option (String × String) :=
  match segments name with
  | [domain, segment, scope, action] =>
    if domain = d.name ∧ segment = kind.segment then some (scope, action) else none
  | _ => none

/-- Whether a name is bound to a scope. -/
def isScoped (d : Domain) (name : String) : Bool := (d.bound? .scope name).isSome

/-! ## Names and their segments -/

/-- The segments of a standard permission are the domain and those of its suffix. -/
theorem segments_nameOf {d : Domain} (hd : ':' ∉ d.name.toList) (s : Standard) :
    segments (d.nameOf s) = d.name :: segments s.suffix :=
  Text.segments_append hd s.suffix

/-- The segments of a bound name are the domain, the way it is bound, the scope and the action. -/
theorem segments_boundName {d : Domain} (hd : ':' ∉ d.name.toList) (kind : Binding)
    {scope action : String} (hscope : ':' ∉ scope.toList) (haction : ':' ∉ action.toList) :
    segments (d.boundName kind scope action) = [d.name, kind.segment, scope, action] := by
  have hnested : d.boundName kind scope action =
      d.name ++ ":" ++ (kind.segment ++ ":" ++ (scope ++ ":" ++ action)) := by
    simp only [boundName, String.append_assoc]
  rw [hnested, Text.segments_append hd, Text.segments_append kind.not_mem_segment,
    Text.segments_append hscope, Text.segments_of_not_mem haction]

/-- The names bound in a way are those of four segments that say so. -/
theorem bound?_eq_some_iff {d : Domain} {kind : Binding} {name scope action : String} :
    d.bound? kind name = some (scope, action) ↔
      segments name = [d.name, kind.segment, scope, action] := by
  unfold bound?
  constructor
  · intro h
    split at h
    · next domain segment scope' action' hsegments =>
      split at h
      · next hbound =>
        obtain ⟨rfl, rfl⟩ := Prod.mk.inj (Option.some.inj h)
        rw [hsegments, hbound.1, hbound.2]
      · cases h
    · cases h
  · intro h
    rw [h]
    exact if_pos ⟨rfl, rfl⟩

/-- The scope and the action of a bound name are read back. -/
theorem bound?_boundName {d : Domain} (hd : ':' ∉ d.name.toList) (kind : Binding)
    {scope action : String} (hscope : ':' ∉ scope.toList) (haction : ':' ∉ action.toList) :
    d.bound? kind (d.boundName kind scope action) = some (scope, action) :=
  bound?_eq_some_iff.2 (segments_boundName hd kind hscope haction)

/-- A name is bound to a scope if it has four segments that say so. -/
theorem isScoped_iff {d : Domain} {name : String} :
    d.isScoped name = true ↔
      ∃ scope action, segments name = [d.name, Binding.scope.segment, scope, action] := by
  simp only [isScoped, Option.isSome_iff_exists, Prod.exists, bound?_eq_some_iff]

/-- A name that is bound is that of its scope and action, and neither these nor the domain hold a
colon. -/
theorem eq_boundName_of_bound? {d : Domain} {kind : Binding} {name scope action : String}
    (h : d.bound? kind name = some (scope, action)) :
    ':' ∉ d.name.toList ∧ ':' ∉ scope.toList ∧ ':' ∉ action.toList ∧
      name = d.boundName kind scope action := by
  have hsegments := bound?_eq_some_iff.1 h
  have hfree (part : String) (hpart : part ∈ [d.name, kind.segment, scope, action]) :
      ':' ∉ part.toList := Text.not_mem_of_mem_segments (hsegments ▸ hpart)
  have hd := hfree d.name (by simp)
  have hscope := hfree scope (by simp)
  have haction := hfree action (by simp)
  refine ⟨hd, hscope, haction, Text.segments_inj.1 ?_⟩
  rw [hsegments, segments_boundName hd kind hscope haction]

/-- A name has a suffix in a domain exactly if it is the domain and the suffix with a separator
between them. -/
theorem suffix?_eq_some_iff {d : Domain} {name : String} {rest : List Char} :
    d.suffix? name = some rest ↔ name.toList = d.name.toList ++ [':'] ++ rest := by
  unfold suffix?
  generalize d.name.toList ++ [':'] = front
  generalize name.toList = text
  induction front generalizing text with
  | nil =>
    show some text = some rest ↔ text = [] ++ rest
    rw [Option.some.injEq, List.nil_append]
  | cons c front ih =>
    cases text with
    | nil =>
      show none = some rest ↔ [] = c :: front ++ rest
      simp
    | cons c' text =>
      show (if c == c' then front.isPrefixOf? text else none) = some rest ↔
        c' :: text = c :: front ++ rest
      by_cases h : c = c'
      · subst h
        simp [ih]
      · simp [h, Ne.symm h]

/-- The standard permission with a name is the one that has this name. -/
theorem standard?_eq_some_iff {d : Domain} {name : String} {s : Standard} :
    d.standard? name = some s ↔ name = d.nameOf s := by
  have hname : (d.nameOf s).toList = d.name.toList ++ [':'] ++ s.suffix.toList := by
    simp [nameOf, qualify]
  simp only [standard?, Option.bind_eq_some_iff, suffix?_eq_some_iff,
    Standard.ofSuffix?_eq_some_iff]
  constructor
  · rintro ⟨rest, hrest, rfl⟩
    exact String.toList_injective (hrest.trans hname.symm)
  · rintro rfl
    exact ⟨s.suffix.toList, hname, rfl⟩

/-- A standard permission is known by its name. -/
theorem standard?_nameOf (d : Domain) (s : Standard) : d.standard? (d.nameOf s) = some s :=
  standard?_eq_some_iff.2 rfl

/-- Two standard permissions have two names. -/
theorem nameOf_inj {d : Domain} {s s' : Standard} : d.nameOf s = d.nameOf s' ↔ s = s' := by
  rw [← standard?_eq_some_iff, standard?_nameOf, Option.some.injEq]

/-- Whether a standard permission is global is told by its name. -/
theorem isGlobal_nameOf (d : Domain) (s : Standard) : d.isGlobal (d.nameOf s) = s.isGlobal := by
  rw [isGlobal, standard?_nameOf, Option.any_some]

/-- A standard permission is bound to nothing. -/
theorem bound?_nameOf (d : Domain) (kind : Binding) (s : Standard) :
    d.bound? kind (d.nameOf s) = none := by
  rw [Option.eq_none_iff_forall_ne_some]
  rintro ⟨scope, action⟩ h
  obtain ⟨hd, -⟩ := eq_boundName_of_bound? h
  have hlength := congrArg List.length (bound?_eq_some_iff.1 h)
  simp [segments_nameOf hd, Standard.length_segments_suffix] at hlength

end Domain

open Text (segments)

/-- Whether the second segment of a name marks a cross-service grant, of any domain and any number
of segments. -/
def isCrossService (name : String) : Bool :=
  (segments name)[1]? == some Binding.crossService.segment

/-- Whether a name ends in a segment of one star. -/
def isWildcard (name : String) : Bool := [':', '*'].isSuffixOf name.toList

/-- The action a name stands for once it is bound to a scope: every administrative permission is
`admin`, every one on health is `health`, any other is its last segment. -/
def boundAction (base : String) : String :=
  match segments base with
  | _ :: "admin" :: _ => "admin"
  | _ :: "health" :: _ => "health"
  | parts => parts.getLastD base

/-- The action of a bound name is administration, health or the last segment of the base. -/
theorem boundAction_cases (base : String) :
    boundAction base = "admin" ∨ boundAction base = "health" ∨
      (segments base).getLast? = some (boundAction base) := by
  unfold boundAction
  split
  · exact .inl rfl
  · exact .inr (.inl rfl)
  · have hlast := List.getLast?_eq_some_getLast (Text.segments_ne_nil base)
    refine .inr (.inr ?_)
    rw [List.getLastD_eq_getLast?, hlast, Option.getD_some]

/-- An action is one segment. -/
theorem not_mem_boundAction (base : String) : ':' ∉ (boundAction base).toList := by
  rcases boundAction_cases base with haction | haction | hlast
  · rw [haction]
    decide
  · rw [haction]
    decide
  · exact Text.not_mem_of_mem_segments (List.mem_of_getLast? hlast)

namespace Domain

/-- A permission for a concrete scope. An empty scope, or a name that is bound already, leaves the
name as it is. -/
def scopedVariant (d : Domain) (base scope : String) : String :=
  if scope.isEmpty || d.isScoped base then base
  else d.boundName .scope scope (boundAction base)

/-- A name on a scope has four segments. -/
theorem isScoped_eq_false {d : Domain} {name : String} (h : (segments name).length ≠ 4) :
    d.isScoped name = false := by
  rw [Bool.eq_false_iff, ne_eq, isScoped_iff]
  rintro ⟨scope, action, hsegments⟩
  rw [hsegments] at h
  exact h rfl

/-- A base that is not on a scope is bound to one by its action. -/
theorem scopedVariant_of_not_isScoped {d : Domain} {base scope : String} (hscope : scope ≠ "")
    (hbase : d.isScoped base = false) :
    d.scopedVariant base scope = d.boundName .scope scope (boundAction base) := by
  simp [scopedVariant, hscope, hbase]

/-- A name bound to a scope is not bound again. -/
theorem scopedVariant_of_isScoped {d : Domain} {base : String} (hbase : d.isScoped base = true)
    (scope : String) : d.scopedVariant base scope = base := by
  simp [scopedVariant, hbase]

/-- The explicit grant of a permission on a scope of another service. -/
def crossServiceVariant (d : Domain) (base scope : String) : String :=
  d.boundName .crossService scope (boundAction base)

/-- The name under which a granted permission is matched. -/
def effectiveName (d : Domain) (p : Permission) : String :=
  match p.scope with
  | some scope => d.scopedVariant p.name scope
  | none => p.name

end Domain

end AccessGate
