import AccessGate.Permission.Basic
import AccessGate.Text.Sorted

/-!
# What a permission implies

Holding one permission can be enough for others. `Domain.implications` is one step of that relation:
on standard permissions it is `Standard.implies`, on names bound to a scope `boundImplies`, which
stays within the scope. `Domain.Reaches` is its transitive closure. `Domain.impliedBy` lists what a
name reaches; it is found by a `Search` that goes on until no name found has implications that have
not been looked at. No search is endless: a turn of it takes up a name and adds names that together
need less effort (`Search.efforts_turn_lt`).

`Domain.satisfies` is the question asked of a grant: it is enough for itself, a wildcard for the
names it stands for, any other name for what it implies.
-/

namespace AccessGate

/-! ## One step -/

/-- The standard permissions that one standard permission implies in one step. -/
def Standard.implies : Standard → List Standard
  | adminSystem => [adminFull]
  | adminFull =>
    [scopeCreate, scopeList, scopeDelete, dataRead, dataWrite, dataDelete, dataList, healthRead,
      metricsRead]
  | dataWrite | dataDelete => [dataRead]
  | scopeDelete => [scopeList]
  | scopeCreate | scopeList | dataRead | dataList | healthRead | metricsRead => []

/-- The actions on a scope that one action on it implies in one step. -/
def boundImplies : String → List String
  | "admin" => ["read", "write", "delete", "list", "health"]
  | "write" => ["read"]
  | "delete" => ["read"]
  | _ => []

/-- No action that another implies holds a colon. -/
theorem not_mem_of_mem_boundImplies {action next : String} (h : next ∈ boundImplies action) :
    ':' ∉ next.toList := by
  unfold boundImplies at h
  split at h
  · revert next
    decide
  · rw [List.mem_singleton.1 h]
    decide
  · rw [List.mem_singleton.1 h]
    decide
  · cases h

namespace Domain

/-- The names that a name implies in one step. -/
def implications (d : Domain) (name : String) : List String :=
  match d.bound? .scope name with
  | some (scope, action) => (boundImplies action).map (d.boundName .scope scope)
  | none =>
    match d.standard? name with
    | some s => s.implies.map d.nameOf
    | none => []

/-- One or more steps of implication lead from the first name to the second. -/
inductive Reaches (d : Domain) : String → String → Prop
  | step {name next : String} : next ∈ d.implications name → Reaches d name next
  | trans {name next last : String} : next ∈ d.implications name → Reaches d next last →
    Reaches d name last

/-- A step more reaches further. -/
theorem Reaches.snoc {d : Domain} {name next last : String} (h : d.Reaches name next)
    (hlast : last ∈ d.implications next) : d.Reaches name last := by
  induction h with
  | step hnext => exact .trans hnext (.step hlast)
  | trans hnext _ ih => exact .trans hnext (ih hlast)

end Domain

/-! ## Effort -/

/-- How many names a search from a standard permission takes up at most, itself included. -/
def Standard.effort : Standard → Nat
  | adminSystem => 14
  | adminFull => 13
  | dataWrite | dataDelete | scopeDelete => 2
  | scopeCreate | scopeList | dataRead | dataList | healthRead | metricsRead => 1

/-- How many names a search from an action on a scope takes up at most, itself included. -/
def boundEffort : String → Nat
  | "admin" => 8
  | "write" => 2
  | "delete" => 2
  | _ => 1

namespace Domain

/-- How many names a search from a name takes up at most, itself included. -/
def effort (d : Domain) (name : String) : Nat :=
  match d.bound? .scope name with
  | some (_, action) => boundEffort action
  | none =>
    match d.standard? name with
    | some s => s.effort
    | none => 1

/-- The effort for several names. -/
def efforts (d : Domain) : List String → Nat
  | [] => 0
  | name :: names => d.effort name + d.efforts names

/-- A bound name makes the effort of its action. -/
theorem effort_boundName {d : Domain} (hd : ':' ∉ d.name.toList) {scope action : String}
    (hscope : ':' ∉ scope.toList) (haction : ':' ∉ action.toList) :
    d.effort (d.boundName .scope scope action) = boundEffort action := by
  rw [effort, bound?_boundName hd .scope hscope haction]

/-- A standard permission makes its own effort. -/
theorem effort_nameOf (d : Domain) (s : Standard) : d.effort (d.nameOf s) = s.effort := by
  rw [effort, bound?_nameOf, standard?_nameOf]

/-- A name needs one turn of a search more than what it implies. -/
theorem efforts_implications (d : Domain) (name : String) :
    d.efforts (d.implications name) + 1 = d.effort name := by
  unfold implications effort
  cases hb : d.bound? .scope name with
  | some bound =>
    obtain ⟨scope, action⟩ := bound
    obtain ⟨hd, hscope, -, -⟩ := eq_boundName_of_bound? hb
    have hefforts (actions : List String) (h : ∀ a ∈ actions, ':' ∉ a.toList) :
        d.efforts (actions.map (d.boundName .scope scope)) =
          actions.foldr (fun a n => boundEffort a + n) 0 := by
      induction actions with
      | nil => rfl
      | cons a actions ih =>
        rw [List.map_cons, efforts, effort_boundName hd hscope (h a List.mem_cons_self),
          ih fun b hb => h b (List.mem_cons_of_mem _ hb), List.foldr_cons]
    simp only [hefforts _ fun a => not_mem_of_mem_boundImplies]
    unfold boundImplies boundEffort
    split <;> decide
  | none =>
    cases hs : d.standard? name with
    | some s => cases s <;> simp [Standard.implies, efforts, effort_nameOf, Standard.effort]
    | none => rfl

end Domain

/-! ## The search -/

/-- A search for what a name reaches: the names found, and those of them whose implications have not
been looked at, the one found last in front. -/
structure Search where
  found : List String
  pending : List String

namespace Search

/-- The search from a name, before its first turn. -/
def start (origin : String) : Search := ⟨[], [origin]⟩

/-- Finds a name, unless it is the origin of the search or has been found before. -/
def find (origin : String) (s : Search) (name : String) : Search :=
  if name = origin ∨ name ∈ s.found then s else ⟨name :: s.found, name :: s.pending⟩

/-- A turn: takes up the name found last and finds what it implies. -/
def turn (d : Domain) (origin : String) (s : Search) : Search :=
  match s.pending with
  | [] => s
  | name :: rest => (d.implications name).foldl (find origin) { s with pending := rest }

/-- Names that come up make no more than their effort pending. -/
theorem efforts_foldl_find_le (d : Domain) (origin : String) (names : List String) (s : Search) :
    d.efforts (names.foldl (find origin) s).pending ≤ d.efforts names + d.efforts s.pending := by
  induction names generalizing s with
  | nil => exact Nat.le_add_left _ _
  | cons name names ih =>
    have hfind : d.efforts (find origin s name).pending ≤ d.effort name + d.efforts s.pending := by
      unfold find
      split
      · exact Nat.le_add_left _ _
      · exact Nat.le_refl _
    have hrest := ih (find origin s name)
    rw [List.foldl_cons, Domain.efforts]
    omega

/-- A turn lowers the effort that is left. -/
theorem efforts_turn_lt (d : Domain) (origin : String) {s : Search} (h : s.pending ≠ []) :
    d.efforts (s.turn d origin).pending < d.efforts s.pending := by
  unfold turn
  cases hp : s.pending with
  | nil => exact absurd hp h
  | cons name rest =>
    have hle := efforts_foldl_find_le d origin (d.implications name) { s with pending := rest }
    have hname := d.efforts_implications name
    simp only [Domain.efforts] at hle ⊢
    omega

/-- Takes turns until nothing is pending. -/
def finish (d : Domain) (origin : String) (s : Search) : Search :=
  if s.pending = [] then s else finish d origin (s.turn d origin)
termination_by d.efforts s.pending
decreasing_by exact efforts_turn_lt d origin (by assumption)

end Search

namespace Domain

/-- Every other name that a grant of `granted` is enough for by implication, ascending. -/
def impliedBy (d : Domain) (granted : String) : List String :=
  Text.sortedSet ((Search.start granted).finish d granted).found

/-- Whether a wildcard stands for a name: the name goes on from the wildcard's stem, and only the
wildcard of the whole domain stands for cross-service grants. -/
def wildcardCovers (d : Domain) (granted required : String) : Bool :=
  granted.toList.dropLast.isPrefixOf required.toList &&
    (!isCrossService required || granted == d.qualify "*")

/-- Whether holding `granted` is enough for `required`. -/
def satisfies (d : Domain) (granted required : String) : Bool :=
  granted == required ||
    (if isWildcard granted then d.wildcardCovers granted required
     else (d.impliedBy granted).contains required)

end Domain

end AccessGate
