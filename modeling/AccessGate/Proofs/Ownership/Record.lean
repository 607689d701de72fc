import AccessGate.Ownership.Change
import AccessGate.Proofs.Cache.Agreement
import Mathlib.Data.List.Nodup
import Mathlib.Data.List.Perm.Basic

/-!
# What the registry of owners tells of its history

After any changes, the owner of a scope is the service of the last change of the scope, if this was
a registration (`Ownership.ownerOf_after_iff`). The other questions are answered by the same owners:
the lists of scopes that services own hold each scope that has an owner once, all together
(`Ownership.perm_keys`). `Ownership.Record` gathers what the registry tells.
-/

namespace AccessGate.Ownership

open Cache (Last)

variable {o : Ownership} {changes : List Change} {scope service : String}

/-- The last change of a scope made a service its owner. -/
def Latest (changes : List Change) (scope service : String) : Prop :=
  Last changes (.register scope service) fun later => later.scope ≠ scope

/-! ## Owners -/

/-- One more change comes last. -/
theorem after_concat (o : Ownership) (changes : List Change) (c : Change) :
    o.after (changes ++ [c]) = ((o.after changes).change c).2 := after_append o changes [c]

/-- The answer to a change is the owner before it. -/
theorem change_answer (o : Ownership) (c : Change) : (o.change c).1 = o.ownerOf c.scope := by
  cases c <;> rfl

/-- Who owns a scope after a change. -/
theorem ownerOf_change_iff (c : Change) :
    (o.change c).2.ownerOf scope = some service ↔
      c = .register scope service ∨ (c.scope ≠ scope ∧ o.ownerOf scope = some service) := by
  cases c with
  | register scope' service' =>
    rw [change, ownerOf_register]
    by_cases h : scope = scope'
    · subst h
      simp [Change.scope]
    · simp [Change.scope, h, Ne.symm h]
  | unregister scope' =>
    rw [change, ownerOf_unregister]
    by_cases h : scope = scope'
    · subst h
      simp [Change.scope]
    · simp [Change.scope, h, Ne.symm h]

/-- The owner of a scope is the service that was registered for it last. -/
theorem ownerOf_after_iff :
    (after {} changes).ownerOf scope = some service ↔ Latest changes scope service := by
  induction changes using List.reverseRecOn with
  | nil => exact ⟨fun h => (nomatch h), fun h => absurd h Cache.not_last_nil⟩
  | append_singleton changes c ih =>
    rw [after_concat, ownerOf_change_iff, ih]
    unfold Latest
    rw [Last.concat_iff, eq_comm]

/-- A service owns a scope exactly if it is the owner of it. -/
theorem isOwner_iff : o.isOwner scope service = true ↔ o.ownerOf scope = some service :=
  beq_iff_eq

/-! ## The scopes of services -/

/-- No scope belongs to two services. -/
theorem disjoint_scopesOf {service' : String} (h : service ≠ service') :
    (o.scopesOf service).Disjoint (o.scopesOf service') := by
  intro scope hs hs'
  have howner := (mem_scopesOf.1 hs).symm.trans (mem_scopesOf.1 hs')
  exact h (Option.some.inj howner)

/-- The scopes of services, among which are all owners, are together the scopes that have an
owner. -/
theorem perm_keys {services : List String} (hnodup : services.Nodup)
    (howners : ∀ scope service, o.ownerOf scope = some service → service ∈ services) :
    (services.flatMap o.scopesOf).Perm o.owners.keys := by
  have hdisjoint : services.Pairwise (Function.onFun List.Disjoint o.scopesOf) :=
    hnodup.imp fun hne => disjoint_scopesOf hne
  have hflat : (services.flatMap o.scopesOf).Nodup :=
    List.nodup_flatMap.2 ⟨fun service _ => Text.nodup_sortedSet _, hdisjoint⟩
  refine (List.perm_ext_iff_of_nodup hflat o.owners.nodup_keys).2 fun scope => ?_
  rw [List.mem_flatMap, Table.mem_keys_iff, Option.isSome_iff_exists]
  constructor
  · rintro ⟨service, -, hs⟩
    exact ⟨service, mem_scopesOf.1 hs⟩
  · rintro ⟨service, howner⟩
    exact ⟨service, howners scope service howner, mem_scopesOf.2 howner⟩

/-- The scopes of all services are as many as there are scopes. -/
theorem length_scopesOf_services {services : List String} (hnodup : services.Nodup)
    (howners : ∀ scope service, o.ownerOf scope = some service → service ∈ services) :
    (services.flatMap o.scopesOf).length = o.size :=
  (perm_keys hnodup howners).length_eq.trans (List.length_map _)

/-! ## What the registry tells -/

/-- What a registry tells of the changes that led to it. -/
structure Record (o : Ownership) (changes : List Change) : Prop where
  ownerOf_iff : ∀ scope service, o.ownerOf scope = some service ↔ Latest changes scope service
  isOwner_iff : ∀ scope service, o.isOwner scope service = true ↔ o.ownerOf scope = some service
  mem_scopesOf_iff : ∀ scope service,
    scope ∈ o.scopesOf service ↔ o.ownerOf scope = some service
  sorted : ∀ service, (o.scopesOf service).Pairwise (· < ·)
  disjoint : ∀ service service', service ≠ service' →
    (o.scopesOf service).Disjoint (o.scopesOf service')
  /-- The scopes of all owners are as many as have an owner. -/
  together : ∀ services : List String, services.Nodup →
    (∀ scope service, o.ownerOf scope = some service → service ∈ services) →
    (services.flatMap o.scopesOf).length = o.size
  /-- A further change is answered with the owner before it. -/
  answer : ∀ c, (o.change c).1 = o.ownerOf c.scope

/-- What a history of changes has left is what it says. -/
theorem record_after (changes : List Change) : Record (after {} changes) changes where
  ownerOf_iff _ _ := ownerOf_after_iff
  isOwner_iff _ _ := isOwner_iff
  mem_scopesOf_iff _ _ := mem_scopesOf
  sorted _ := Text.sortedSet_pairwise _
  disjoint _ _ := disjoint_scopesOf
  together _ := length_scopesOf_services
  answer := change_answer _

end AccessGate.Ownership
