import AccessGate.Access
import Mathlib.Data.List.Nodup

/-!
# The first pattern that holds

A request is granted by the pattern that holds of it and before which none does
(`Access.decide_eq_ok_iff`). So if all patterns that hold of one question hold of another, the
second is granted too, by the same pattern or by one before it (`Access.exists_decide_of_imp`).
More grants make more patterns hold, and so does owning the scope that is asked for; neither is ever
counted against a principal. The main statement is `Access.decide_monotone`.
-/

namespace AccessGate

namespace AccessPattern

/-- The place of a pattern in the order of priority; the first is tried before all others. -/
def rank (p : AccessPattern) : Nat := priority.idxOf p

/-- Every pattern is tried once. -/
theorem nodup_priority : priority.Nodup := by decide

end AccessPattern

/-- In a list without repetitions, what is found first is the one element with the property that no
element before it has. -/
theorem find?_eq_some_iff_of_nodup {α : Type} [BEq α] [LawfulBEq α] {f : α → Bool} {xs : List α}
    {x : α} (hnodup : xs.Nodup) :
    xs.find? f = some x ↔
      x ∈ xs ∧ f x = true ∧ ∀ y ∈ xs, xs.idxOf y < xs.idxOf x → f y = false := by
  rw [List.find?_eq_some_iff_getElem]
  constructor
  · rintro ⟨hx, i, hi, rfl, hbefore⟩
    refine ⟨List.getElem_mem hi, hx, fun y hy hlt => ?_⟩
    rw [hnodup.idxOf_getElem i hi] at hlt
    have hnot := hbefore (xs.idxOf y) hlt
    rwa [List.getElem_idxOf, Bool.not_eq_true'] at hnot
  · rintro ⟨hmem, hx, hbefore⟩
    have hi := List.idxOf_lt_length_of_mem hmem
    refine ⟨hx, xs.idxOf x, hi, List.getElem_idxOf hi, fun j hj => ?_⟩
    have hj' : j < xs.length := Nat.lt_trans hj hi
    rw [Bool.not_eq_true']
    exact hbefore _ (List.getElem_mem hj') (by rwa [hnodup.idxOf_getElem j hj'])

namespace Access

variable {d : Domain} {o o' : Ownership} {p p' : Principal} {r : AccessRequest}
  {pattern : AccessPattern} {gs gs' : List String} {required scope service : String}

/-! ## Deciding by priority -/

/-- The answer is the pattern that is found. -/
theorem decide_eq_ok_iff_pattern? :
    decide d o p r = .ok pattern ↔ pattern? d o p r = some pattern := by
  unfold decide
  cases pattern? d o p r <;> simp

/-- A request is granted by the pattern that holds of it and before which none does. -/
theorem decide_eq_ok_iff :
    decide d o p r = .ok pattern ↔
      matchesPattern d o p.service (grants d p) r pattern = true ∧
        ∀ other : AccessPattern, other.rank < pattern.rank →
          matchesPattern d o p.service (grants d p) r other = false := by
  rw [decide_eq_ok_iff_pattern?, pattern?, find?_eq_some_iff_of_nodup AccessPattern.nodup_priority]
  simp only [AccessPattern.mem_priority, true_and, forall_true_left, AccessPattern.rank]

/-- A decision to let a request in is that some pattern holds of it. -/
theorem matchesPattern_of_decide (h : decide d o p r = .ok pattern) :
    matchesPattern d o p.service (grants d p) r pattern = true :=
  (decide_eq_ok_iff.1 h).1

/-- A request is let in if some pattern holds of it. -/
theorem exists_decide_iff :
    (∃ pattern, decide d o p r = .ok pattern) ↔
      ∃ pattern, matchesPattern d o p.service (grants d p) r pattern = true := by
  constructor
  · rintro ⟨pattern, h⟩
    exact ⟨pattern, matchesPattern_of_decide h⟩
  · rintro ⟨pattern, h⟩
    have hfound : (pattern? d o p r).isSome := by
      rw [pattern?, List.find?_isSome]
      exact ⟨pattern, AccessPattern.mem_priority pattern, h⟩
    obtain ⟨pattern', hpattern⟩ := Option.isSome_iff_exists.1 hfound
    exact ⟨pattern', decide_eq_ok_iff_pattern?.2 hpattern⟩

/-- If all patterns that hold of a request hold still, then a request that was granted is granted
still, by the same pattern or by one before it. -/
theorem exists_decide_of_imp
    (himp : ∀ pattern, matchesPattern d o p.service (grants d p) r pattern = true →
      matchesPattern d o' p'.service (grants d p') r pattern = true)
    (h : decide d o p r = .ok pattern) :
    ∃ pattern' : AccessPattern, decide d o' p' r = .ok pattern' ∧ pattern'.rank ≤ pattern.rank := by
  have hholds := himp pattern (matchesPattern_of_decide h)
  obtain ⟨pattern', h'⟩ := exists_decide_iff.2 ⟨pattern, hholds⟩
  refine ⟨pattern', h', Nat.le_of_not_lt fun hlt => ?_⟩
  rw [(decide_eq_ok_iff.1 h').2 pattern hlt] at hholds
  cases hholds

/-- Whether a request is granted by a pattern depends on this pattern and on those before it. -/
theorem decide_eq_ok_congr
    (hsame : ∀ other : AccessPattern, other.rank ≤ pattern.rank →
      matchesPattern d o p.service (grants d p) r other =
        matchesPattern d o' p'.service (grants d p') r other) :
    decide d o p r = .ok pattern ↔ decide d o' p' r = .ok pattern := by
  rw [decide_eq_ok_iff, decide_eq_ok_iff, hsame pattern (Nat.le_refl _)]
  refine and_congr_right fun _ => forall_congr' fun other => forall_congr' fun hlt => ?_
  rw [hsame other (Nat.le_of_lt hlt)]

/-! ## More grants -/

/-- More grants are enough for more. -/
theorem holds_mono (hsub : gs ⊆ gs') (h : holds d gs required = true) :
    holds d gs' required = true := by
  obtain ⟨g, hg, hsatisfies⟩ := List.any_eq_true.1 h
  exact List.any_eq_true.2 ⟨g, hsub hg, hsatisfies⟩

/-- Of the grants it counts only which there are. -/
theorem holds_congr (hsame : ∀ g, g ∈ gs ↔ g ∈ gs') : holds d gs required = holds d gs' required :=
  Bool.eq_iff_iff.2
    ⟨holds_mono fun g hg => (hsame g).1 hg, holds_mono fun g hg => (hsame g).2 hg⟩

/-- With more grants, whatever pattern holds of a request holds still. -/
theorem matchesPattern_mono {service : Option String} (hsub : gs ⊆ gs')
    (h : matchesPattern d o service gs r pattern = true) :
    matchesPattern d o service gs' r pattern = true := by
  cases pattern with
  | admin =>
    simp only [matchesPattern, Bool.or_eq_true, Bool.and_eq_true] at h ⊢
    exact h.imp (Or.imp (holds_mono hsub) (holds_mono hsub)) (And.imp_right (holds_mono hsub))
  | global => exact holds_mono hsub h
  | bound | crossService =>
    simp only [matchesPattern, Bool.and_eq_true] at h ⊢
    exact ⟨h.1, holds_mono hsub h.2⟩
  | serviceOwnership => exact h

/-- Whether a pattern holds depends on which names are granted, not on their order or how often. -/
theorem matchesPattern_congr {service : Option String} (hsame : ∀ g, g ∈ gs ↔ g ∈ gs') :
    matchesPattern d o service gs r = matchesPattern d o service gs' r := by
  funext pattern
  cases pattern <;> simp only [matchesPattern, holds_congr hsame]

/-! ## Owning the scope -/

/-- Who owns the scope is asked for by one pattern only. -/
theorem matchesPattern_eq_of_ne {service : Option String} (hne : pattern ≠ .serviceOwnership) :
    matchesPattern d o service gs r pattern = matchesPattern d o' service gs r pattern := by
  cases pattern with
  | serviceOwnership => exact absurd rfl hne
  | admin | global | bound | crossService => rfl

/-- For the service of a principal that comes to own the scope, whatever pattern holds of a request
holds still. -/
theorem matchesPattern_register
    (h : matchesPattern d o (some service) gs r pattern = true) :
    matchesPattern d (o.register r.scope service) (some service) gs r pattern = true := by
  by_cases hpattern : pattern = .serviceOwnership
  · subst hpattern
    simp only [matchesPattern, Bool.and_eq_true] at h ⊢
    refine ⟨h.1, ?_⟩
    rw [Option.any_some, Ownership.isOwner, Ownership.ownerOf_register, if_pos rfl]
    exact beq_self_eq_true _
  · exact (matchesPattern_eq_of_ne hpattern).trans h

/-! ## Both -/

/-- **Decisions are monotone, and of the grants it counts only which there are.** Let two principals
have the same service behind them. If they have the same effective names of permissions, in whatever
order and number, a request is decided alike for both. If the second has those of the first and
perhaps more, then what is granted to the first is granted to the second, by the same pattern or by
one of higher priority. And if the service of a principal comes to own the scope of a request, what
was granted is granted still, and the request is granted by a pattern of higher priority than
ownership exactly if it was before. -/
theorem decide_monotone (d : Domain) (o : Ownership) (r : AccessRequest) (p : Principal) :
    (∀ p', p.service = p'.service → (∀ name, name ∈ grants d p ↔ name ∈ grants d p') →
      decide d o p r = decide d o p' r) ∧
    (∀ p' pattern, p.service = p'.service → grants d p ⊆ grants d p' →
      decide d o p r = .ok pattern →
      ∃ pattern' : AccessPattern, decide d o p' r = .ok pattern' ∧
        pattern'.rank ≤ pattern.rank) ∧
    ∀ service, p.service = some service →
      (∀ pattern, decide d o p r = .ok pattern →
        ∃ pattern' : AccessPattern, decide d (o.register r.scope service) p r = .ok pattern' ∧
          pattern'.rank ≤ pattern.rank) ∧
      ∀ pattern : AccessPattern, pattern.rank < AccessPattern.serviceOwnership.rank →
        (decide d (o.register r.scope service) p r = .ok pattern ↔
          decide d o p r = .ok pattern) := by
  refine ⟨fun p' hservice hsame => ?_, fun p' pattern hservice hsub h => ?_,
    fun service hservice => ⟨fun pattern h => ?_, fun pattern hlt => ?_⟩⟩
  · rw [decide, decide, pattern?, pattern?, hservice, matchesPattern_congr hsame]
  · refine exists_decide_of_imp (fun pattern h => ?_) h
    rw [← hservice]
    exact matchesPattern_mono hsub h
  · refine exists_decide_of_imp (fun pattern h => ?_) h
    rw [hservice] at h ⊢
    exact matchesPattern_register h
  · refine decide_eq_ok_congr fun other hle => matchesPattern_eq_of_ne ?_
    rintro rfl
    exact absurd (Nat.lt_of_le_of_lt hle hlt) (Nat.lt_irrefl _)

/-- A grant on the scope grants a request; with a grant of administration beside it the request is
granted as well, at least as soon, and so it is once the service owns the scope. -/
theorem decide_monotone_of_bound :
    let d := Domain.state
    let r : AccessRequest := ⟨"get", "state:data:read", "main"⟩
    let p : Principal :=
      { id := "u", service := some "svc", permissions := [{ name := "state:scope:main:read" }] }
    let p' : Principal := { p with permissions := { name := "state:admin:full" } :: p.permissions }
    decide d {} p r = .ok .bound ∧
      (∃ pattern : AccessPattern, decide d {} p' r = .ok pattern ∧
        pattern.rank ≤ AccessPattern.bound.rank) ∧
      decide d (({} : Ownership).register "main" "svc") p r = .ok .bound := by
  intro d r p p'
  have hbound : decide d {} p r = .ok .bound := decide_eq_ok_iff_pattern?.2 (by decide +kernel)
  obtain ⟨-, hmore, hown⟩ := decide_monotone d {} r p
  obtain ⟨-, hkept⟩ := hown "svc" rfl
  exact ⟨hbound, hmore p' .bound rfl (List.subset_cons_self _ _) hbound,
    (hkept .bound (by decide)).2 hbound⟩

end Access

end AccessGate
