import AccessGate.Proofs.Access.Confinement
import AccessGate.Proofs.Permission.Grammar
import Mathlib.Data.List.Infix

/-!
# What system administration takes

The permission of system administration takes no scope, and owning one is not enough for it. So the
only pattern that grants it is administration, by a grant that is enough for system or for full
administration, and without such a grant the request is denied (`Access.decide_adminSystem`). Four
names are enough: the two permissions themselves, the wildcard of administration and that of the
domain (`Domain.mem_administration_of_satisfies`).
-/

namespace AccessGate

open Text (segments)

namespace Domain

variable {d : Domain} {name granted : String}

/-! ## The names that are enough -/

/-- The names that are enough for system or for full administration. -/
def administration (d : Domain) : List String :=
  [d.nameOf .adminSystem, d.nameOf .adminFull, d.qualify "admin:*", d.qualify "*"]

/-- A domain with a colon in its name accepts no name. -/
theorem not_mem_of_accepts (h : d.accepts name = true) : ':' ∉ d.name.toList :=
  (accepts_iff.1 h).plain_domain.2

/-- Only system administration reaches full administration. -/
theorem eq_of_reaches_adminFull (h : d.Reaches name (d.nameOf .adminFull)) :
    name = d.nameOf .adminSystem := by
  generalize hlast : d.nameOf .adminFull = last at h
  induction h with
  | step hnext =>
    subst hlast
    rcases implications_cases hnext with
      ⟨scope, action, word, hbound, hword, hsame⟩ | ⟨s, s', hs', rfl, hsame⟩
    · obtain ⟨hd, hscope, -, -⟩ := eq_boundName_of_bound? hbound
      have hnone := bound?_nameOf d .scope .adminFull
      rw [hsame, bound?_boundName hd .scope hscope (not_mem_of_mem_boundImplies hword)] at hnone
      cases hnone
    · obtain rfl := nameOf_inj.1 hsame
      cases s with
      | adminSystem => rfl
      | adminFull | scopeCreate | scopeList | scopeDelete | dataRead | dataWrite | dataDelete
      | dataList | healthRead | metricsRead => exact absurd hs' (by decide)
  | trans hnext _ ih =>
    -- Nothing implies system administration.
    rcases target_of_mem_implications hnext with ⟨s, hne, hsame⟩ | ⟨scope, action, hsegments⟩
    · rw [ih hlast, nameOf_inj] at hsame
      exact absurd hsame.symm hne
    · have hbound := bound?_eq_some_iff.2 hsegments
      rw [ih hlast, bound?_nameOf] at hbound
      cases hbound

/-- The wildcards that stand for a permission of administration are two. -/
theorem mem_administration_of_stem (hd : ':' ∉ d.name.toList) {s : Standard}
    (hs : s = .adminSystem ∨ s = .adminFull) (hwild : [':', '*'] <:+ granted.toList)
    (hstem : granted.toList.dropLast <+: (d.nameOf s).toList) : granted ∈ d.administration := by
  obtain ⟨front, hfront⟩ := hwild
  have hdrop : granted.toList.dropLast = front ++ [':'] := by
    rw [← hfront, List.dropLast_append_of_ne_nil (List.cons_ne_nil _ _)]
    rfl
  have hname : (d.nameOf s).toList = d.name.toList ++ (':' :: s.suffix.toList) := by
    simp [nameOf, qualify]
  rw [hdrop, hname] at hstem
  -- The stem goes on from the domain, whose name holds no colon to end it.
  obtain ⟨rest, hrest⟩ : d.name.toList <+: front ++ [':'] := by
    refine (List.prefix_or_prefix_of_prefix (List.prefix_append _ _) hstem).resolve_right ?_
    exact fun h => hd (h.subset (List.mem_append_right _ (List.mem_singleton_self _)))
  rw [← hrest, List.prefix_append_right_inj] at hstem
  have hlast : rest.getLast? = some ':' := by
    cases rest with
    | nil =>
      rw [List.append_nil] at hrest
      exact absurd (hrest ▸ List.mem_append_right _ (List.mem_singleton_self _)) hd
    | cons c rest =>
      have h := congrArg List.getLast? hrest
      rwa [List.getLast?_append_cons, List.getLast?_concat] at h
  have hends : rest = [':'] ∨ rest = ":admin:".toList := by
    have hcolons : ∀ rest ∈ (':' :: s.suffix.toList).inits, rest.getLast? = some ':' →
        rest = [':'] ∨ rest = ":admin:".toList := by rcases hs with rfl | rfl <;> decide
    exact hcolons rest ((List.mem_inits _ _).2 hstem) hlast
  have hgranted : granted.toList = d.name.toList ++ rest ++ ['*'] := by
    rw [hrest, ← hfront, List.append_assoc]
    rfl
  simp only [administration, List.mem_cons, List.not_mem_nil, or_false]
  rcases hends with rfl | rfl
  · exact .inr (.inr (.inr (String.toList_injective (by simp [hgranted, qualify]))))
  · exact .inr (.inr (.inl (String.toList_injective (by simp [hgranted, qualify]))))

/-- What is enough for system or for full administration is one of four names. -/
theorem mem_administration_of_satisfies (hd : ':' ∉ d.name.toList)
    (h : d.satisfies granted (d.nameOf .adminSystem) = true ∨
      d.satisfies granted (d.nameOf .adminFull) = true) : granted ∈ d.administration := by
  rcases h with h | h
  · rcases stem_of_satisfies_adminSystem hd h with rfl | ⟨hwild, hstem⟩
    · exact List.mem_cons_self
    · exact mem_administration_of_stem hd (.inl rfl) hwild hstem
  · rcases satisfies_iff.1 h with rfl | ⟨hwild, hstem, -⟩ | ⟨-, -, hreach⟩
    · exact List.mem_cons_of_mem _ List.mem_cons_self
    · exact mem_administration_of_stem hd (.inr rfl) hwild hstem
    · exact eq_of_reaches_adminFull hreach ▸ List.mem_cons_self

end Domain

namespace Access

variable {d : Domain} {gs : List String}

/-! ## The decision -/

/-- A request for system administration is granted by administration, to those who hold system or
full administration, and denied to all others. -/
theorem decide_adminSystem (d : Domain) (o : Ownership) (p : Principal)
    (operation scope : String) :
    decide d o p ⟨operation, d.nameOf .adminSystem, scope⟩ =
      if holds d (grants d p) (d.nameOf .adminSystem) ∨ holds d (grants d p) (d.nameOf .adminFull)
      then .ok .admin else .error (.permissionDenied operation scope) := by
  have hglobal : d.isGlobal (d.nameOf .adminSystem) = true := Domain.isGlobal_nameOf d _
  have hbindable : isBindable d (d.nameOf .adminSystem) = false := by
    simp [isBindable, hglobal, Domain.nameOf_inj]
  have hsuffices : ownershipSuffices d (d.nameOf .adminSystem) = false := by
    simp [ownershipSuffices, Domain.nameOf_inj]
  unfold decide pattern?
  cases hsystem : holds d (grants d p) (d.nameOf .adminSystem) <;>
    cases hfull : holds d (grants d p) (d.nameOf .adminFull) <;>
    simp [AccessPattern.priority, matchesPattern, hglobal, hbindable, hsuffices, hsystem, hfull]

end Access

end AccessGate
