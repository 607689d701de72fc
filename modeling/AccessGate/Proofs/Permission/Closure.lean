import AccessGate.Permission.Implication
import Mathlib.Logic.Function.Iterate

/-!
# A search finds what a name reaches

A search is over after finitely many turns (`Search.exists_iterate_turn`), and then it has found
every name that its origin reaches, but for the origin, and no other
(`Search.Faithful.mem_found_iff`). What each turn keeps is that the names found are reached, and
that a name found is pending unless all that it implies has been found (`Search.Faithful`).

What a name reaches is a standard permission other than system administration, or bound to a scope
(`Domain.Reaches.target`); a name bound to a scope reaches names bound to the same scope only
(`Domain.Reaches.of_bound`).
-/

namespace AccessGate

open Text (segments)

variable {d : Domain} {origin : String} {s s' : Search}

/-! ## What a turn keeps -/

namespace Search

/-- Whether a search need not find a name any more: it began from it, or has found it. -/
def Knows (origin : String) (s : Search) (name : String) : Prop := name = origin ∨ name ∈ s.found

/-- What finding names one after the other does to a search. -/
structure Finds (origin : String) (names : List String) (s s' : Search) : Prop where
  knows_iff : ∀ name, s'.Knows origin name ↔ s.Knows origin name ∨ name ∈ names
  found : ∀ name ∈ s'.found, name ∈ s.found ∨ name ∈ names ∧ name ≠ origin
  keeps : s.pending ⊆ s'.pending
  pending : s'.pending ⊆ s.pending ++ names
  /-- A name found is pending. -/
  new : ∀ name, s'.Knows origin name → s.Knows origin name ∨ name ∈ s'.pending

/-- Nothing is found in no names. -/
theorem finds_nil (origin : String) (s : Search) : Finds origin [] s s where
  knows_iff name := by simp
  found name h := .inl h
  keeps := List.Subset.refl _
  pending := List.subset_append_left _ _
  new name h := .inl h

/-- A name that comes up is found, unless it was. -/
theorem finds_find (origin name : String) (s : Search) :
    Finds origin [name] s (s.find origin name) := by
  unfold find
  split
  · next known =>
    exact { finds_nil origin s with
      knows_iff := fun n => ⟨.inl, fun h => h.elim id fun h => List.mem_singleton.1 h ▸ known⟩
      found := fun n h => .inl h
      pending := List.subset_append_left _ _ }
  · next unknown =>
    have hne : name ≠ origin := fun h => unknown (.inl h)
    refine ⟨fun n => ?_, fun n h => ?_, List.subset_cons_self _ _, fun n h => ?_, fun n h => ?_⟩
    · rw [Knows, Knows, List.mem_cons, List.mem_singleton, or_assoc]
      exact or_congr_right or_comm
    · rcases List.mem_cons.1 h with rfl | h
      · exact .inr ⟨List.mem_singleton_self _, hne⟩
      · exact .inl h
    · rcases List.mem_cons.1 h with rfl | h
      · exact List.mem_append_right _ (List.mem_singleton_self _)
      · exact List.mem_append_left _ h
    · rcases h with h | h
      · exact .inl (.inl h)
      · rcases List.mem_cons.1 h with rfl | h
        · exact .inr List.mem_cons_self
        · exact .inl (.inr h)

/-- What is found in two lists of names is found in both one after the other. -/
theorem Finds.append {names names' : List String} {s'' : Search} (h : Finds origin names s s')
    (h' : Finds origin names' s' s'') : Finds origin (names ++ names') s s'' where
  knows_iff name := by rw [h'.knows_iff, h.knows_iff, List.mem_append, or_assoc]
  found name hname := by
    rcases h'.found name hname with hname | ⟨hname, hne⟩
    · exact (h.found name hname).imp_right fun hname => ⟨List.mem_append_left _ hname.1, hname.2⟩
    · exact .inr ⟨List.mem_append_right _ hname, hne⟩
  keeps := List.Subset.trans h.keeps h'.keeps
  pending name hname := by
    rcases List.mem_append.1 (h'.pending hname) with hname | hname
    · rw [← List.append_assoc]
      exact List.mem_append_left _ (h.pending hname)
    · exact List.mem_append_right _ (List.mem_append_right _ hname)
  new name hname := by
    rcases h'.new name hname with hname | hname
    · exact (h.new name hname).imp_right fun hname => h'.keeps hname
    · exact .inr hname

/-- Names that come up one after the other are found. -/
theorem finds_foldl (origin : String) (names : List String) (s : Search) :
    Finds origin names s (names.foldl (find origin) s) := by
  induction names generalizing s with
  | nil => exact finds_nil origin s
  | cons name names ih => exact (finds_find origin name s).append (ih (s.find origin name))

/-- What is kept in a search: it finds only what its origin reaches, and a name that it knows is
pending unless it knows all that the name implies. -/
structure Faithful (d : Domain) (origin : String) (s : Search) : Prop where
  reached : ∀ name ∈ s.found, name ≠ origin ∧ d.Reaches origin name
  pending : ∀ name ∈ s.pending, s.Knows origin name
  done : ∀ name, s.Knows origin name → name ∉ s.pending →
    ∀ next ∈ d.implications name, s.Knows origin next

/-- A search that starts is faithful. -/
theorem faithful_start (d : Domain) (origin : String) : Faithful d origin (start origin) where
  reached name h := nomatch h
  pending name h := .inl (List.mem_singleton.1 h)
  done name h hpending := by
    rcases h with rfl | h
    · exact absurd (List.mem_singleton_self _) hpending
    · cases h

/-- What the origin of a search implies, or what a name implies that it reaches, it reaches. -/
theorem Faithful.reaches_next (h : Faithful d origin s) {name next : String}
    (hname : s.Knows origin name) (hnext : next ∈ d.implications name) : d.Reaches origin next := by
  rcases hname with rfl | hname
  · exact .step hnext
  · exact (h.reached name hname).2.snoc hnext

/-- Each turn keeps a search faithful. -/
theorem Faithful.turn (h : Faithful d origin s) : Faithful d origin (s.turn d origin) := by
  unfold Search.turn
  cases hp : s.pending with
  | nil => exact h
  | cons name rest =>
    have hname : s.Knows origin name := h.pending name (hp ▸ List.mem_cons_self)
    have hrest (n : String) (hn : n ∈ rest) : s.Knows origin n :=
      h.pending n (hp ▸ List.mem_cons_of_mem _ hn)
    have hfinds := finds_foldl origin (d.implications name) { s with pending := rest }
    refine ⟨fun n hn => ?_, fun n hn => ?_, fun n hn hnot next hnext => ?_⟩
    · rcases hfinds.found n hn with hn | ⟨hn, hne⟩
      · exact h.reached n hn
      · exact ⟨hne, h.reaches_next hname hn⟩
    · rcases List.mem_append.1 (hfinds.pending hn) with hn | hn
      · exact (hfinds.knows_iff n).2 (.inl (hrest n hn))
      · exact (hfinds.knows_iff n).2 (.inr hn)
    · rw [hfinds.knows_iff]
      by_cases hsame : n = name
      · exact .inr (hsame ▸ hnext)
      · have hold : s.Knows origin n := (hfinds.new n hn).resolve_right hnot
        have hgone : n ∉ s.pending := by
          rw [hp, List.mem_cons]
          rintro (rfl | hn)
          · exact hsame rfl
          · exact hnot (hfinds.keeps hn)
        exact .inl (h.done n hold hgone next hnext)

/-- A search with nothing pending knows all that it can reach from a name it knows. -/
theorem Faithful.knows_of_reaches (h : Faithful d origin s) (hp : s.pending = [])
    {name last : String} (hreach : d.Reaches name last) (hname : s.Knows origin name) :
    s.Knows origin last := by
  have hdone := fun n hn => h.done n hn (by rw [hp]; exact List.not_mem_nil)
  induction hreach with
  | step hnext => exact hdone _ hname _ hnext
  | trans hnext _ ih => exact ih (hdone _ hname _ hnext)

/-- A search with nothing pending has found what its origin reaches, but for the origin. -/
theorem Faithful.mem_found_iff (h : Faithful d origin s) (hp : s.pending = []) (name : String) :
    name ∈ s.found ↔ name ≠ origin ∧ d.Reaches origin name := by
  refine ⟨h.reached name, fun ⟨hne, hreach⟩ => ?_⟩
  exact (h.knows_of_reaches hp hreach (.inl rfl)).resolve_left hne

/-! ## Turn after turn -/

/-- A search is over after finitely many turns. -/
theorem exists_iterate_turn (d : Domain) (origin : String) (s : Search) :
    ∃ n, s.finish d origin = (turn d origin)^[n] s ∧ ((turn d origin)^[n] s).pending = [] := by
  induction s using finish.induct d origin with
  | case1 s hp => exact ⟨0, by rw [finish, if_pos hp]; rfl, hp⟩
  | case2 s hp ih =>
    obtain ⟨n, hfinish, hover⟩ := ih
    refine ⟨n + 1, ?_, hover⟩
    rw [finish, if_neg hp, hfinish]
    rfl

/-- A search stays faithful for any number of turns. -/
theorem Faithful.iterate_turn (h : Faithful d origin s) (n : Nat) :
    Faithful d origin ((Search.turn d origin)^[n] s) := by
  induction n generalizing s with
  | zero => exact h
  | succ n ih => exact ih h.turn

end Search

/-! ## Where implication leads -/

namespace Domain

variable {name next last scope action : String}

/-- Every other name that a name reaches, and no other, is among those it is enough for by
implication. -/
theorem mem_impliedBy : next ∈ d.impliedBy name ↔ next ≠ name ∧ d.Reaches name next := by
  obtain ⟨n, hfinish, hover⟩ := Search.exists_iterate_turn d name (.start name)
  have hfaithful := (Search.faithful_start d name).iterate_turn n
  rw [impliedBy, Text.mem_sortedSet, hfinish, hfaithful.mem_found_iff hover]

/-- What a step of implication can be: from one action on a scope to another, or from one standard
permission to another. -/
theorem implications_cases (h : next ∈ d.implications name) :
    (∃ scope action word, d.bound? .scope name = some (scope, action) ∧
      word ∈ boundImplies action ∧ next = d.boundName .scope scope word) ∨
      ∃ s, ∃ s' ∈ Standard.implies s, name = d.nameOf s ∧ next = d.nameOf s' := by
  unfold implications at h
  cases hb : d.bound? .scope name with
  | some bound =>
    obtain ⟨scope, action⟩ := bound
    simp only [hb] at h
    obtain ⟨word, hword, rfl⟩ := List.mem_map.1 h
    exact .inl ⟨scope, action, word, rfl, hword, rfl⟩
  | none =>
    cases hs : d.standard? name with
    | none => simp [hb, hs] at h
    | some s =>
      simp only [hb, hs, List.mem_map] at h
      obtain ⟨s', hs', rfl⟩ := h
      exact .inr ⟨s, s', hs', standard?_eq_some_iff.1 hs, rfl⟩

/-- What is reached is implied in one step by some name. -/
theorem Reaches.last_step (h : d.Reaches name last) : ∃ before, last ∈ d.implications before := by
  induction h with
  | step hnext => exact ⟨_, hnext⟩
  | trans _ _ ih => exact ih

/-- A name bound to a scope implies names bound to that scope. -/
theorem segments_of_mem_implications
    (hname : segments name = [d.name, Binding.scope.segment, scope, action])
    (h : next ∈ d.implications name) :
    ∃ action', segments next = [d.name, Binding.scope.segment, scope, action'] := by
  have hbound := bound?_eq_some_iff.2 hname
  obtain ⟨hd, hscope, -, -⟩ := eq_boundName_of_bound? hbound
  rw [implications, hbound] at h
  obtain ⟨action', hmem, rfl⟩ := List.mem_map.1 h
  exact ⟨action', segments_boundName hd .scope hscope (not_mem_of_mem_boundImplies hmem)⟩

/-- A name bound to a scope reaches names bound to that scope. -/
theorem Reaches.of_bound (h : d.Reaches name last)
    (hname : segments name = [d.name, Binding.scope.segment, scope, action]) :
    ∃ action', segments last = [d.name, Binding.scope.segment, scope, action'] := by
  induction h generalizing action with
  | step hnext => exact segments_of_mem_implications hname hnext
  | trans hnext _ ih =>
    obtain ⟨action', hsegments⟩ := segments_of_mem_implications hname hnext
    exact ih hsegments

/-- A cross-service name implies nothing. -/
theorem implications_of_crossService
    (hname : segments name = [d.name, Binding.crossService.segment, scope, action]) :
    d.implications name = [] := by
  have hd : ':' ∉ d.name.toList := Text.not_mem_of_mem_segments (hname ▸ List.mem_cons_self)
  have hbound : d.bound? .scope name = none := by
    rw [Option.eq_none_iff_forall_ne_some]
    rintro ⟨scope', action'⟩ h
    have hsegments := hname.symm.trans (bound?_eq_some_iff.1 h)
    simp [Binding.segment] at hsegments
  have hstandard : d.standard? name = none := by
    rw [Option.eq_none_iff_forall_ne_some]
    intro s h
    have hlength := congrArg List.length hname
    rw [standard?_eq_some_iff.1 h, segments_nameOf hd] at hlength
    simp [Standard.length_segments_suffix] at hlength
  rw [implications, hbound, hstandard]

/-- What a name implies is a standard permission other than system administration, or bound to a
scope. -/
theorem target_of_mem_implications (h : next ∈ d.implications name) :
    (∃ s : Standard, s ≠ .adminSystem ∧ next = d.nameOf s) ∨
      ∃ scope action, segments next = [d.name, Binding.scope.segment, scope, action] := by
  rcases implications_cases h with ⟨scope, action, -, hbound, -, -⟩ | ⟨s, s', hmem, -, rfl⟩
  · exact .inr ⟨scope, segments_of_mem_implications (bound?_eq_some_iff.1 hbound) h⟩
  · refine .inl ⟨s', ?_, rfl⟩
    rintro rfl
    cases s <;> exact absurd hmem (by decide)

/-- What a name reaches is a standard permission other than system administration, or bound to a
scope. -/
theorem Reaches.target (h : d.Reaches name last) :
    (∃ s : Standard, s ≠ .adminSystem ∧ last = d.nameOf s) ∨
      ∃ scope action, segments last = [d.name, Binding.scope.segment, scope, action] := by
  obtain ⟨before, hlast⟩ := h.last_step
  exact target_of_mem_implications hlast

end Domain

end AccessGate
