import AccessGate.Permission.Grammar
import Mathlib.Tactic.ByContra
import Mathlib.Tactic.SplitIfs

/-!
# The check of a name and its rules

A name has no fault exactly when it keeps every rule of its domain (`Domain.validate_eq_ok_iff`). A
domain that has a name is plain itself: not empty, and without a colon or a star
(`Domain.IsName.plain_domain`). Plain segments after such a domain are a name
(`Domain.isName_of_plain`). A name is written as its domain, segments and a last segment, which may
be a star, with colons between them (`Domain.isName_iff_spelling`).
-/

namespace AccessGate

open Text (segments)

/-- A segment that is not empty and holds no star. -/
def IsPlain (segment : String) : Prop := segment ≠ "" ∧ '*' ∉ segment.toList

/-- A name is its segments with separators between them. -/
theorem Text.intercalate_segments (name : String) : ":".intercalate (segments name) = name := by
  rw [← Text.ofSegments_eq_intercalate, Text.ofSegments_segments]

/-- Parts without separators are the segments of the name that they make. -/
theorem Text.segments_intercalate {parts : List String} (hne : parts ≠ [])
    (h : ∀ part ∈ parts, ':' ∉ part.toList) : segments (":".intercalate parts) = parts := by
  rw [← Text.ofSegments_eq_intercalate, Text.segments_ofSegments hne h]

/-- What has a star in it, as membership. -/
theorem hasStar_eq_true_iff {segment : String} : hasStar segment = true ↔ '*' ∈ segment.toList :=
  List.contains_iff_mem

namespace Domain

variable {d : Domain} {name : String}

/-- A name has no fault exactly when it keeps every rule. -/
theorem nameFault?_eq_none_iff : d.nameFault? name = none ↔ d.IsName name := by
  have hne := Text.segments_ne_nil name
  have hlast (part : String) (h : (segments name).getLast? = some part) :
      (segments name).getLastD "" = part := by rw [List.getLastD_eq_getLast?, h, Option.getD_some]
  have hhead : (segments name).headD "" = d.name ↔ (segments name).head? = some d.name := by
    rw [List.headD_eq_head?_getD, List.head?_eq_some_head hne, Option.getD_some, Option.some.injEq]
  unfold nameFault?
  dsimp only
  split_ifs with hempty hshort hforeign hblank hstar
  · refine iff_of_false (by simp) fun h => ?_
    have hname : name = "" := by simpa using hempty
    exact absurd h.two_le (by rw [hname]; decide)
  · exact iff_of_false (by simp) fun h => absurd h.two_le (Nat.not_le_of_lt hshort)
  · exact iff_of_false (by simp) fun h => absurd (hhead.2 h.head) hforeign
  · refine iff_of_false (by simp) fun h => ?_
    obtain ⟨part, hpart, hpartEmpty⟩ := List.any_eq_true.1 hblank
    exact absurd (by simpa using hpartEmpty) (h.nonempty part hpart)
  · refine iff_of_false (by simp) fun h => ?_
    rcases Bool.or_eq_true_iff.1 hstar with hinner | hend
    · obtain ⟨part, hpart, hpartStar⟩ := List.any_eq_true.1 hinner
      exact absurd (hasStar_eq_true_iff.1 hpartStar) (h.star_free part hpart)
    · obtain ⟨hendStar, hendNe⟩ := Bool.and_eq_true_iff.1 hend
      have hsome := List.getLast?_eq_some_getLast hne
      rw [hlast _ hsome] at hendStar hendNe
      rcases h.last _ hsome with hfree | hone
      · exact absurd (hasStar_eq_true_iff.1 hendStar) hfree
      · rw [hone] at hendNe
        cases hendNe
  · refine iff_of_true rfl ⟨Nat.le_of_not_lt hshort, hhead.1 (not_not.1 hforeign), ?_, ?_, ?_⟩
    · intro part hpart hpartEmpty
      exact hblank (List.any_eq_true.2 ⟨part, hpart, by simp [hpartEmpty]⟩)
    · intro part hpart hpartStar
      refine hstar (Bool.or_eq_true_iff.2 (.inl ?_))
      exact List.any_eq_true.2 ⟨part, hpart, hasStar_eq_true_iff.2 hpartStar⟩
    · intro part hpart
      by_contra hbad
      obtain ⟨hpartStar, hpartNe⟩ := not_or.1 hbad
      refine hstar (Bool.or_eq_true_iff.2 (.inr (Bool.and_eq_true_iff.2 ?_)))
      rw [hlast part hpart]
      exact ⟨hasStar_eq_true_iff.2 (not_not.1 hpartStar), bne_iff_ne.2 hpartNe⟩

/-- A name is accepted exactly when it keeps every rule. -/
theorem validate_eq_ok_iff : d.validate name = .ok () ↔ d.IsName name := by
  rw [← nameFault?_eq_none_iff, validate]
  cases d.nameFault? name <;> simp

/-- A name is accepted exactly if it is one. -/
theorem accepts_iff : d.accepts name = true ↔ d.IsName name := by
  rw [accepts, Option.isNone_iff_eq_none, nameFault?_eq_none_iff]

/-! ## Names of plain segments -/

/-- A domain that has a name is plain, and holds no colon. -/
theorem IsName.plain_domain (h : d.IsName name) : IsPlain d.name ∧ ':' ∉ d.name.toList := by
  obtain ⟨htwo, hhead, hnonempty, hstar, -⟩ := h
  cases hparts : segments name with
  | nil => exact absurd hparts (Text.segments_ne_nil name)
  | cons first rest =>
    rw [hparts] at htwo hhead hnonempty hstar
    obtain rfl : first = d.name := Option.some.inj hhead
    have hrest : rest ≠ [] := by
      rintro rfl
      exact absurd htwo (by simp)
    refine ⟨⟨hnonempty _ List.mem_cons_self, hstar _ ?_⟩, ?_⟩
    · rw [List.dropLast_cons_of_ne_nil hrest]
      exact List.mem_cons_self
    · exact Text.not_mem_of_mem_segments (hparts ▸ List.mem_cons_self)

/-- The domain and plain segments after it, at least one, are a name. -/
theorem isName_of_plain {parts : List String} (hparts : parts ≠ [])
    (hname : segments name = d.name :: parts) (hd : IsPlain d.name)
    (hplain : ∀ part ∈ parts, IsPlain part) : d.IsName name := by
  have hall : ∀ part ∈ segments name, IsPlain part := by
    rw [hname]
    exact List.forall_mem_cons.2 ⟨hd, hplain⟩
  refine ⟨?_, by rw [hname, List.head?_cons], fun part hpart => (hall part hpart).1,
    fun part hpart => (hall part ((List.dropLast_sublist _).subset hpart)).2,
    fun part hpart => .inl (hall part (List.mem_of_getLast? hpart)).2⟩
  rw [hname, List.length_cons]
  exact Nat.succ_le_succ (List.length_pos_iff.2 hparts)

/-- The standard permissions of a plain domain are names. -/
theorem isName_nameOf (hd : ':' ∉ d.name.toList) (hplain : IsPlain d.name) (s : Standard) :
    d.IsName (d.nameOf s) := by
  have hsuffix : ∀ part ∈ segments s.suffix, part ≠ "" ∧ '*' ∉ part.toList := by
    cases s <;> decide
  exact isName_of_plain (Text.segments_ne_nil _) (segments_nameOf hd s) hplain hsuffix

/-! ## How names are spelled -/

/-- The segments that can follow a domain in a name, the last one apart. -/
structure Spelling (d : Domain) (middle : List String) (last : String) : Prop where
  segment : ∀ part ∈ d.name :: (middle ++ [last]), part ≠ "" ∧ ':' ∉ part.toList
  star_free : ∀ part ∈ d.name :: middle, '*' ∉ part.toList
  ending : '*' ∉ last.toList ∨ last = "*"

/-- Names are the domain and the segments that can follow it, with colons between them. -/
theorem isName_iff_spelling :
    d.IsName name ↔ ∃ middle last,
      name = ":".intercalate (d.name :: (middle ++ [last])) ∧ d.Spelling middle last := by
  constructor
  · rintro ⟨htwo, hhead, hnonempty, hstar, hlast⟩
    obtain ⟨rest, hrest⟩ : ∃ rest, segments name = d.name :: rest :=
      List.head?_eq_some_iff.1 hhead
    have hne : rest ≠ [] := by
      rintro rfl
      rw [hrest] at htwo
      exact absurd htwo (by simp)
    obtain ⟨middle, last, rfl⟩ : ∃ middle last, rest = middle ++ [last] :=
      ⟨_, _, (List.dropLast_concat_getLast hne).symm⟩
    have hall : ∀ part ∈ segments name, ':' ∉ part.toList :=
      fun part hpart => Text.not_mem_of_mem_segments hpart
    rw [hrest] at hnonempty hall
    rw [hrest, ← List.cons_append, List.dropLast_concat] at hstar
    rw [hrest, ← List.cons_append, List.getLast?_concat] at hlast
    refine ⟨middle, last, ?_, fun part hpart => ⟨hnonempty part hpart, hall part hpart⟩, hstar,
      hlast last rfl⟩
    rw [← hrest, Text.intercalate_segments]
  · rintro ⟨middle, last, rfl, hsegment, hstar, hending⟩
    have hsegments := Text.segments_intercalate (List.cons_ne_nil _ _)
      fun part hpart => (hsegment part hpart).2
    refine ⟨?_, ?_, ?_, ?_, ?_⟩
    · rw [hsegments]
      simp
    · rw [hsegments, List.head?_cons]
    · rw [hsegments]
      exact fun part hpart => (hsegment part hpart).1
    · rwa [hsegments, ← List.cons_append, List.dropLast_concat]
    · rw [hsegments, ← List.cons_append, List.getLast?_concat]
      intro part hpart
      rwa [← Option.some.inj hpart]

/-- The domain, a kind of binding, a plain scope and a last segment, with colons between them, are a
name. -/
theorem isName_boundName (hd : ':' ∉ d.name.toList) (hplain : IsPlain d.name) (kind : Binding)
    {scope action : String} (hscope : ':' ∉ scope.toList) (hscopePlain : IsPlain scope)
    (haction : ':' ∉ action.toList) (hne : action ≠ "")
    (hending : '*' ∉ action.toList ∨ action = "*") :
    d.IsName (d.boundName kind scope action) := by
  have hkind : IsPlain kind.segment := by
    cases kind
    · exact ⟨by decide, by decide⟩
    · exact ⟨by decide, by decide⟩
  refine isName_iff_spelling.2 ⟨[kind.segment, scope], action, ?_, ?_, ?_, hending⟩
  · rw [← Text.intercalate_segments (d.boundName kind scope action),
      segments_boundName hd kind hscope haction]
    rfl
  · simp only [List.cons_append, List.nil_append, List.forall_mem_cons, List.not_mem_nil,
      false_imp_iff, implies_true, and_true]
    exact ⟨⟨hplain.1, hd⟩, ⟨hkind.1, kind.not_mem_segment⟩, ⟨hscopePlain.1, hscope⟩, hne, haction⟩
  · simp only [List.forall_mem_cons, List.not_mem_nil, false_imp_iff, implies_true, and_true]
    exact ⟨hplain.2, hkind.2, hscopePlain.2⟩

/-- A domain has names exactly if it is not empty and holds neither a colon nor a star. -/
theorem exists_isName_iff :
    (∃ name, d.IsName name) ↔ d.name ≠ "" ∧ ':' ∉ d.name.toList ∧ '*' ∉ d.name.toList := by
  constructor
  · rintro ⟨name, hname⟩
    obtain ⟨⟨hne, hstar⟩, hcolon⟩ := hname.plain_domain
    exact ⟨hne, hcolon, hstar⟩
  · rintro ⟨hne, hcolon, hstar⟩
    exact ⟨_, isName_nameOf hcolon ⟨hne, hstar⟩ .adminFull⟩

end Domain

end AccessGate
