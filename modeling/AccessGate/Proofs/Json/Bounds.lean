import AccessGate.Json.Reader
import AccessGate.Proofs.Json.Extent

/-!
# What a text can hold

The value of a text nests no deeper than a text may, and the integers in it fit 64 bits: a literal
beyond that is read as a floating-point number (`Json.within_of_parse?`). The scan makes every word
or number a leaf within these bounds, the build puts only such leaves together, and what is kept of
a draft is no deeper than asked for.
-/

namespace AccessGate.Json

/-- The integers in a value fit 64 bits. -/
def Fits (j : Json) : Prop := ∀ n, Number.integer n ∈ j.numbers → (Number.integer n).IsInteger

/-- A draft whose leaves hold nothing further and whose integers fit 64 bits. -/
inductive Draft.Bounded : Draft → Prop
  | void : Bounded .void
  | leaf {v : Json} (hdepth : v.depth = 0) (hfits : v.Fits) : Bounded (.leaf v)
  | array {items : List Draft} (h : ∀ d ∈ items, Bounded d) : Bounded (.array items)
  | object {ms : List (Option String × Draft)} (h : ∀ m ∈ ms, Bounded m.2) : Bounded (.object ms)

/-! ## The scan -/

/-- The number of a literal fits 64 bits if it is an integer. -/
theorem fits_of_number? {l : Literal} {x : Number} (h : l.number? = some x) : (number x).Fits := by
  intro n hn
  obtain rfl : x = .integer n := (List.mem_singleton.1 hn).symm
  simp only [Literal.number?, pow_two_64, pow_two_63] at h
  split at h
  · next hfits =>
    obtain ⟨-, hlt, hsign⟩ := hfits
    obtain rfl := Number.integer.inj (Option.some.inj h)
    cases hneg : l.negative with
    | false => exact ⟨by rw [pow_two_63]; simp, by rw [pow_two_64]; simp; omega⟩
    | true =>
      have hrange : ofDigits l.whole ≤ 9223372036854775808 := by
        simp only [hneg, not_true_eq_false, false_or] at hsign
        exact hsign.2
      exact ⟨by rw [pow_two_63]; simp; omega, by rw [pow_two_64]; simp; omega⟩
  · obtain ⟨b, -, hb⟩ := Option.map_eq_some_iff.1 h
    cases hb

/-- What a word or number is, is within bounds. -/
theorem bounded_of_word? {cs : List Char} {d : Draft} (h : word? cs = some d) : d.Bounded := by
  unfold word? at h
  split at h
  · obtain rfl := Option.some.inj h
    exact .leaf rfl nofun
  split at h
  · obtain rfl := Option.some.inj h
    exact .leaf rfl nofun
  split at h
  · obtain rfl := Option.some.inj h
    exact .leaf rfl nofun
  obtain ⟨l, -, rfl⟩ := Option.map_eq_some_iff.1 h
  cases hnumber : l.number? with
  | none => exact .void
  | some x => exact .leaf rfl (fits_of_number? hnumber)

/-- The words and numbers among tokens are within bounds. -/
def Token.AllBounded (ts : List Token) : Prop := ∀ d, Token.bare d ∈ ts → d.Bounded

/-- Only bounded tokens come at the start of something. -/
theorem allBounded_of_start? {c : Char} {ts : List Token} {mode : Mode}
    (h : start? c = some (ts, mode)) : Token.AllBounded ts := by
  intro d hd
  unfold start? at h
  split_ifs at h <;> cases h <;> simp at hd

/-- In a string there are no words and numbers. -/
theorem allBounded_of_inString? {c : Char} {seen : Option (List Char)} {ts : List Token}
    {mode : Mode} (h : inString? c seen = some (ts, mode)) : Token.AllBounded ts := by
  intro d hd
  unfold inString? at h
  split_ifs at h <;> cases h <;> simp at hd

/-- Only bounded tokens come of an escape. -/
theorem allBounded_of_inEscape? {c : Char} {seen : Option (List Char)} {ts : List Token}
    {mode : Mode} (h : inEscape? c seen = some (ts, mode)) : Token.AllBounded ts := by
  intro d hd
  unfold inEscape? at h
  split_ifs at h
  · cases h
    simp at hd
  · obtain ⟨e, -, he⟩ := Option.map_eq_some_iff.1 h
    cases he
    simp at hd

/-- The words and numbers that one character completes are within bounds. -/
theorem allBounded_of_step? {c : Char} {mode mode' : Mode} {ts : List Token}
    (h : step? c mode = some (ts, mode')) : Token.AllBounded ts := by
  cases mode with
  | between => exact allBounded_of_start? h
  | bare seen =>
    intro d hd
    rw [step?] at h
    split at h
    · cases h
      cases hd
    · split at h
      · next v ts' mode'' hword hstart =>
        obtain ⟨rfl, -⟩ := Prod.mk.inj (Option.some.inj h)
        rcases List.mem_cons.1 hd with hd | hd
        · cases hd
          exact bounded_of_word? hword
        · exact allBounded_of_start? hstart d hd
      · cases h
  | string seen => exact allBounded_of_inString? h
  | escape seen => exact allBounded_of_inEscape? h
  | code seen high left value =>
    intro d hd
    obtain ⟨e, -, he⟩ := Option.map_eq_some_iff.1 h
    cases left <;> cases he <;> cases hd
  | partner seen high =>
    rw [step?] at h
    split at h
    · cases h
      exact fun d hd => absurd hd List.not_mem_nil
    · exact allBounded_of_inString? h
  | partnerMark seen high =>
    rw [step?] at h
    split at h
    · cases h
      exact fun d hd => absurd hd List.not_mem_nil
    · exact allBounded_of_inEscape? h

/-- The words and numbers of a text are within bounds. -/
theorem allBounded_of_scan {mode : Mode} {cs : List Char} {ts : List Token}
    (h : scan mode cs = some ts) : Token.AllBounded ts := by
  induction cs generalizing mode ts with
  | nil =>
    intro d hd
    cases mode with
    | bare seen =>
      obtain ⟨v, hword, rfl⟩ := Option.map_eq_some_iff.1 h
      cases List.mem_singleton.1 hd
      exact bounded_of_word? hword
    | between =>
      cases h
      cases hd
    | string | escape | code | partner | partnerMark => cases h
  | cons c cs ih =>
    rw [scan] at h
    split at h
    · cases h
    · next ts' mode' hstep =>
      obtain ⟨more, hmore, rfl⟩ := Option.map_eq_some_iff.1 h
      intro d hd
      rcases List.mem_append.1 hd with hd | hd
      · exact allBounded_of_step? hstep d hd
      · exact ih hmore d hd

/-! ## The build -/

/-- What an open array or object holds so far is within bounds. -/
def Frame.Bounded : Frame → Prop
  | .items done => ∀ d ∈ done, d.Bounded
  | .members done _ => ∀ m ∈ done, m.2.Bounded

/-- What the next token is expected after is within bounds. -/
def Expect.Bounded : Expect → Prop
  | .key done => ∀ m ∈ done, m.2.Bounded
  | .nothing d => d.Bounded
  | _ => True

/-- All that was put together so far is within bounds. -/
structure State.Bounded (s : State) : Prop where
  expect : s.expect.Bounded
  opened : ∀ f ∈ s.opened, f.Bounded

/-- Completing a frame with a bounded tree keeps a state bounded. -/
theorem bounded_complete {d : Draft} {frames : List Frame} (hd : d.Bounded)
    (hframes : ∀ f ∈ frames, f.Bounded) : (complete d frames).Bounded := by
  cases frames with
  | nil => exact ⟨hd, nofun⟩
  | cons f frames =>
    obtain ⟨hf, hrest⟩ := List.forall_mem_cons.1 hframes
    cases f with
    | items done =>
      exact ⟨trivial, List.forall_mem_cons.2 ⟨List.forall_mem_cons.2 ⟨hd, hf⟩, hrest⟩⟩
    | members done key =>
      exact ⟨trivial, List.forall_mem_cons.2 ⟨List.forall_mem_cons.2 ⟨hd, hf⟩, hrest⟩⟩

/-- Starting a value keeps a state bounded. -/
theorem bounded_startValue? {t : Token} {frames : List Frame} {s : State}
    (ht : Token.AllBounded [t]) (hframes : ∀ f ∈ frames, f.Bounded)
    (h : startValue? frames t = some s) : s.Bounded := by
  cases t with
  | bare d =>
    cases h
    exact bounded_complete (ht d (List.mem_singleton_self _)) hframes
  | string value =>
    cases value <;> cases h
    · exact bounded_complete .void hframes
    · exact bounded_complete (.leaf rfl nofun) hframes
  | leftBracket =>
    cases h
    exact ⟨trivial, List.forall_mem_cons.2 ⟨nofun, hframes⟩⟩
  | leftBrace =>
    cases h
    exact ⟨trivial, List.forall_mem_cons.2 ⟨nofun, hframes⟩⟩
  | rightBrace | rightBracket | colon | comma => cases h

/-- Starting a key keeps a state bounded. -/
theorem bounded_startKey? {t : Token} {done : List (Option String × Draft)} {frames : List Frame}
    {s : State} (hdone : ∀ m ∈ done, m.2.Bounded) (hframes : ∀ f ∈ frames, f.Bounded)
    (h : startKey? done frames t = some s) : s.Bounded := by
  cases t with
  | string k =>
    cases h
    exact ⟨trivial, List.forall_mem_cons.2 ⟨hdone, hframes⟩⟩
  | bare | leftBracket | leftBrace | rightBrace | rightBracket | colon | comma => cases h

/-- One token keeps what is put together within bounds. -/
theorem bounded_advance? {t : Token} {s s' : State} (ht : Token.AllBounded [t]) (hs : s.Bounded)
    (h : advance? t s = some s') : s'.Bounded := by
  obtain ⟨expect, opened⟩ := s
  obtain ⟨hexpect, hopened⟩ := hs
  change expect.Bounded at hexpect
  change ∀ f ∈ opened, f.Bounded at hopened
  simp only [advance?] at h
  split at h
  · exact bounded_startValue? ht hopened h
  · obtain ⟨-, hframes⟩ := List.forall_mem_cons.1 hopened
    split at h
    · cases h
      exact bounded_complete (.array nofun) hframes
    · exact bounded_startValue? ht hopened h
  · obtain ⟨-, hframes⟩ := List.forall_mem_cons.1 hopened
    split at h
    · cases h
      exact bounded_complete (.object nofun) hframes
    · exact bounded_startKey? (fun m hm => absurd hm List.not_mem_nil) hframes h
  · exact bounded_startKey? hexpect hopened h
  · split at h
    · cases h
      exact ⟨trivial, hopened⟩
    · cases h
  · obtain ⟨hdone, hframes⟩ := List.forall_mem_cons.1 hopened
    split at h
    · cases h
      exact ⟨trivial, hopened⟩
    · cases h
      exact bounded_complete (.array fun d hd => hdone d (List.mem_reverse.1 hd)) hframes
    · cases h
  · obtain ⟨hdone, hframes⟩ := List.forall_mem_cons.1 hopened
    split at h
    · cases h
      exact ⟨hdone, hframes⟩
    · cases h
      exact bounded_complete (.object fun m hm => hdone m (List.mem_reverse.1 hm)) hframes
    · cases h
  · cases h

/-- What tokens are put together to is within bounds. -/
theorem bounded_of_build {s : State} {ts : List Token} {d : Draft} (hts : Token.AllBounded ts)
    (hs : s.Bounded) (h : build s ts = some d) : d.Bounded := by
  induction ts generalizing s with
  | nil =>
    unfold build at h
    split at h
    · cases h
      exact hs.expect
    · cases h
    · contradiction
  | cons t ts ih =>
    rw [build] at h
    split at h
    · cases h
    · next s' hadvance =>
      have ht : Token.AllBounded [t] := fun d hd =>
        hts d (List.mem_singleton.1 hd ▸ List.mem_cons_self)
      exact ih (fun d hd => hts d (List.mem_cons_of_mem _ hd)) (bounded_advance? ht hs hadvance) h

/-! ## What is kept -/

/-- A value within bounds: at most so deep, and of integers that fit 64 bits. -/
def Within (n : Nat) (j : Json) : Prop := j.depth ≤ n ∧ j.Fits

/-- Items that are kept lie within the limits of what is kept of each. -/
theorem within_of_keepItems {shapes : List Shape} {n : Nat} {ds : List Draft} {vs : List Json}
    (ih : ∀ d ∈ ds, ∀ s j, d.keep s n = some j → j.Within n)
    (h : Draft.keepItems shapes n ds = some vs) : ∀ v ∈ vs, v.Within n := by
  induction ds generalizing shapes vs with
  | nil =>
    cases h
    nofun
  | cons d ds ihs =>
    obtain ⟨hd, hds⟩ := List.forall_mem_cons.1 ih
    rw [Draft.keepItems] at h
    obtain ⟨v, hv, h⟩ := Option.bind_eq_some_iff.1 h
    obtain ⟨vs', hvs, h⟩ := Option.bind_eq_some_iff.1 h
    cases h
    exact List.forall_mem_cons.2 ⟨hd _ v hv, ihs hds hvs⟩

/-- Members that are kept lie within the limits of what is kept of each. -/
theorem within_of_keepMembers {s : Shape} {n : Nat} {ms : List (Option String × Draft)}
    {vs : List (String × Json)} (ih : ∀ m ∈ ms, ∀ s j, m.2.keep s n = some j → j.Within n)
    (h : Draft.keepMembers s n ms = some vs) : ∀ v ∈ vs, v.2.Within n := by
  induction ms generalizing vs with
  | nil =>
    cases h
    nofun
  | cons m ms ihs =>
    obtain ⟨hm, hms⟩ := List.forall_mem_cons.1 ih
    obtain ⟨_ | key, d⟩ := m
    · cases h
    · rw [Draft.keepMembers] at h
      split at h
      · exact ihs hms h
      · obtain ⟨v, hv, h⟩ := Option.bind_eq_some_iff.1 h
        obtain ⟨vs', hvs, h⟩ := Option.bind_eq_some_iff.1 h
        cases h
        exact List.forall_mem_cons.2 ⟨hm _ v hv, ihs hms hvs⟩

/-- What is kept of a draft is no deeper than asked for. -/
theorem within_of_keep {d : Draft} (hd : d.Bounded) {s : Shape} {n : Nat} {j : Json}
    (h : d.keep s n = some j) : j.Within n := by
  induction hd generalizing s n j with
  | void =>
    rw [Draft.keep] at h
    cases h
  | leaf hdepth hfits =>
    rw [Draft.keep] at h
    cases h
    exact ⟨hdepth ▸ Nat.zero_le n, hfits⟩
  | array _ ih =>
    cases n with
    | zero =>
      rw [Draft.keep] at h
      cases h
    | succ n =>
      rw [Draft.keep] at h
      obtain ⟨vs, hvs, rfl⟩ := Option.map_eq_some_iff.1 h
      have hwithin := within_of_keepItems (fun d hd s j h => ih d hd h) hvs
      refine ⟨depth_array_le_succ_iff.2 fun v hv => (hwithin v hv).1, fun x hx => ?_⟩
      obtain ⟨v, hv, hx⟩ := mem_numbers_array.1 hx
      exact (hwithin v hv).2 x hx
  | object _ ih =>
    cases n with
    | zero =>
      rw [Draft.keep] at h
      cases h
    | succ n =>
      rw [Draft.keep] at h
      obtain ⟨vs, hvs, rfl⟩ := Option.map_eq_some_iff.1 h
      have hwithin := within_of_keepMembers (fun m hm s j h => ih m hm h) hvs
      refine ⟨depth_object_le_succ_iff.2 fun v hv => (hwithin v hv).1, fun x hx => ?_⟩
      obtain ⟨v, hv, hx⟩ := mem_numbers_object.1 hx
      exact (hwithin v hv).2 x hx

/-- The value of a text nests no deeper than a text may, and its integers fit 64 bits. -/
theorem within_of_parse? {text : String} {j : Json} (h : parse? text = some j) :
    j.Within depthLimit := by
  obtain ⟨d, hdraft, hkeep⟩ := Option.bind_eq_some_iff.1 h
  obtain ⟨ts, hscan, hbuild⟩ := Option.bind_eq_some_iff.1 hdraft
  have hstart : State.Bounded ⟨.value, []⟩ := ⟨trivial, nofun⟩
  exact within_of_keep (bounded_of_build (allBounded_of_scan hscan) hstart hbuild) hkeep

end AccessGate.Json
