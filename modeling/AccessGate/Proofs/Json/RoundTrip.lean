import AccessGate.Json.Printer
import AccessGate.Json.Reader
import AccessGate.Proofs.Json.Extent

/-!
# What is written is read back

A value without floating-point numbers is written as a text that is read as the value, as long as it
nests no deeper than a text may (`Json.parse?_text`). The reader works in three passes, and each is
taken on its own: the scan cuts the text of a value into the value's tokens (`Json.Scans`), these
are put together to the value's draft (`Json.Builds`), and the draft keeps the value
(`Json.keep_draft`). What holds of the values in an array or object holds of it, so each pass is one
induction on the value.
-/

namespace AccessGate.Json

/-! ## The scan -/

mutual

/-- The tokens of the text of a value. -/
def tokens : Json → List Token
  | null => [.bare (.leaf null)]
  | bool b => [.bare (.leaf (bool b))]
  | number n => [.bare (.leaf (number n))]
  | string s => [.string (some s)]
  | array [] => [.leftBracket, .rightBracket]
  | array (x :: xs) => .leftBracket :: tokens x ++ tokensItems xs
  | object [] => [.leftBrace, .rightBrace]
  | object ((k, v) :: ms) =>
    .leftBrace :: .string (some k) :: .colon :: tokens v ++ tokensMembers ms

/-- The tokens of the items after the first, and the closing bracket. -/
def tokensItems : List Json → List Token
  | [] => [.rightBracket]
  | x :: xs => .comma :: tokens x ++ tokensItems xs

/-- The tokens of the members after the first, and the closing brace. -/
def tokensMembers : List (String × Json) → List Token
  | [] => [.rightBrace]
  | (k, v) :: ms => .comma :: .string (some k) :: .colon :: tokens v ++ tokensMembers ms

end

/-- A text that does not go on with a character of words and numbers. -/
def Ends (rest : List Char) : Prop := ∀ c ∈ rest.head?, isBare c = false

/-- A character that is not bare ends a bare word. -/
theorem ends_cons {c : Char} {rest : List Char} (h : isBare c = false) : Ends (c :: rest) := by
  rintro _ ⟨⟩
  exact h

variable {rest : List Char} {c : Char} {ts : List Token}

/-- A character that is a token by itself. -/
theorem scan_mark {t : Token} (h : start? c = some ([t], .between)) (rest : List Char) :
    scan .between (c :: rest) = (scan .between rest).map (t :: ·) := by
  rw [scan, step?, h]
  rfl

/-! ### Words and numbers -/

/-- A character of words and numbers starts one. -/
theorem start?_of_isBare (h : isBare c = true) : start? c = some ([], .bare [c]) := by
  have hne (mark : Char) (hmark : isBare mark = false) : c ≠ mark := by
    rintro rfl
    rw [h] at hmark
    cases hmark
  have hspace : isSpace c = false := by
    simp [isSpace, hne ' ' rfl, hne '\n' rfl, hne '\t' rfl, hne '\r' rfl]
  simp [start?, hspace, hne '{' rfl, hne '}' rfl, hne '[' rfl, hne ']' rfl, hne ':' rfl,
    hne ',' rfl, hne '"' rfl, h]

/-- In a word or number, characters of words and numbers are gathered. -/
theorem scan_bare_append (seen : List Char) {cs : List Char} (h : ∀ c ∈ cs, isBare c = true)
    (rest : List Char) :
    scan (.bare seen) (cs ++ rest) = scan (.bare (cs.reverse ++ seen)) rest := by
  induction cs generalizing seen with
  | nil => rfl
  | cons c cs ih =>
    obtain ⟨hc, hcs⟩ := List.forall_mem_cons.1 h
    rw [List.cons_append, scan, step?, if_pos hc]
    simp only [List.nil_append, Option.map_id', ih _ hcs, List.reverse_cons, List.append_assoc,
      List.singleton_append]

/-- A word or number is over where the text does not go on with one of its characters. -/
theorem scan_bare_ends {seen : List Char} {d : Draft} (hword : word? seen.reverse = some d)
    (h : Ends rest) :
    scan (.bare seen) rest = (scan .between rest).map (.bare d :: ·) := by
  cases rest with
  | nil => simp [scan, finish?, hword]
  | cons c rest =>
    have hc : isBare c = false := h c rfl
    rw [scan, scan, step?, step?, hc, hword]
    cases start? c with
    | none => rfl
    | some next =>
      obtain ⟨ts, mode⟩ := next
      simp [Option.map_map, Function.comp_def]

/-- A word or number is one token. -/
theorem scan_word {cs : List Char} {d : Draft} (hword : word? cs = some d) (hne : cs ≠ [])
    (hcs : cs.all isBare = true) (h : Ends rest) :
    scan .between (cs ++ rest) = (scan .between rest).map (.bare d :: ·) := by
  cases cs with
  | nil => exact absurd rfl hne
  | cons c cs =>
    obtain ⟨hc, hcs⟩ := List.forall_mem_cons.1 (List.all_eq_true.1 hcs)
    rw [List.cons_append, scan, step?, start?_of_isBare hc]
    simp only [List.nil_append, Option.map_id', scan_bare_append _ hcs]
    exact scan_bare_ends (by simpa using hword) h

/-! ### Strings -/

/-- A hexadecimal digit is read back. -/
theorem hexValue?_hexDigit : ∀ n < 16, hexValue? (hexDigit n) = some n := by decide

/-- A control character is written by its code and read by it. -/
theorem scan_control (h : c.toNat < 0x20) (seen : List Char) (rest : List Char) :
    scan (.string (some seen))
        ('\\' :: 'u' :: '0' :: '0' :: hexDigit (c.toNat / 16) :: hexDigit (c.toNat % 16) :: rest) =
      scan (.string (some (c :: seen))) rest := by
  have hhigh := hexValue?_hexDigit (c.toNat / 16) (by omega)
  have hlow := hexValue?_hexDigit (c.toNat % 16) (by omega)
  have hzero : hexValue? '0' = some 0 := rfl
  have hcode : c.toNat / 16 * 16 + c.toNat % 16 = c.toNat := by omega
  have hclose : closeCode (some seen) none c.toNat = .string (some (c :: seen)) := by
    have hchar : Char.ofNat c.toNat = c := Char.ofNat_toNat c
    have hhigh : ¬ (0xD800 ≤ c.toNat ∧ c.toNat ≤ 0xDBFF) := by omega
    have hlow : ¬ (0xDC00 ≤ c.toNat ∧ c.toNat ≤ 0xDFFF) := by omega
    rw [closeCode, if_neg hhigh, if_neg hlow, Option.map_some, hchar]
  simp [scan, step?, inString?, inEscape?, hhigh, hlow, hzero, hcode, hclose]

/-- A character of a string is read as it was written. -/
theorem scan_escape (c : Char) (seen : List Char) (rest : List Char) :
    scan (.string (some seen)) (escape c ++ rest) = scan (.string (some (c :: seen))) rest := by
  unfold escape
  split
  iterate 7 simp [scan, step?, inString?, inEscape?, unescape?]
  · next hquote hslash _ _ _ _ _ =>
    split
    · next hcontrol => exact scan_control hcontrol seen rest
    · next hshown =>
      have hquote : c ≠ '"' := fun h => hquote h
      have hslash : c ≠ '\\' := fun h => hslash h
      rw [List.singleton_append, scan, step?, inString?, if_neg hquote, if_neg hslash,
        if_neg hshown]
      simp

/-- A string is one token. -/
theorem scan_quoted (s : String) (rest : List Char) :
    scan .between (quoted s ++ rest) = (scan .between rest).map (.string (some s) :: ·) := by
  have hbody (cs seen : List Char) :
      scan (.string (some seen)) (cs.flatMap escape ++ '"' :: rest) =
        (scan .between rest).map (.string (some (String.ofList (seen.reverse ++ cs))) :: ·) := by
    induction cs generalizing seen with
    | nil =>
      rw [List.flatMap_nil, List.nil_append, scan, step?, inString?, if_pos rfl, List.append_nil]
      rfl
    | cons c cs ih =>
      rw [List.flatMap_cons, List.append_assoc, scan_escape, ih]
      simp
  have hopen : quoted s ++ rest = '"' :: (s.toList.flatMap escape ++ '"' :: rest) := by
    simp [quoted]
  have hstart : start? '"' = some ([], .string (some [])) := rfl
  rw [hopen, scan, step?, hstart]
  simp only [List.nil_append, Option.map_id']
  rw [hbody, List.reverse_nil, List.nil_append, String.ofList_toList]

/-! ### Values -/

/-- The text of a value is cut into its tokens, whatever follows it that does not go on with a word
or number. -/
def Scans (j : Json) : Prop :=
  ∀ rest, Ends rest → scan .between (j.render ++ rest) = (scan .between rest).map (j.tokens ++ ·)

/-- What follows an item is a comma or the closing bracket. -/
theorem ends_renderItems (xs : List Json) (rest : List Char) : Ends (renderItems xs ++ rest) := by
  cases xs with
  | nil => exact ends_cons rfl
  | cons x xs => exact ends_cons rfl

/-- What follows a member is a comma or the closing brace. -/
theorem ends_renderMembers (ms : List (String × Json)) (rest : List Char) :
    Ends (renderMembers ms ++ rest) := by
  cases ms with
  | nil => exact ends_cons rfl
  | cons m ms => exact ends_cons rfl

/-- Printed items are scanned to their tokens. -/
theorem scan_renderItems {xs : List Json} (h : ∀ x ∈ xs, Scans x) (rest : List Char) :
    scan .between (renderItems xs ++ rest) = (scan .between rest).map (tokensItems xs ++ ·) := by
  induction xs with
  | nil => exact scan_mark rfl rest
  | cons x xs ih =>
    obtain ⟨hx, hxs⟩ := List.forall_mem_cons.1 h
    have htext : renderItems (x :: xs) ++ rest = ',' :: (x.render ++ (renderItems xs ++ rest)) := by
      simp [renderItems]
    rw [htext, scan_mark rfl, hx _ (ends_renderItems xs rest), ih hxs, tokensItems]
    simp [Option.map_map, Function.comp_def]

/-- Printed members are scanned to their tokens. -/
theorem scan_renderMembers {ms : List (String × Json)} (h : ∀ m ∈ ms, Scans m.2)
    (rest : List Char) :
    scan .between (renderMembers ms ++ rest) =
      (scan .between rest).map (tokensMembers ms ++ ·) := by
  induction ms with
  | nil => exact scan_mark rfl rest
  | cons m ms ih =>
    obtain ⟨k, v⟩ := m
    obtain ⟨hv, hms⟩ := List.forall_mem_cons.1 h
    have htext : renderMembers ((k, v) :: ms) ++ rest =
        ',' :: (quoted k ++ ':' :: (v.render ++ (renderMembers ms ++ rest))) := by
      simp [renderMembers]
    rw [htext, scan_mark rfl, scan_quoted, scan_mark rfl, hv _ (ends_renderMembers ms rest),
      ih hms, tokensMembers]
    simp [Option.map_map, Function.comp_def]

/-- The text of a value without floating-point numbers is cut into its tokens. -/
theorem scans_of_isInteger (j : Json) (h : ∀ x ∈ j.numbers, x.IsInteger) : Scans j := by
  induction j using induct with
  | null => exact fun rest hends => scan_word rfl nofun rfl hends
  | bool b =>
    cases b with
    | false => exact fun rest hends => scan_word rfl nofun rfl hends
    | true => exact fun rest hends => scan_word rfl nofun rfl hends
  | number x =>
    cases x with
    | float b => exact absurd (h (.float b) (List.mem_singleton_self _)) nofun
    | integer n =>
      have hword := word?_integer (h (.integer n) (List.mem_singleton_self _))
      have hne : (toString n).toList ≠ [] := by
        intro hnil
        rw [hnil] at hword
        cases hword
      have hbare : (toString n).toList.all isBare = true :=
        List.all_eq_true.2 fun c hc => isBare_of_mem_toString hc
      exact fun rest hends => scan_word hword hne hbare hends
  | string s => exact fun rest _ => scan_quoted s rest
  | array items ih =>
    intro rest _
    cases items with
    | nil =>
      have htext : (array []).render ++ rest = '[' :: ']' :: rest := by simp [render]
      rw [htext, scan_mark rfl, scan_mark rfl, tokens]
      simp [Option.map_map, Function.comp_def]
    | cons x xs =>
      obtain ⟨hx, hxs⟩ := List.forall_mem_cons.1 fun j hj =>
        ih j hj fun n hn => h n (mem_numbers_array.2 ⟨j, hj, hn⟩)
      have htext : (array (x :: xs)).render ++ rest =
          '[' :: (x.render ++ (renderItems xs ++ rest)) := by simp [render]
      rw [htext, scan_mark rfl, hx _ (ends_renderItems xs rest), scan_renderItems hxs, tokens]
      simp [Option.map_map, Function.comp_def]
  | object ms ih =>
    intro rest _
    cases ms with
    | nil =>
      have htext : (object []).render ++ rest = '{' :: '}' :: rest := by simp [render]
      rw [htext, scan_mark rfl, scan_mark rfl, tokens]
      simp [Option.map_map, Function.comp_def]
    | cons m ms =>
      obtain ⟨k, v⟩ := m
      obtain ⟨hv, hms⟩ := List.forall_mem_cons.1 fun m hm =>
        ih m hm fun n hn => h n (mem_numbers_object.2 ⟨m, hm, hn⟩)
      have htext : (object ((k, v) :: ms)).render ++ rest =
          '{' :: (quoted k ++ ':' :: (v.render ++ (renderMembers ms ++ rest))) := by
        simp [render]
      rw [htext, scan_mark rfl, scan_quoted, scan_mark rfl, hv _ (ends_renderMembers ms rest),
        scan_renderMembers hms, tokens]
      simp [Option.map_map, Function.comp_def]

/-! ## The build -/

mutual

/-- What the grammar makes of the text of a value. -/
def draft : Json → Draft
  | array items => .array (draftItems items)
  | object members => .object (draftMembers members)
  | null => .leaf null
  | bool b => .leaf (bool b)
  | number n => .leaf (number n)
  | string s => .leaf (string s)

/-- What the grammar makes of the items of an array. -/
def draftItems : List Json → List Draft
  | [] => []
  | x :: xs => draft x :: draftItems xs

/-- What the grammar makes of the members of an object. -/
def draftMembers : List (String × Json) → List (Option String × Draft)
  | [] => []
  | (k, v) :: ms => (some k, draft v) :: draftMembers ms

end

/-- One token. -/
theorem build_cons {t : Token} {s s' : State} (h : advance? t s = some s') (ts : List Token) :
    build s (t :: ts) = build s' ts := by
  rw [build, h]

/-- The tokens of a value are put together to its draft wherever a value is expected. -/
def Builds (j : Json) : Prop :=
  ∀ frames ts, build ⟨.value, frames⟩ (j.tokens ++ ts) = build (complete j.draft frames) ts

/-- A value does not start as an array ends. -/
theorem exists_tokens_eq_cons (j : Json) :
    ∃ t ts, j.tokens = t :: ts ∧ ∀ frames done,
      advance? t ⟨.firstItem, .items done :: frames⟩ =
        advance? t ⟨.value, .items done :: frames⟩ := by
  cases j with
  | null | bool | number | string => exact ⟨_, _, by rw [tokens], fun _ _ => rfl⟩
  | array items =>
    cases items with
    | nil => exact ⟨_, _, by rw [tokens], fun _ _ => rfl⟩
    | cons x xs => exact ⟨_, _, by rw [tokens]; rfl, fun _ _ => rfl⟩
  | object ms =>
    cases ms with
    | nil => exact ⟨_, _, by rw [tokens], fun _ _ => rfl⟩
    | cons m ms => exact ⟨_, _, by rw [tokens]; rfl, fun _ _ => rfl⟩

/-- The first item of an array is a value like any other. -/
theorem Builds.firstItem {j : Json} (h : Builds j) (frames : List Frame) (ts : List Token) :
    build ⟨.firstItem, .items [] :: frames⟩ (j.tokens ++ ts) =
      build ⟨.more, .items [j.draft] :: frames⟩ ts := by
  obtain ⟨t, ts', htokens, hstart⟩ := exists_tokens_eq_cons j
  have hvalue := h (.items [] :: frames) ts
  rw [htokens, List.cons_append, build] at hvalue ⊢
  rw [hstart]
  exact hvalue

/-- The tokens of items are built to an array of their drafts. -/
theorem build_tokensItems {xs : List Json} (h : ∀ x ∈ xs, Builds x) (done : List Draft)
    (frames : List Frame) (ts : List Token) :
    build ⟨.more, .items done :: frames⟩ (tokensItems xs ++ ts) =
      build (complete (.array (done.reverse ++ draftItems xs)) frames) ts := by
  induction xs generalizing done with
  | nil => rw [draftItems, List.append_nil]; exact build_cons rfl ts
  | cons x xs ih =>
    obtain ⟨hx, hxs⟩ := List.forall_mem_cons.1 h
    have htokens : tokensItems (x :: xs) ++ ts =
        .comma :: (x.tokens ++ (tokensItems xs ++ ts)) := by simp [tokensItems]
    rw [htokens, build_cons rfl, hx, complete, ih hxs, draftItems]
    simp

/-- The tokens of members are built to an object of their drafts. -/
theorem build_tokensMembers {ms : List (String × Json)} (h : ∀ m ∈ ms, Builds m.2)
    (done : List (Option String × Draft)) (key : Option String) (frames : List Frame)
    (ts : List Token) :
    build ⟨.more, .members done key :: frames⟩ (tokensMembers ms ++ ts) =
      build (complete (.object (done.reverse ++ draftMembers ms)) frames) ts := by
  induction ms generalizing done key with
  | nil => rw [draftMembers, List.append_nil]; exact build_cons rfl ts
  | cons m ms ih =>
    obtain ⟨k, v⟩ := m
    obtain ⟨hv, hms⟩ := List.forall_mem_cons.1 h
    have htokens : tokensMembers ((k, v) :: ms) ++ ts =
        .comma :: .string (some k) :: .colon :: (v.tokens ++ (tokensMembers ms ++ ts)) := by
      simp [tokensMembers]
    rw [htokens, build_cons rfl, build_cons rfl, build_cons rfl, hv, complete, ih hms,
      draftMembers]
    simp

/-- The tokens of every value are put together to its draft. -/
theorem builds (j : Json) : Builds j := by
  induction j using induct with
  | null | bool | number | string => exact fun frames ts => build_cons rfl ts
  | array items ih =>
    intro frames ts
    cases items with
    | nil => exact (build_cons rfl _).trans (build_cons rfl ts)
    | cons x xs =>
      obtain ⟨hx, hxs⟩ := List.forall_mem_cons.1 ih
      have htokens : (array (x :: xs)).tokens ++ ts =
          .leftBracket :: (x.tokens ++ (tokensItems xs ++ ts)) := by simp [tokens]
      rw [htokens, build_cons rfl, hx.firstItem, build_tokensItems hxs, draft, draftItems]
      rfl
  | object ms ih =>
    intro frames ts
    cases ms with
    | nil => exact (build_cons rfl _).trans (build_cons rfl ts)
    | cons m ms =>
      obtain ⟨k, v⟩ := m
      obtain ⟨hv, hms⟩ := List.forall_mem_cons.1 ih
      have htokens : (object ((k, v) :: ms)).tokens ++ ts =
          .leftBrace :: .string (some k) :: .colon :: (v.tokens ++ (tokensMembers ms ++ ts)) := by
        simp [tokens]
      rw [htokens, build_cons rfl, build_cons rfl, build_cons rfl, hv, complete,
        build_tokensMembers hms, draft, draftMembers]
      rfl

/-! ## What is kept -/

/-- Items are kept of their drafts. -/
theorem keepItems_draftItems {xs : List Json} {n : Nat}
    (h : ∀ x ∈ xs, x.draft.keep .whole n = some x) :
    Draft.keepItems [] n (draftItems xs) = some xs := by
  induction xs with
  | nil => rfl
  | cons x xs ih =>
    obtain ⟨hx, hxs⟩ := List.forall_mem_cons.1 h
    rw [draftItems, Draft.keepItems, List.headD_nil, hx, List.tail_nil, ih hxs]
    rfl

/-- Members are kept of their drafts. -/
theorem keepMembers_draftMembers {ms : List (String × Json)} {n : Nat}
    (h : ∀ m ∈ ms, m.2.draft.keep .whole n = some m.2) :
    Draft.keepMembers .whole n (draftMembers ms) = some ms := by
  induction ms with
  | nil => rfl
  | cons m ms ih =>
    obtain ⟨k, v⟩ := m
    obtain ⟨hv, hms⟩ := List.forall_mem_cons.1 h
    rw [draftMembers, Draft.keepMembers]
    simp only [Shape.member?, hv, ih hms]
    rfl

/-- The draft of a value keeps all of it, unless the value nests too deep. -/
theorem keep_draft {j : Json} {n : Nat} (h : j.depth ≤ n) : j.draft.keep .whole n = some j := by
  induction j using induct generalizing n with
  | null | bool | number | string => rw [draft, Draft.keep]
  | array items ih =>
    obtain ⟨n, rfl⟩ := Nat.exists_eq_succ_of_ne_zero (n := n) (by rw [depth] at h; omega)
    have hitems : ∀ j ∈ items, j.draft.keep .whole n = some j := fun j hj =>
      ih j hj (depth_array_le_succ_iff.1 h j hj)
    rw [draft, Draft.keep, Shape.items, keepItems_draftItems hitems]
    rfl
  | object ms ih =>
    obtain ⟨n, rfl⟩ := Nat.exists_eq_succ_of_ne_zero (n := n) (by rw [depth] at h; omega)
    have hmembers : ∀ m ∈ ms, m.2.draft.keep .whole n = some m.2 := fun m hm =>
      ih m hm (depth_object_le_succ_iff.1 h m hm)
    rw [draft, Draft.keep, keepMembers_draftMembers hmembers]
    rfl

/-- The text of a value is read as the value. -/
theorem parse?_text {j : Json} (h : j.Readable depthLimit) : parse? j.text = some j := by
  have hscan := scans_of_isInteger j h.integers [] nofun
  rw [List.append_nil] at hscan
  have hbuild := builds j [] []
  rw [complete, build] at hbuild
  rw [parse?, parseWithin?, draft?, text, String.toList_ofList, hscan]
  change (build ⟨.value, []⟩ (j.tokens ++ [])).bind _ = _
  rw [hbuild]
  exact keep_draft h.depth_le

end AccessGate.Json
