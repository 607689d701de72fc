import AccessGate.Cache.Basic

/-!
# What the operations of a cache do to its entries

Each operation is described by the entry under one key before and after it. Storing writes one key,
dropping a credential empties the keys of its digest, and a lookup only takes away stale entries
under the two keys that it looks at (`Cache.get?_lookup_eq_or`, `Cache.get?_lookup_scopedKey`). The
answer of a lookup is read off those two entries (`Cache.lookup_answer`).
-/

namespace AccessGate

/-! ## Staleness -/

/-- Of two times reached one after the other, the first is reached too. -/
theorem Timestamp.reached_trans {a b c : Timestamp} (hab : a.reached b = true)
    (hbc : b.reached c = true) : a.reached c = true := by
  simp only [Timestamp.reached, Bool.or_eq_true, Bool.and_eq_true, decide_eq_true_eq,
    beq_iff_eq] at *
  omega

/-- An entry past its life is stale, whatever the wall clock shows. -/
theorem Held.isStale_of_expires {h : Held} {t : Instant} (wall : Timestamp) (hs : h.expires ≤ t) :
    h.isStale t wall = true := by
  simp [Held.isStale, hs]

/-- A marker is stale exactly when it is past its life. -/
theorem Held.isStale_unknown {h : Held} {t : Instant} {wall : Timestamp}
    (hv : h.verdict = .unknown) : h.isStale t wall = true ↔ h.expires ≤ t := by
  simp [Held.isStale, hv]

/-- A principal is not stale when neither its entry is past its life nor it past its end. -/
theorem Held.isStale_known_eq_false {h : Held} {p : Principal} {t : Instant} {wall : Timestamp}
    (hv : h.verdict = .known p) :
    h.isStale t wall = false ↔ t < h.expires ∧ p.isExpired wall = false := by
  simp [Held.isStale, hv]

namespace Cache

/-! ## Storing and dropping -/

/-- Storing a principal changes the entry under its scoped key only. -/
theorem get?_store (c : Cache) (credential scope : String) (p : Principal) (now : Instant)
    (key : String) :
    (c.store credential scope p now).entries.get? key =
      if key = scopedKey (credentialDigest credential) scope then
        some ⟨.known p, c.settings.ttl.after now⟩
      else c.entries.get? key :=
  Table.get?_insert ..

/-- Marking a credential as unknown changes the entry under its digest only, and nothing if markers
have no lifetime. -/
theorem get?_storeUnknown (c : Cache) (credential : String) (now : Instant) (key : String) :
    (c.storeUnknown credential now).entries.get? key =
      if c.settings.negativeTtl.isZero = false ∧ key = credentialDigest credential then
        some ⟨.unknown, c.settings.negativeTtl.after now⟩
      else c.entries.get? key := by
  unfold storeUnknown
  cases hz : c.settings.negativeTtl.isZero with
  | true => simp
  | false => simpa using Table.get?_insert ..

/-- A credential that is invalidated has no entries, and others keep theirs. -/
theorem get?_invalidate (c : Cache) (credential key : String) :
    (c.invalidate credential).entries.get? key =
      if isKeyOf (credentialDigest credential) key then none else c.entries.get? key := by
  rw [invalidate, Table.get?_filterKeys]
  cases isKeyOf (credentialDigest credential) key <;> rfl

/-! ## Looking up -/

/-- The verdict under a key, unless the entry is stale. -/
def fresh? (c : Cache) (key : String) (now : Moment) : Option Verdict :=
  ((c.entries.get? key).filter fun h => !h.isStale now.instant now.wall).map Held.verdict

/-- What is fresh under a key is the verdict of an entry there that is not stale. -/
theorem fresh?_eq_some_iff {c : Cache} {key : String} {now : Moment} {v : Verdict} :
    c.fresh? key now = some v ↔ ∃ h, c.entries.get? key = some h ∧ h.verdict = v ∧
      h.isStale now.instant now.wall = false := by
  unfold fresh?
  cases hg : c.entries.get? key with
  | none => simp
  | some h =>
    cases hs : h.isStale now.instant now.wall <;> simp [Option.filter_some, hs]

/-- What a lookup answers for the principal's key and the marker's key. -/
theorem scan_answer (c : Cache) (digest scope : String) (now : Moment) :
    (c.scan digest scope now).answer =
      match c.fresh? (scopedKey digest scope) now with
      | some v => Answer.ofVerdict v
      | none =>
        match c.fresh? digest now with
        | some v => Answer.ofVerdict v
        | none => .miss := by
  unfold scan scanKeys fresh?
  have hlast : (c.scanKeys now [digest]).answer =
      match ((c.entries.get? digest).filter fun h => !h.isStale now.instant now.wall).map
        Held.verdict with
      | some v => Answer.ofVerdict v
      | none => .miss := by
    unfold scanKeys scanKeys
    cases c.entries.get? digest with
    | none => rfl
    | some h => cases hs : h.isStale now.instant now.wall <;> simp [Option.filter_some, hs]
  cases c.entries.get? (scopedKey digest scope) with
  | none => simpa using hlast
  | some h =>
    cases hs : h.isStale now.instant now.wall with
    | false => simp [Option.filter_some, hs]
    | true => simpa [Option.filter_some, hs] using hlast

/-- A principal under a key that is not stale is within its life, and not past its own end. -/
theorem fresh?_eq_some_known {c : Cache} {key : String} {now : Moment} {p : Principal}
    (h : c.fresh? key now = some (.known p)) :
    ∃ expires, c.entries.get? key = some ⟨.known p, expires⟩ ∧ now.instant < expires ∧
      p.isExpired now.wall = false := by
  obtain ⟨⟨verdict, expires⟩, hget, hv, hfresh⟩ := fresh?_eq_some_iff.1 h
  obtain rfl := hv
  obtain ⟨hlife, hend⟩ := (Held.isStale_known_eq_false rfl).1 hfresh
  exact ⟨expires, hget, hlife, hend⟩

/-- A scan finds a principal only under one of the two keys that it looks at. -/
theorem fresh?_of_scan_hit {c : Cache} {digest scope : String} {now : Moment} {p : Principal}
    (h : (c.scan digest scope now).answer = .hit p) :
    c.fresh? (scopedKey digest scope) now = some (.known p) ∨
      c.fresh? digest now = some (.known p) := by
  have hknown {v : Verdict} (hv : Answer.ofVerdict v = .hit p) : v = .known p := by
    cases v with
    | known q => rw [Answer.hit.inj hv]
    | unknown => cases hv
  rw [scan_answer] at h
  cases hs : c.fresh? (scopedKey digest scope) now with
  | some v =>
    rw [hs] at h
    exact .inl (congrArg some (hknown h))
  | none =>
    rw [hs] at h
    cases hd : c.fresh? digest now with
    | some v =>
      rw [hd] at h
      exact .inr (congrArg some (hknown h))
    | none =>
      rw [hd] at h
      cases h

/-- A lookup answers with the fresh entry under the principal's key, or else under the marker's. -/
theorem lookup_answer (c : Cache) (credential scope : String) (now : Moment) :
    (c.lookup credential scope now).1 =
      match c.fresh? (scopedKey (credentialDigest credential) scope) now with
      | some v => Answer.ofVerdict v
      | none =>
        match c.fresh? (credentialDigest credential) now with
        | some v => Answer.ofVerdict v
        | none => .miss :=
  scan_answer ..

/-- Only keys that were looked at are found stale, and only those with stale entries. -/
theorem mem_stale_scanKeys {c : Cache} {now : Moment} {key : String} :
    ∀ {keys : List String}, key ∈ (c.scanKeys now keys).stale →
      key ∈ keys ∧ ∃ h, c.entries.get? key = some h ∧ h.isStale now.instant now.wall = true
  | [], hk => by simp [scanKeys] at hk
  | k :: keys, hk => by
    unfold scanKeys at hk
    cases hg : c.entries.get? k with
    | none =>
      rw [hg] at hk
      obtain ⟨hmem, hstale⟩ := mem_stale_scanKeys hk
      exact ⟨List.mem_cons_of_mem _ hmem, hstale⟩
    | some h =>
      rw [hg] at hk
      cases hs : h.isStale now.instant now.wall with
      | false => simp [hs] at hk
      | true =>
        simp only [hs, if_true, List.mem_cons] at hk
        rcases hk with rfl | hk
        · exact ⟨List.mem_cons_self, h, hg, hs⟩
        · obtain ⟨hmem, hstale⟩ := mem_stale_scanKeys hk
          exact ⟨List.mem_cons_of_mem _ hmem, hstale⟩

/-- Dropping a stale entry leaves the other keys alone. -/
theorem get?_dropStale (c : Cache) (scanned : Instant) (wall : Timestamp) (k key : String) :
    (dropStale scanned wall c k).entries.get? key =
      if key = k then (c.entries.get? key).filter fun h => !h.isStale scanned wall
      else c.entries.get? key := by
  unfold dropStale
  by_cases hkey : key = k
  · subst hkey
    cases hg : c.entries.get? key with
    | none => simp [hg]
    | some h => cases hs : h.isStale scanned wall <;> simp [hs, hg, Option.filter_some]
  · cases hg : c.entries.get? k with
    | none => simp [hkey]
    | some h => cases hs : h.isStale scanned wall <;> simp [hs, hkey, Table.get?_erase]

/-- A cleanup takes away the entries under the given keys that are stale, and nothing else. -/
theorem get?_cleanup (c : Cache) (stale : List String) (scanned : Instant) (wall : Timestamp)
    (key : String) :
    (c.cleanup stale scanned wall).entries.get? key =
      if key ∈ stale then (c.entries.get? key).filter fun h => !h.isStale scanned wall
      else c.entries.get? key := by
  unfold cleanup
  induction stale generalizing c with
  | nil => simp
  | cons k ks ih =>
    rw [List.foldl_cons, ih, get?_dropStale]
    by_cases hk : key = k
    · have hmem : key ∈ k :: ks := hk ▸ List.mem_cons_self
      rw [if_pos hk, if_pos hmem]
      by_cases hks : key ∈ ks
      · rw [if_pos hks, Option.filter_filter]
        simp
      · rw [if_neg hks]
    · rw [if_neg hk]
      simp only [List.mem_cons, hk, false_or]

/-- What a cleanup takes away was stale. -/
theorem get?_cleanup_eq_or (c : Cache) (stale : List String) (scanned : Instant)
    (wall : Timestamp) (key : String) :
    (c.cleanup stale scanned wall).entries.get? key = c.entries.get? key ∨
      ((c.cleanup stale scanned wall).entries.get? key = none ∧ key ∈ stale ∧
        ∃ h, c.entries.get? key = some h ∧ h.isStale scanned wall = true) := by
  rw [get?_cleanup]
  by_cases hk : key ∈ stale
  · rw [if_pos hk]
    cases hg : c.entries.get? key with
    | none => exact .inl rfl
    | some h =>
      cases hs : h.isStale scanned wall with
      | false => exact .inl (by simp [Option.filter_some, hs])
      | true => exact .inr ⟨by simp [Option.filter_some, hs], hk, h, rfl, hs⟩
  · exact .inl (if_neg hk)

/-- What is under a key after a lookup was there before. -/
theorem get?_lookup_eq_or (c : Cache) (credential scope : String) (now : Moment) (key : String) :
    (c.lookup credential scope now).2.entries.get? key = c.entries.get? key ∨
      ((c.lookup credential scope now).2.entries.get? key = none ∧
        (key = scopedKey (credentialDigest credential) scope ∨ key = credentialDigest credential) ∧
        ∃ h, c.entries.get? key = some h ∧ h.isStale now.instant now.wall = true) := by
  rcases get?_cleanup_eq_or c (c.scan (credentialDigest credential) scope now).stale now.instant
    now.wall key with h | ⟨hnone, hmem, hstale⟩
  · exact .inl h
  · obtain ⟨hkeys, -⟩ := mem_stale_scanKeys hmem
    exact .inr ⟨hnone, by simpa using hkeys, hstale⟩

/-- A lookup takes the principal's entry away exactly when it is stale. -/
theorem get?_lookup_scopedKey (c : Cache) (credential scope : String) (now : Moment) :
    (c.lookup credential scope now).2.entries.get? (scopedKey (credentialDigest credential) scope) =
      (c.entries.get? (scopedKey (credentialDigest credential) scope)).filter
        fun h => !h.isStale now.instant now.wall := by
  have hget := get?_cleanup c (c.scan (credentialDigest credential) scope now).stale now.instant
    now.wall (scopedKey (credentialDigest credential) scope)
  refine Eq.trans hget ?_
  cases hg : c.entries.get? (scopedKey (credentialDigest credential) scope) with
  | none => simp
  | some h =>
    cases hs : h.isStale now.instant now.wall with
    | false => simp [Option.filter_some, hs]
    | true =>
      have hmem : scopedKey (credentialDigest credential) scope ∈
          (c.scan (credentialDigest credential) scope now).stale := by
        simp [scan, scanKeys, hg, hs]
      rw [if_pos hmem]

/-! ## The settings stay -/

theorem settings_dropStale (scanned : Instant) (wall : Timestamp) (c : Cache) (key : String) :
    (dropStale scanned wall c key).settings = c.settings := by
  unfold dropStale
  cases c.entries.get? key with
  | none => rfl
  | some h => cases hs : h.isStale scanned wall <;> simp [hs]

/-- A cleanup leaves the settings alone. -/
theorem settings_cleanup (c : Cache) (stale : List String) (scanned : Instant)
    (wall : Timestamp) : (c.cleanup stale scanned wall).settings = c.settings := by
  unfold cleanup
  induction stale generalizing c with
  | nil => rfl
  | cons k ks ih => rw [List.foldl_cons, ih, settings_dropStale]

/-- So does marking a credential as unknown. -/
theorem settings_storeUnknown (c : Cache) (credential : String) (now : Instant) :
    (c.storeUnknown credential now).settings = c.settings := by
  unfold storeUnknown
  cases c.settings.negativeTtl.isZero <;> rfl

end Cache

end AccessGate
