import AccessGate.Proofs.Cache.Agreement

/-!
# The cache refines its history

What a lookup answers is what the log says (`Cache.lookup_refines_history`): the principal that it
vouches for, or else that it denounces the credential, or else nothing. The rest of that statement
follows from the log alone, without a look at the entries: an event that the log lets stand can be
left out of the history (`Cache.vouches_erase_iff`, `Cache.denounces_erase_iff`).
-/

namespace AccessGate.Cache

variable {settings : CacheSettings} {start now : Moment} {events : List Event}
  {credential scope : String} {p : Principal}

/-! ## The three answers -/

/-- A lookup finds a principal exactly when the history vouches for it. -/
theorem answerTo_eq_hit_iff (hapart : Apart credential events) :
    answerTo settings start events credential scope = .hit p ↔
      Vouches settings (log start events) (clock start events) credential scope p := by
  have hkey := fresh?_run_scopedKey settings start scope hapart
  have hmark := fresh?_run_marker settings start hapart
  rw [answerTo, lookup_answer]
  cases hk : (run { settings } start events).fresh? (scopedKey (credentialDigest credential) scope)
    (clock start events) with
  | some v =>
    obtain ⟨q, rfl, hq⟩ := (hkey v).1 hk
    constructor
    · intro h
      obtain rfl := Answer.hit.inj h
      exact hq
    · intro h
      have heq := hk.symm.trans ((hkey (.known p)).2 ⟨p, rfl, h⟩)
      rw [Verdict.known.inj (Option.some.inj heq)]
      rfl
  | none =>
    refine ⟨fun h => ?_, fun h => ?_⟩
    · cases hm : (run { settings } start events).fresh? (credentialDigest credential)
        (clock start events) with
      | none => rw [hm] at h; cases h
      | some v =>
        obtain ⟨rfl, -⟩ := (hmark v).1 hm
        rw [hm] at h; cases h
    · rw [(hkey (.known p)).2 ⟨p, rfl, h⟩] at hk; cases hk

/-- A lookup finds a marker exactly when the history vouches for nobody and denounces the
credential. -/
theorem answerTo_eq_unknown_iff (hapart : Apart credential events) :
    answerTo settings start events credential scope = .unknown ↔
      (∀ p, ¬ Vouches settings (log start events) (clock start events) credential scope p) ∧
        Denounces settings (log start events) (clock start events) credential := by
  have hkey := fresh?_run_scopedKey settings start scope hapart
  have hmark := fresh?_run_marker settings start hapart
  rw [answerTo, lookup_answer]
  cases hk : (run { settings } start events).fresh? (scopedKey (credentialDigest credential) scope)
    (clock start events) with
  | some v =>
    obtain ⟨q, rfl, hq⟩ := (hkey v).1 hk
    refine ⟨fun h => ?_, fun h => absurd hq (h.1 q)⟩
    cases h
  | none =>
    have hnone (q : Principal) :
        ¬ Vouches settings (log start events) (clock start events) credential scope q := by
      intro hq
      rw [(hkey (.known q)).2 ⟨q, rfl, hq⟩] at hk; cases hk
    refine ⟨fun h => ⟨hnone, ?_⟩, fun h => ?_⟩
    · cases hm : (run { settings } start events).fresh? (credentialDigest credential)
        (clock start events) with
      | none => rw [hm] at h; cases h
      | some v => exact ((hmark v).1 hm).2
    · rw [(hmark .unknown).2 ⟨rfl, h.2⟩]
      rfl

/-- A lookup finds nothing exactly when the history says nothing of the credential. -/
theorem answerTo_eq_miss_iff (hapart : Apart credential events) :
    answerTo settings start events credential scope = .miss ↔
      (∀ p, ¬ Vouches settings (log start events) (clock start events) credential scope p) ∧
        ¬ Denounces settings (log start events) (clock start events) credential := by
  constructor
  · intro h
    have hnone (q : Principal) :
        ¬ Vouches settings (log start events) (clock start events) credential scope q := by
      intro hq
      rw [(answerTo_eq_hit_iff hapart).2 hq] at h; cases h
    refine ⟨hnone, fun hd => ?_⟩
    rw [(answerTo_eq_unknown_iff hapart).2 ⟨hnone, hd⟩] at h; cases h
  · rintro ⟨hnone, hd⟩
    cases ha : answerTo settings start events credential scope with
    | hit q => exact absurd ((answerTo_eq_hit_iff hapart).1 ha) (hnone q)
    | unknown => exact absurd ((answerTo_eq_unknown_iff hapart).1 ha).2 hd
    | miss => rfl

/-- Two histories that vouch for the same principals and agree on denouncing have one answer. -/
theorem answerTo_congr {events' : List Event} (hapart : Apart credential events)
    (hapart' : Apart credential events')
    (hv : ∀ p, Vouches settings (log start events) (clock start events) credential scope p ↔
      Vouches settings (log start events') (clock start events') credential scope p)
    (hd : Denounces settings (log start events) (clock start events) credential ↔
      Denounces settings (log start events') (clock start events') credential) :
    answerTo settings start events credential scope =
      answerTo settings start events' credential scope := by
  cases ha : answerTo settings start events' credential scope with
  | hit q =>
    exact (answerTo_eq_hit_iff hapart).2 ((hv q).2 ((answerTo_eq_hit_iff hapart').1 ha))
  | unknown =>
    obtain ⟨hnone, hden⟩ := (answerTo_eq_unknown_iff hapart').1 ha
    exact (answerTo_eq_unknown_iff hapart).2 ⟨fun q hq => hnone q ((hv q).1 hq), hd.2 hden⟩
  | miss =>
    obtain ⟨hnone, hden⟩ := (answerTo_eq_miss_iff hapart').1 ha
    exact (answerTo_eq_miss_iff hapart).2
      ⟨fun q hq => hnone q ((hv q).1 hq), fun h => hden (hd.1 h)⟩

/-! ## Leaving events out -/

/-- An entry that lets the ones before it stand can be left out, unless it is the one looked for. -/
theorem Last.erase_iff {α : Type} {l r : List α} {x y : α} {since : α → Prop} (hx : since x)
    (hne : y ≠ x) : Last (l ++ x :: r) y since ↔ Last (l ++ r) y since := by
  induction r using List.reverseRecOn with
  | nil =>
    rw [List.append_nil, Last.concat_iff]
    exact ⟨fun h => (h.resolve_left hne).2, fun h => .inr ⟨hx, h⟩⟩
  | append_singleton r z ih =>
    rw [← List.cons_append, ← List.append_assoc, ← List.append_assoc, Last.concat_iff,
      Last.concat_iff, ih]

/-- What is last comes after every entry that would not let it stand. -/
theorem Last.mem_of_not {α : Type} {l r : List α} {x y : α} {since : α → Prop}
    (h : Last (l ++ x :: r) y since) (hx : ¬ since x) (hne : y ≠ x) : y ∈ r := by
  induction r using List.reverseRecOn with
  | nil =>
    rcases Last.concat_iff.1 h with hy | ⟨hs, -⟩
    · exact absurd hy hne
    · exact absurd hs hx
  | append_singleton r z ih =>
    rw [← List.cons_append, ← List.append_assoc, Last.concat_iff] at h
    rcases h with rfl | ⟨-, h⟩
    · simp
    · exact List.mem_append_left _ (ih h)

/-- An event that ends nothing for a credential and scope can be left out, and so can a lookup of
theirs if the wall clock is not behind what it showed then. -/
theorem vouches_erase_iff {l r : List (Moment × Event)} {t : Moment} {e : Event}
    (hends : e.endsPrincipal credential scope = false)
    (hlook : e = .lookup credential scope → now.wall.reached t.wall = true) :
    Vouches settings (l ++ (t, e) :: r) now credential scope p ↔
      Vouches settings (l ++ r) now credential scope p := by
  have hne (stored : Moment) : (stored, Event.store credential scope p) ≠ (t, e) := by
    rintro heq
    obtain ⟨-, rfl⟩ := Prod.mk.inj heq
    simp [Event.endsPrincipal] at hends
  have hlive (hend : p.isExpired now.wall = false) (he : e = .lookup credential scope) :
      p.isExpired t.wall = false := by
    refine Bool.eq_false_iff.2 fun hexp => ?_
    have hnow : p.isExpired now.wall = true := Timestamp.reached_trans (hlook he) hexp
    rw [hend] at hnow; cases hnow
  constructor
  · rintro ⟨stored, hlast, hlt, hend⟩
    exact ⟨stored, (Last.erase_iff ⟨hends, hlive hend⟩ (hne stored)).1 hlast, hlt, hend⟩
  · rintro ⟨stored, hlast, hlt, hend⟩
    exact ⟨stored, (Last.erase_iff ⟨hends, hlive hend⟩ (hne stored)).2 hlast, hlt, hend⟩

/-- An event that ends no marker of a credential can be left out. -/
theorem denounces_erase_iff {l r : List (Moment × Event)} {t : Moment} {e : Event}
    (hends : e.endsMarker credential = false) :
    Denounces settings (l ++ (t, e) :: r) now credential ↔
      Denounces settings (l ++ r) now credential := by
  have hne (marked : Moment) : (marked, Event.storeUnknown credential) ≠ (t, e) := by
    rintro heq
    obtain ⟨-, rfl⟩ := Prod.mk.inj heq
    simp [Event.endsMarker] at hends
  have herase (marked : Moment) :
      Last (l ++ (t, e) :: r) (marked, .storeUnknown credential)
          (fun x => x.2.endsMarker credential = false) ↔
        Last (l ++ r) (marked, .storeUnknown credential)
          (fun x => x.2.endsMarker credential = false) :=
    Last.erase_iff hends (hne marked)
  constructor
  · rintro ⟨hpos, marked, hlast, hlt⟩
    exact ⟨hpos, marked, (herase marked).1 hlast, hlt⟩
  · rintro ⟨hpos, marked, hlast, hlt⟩
    exact ⟨hpos, marked, (herase marked).2 hlast, hlt⟩

/-- An operation that ends nothing for a credential and scope can be left out of a history. -/
theorem answerTo_erase {xs ys : List Event} {e : Event} {c : String}
    (hapart : Apart credential (xs ++ e :: ys)) (hc : e.credential? = some c)
    (hends : e.endsPrincipal credential scope = false) (hmark : e.endsMarker credential = false)
    (hlook : e = .lookup credential scope →
      (clock start (xs ++ e :: ys)).wall.reached (clock start xs).wall = true) :
    answerTo settings start (xs ++ ys) credential scope =
      answerTo settings start (xs ++ e :: ys) credential scope := by
  have hclock : clock start (xs ++ e :: ys) = clock start (xs ++ ys) := by
    rw [clock_append, clock_append]
    exact congrArg (clock · ys) (Event.tick_of_credential? hc _)
  have hlog : log start (xs ++ e :: ys) =
      log start xs ++ (clock start xs, e) :: log (clock start xs) ys := by
    rw [log_append, log, Event.tick_of_credential? hc]
  have hapart' : Apart credential (xs ++ ys) := by
    intro e' he'
    rcases List.mem_append.1 he' with hx | hy
    · exact hapart e' (List.mem_append_left _ hx)
    · exact hapart e' (List.mem_append_right _ (List.mem_cons_of_mem _ hy))
  refine (answerTo_congr hapart hapart' (fun q => ?_) ?_).symm
  · rw [hlog, log_append, ← hclock]
    exact vouches_erase_iff hends hlook
  · rw [hlog, log_append, ← hclock]
    exact denounces_erase_iff hmark

/-- After an invalidation nothing is known of a credential until something is stored for it. -/
theorem answerTo_invalidated {xs ys : List Event}
    (hapart : Apart credential (xs ++ .invalidate credential :: ys))
    (hstore : ∀ s p, .store credential s p ∉ ys) (hmark : .storeUnknown credential ∉ ys)
    (scope : String) :
    answerTo settings start (xs ++ .invalidate credential :: ys) credential scope = .miss := by
  have hlog : log start (xs ++ .invalidate credential :: ys) =
      log start xs ++ (clock start xs, .invalidate credential) :: log (clock start xs) ys := by
    rw [log_append]; rfl
  rw [answerTo_eq_miss_iff hapart, hlog]
  constructor
  · rintro q ⟨stored, hlast, -⟩
    have hmem := hlast.mem_of_not (fun hs => by simp [Event.endsPrincipal] at hs)
      (fun heq => by cases (Prod.mk.inj heq).2)
    exact hstore scope q (mem_of_mem_log hmem)
  · rintro ⟨-, marked, hlast, -⟩
    have hmem := hlast.mem_of_not (fun hs => by simp [Event.endsMarker] at hs)
      (fun heq => by cases (Prod.mk.inj heq).2)
    exact hmark (mem_of_mem_log hmem)

/-! ## The refinement -/

/-- **A lookup answers what the history says.** After any history of an empty cache, in which no
other credential shares the digest of the one looked up, it answers with the principal that the log
vouches for; else, if the log denounces the credential, that it is unknown; else nothing. Hence it
does not show that stale entries were removed on the way: a lookup, of this or of any other key,
can be left out of the history, provided the wall clock is not behind what it showed then. An
operation on another credential can be left out too. An invalidation leaves nothing for any scope.
And whatever the scopes are, keys with scopes agree only for one digest and one scope, and none is a
digest. -/
theorem lookup_refines_history (settings : CacheSettings) (start : Moment) (events : List Event)
    (credential scope : String) (hapart : Apart credential events) :
    (∀ p, answerTo settings start events credential scope = .hit p ↔
      Vouches settings (log start events) (clock start events) credential scope p) ∧
    (answerTo settings start events credential scope = .unknown ↔
      (∀ p, ¬ Vouches settings (log start events) (clock start events) credential scope p) ∧
        Denounces settings (log start events) (clock start events) credential) ∧
    (answerTo settings start events credential scope = .miss ↔
      (∀ p, ¬ Vouches settings (log start events) (clock start events) credential scope p) ∧
        ¬ Denounces settings (log start events) (clock start events) credential) ∧
    (∀ xs c s ys, events = xs ++ .lookup c s :: ys →
      (clock start events).wall.reached (clock start xs).wall = true →
      answerTo settings start (xs ++ ys) credential scope =
        answerTo settings start events credential scope) ∧
    (∀ xs e c ys, events = xs ++ e :: ys → e.credential? = some c → c ≠ credential →
      answerTo settings start (xs ++ ys) credential scope =
        answerTo settings start events credential scope) ∧
    (∀ xs ys, events = xs ++ .invalidate credential :: ys →
      (∀ s p, .store credential s p ∉ ys) → .storeUnknown credential ∉ ys →
      ∀ s, answerTo settings start events credential s = .miss) ∧
    (∀ c s, scopedKey (credentialDigest credential) scope ≠ credentialDigest c ∧
      (scopedKey (credentialDigest credential) scope = scopedKey (credentialDigest c) s →
        credentialDigest credential = credentialDigest c ∧ scope = s)) := by
  refine ⟨fun p => answerTo_eq_hit_iff hapart, answerTo_eq_unknown_iff hapart,
    answerTo_eq_miss_iff hapart, ?_, ?_, ?_, ?_⟩
  · rintro xs c s ys rfl hwall
    exact answerTo_erase hapart rfl rfl rfl fun _ => hwall
  · rintro xs e c ys rfl hc hne
    obtain ⟨hends, hmark⟩ := Event.ends_of_credential_ne scope hc hne
    refine answerTo_erase hapart hc hends hmark fun he => absurd ?_ hne
    rw [he] at hc
    exact (Option.some.inj hc).symm
  · rintro xs ys rfl hstore hmark s
    exact answerTo_invalidated hapart hstore hmark s
  · exact fun c s => ⟨scopedKey_ne_credentialDigest credential c scope, scopedKey_inj⟩

/-- A principal stored for the scope `:` of one credential is found there a second later, although
another credential has been denounced and invalidated since. -/
theorem lookup_refines_history_two_credentials :
    Apart "a" [.store "a" ":" { id := "u" }, .storeUnknown "b", .advance (.ofSecs 1),
        .invalidate "b"] ∧
      answerTo {} ⟨0, ⟨0, 0⟩⟩ [.store "a" ":" { id := "u" }, .storeUnknown "b",
        .advance (.ofSecs 1), .invalidate "b"] "a" ":" = .hit { id := "u" } := by
  have hdigest : credentialDigest "b" ≠ credentialDigest "a" := by decide +kernel
  have hapart : Apart "a" [.store "a" ":" { id := "u" }, .storeUnknown "b",
      .advance (.ofSecs 1), .invalidate "b"] := by
    intro e he c hc hd
    simp only [List.mem_cons, List.not_mem_nil, or_false] at he
    rcases he with rfl | rfl | rfl | rfl
    · exact (Option.some.inj hc).symm
    · exact absurd ((Option.some.inj hc) ▸ hd) hdigest
    · cases hc
    · exact absurd ((Option.some.inj hc) ▸ hd) hdigest
  refine ⟨hapart, ((lookup_refines_history {} _ _ "a" ":" hapart).1 _).2 ?_⟩
  refine ⟨⟨0, ⟨0, 0⟩⟩, ⟨[], _, rfl, fun x hx => ?_⟩, by decide, by decide⟩
  simp only [log, List.mem_cons, List.not_mem_nil, or_false] at hx
  rcases hx with rfl | rfl | rfl
  all_goals
    refine ⟨by decide, fun he => ?_⟩
    cases he

end AccessGate.Cache
