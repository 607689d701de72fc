import AccessGate.Cache.Interleaving
import AccessGate.Proofs.Cache.Accounting
import AccessGate.Proofs.Config.Settings

/-!
# A lookup spares what is alive

Between the scan of a lookup and its cleanup anything can happen to the entries: those that the scan
found stale may be gone, or fresh ones may stand in their place. The cleanup looks again, with the
instant that the lookup noted at first. This instant is not later than the present, so what the
cleanup removes is stale now (`Traffic.instant_le`), and not later than the scan, so what was stored
since then is within its life. The main statement is `Traffic.lookup_spares_the_living`.
-/

namespace AccessGate

/-- Settings that are accepted keep principals for some time. -/
theorem Config.ttl_pos_of_validate {config : Config} (h : config.validate = .ok ()) :
    0 < config.cacheSettings.ttl.nanos := by
  obtain ⟨-, -, -, hcache, -⟩ := validate_eq_ok_iff.1 h
  exact Duration.nanos_pos hcache

namespace Cache

variable {c : Cache} {stale : List String} {scanned : Instant} {wall : Timestamp} {key : String}

/-! ## What a cleanup removes -/

/-- The keys among those given under which there is a stale entry. -/
def removed (c : Cache) (stale : List String) (scanned : Instant) (wall : Timestamp) :
    List String :=
  stale.filter fun key => (c.entries.get? key).any fun h => h.isStale scanned wall

/-- A cleanup removes the keys it was told of whose entries are stale. -/
theorem mem_removed_iff : key ∈ c.removed stale scanned wall ↔
    key ∈ stale ∧ ∃ h, c.entries.get? key = some h ∧ h.isStale scanned wall = true := by
  rw [removed, List.mem_filter, Option.any_eq_true]

/-- A cleanup takes away the removed entries, and leaves the others. -/
theorem get?_cleanup_removed (c : Cache) (stale : List String) (scanned : Instant)
    (wall : Timestamp) (key : String) :
    (c.cleanup stale scanned wall).entries.get? key =
      if key ∈ c.removed stale scanned wall then none else c.entries.get? key := by
  rw [get?_cleanup]
  by_cases hmem : key ∈ stale
  · rw [if_pos hmem]
    cases hget : c.entries.get? key with
    | none => simp
    | some h => cases hs : h.isStale scanned wall <;> simp [mem_removed_iff, hmem, hget, hs]
  · rw [if_neg hmem, if_neg fun h => hmem (mem_removed_iff.1 h).1]

/-- A cleanup leaves an entry that is not stale. -/
theorem get?_cleanup_of_fresh {h : Held} (hget : c.entries.get? key = some h)
    (hfresh : h.isStale scanned wall = false) (stale : List String) :
    (c.cleanup stale scanned wall).entries.get? key = c.entries.get? key := by
  refine (get?_cleanup_removed ..).trans (if_neg fun hmem => ?_)
  obtain ⟨-, h', hget', hstale⟩ := mem_removed_iff.1 hmem
  obtain rfl := Option.some.inj (hget.symm.trans hget')
  rw [hfresh] at hstale
  cases hstale

/-- A cleanup counts the entries that it removes. -/
theorem expired_cleanup (hnodup : stale.Nodup) (c : Cache) (scanned : Instant) (wall : Timestamp) :
    (c.cleanup stale scanned wall).counters.expired =
      c.counters.expired + (c.removed stale scanned wall).length := by
  induction stale generalizing c with
  | nil => rfl
  | cons key rest ih =>
    obtain ⟨hkey, hrest⟩ := List.nodup_cons.1 hnodup
    have hothers : (dropStale scanned wall c key).removed rest scanned wall =
        c.removed rest scanned wall :=
      List.filter_congr fun k hk => by
        rw [get?_dropStale, if_neg fun (h : k = key) => hkey (h ▸ hk)]
    have hcons : c.removed (key :: rest) scanned wall =
        if (c.entries.get? key).any (fun h => h.isStale scanned wall) = true then
          key :: c.removed rest scanned wall
        else c.removed rest scanned wall := List.filter_cons
    refine (ih hrest (dropStale scanned wall c key)).trans ?_
    rw [hothers, hcons, dropStale]
    cases c.entries.get? key with
    | none => rfl
    | some h =>
      cases hs : h.isStale scanned wall with
      | false => simp [hs]
      | true =>
        simp only [hs, Option.any_some, if_true, List.length_cons]
        omega

/-- The keys that a scan finds stale are those of its credential and scope, each at most once. -/
theorem stale_scan_sublist (c : Cache) (digest scope : String) (now : Moment) :
    (c.scan digest scope now).stale.Sublist [scopedKey digest scope, digest] := by
  have hkeys : ∀ keys, (c.scanKeys now keys).stale.Sublist keys := by
    intro keys
    induction keys with
    | nil => exact List.nil_sublist _
    | cons key rest ih =>
      unfold scanKeys
      cases c.entries.get? key with
      | none => exact ih.cons key
      | some h =>
        cases hs : h.isStale now.instant now.wall with
        | false => simp [hs]
        | true => simpa [hs] using ih
  exact hkeys _

/-- Counting an answer leaves the number of expired entries alone. -/
theorem expired_countAnswer (c : Cache) (a : Answer) :
    (c.countAnswer a).counters.expired = c.counters.expired := by
  cases a <;> rfl

/-- What is stale by an instant that is not past is past its life now, or its principal past its
end. -/
theorem expires_or_isExpired {h : Held} {now : Instant} (hs : h.isStale scanned wall = true)
    (hnow : scanned ≤ now) :
    h.expires ≤ now ∨ ∃ p, h.verdict = .known p ∧ p.isExpired wall = true := by
  obtain ⟨verdict, expires⟩ := h
  cases verdict with
  | unknown => exact .inl (((Held.isStale_unknown rfl).1 hs).trans hnow)
  | known p =>
    rcases Bool.or_eq_true_iff.1 hs with hlife | hend
    · exact .inl ((of_decide_eq_true hlife).trans hnow)
    · exact .inr ⟨p, rfl, hend⟩

/-- A scan tells of no key twice. -/
theorem nodup_stale_scan (c : Cache) (credential scope : String) (now : Moment) :
    (c.scan (credentialDigest credential) scope now).stale.Nodup := by
  refine (stale_scan_sublist ..).nodup ?_
  simpa using scopedKey_ne_credentialDigest credential credential scope

namespace Traffic

variable {t : Traffic} {past between : List (Moment × Event)} {now : Moment} {i : Nat} {l : Lookup}

/-! ## Lookups under way -/

theorem run_concat (t : Traffic) (past : List (Moment × Event)) (now : Moment) (e : Event) :
    t.run (past ++ [(now, e)]) = (t.run past).apply now e := run_append ..

/-- A step of a lookup. -/
theorem apply_step (hget : t.lookups[i]? = some l) (now : Moment) :
    t.apply now (.step i) =
      { cache := (l.step now t.cache).2, lookups := t.lookups.set i (l.step now t.cache).1 } := by
  rw [apply, hget]

/-- A step moves its lookup on. -/
theorem getElem?_apply_step (hget : t.lookups[i]? = some l) (now : Moment) :
    (t.apply now (.step i)).lookups[i]? = some (l.step now t.cache).1 := by
  rw [apply_step hget, List.getElem?_set_self (List.getElem?_eq_some_iff.1 hget).1]

/-- Only its own steps change a lookup. -/
theorem getElem?_apply_of_ne {e : Event} (hget : t.lookups[i]? = some l) (now : Moment)
    (hne : e ≠ .step i) : (t.apply now e).lookups[i]? = some l := by
  cases e with
  | lookup credential scope =>
    exact (List.getElem?_append_left (List.getElem?_eq_some_iff.1 hget).1).trans hget
  | step k =>
    have hki : k ≠ i := fun h => hne (congrArg _ h)
    cases hk : t.lookups[k]? with
    | none => rw [apply, hk]; exact hget
    | some other => rw [apply_step hk, List.getElem?_set_ne hki, hget]
  | store | storeUnknown | invalidate | clear => exact hget

/-- A lookup stays where it is while it has no step. -/
theorem getElem?_run_of_ne (hget : t.lookups[i]? = some l) (hne : ∀ e ∈ between, e.2 ≠ .step i) :
    (t.run between).lookups[i]? = some l := by
  induction between generalizing t with
  | nil => exact hget
  | cons e rest ih =>
    obtain ⟨hfirst, hrest⟩ := List.forall_mem_cons.1 hne
    exact ih (getElem?_apply_of_ne hget e.1 hfirst) hrest

/-- A step of a lookup leaves the instant that it noted. -/
theorem instant_step (l : Lookup) (now : Moment) (c : Cache) :
    (l.step now c).1.instant = l.instant := by
  unfold Lookup.step
  cases l.progress <;> rfl

/-- No lookup has noted an instant later than all events. -/
theorem instant_le {bound : Instant} (hpast : ∀ e ∈ past, e.1.instant ≤ bound)
    (hget : (run { cache := c } past).lookups[i]? = some l) : l.instant ≤ bound := by
  have hall : ∀ l ∈ (run { cache := c } past).lookups, l.instant ≤ bound := by
    clear hget
    induction past using List.reverseRecOn with
    | nil => exact fun _ h => nomatch h
    | append_singleton past e ih =>
      obtain ⟨now, e⟩ := e
      obtain ⟨hpast, hlast⟩ := List.forall_mem_append.1 hpast
      have ih := ih hpast
      rw [run_concat]
      cases e with
      | lookup credential scope =>
        intro l hl
        rcases List.mem_append.1 hl with hl | hl
        · exact ih l hl
        · obtain rfl := List.mem_singleton.1 hl
          exact hlast _ List.mem_cons_self
      | step k =>
        cases hk : (run { cache := c } past).lookups[k]? with
        | none => rw [apply, hk]; exact ih
        | some other =>
          rw [apply_step hk]
          intro l hl
          rcases List.mem_or_eq_of_mem_set hl with hl | rfl
          · exact ih l hl
          · rw [instant_step]
            exact ih other (List.mem_of_getElem? hk)
      | store | storeUnknown | invalidate | clear => exact ih
  exact hall l (List.mem_of_getElem? hget)

/-! ## The cleanup of a lookup -/

/-- No event happens at an earlier instant than one before it. -/
def Ordered (events : List (Moment × Event)) : Prop :=
  events.Pairwise fun e e' => e.1.instant ≤ e'.1.instant

/-- **A lookup throws away nothing that is alive.** Let a lookup of a run scan the entries, and
later remove what it found stale, at instants that never go back and whatever comes between. Then it
answers what the scan found. What it removes are entries under the keys of its credential and scope,
each past its life or with a principal past its end at this point; all others stay, and the count of
expired entries grows by the number of those removed. What was stored since the scan stays if its
principal is not past its end, and so does what was marked. For principals this takes a lifetime of
some length, as the settings of every gate have it. -/
theorem lookup_spares_the_living {c : Cache} {past between : List (Moment × Event)}
    {scanned now : Moment} {i : Nat} {credential scope : String} {instant : Instant}
    (hordered : Ordered (past ++ [(scanned, .step i)] ++ between ++ [(now, .step i)]))
    (hbegun : (run { cache := c } past).lookups[i]? =
      some { credential, scope, instant, progress := .begun })
    (hbetween : ∀ e ∈ between, e.2 ≠ .step i) :
    let found := (run { cache := c } past).cache.scan (credentialDigest credential) scope
      ⟨instant, scanned.wall⟩
    let before := run { cache := c } (past ++ [(scanned, .step i)] ++ between)
    let after := before.apply now (.step i)
    after.lookups[i]? =
      some { credential, scope, instant, progress := .answered found.answer } ∧
    (∃ gone : List String, gone.Nodup ∧
      (∀ key ∈ gone,
        (key = scopedKey (credentialDigest credential) scope ∨ key = credentialDigest credential) ∧
        ∃ h, before.cache.entries.get? key = some h ∧
          (h.expires ≤ now.instant ∨ ∃ p, h.verdict = .known p ∧ p.isExpired now.wall = true)) ∧
      (∀ key, after.cache.entries.get? key =
        if key ∈ gone then none else before.cache.entries.get? key) ∧
      after.cache.counters.expired = before.cache.counters.expired + gone.length) ∧
    (∀ stored credential scope p, (stored, .store credential scope p) ∈ between →
      0 < c.settings.ttl.nanos → p.isExpired now.wall = false →
      let key := scopedKey (credentialDigest credential) scope
      before.cache.entries.get? key = some ⟨.known p, c.settings.ttl.after stored.instant⟩ →
      after.cache.entries.get? key = before.cache.entries.get? key) ∧
    (∀ stored credential, (stored, .storeUnknown credential) ∈ between →
      c.settings.negativeTtl.isZero = false →
      let key := credentialDigest credential
      before.cache.entries.get? key =
        some ⟨.unknown, c.settings.negativeTtl.after stored.instant⟩ →
      after.cache.entries.get? key = before.cache.entries.get? key) ∧
    ∀ config : Config, config.validate = .ok () → 0 < config.cacheSettings.ttl.nanos := by
  intro found before after
  have hscanned : ((run { cache := c } past).apply scanned (.step i)).lookups[i]? =
      some { credential, scope, instant, progress := .scanned found } :=
    getElem?_apply_step hbegun scanned
  have hbefore : before.lookups[i]? =
      some { credential, scope, instant, progress := .scanned found } := by
    simp only [before, run_append]
    exact getElem?_run_of_ne hscanned hbetween
  have hafter : after.cache =
      (before.cache.cleanup found.stale instant now.wall).countAnswer found.answer :=
    congrArg Traffic.cache (apply_step hbefore now)
  -- The instant noted is not later than the cleanup, nor than anything since the scan.
  obtain ⟨hordered, -, hlast⟩ := List.pairwise_append.1 hordered
  obtain ⟨hordered, -, hsince⟩ := List.pairwise_append.1 hordered
  obtain ⟨-, -, hpast⟩ := List.pairwise_append.1 hordered
  have hscan : instant ≤ scanned.instant :=
    instant_le (fun e he => hpast e he _ List.mem_cons_self) hbegun
  have hnow : scanned.instant ≤ now.instant :=
    hlast (scanned, .step i) (by simp) _ List.mem_cons_self
  have hstored : ∀ e ∈ between, instant ≤ e.1.instant := fun e he =>
    hscan.trans (hsince (scanned, .step i) (by simp) e he)
  refine ⟨getElem?_apply_step hbefore now, ?_, ?_, ?_, fun config => Config.ttl_pos_of_validate⟩
  · refine ⟨before.cache.removed found.stale instant now.wall, ?_, fun key hkey => ?_,
      fun key => ?_, ?_⟩
    · exact (nodup_stale_scan ..).filter _
    · obtain ⟨hmem, h, hget, hstale⟩ := mem_removed_iff.1 hkey
      have hkeys : key ∈ [scopedKey (credentialDigest credential) scope, _] :=
        (stale_scan_sublist ..).mem hmem
      exact ⟨by simpa using hkeys, h, hget, expires_or_isExpired hstale (hscan.trans hnow)⟩
    · rw [hafter]
      exact get?_cleanup_removed ..
    · rw [hafter, expired_countAnswer, expired_cleanup (nodup_stale_scan ..)]
  · intro stored credential scope p hmem httl hend key hget
    have hlife : instant < c.settings.ttl.after stored.instant :=
      Nat.lt_of_le_of_lt (hstored _ hmem) (Nat.lt_add_of_pos_right httl)
    rw [hafter]
    exact get?_cleanup_of_fresh hget ((Held.isStale_known_eq_false rfl).2 ⟨hlife, hend⟩) _
  · intro stored credential hmem hkept key hget
    have hlife : instant < c.settings.negativeTtl.after stored.instant :=
      Nat.lt_of_le_of_lt (hstored _ hmem) (Nat.lt_add_of_pos_right (Duration.nanos_pos hkept))
    rw [hafter]
    refine get?_cleanup_of_fresh hget (Bool.eq_false_iff.2 fun hstale => ?_) _
    exact Nat.not_le_of_lt hlife ((Held.isStale_unknown rfl).1 hstale)

/-- A lookup finds a principal past its life, and it is stored anew before the cleanup. The lookup
misses it, and leaves it. -/
theorem lookup_spares_the_living_stored_anew :
    let p : Principal := { id := "u" }
    let c : Cache := { settings := { ttl := ⟨10⟩ } }
    let past : List (Moment × Event) :=
      [(⟨0, ⟨0, 0⟩⟩, .store "a" "main" p), (⟨10, ⟨0, 0⟩⟩, .lookup "a" "main")]
    let scans : Moment × Event := (⟨10, ⟨0, 0⟩⟩, .step 0)
    let between : List (Moment × Event) := [(⟨11, ⟨0, 0⟩⟩, .store "a" "main" p)]
    let before := run { cache := c } (past ++ [scans] ++ between)
    let after := before.apply ⟨12, ⟨0, 0⟩⟩ (.step 0)
    Ordered (past ++ [scans] ++ between ++ [(⟨12, ⟨0, 0⟩⟩, .step 0)]) ∧
      (run { cache := c } past).lookups[0]? =
        some { credential := "a", scope := "main", instant := 10 } ∧
      (∀ e ∈ between, e.2 ≠ .step 0) ∧
      after.lookups[0]? =
        some { credential := "a", scope := "main", instant := 10, progress := .answered .miss } ∧
      after.cache.entries.get? (scopedKey (credentialDigest "a") "main") =
        some ⟨.known p, 21⟩ := by
  intro p c past scans between before after
  have hordered : Ordered (past ++ [scans] ++ between ++ [(⟨12, ⟨0, 0⟩⟩, .step 0)]) := by
    unfold Ordered
    decide
  have hbegun : (run { cache := c } past).lookups[0]? =
      some { credential := "a", scope := "main", instant := 10 } := rfl
  have hbetween : ∀ e ∈ between, e.2 ≠ .step 0 := by decide
  have hstored : before.cache.entries.get? (scopedKey (credentialDigest "a") "main") =
      some ⟨.known p, 21⟩ := by decide +kernel
  have hmissed : ((run { cache := c } past).cache.scan (credentialDigest "a") "main"
      ⟨10, ⟨0, 0⟩⟩).answer = .miss := by decide +kernel
  obtain ⟨hanswer, -, hstays, -⟩ := lookup_spares_the_living hordered hbegun hbetween
  rw [hmissed] at hanswer
  have hkept := hstays ⟨11, ⟨0, 0⟩⟩ "a" "main" p List.mem_cons_self (by decide) (by decide) hstored
  exact ⟨hordered, hbegun, hbetween, hanswer, hkept.trans hstored⟩

end Traffic

end Cache

end AccessGate
