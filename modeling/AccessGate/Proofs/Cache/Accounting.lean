import AccessGate.Proofs.Cache.History
import Mathlib.Data.List.Basic
import Mathlib.Data.List.Induction
import Mathlib.Data.List.Nodup
import Mathlib.Data.Set.List

/-!
# The accounts of a cache

What comes into a cache over a history and what goes out of it add up: each lookup is counted by its
answer (`Cache.counted_run`), and each entry that an event makes is still there, or was removed as
stale, dropped with its credential, or discarded with all others (`Cache.held_run`). What is dropped
with a credential are its entries for each scope, and its marker (`Cache.countFor_eq`). The main
statement is `Cache.accounts_balance`.
-/

namespace AccessGate.Cache

variable {c : Cache} {credential scope : String}

/-! ## Sums over a history -/

/-- The sum over a log of what each event amounts to in the cache that it finds. -/
def total (amount : Cache → Event → Nat) (c : Cache) : List (Moment × Event) → Nat
  | [] => 0
  | (now, e) :: rest => amount c e + total amount (c.apply now e) rest

/-! ## Lookups -/

/-- An event is a lookup. -/
def Event.isLookup : Event → Bool
  | .lookup _ _ => true
  | _ => false

/-- The lookups that a cache has counted, whatever they answered. -/
def counted (c : Cache) : Nat := c.counters.hits + c.counters.misses + c.counters.unknownHits

/-- Dropping a stale entry answers nobody. -/
theorem counted_dropStale (scanned : Instant) (wall : Timestamp) (c : Cache) (key : String) :
    (dropStale scanned wall c key).counted = c.counted := by
  unfold dropStale
  cases c.entries.get? key with
  | none => rfl
  | some held => cases hs : held.isStale scanned wall <;> simp [hs, counted]

/-- Nor does a cleanup. -/
theorem counted_cleanup (c : Cache) (stale : List String) (scanned : Instant) (wall : Timestamp) :
    (c.cleanup stale scanned wall).counted = c.counted := by
  unfold cleanup
  induction stale generalizing c with
  | nil => rfl
  | cons key rest ih => rw [List.foldl_cons, ih, counted_dropStale]

/-- An answer is counted once. -/
theorem counted_countAnswer (c : Cache) (a : Answer) :
    (c.countAnswer a).counted = c.counted + 1 := by
  cases a with
  | hit | unknown | miss =>
    simp only [countAnswer, counted]
    omega

/-- An event counts one answer if it is a lookup. -/
theorem counted_apply (c : Cache) (now : Moment) (e : Event) :
    (c.apply now e).counted = c.counted + e.isLookup.toNat := by
  cases e with
  | lookup credential scope => rw [apply, lookup, counted_countAnswer, counted_cleanup]; rfl
  | storeUnknown credential =>
    simp only [apply, storeUnknown]
    cases c.settings.negativeTtl.isZero <;> rfl
  | store | invalidate | clear | advance | setWall => rfl

/-- Every lookup of a run is counted once. -/
theorem counted_run (c : Cache) (start : Moment) (events : List Event) :
    (run c start events).counted = c.counted + events.countP Event.isLookup := by
  induction events generalizing c start with
  | nil => rfl
  | cons e rest ih =>
    have hone : e.isLookup.toNat = if e.isLookup = true then 1 else 0 := by
      cases e.isLookup <;> rfl
    rw [List.countP_cons, ← hone, Nat.add_comm (rest.countP _), ← Nat.add_assoc, ← counted_apply]
    exact ih (c.apply start e) (e.tick start)

/-! ## Entries -/

/-- The entries that an event makes under keys that have none. -/
def created (c : Cache) : Event → Nat
  | .store credential scope _ =>
    (!c.entries.contains (scopedKey (credentialDigest credential) scope)).toNat
  | .storeUnknown credential =>
    (!c.settings.negativeTtl.isZero && !c.entries.contains (credentialDigest credential)).toNat
  | _ => 0

/-- The entries that an event drops with their credential. -/
def dropped (c : Cache) : Event → Nat
  | .invalidate credential => c.countFor credential
  | _ => 0

/-- The entries that an event discards with all others. -/
def discarded (c : Cache) : Event → Nat
  | .clear => c.size
  | _ => 0

/-- The entries of a cache, and those that it has removed as stale. -/
def held (c : Cache) : Nat := c.size + c.counters.expired

/-- A stale entry that is dropped is counted as expired, so that the sum stays. -/
theorem held_dropStale (scanned : Instant) (wall : Timestamp) (c : Cache) (key : String) :
    (dropStale scanned wall c key).held = c.held := by
  unfold dropStale
  cases hget : c.entries.get? key with
  | none => rfl
  | some h =>
    cases hs : h.isStale scanned wall with
    | false => simp [hs]
    | true =>
      have hsize := Table.size_erase hget
      simp only [hs, if_true, held, size]
      omega

/-- Counting an answer leaves what is held and expired alone. -/
theorem held_countAnswer (c : Cache) (a : Answer) : (c.countAnswer a).held = c.held := by
  cases a <;> rfl

/-- A cleanup only moves entries from those held to those expired. -/
theorem held_cleanup (c : Cache) (stale : List String) (scanned : Instant) (wall : Timestamp) :
    (c.cleanup stale scanned wall).held = c.held := by
  unfold cleanup
  induction stale generalizing c with
  | nil => rfl
  | cons key rest ih => rw [List.foldl_cons, ih, held_dropStale]

/-- The entries of a credential are those that dropping it takes away. -/
theorem size_invalidate (c : Cache) (credential : String) :
    (c.invalidate credential).size + c.countFor credential = c.size :=
  (Nat.add_comm ..).trans (List.length_eq_length_filter_add _).symm

/-- An event adds what it makes and takes away what it drops or discards. -/
theorem held_apply (c : Cache) (now : Moment) (e : Event) :
    (c.apply now e).held + (c.dropped e + c.discarded e) = c.held + c.created e := by
  cases e with
  | store credential scope p =>
    have hsize := Table.size_insert c.entries (scopedKey (credentialDigest credential) scope)
      ⟨.known p, c.settings.ttl.after now.instant⟩
    simp only [apply, store, held, size, created, dropped, discarded, hsize]
    cases c.entries.contains (scopedKey (credentialDigest credential) scope) with
    | true => rfl
    | false =>
      simp only [Bool.false_eq_true, if_false, Bool.not_false, Bool.toNat_true]
      omega
  | storeUnknown credential =>
    have hsize := Table.size_insert c.entries (credentialDigest credential)
      ⟨.unknown, c.settings.negativeTtl.after now.instant⟩
    simp only [apply, storeUnknown, held, size, created, dropped, discarded]
    cases c.settings.negativeTtl.isZero with
    | true => rfl
    | false =>
      simp only [Bool.false_eq_true, if_false, hsize, Bool.not_false, Bool.true_and]
      cases c.entries.contains (credentialDigest credential) with
      | true => rfl
      | false =>
        simp only [Bool.false_eq_true, if_false, Bool.not_false, Bool.toNat_true]
        omega
  | lookup credential scope => exact (held_countAnswer _ _).trans (held_cleanup ..)
  | invalidate credential =>
    have hsize := size_invalidate c credential
    simp only [apply, held, created, dropped, discarded]
    have hexpired : (c.invalidate credential).counters = c.counters := rfl
    rw [hexpired]
    omega
  | clear =>
    simp only [apply, clear, held, size, created, dropped, discarded]
    show 0 + _ + _ = _
    omega
  | advance | setWall => rfl

/-- What a run has brought in is what is held, what has expired and what was dropped or discarded.
-/
theorem held_run (c : Cache) (start : Moment) (events : List Event) :
    (run c start events).held +
        (total dropped c (log start events) + total discarded c (log start events)) =
      c.held + total created c (log start events) := by
  induction events generalizing c start with
  | nil => rfl
  | cons e rest ih =>
    have hfirst := held_apply c start e
    have hrest : (run c start (e :: rest)).held + _ = _ := ih (c.apply start e) (e.tick start)
    simp only [log, total]
    omega

/-! ## What is dropped with a credential -/

/-- An entry is a principal's, for a credential and scope. -/
def HoldsPrincipal (c : Cache) (credential scope : String) : Prop :=
  ∃ p expires, c.entries.get? (scopedKey (credentialDigest credential) scope) =
    some ⟨.known p, expires⟩

/-- An entry is a marker, for a credential. -/
def HoldsMarker (c : Cache) (credential : String) : Prop :=
  ∃ expires, c.entries.get? (credentialDigest credential) = some ⟨.unknown, expires⟩

/-- Each entry stands under the key of a credential and scope and is a principal's, or under the
digest of a credential and is a marker. -/
def InPlace (c : Cache) : Prop :=
  ∀ key h, c.entries.get? key = some h →
    (∃ credential scope p, key = scopedKey (credentialDigest credential) scope ∧
      h.verdict = .known p) ∨
    ∃ credential, key = credentialDigest credential ∧ h.verdict = .unknown

/-- A new cache has nothing in the wrong place. -/
theorem inPlace_new (settings : CacheSettings) : ({ settings } : Cache).InPlace := by
  intro key h hget
  cases hget

/-- Taking entries away leaves the others in their place. -/
theorem InPlace.mono {c' : Cache} (h : c.InPlace)
    (hkept : ∀ key, c'.entries.get? key = c.entries.get? key ∨ c'.entries.get? key = none) :
    c'.InPlace := by
  intro key held hget
  rcases hkept key with hsame | hnone
  · exact h key held (hsame ▸ hget)
  · rw [hnone] at hget
    cases hget

/-- Every event puts its entries in place. -/
theorem InPlace.apply (h : c.InPlace) (now : Moment) (e : Event) : (c.apply now e).InPlace := by
  cases e with
  | store credential scope p =>
    intro key held hget
    rw [Cache.apply, get?_store] at hget
    split at hget
    · next hkey =>
      obtain rfl := Option.some.inj hget
      exact .inl ⟨credential, scope, p, hkey, rfl⟩
    · exact h key held hget
  | storeUnknown credential =>
    intro key held hget
    rw [Cache.apply, get?_storeUnknown] at hget
    split at hget
    · next hkey =>
      obtain rfl := Option.some.inj hget
      exact .inr ⟨credential, hkey.2, rfl⟩
    · exact h key held hget
  | lookup credential scope =>
    refine h.mono fun key => ?_
    rcases get?_lookup_eq_or c credential scope now key with hsame | ⟨hnone, -⟩
    · exact .inl hsame
    · exact .inr hnone
  | invalidate credential =>
    refine h.mono fun key => ?_
    rw [Cache.apply, get?_invalidate]
    split
    · exact .inr rfl
    · exact .inl rfl
  | clear => exact h.mono fun key => .inr rfl
  | advance | setWall => exact h

/-- Entries stay in place in a run. -/
theorem InPlace.run (h : c.InPlace) (start : Moment) (events : List Event) :
    (run c start events).InPlace := by
  unfold Cache.run
  induction log start events generalizing c with
  | nil => exact h
  | cons x rest ih => exact ih (h.apply x.1 x.2)

/-- What stands under the key of a credential and scope is a principal's entry. -/
theorem InPlace.holdsPrincipal_iff (h : c.InPlace) : c.HoldsPrincipal credential scope ↔
    scopedKey (credentialDigest credential) scope ∈ c.entries.keys := by
  rw [Table.mem_keys_iff, Option.isSome_iff_exists]
  refine ⟨fun ⟨p, expires, hget⟩ => ⟨_, hget⟩, fun ⟨⟨verdict, expires⟩, hget⟩ => ?_⟩
  rcases h _ _ hget with ⟨-, -, p, -, rfl⟩ | ⟨other, hkey, -⟩
  · exact ⟨p, expires, hget⟩
  · exact absurd hkey (scopedKey_ne_credentialDigest _ _ _)

/-- What stands under a digest is a marker. -/
theorem InPlace.holdsMarker_iff (h : c.InPlace) :
    c.HoldsMarker credential ↔ credentialDigest credential ∈ c.entries.keys := by
  rw [Table.mem_keys_iff, Option.isSome_iff_exists]
  refine ⟨fun ⟨expires, hget⟩ => ⟨_, hget⟩, fun ⟨⟨verdict, expires⟩, hget⟩ => ?_⟩
  rcases h _ _ hget with ⟨other, scope, -, hkey, -⟩ | ⟨-, -, rfl⟩
  · exact absurd hkey.symm (scopedKey_ne_credentialDigest _ _ _)
  · exact ⟨expires, hget⟩

/-- Keys of one credential with a scope each are those of as many scopes. -/
theorem exists_scopes {keys : List String} (hnodup : keys.Nodup)
    (hscoped : ∀ key ∈ keys, ∃ scope, scopedKey (credentialDigest credential) scope = key) :
    ∃ scopes : List String, scopes.Nodup ∧
      (∀ scope, scope ∈ scopes ↔ scopedKey (credentialDigest credential) scope ∈ keys) ∧
      scopes.length = keys.length := by
  have hinj : Function.Injective (scopedKey (credentialDigest credential)) :=
    fun _ _ h => (scopedKey_inj h).2
  obtain ⟨scopes, rfl⟩ := (Set.range_list_map _).ge hscoped
  refine ⟨scopes, List.Nodup.of_map _ hnodup, fun scope => ?_, (List.length_map _).symm⟩
  exact (List.mem_map_of_injective hinj).symm

/-- The keys of a credential are those with its digest and a scope, and the digest itself if it is
one of them. -/
theorem countFor_eq (c : Cache) (credential : String) :
    ∃ scopes : List String, scopes.Nodup ∧
      (∀ scope, scope ∈ scopes ↔
        scopedKey (credentialDigest credential) scope ∈ c.entries.keys) ∧
      c.countFor credential =
        scopes.length + if credentialDigest credential ∈ c.entries.keys then 1 else 0 := by
  set digest := credentialDigest credential
  set keys := c.entries.keys.filter (isKeyOf digest) with hkeys
  have hnodup : keys.Nodup := c.entries.nodup_keys.filter _
  have hscoped : ∀ key ∈ keys.erase digest, ∃ scope, scopedKey digest scope = key := by
    intro key hkey
    obtain ⟨hne, hkey⟩ := hnodup.mem_erase_iff.1 hkey
    rcases isKeyOf_iff.1 (List.mem_filter.1 hkey).2 with rfl | ⟨scope, rfl⟩
    · exact absurd rfl hne
    · exact ⟨scope, rfl⟩
  obtain ⟨scopes, hdistinct, hscopes, hlength⟩ := exists_scopes (hnodup.erase digest) hscoped
  refine ⟨scopes, hdistinct, fun scope => ?_, ?_⟩
  · rw [hscopes, hnodup.mem_erase_iff, hkeys, List.mem_filter]
    exact ⟨fun h => h.2.1, fun h =>
      ⟨scopedKey_ne_credentialDigest _ _ _, h, isKeyOf_iff.2 (.inr ⟨scope, rfl⟩)⟩⟩
  · have hcount : c.countFor credential = keys.length := by
      rw [hkeys, ← Table.keys_filterKeys]
      exact (List.length_map _).symm
    have hmem : digest ∈ keys ↔ digest ∈ c.entries.keys :=
      List.mem_filter.trans (and_iff_left (isKeyOf_iff.2 (.inl rfl)))
    simp only [hlength, hcount, List.length_erase, ← hmem]
    split
    · next h => exact (Nat.sub_add_cancel (List.length_pos_of_mem h)).symm
    · rfl

/-! ## The balance -/

/-- **The accounts of a cache balance.** After every history of a new cache, each lookup made has
been counted by its answer. The entries, those removed as stale, those dropped with their
credentials and those discarded in clearing are together as many as the history made under keys that
had none. The number told when a credential is dropped is that of the entries it takes away: one for
each scope with a principal, stale or not, and one for a marker. None of them is left, and every
entry of a credential with another digest is. -/
theorem accounts_balance (settings : CacheSettings) (start : Moment) (events : List Event) :
    let cache := run { settings } start events
    let all (amount : Cache → Event → Nat) := total amount { settings } (log start events)
    cache.counters.hits + cache.counters.misses + cache.counters.unknownHits =
      events.countP Event.isLookup ∧
    cache.size + cache.counters.expired + all dropped + all discarded = all created ∧
    ∀ credential,
      (cache.invalidate credential).size + cache.countFor credential = cache.size ∧
      (∃ scopes : List String, scopes.Nodup ∧
        (∀ scope, scope ∈ scopes ↔ cache.HoldsPrincipal credential scope) ∧
        (cache.HoldsMarker credential ∧ cache.countFor credential = scopes.length + 1 ∨
          ¬ cache.HoldsMarker credential ∧ cache.countFor credential = scopes.length)) ∧
      ¬ (cache.invalidate credential).HoldsMarker credential ∧
      (∀ scope, ¬ (cache.invalidate credential).HoldsPrincipal credential scope) ∧
      ∀ other, credentialDigest other ≠ credentialDigest credential →
        (cache.invalidate credential).entries.get? (credentialDigest other) =
          cache.entries.get? (credentialDigest other) ∧
        ∀ scope, (cache.invalidate credential).entries.get?
            (scopedKey (credentialDigest other) scope) =
          cache.entries.get? (scopedKey (credentialDigest other) scope) := by
  intro cache all
  have hplace : cache.InPlace := (inPlace_new settings).run start events
  refine ⟨?_, ?_, fun credential => ⟨size_invalidate .., ?_, ?_, ?_, fun other hother => ⟨?_, ?_⟩⟩⟩
  · exact (counted_run { settings } start events).trans (Nat.zero_add _)
  · have hheld := held_run { settings } start events
    have hnone : ({ settings } : Cache).held = 0 := rfl
    rw [hnone, Nat.zero_add] at hheld
    exact (Nat.add_assoc ..).trans hheld
  · obtain ⟨scopes, hnodup, hscopes, hcount⟩ := countFor_eq cache credential
    refine ⟨scopes, hnodup, fun scope => (hscopes scope).trans hplace.holdsPrincipal_iff.symm, ?_⟩
    rw [hplace.holdsMarker_iff, hcount]
    by_cases h : credentialDigest credential ∈ cache.entries.keys <;> simp [h]
  · rintro ⟨expires, hget⟩
    rw [get?_invalidate, if_pos ((isKeyOf_credentialDigest ..).2 rfl)] at hget
    cases hget
  · rintro scope ⟨p, expires, hget⟩
    rw [get?_invalidate, if_pos ((isKeyOf_scopedKey ..).2 rfl)] at hget
    cases hget
  · rw [get?_invalidate, if_neg fun h => hother ((isKeyOf_credentialDigest ..).1 h).symm]
  · intro scope
    rw [get?_invalidate, if_neg fun h => hother ((isKeyOf_scopedKey ..).1 h).symm]

/-- Dropping a credential that has principals for two scopes and a marker takes three entries away,
and leaves the principal of another credential. -/
theorem accounts_balance_two_credentials :
    let cache := run {} ⟨0, ⟨0, 0⟩⟩ [.store "a" "" { id := "u" }, .store "a" "main" { id := "u" },
      .storeUnknown "a", .store "b" "main" { id := "v" }]
    credentialDigest "b" ≠ credentialDigest "a" ∧ cache.countFor "a" = 3 ∧
      (cache.invalidate "a").HoldsPrincipal "b" "main" := by
  intro cache
  have hdigest : credentialDigest "b" ≠ credentialDigest "a" := by decide +kernel
  have hheld : cache.entries.get? (scopedKey (credentialDigest "b") "main") =
      some ⟨.known { id := "v" }, Duration.after (.ofSecs 300) 0⟩ := by decide +kernel
  obtain ⟨-, -, hdrop⟩ := accounts_balance {} ⟨0, ⟨0, 0⟩⟩ [.store "a" "" { id := "u" },
    .store "a" "main" { id := "u" }, .storeUnknown "a", .store "b" "main" { id := "v" }]
  obtain ⟨-, -, -, -, hothers⟩ := hdrop "a"
  exact ⟨hdigest, by decide +kernel, { id := "v" }, _, ((hothers "b" hdigest).2 "main").trans hheld⟩

end AccessGate.Cache
