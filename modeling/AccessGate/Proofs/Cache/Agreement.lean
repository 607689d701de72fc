import AccessGate.Proofs.Cache.History
import Mathlib.Data.List.Induction

/-!
# What the entries of a cache have to do with its log

For one credential of a history, whose digest is that of no other, the entry under the credential's
key for a scope is exactly what the log keeps (`Cache.get?_run_scopedKey`): a lookup takes it away
when it is stale, and the log has that lookup. The marker may be taken away by a lookup for any
scope, or be left although it is past its life, so here entry and log only agree on markers within
their life (`Cache.markerAgrees_run`). Either way the entries that are not stale are those that the
log speaks for (`Cache.fresh?_run_scopedKey`, `Cache.fresh?_run_marker`).
-/

namespace AccessGate.Cache

variable {settings : CacheSettings} {start now : Moment} {events : List Event}
  {log : List (Moment × Event)} {credential scope : String} {p : Principal}

/-! ## The last entry of a log -/

/-- Where an element stands in a list with one more at the end. -/
theorem concat_eq_append_cons_iff {α : Type} {xs ys zs : List α} {a b : α} :
    xs ++ [a] = ys ++ b :: zs ↔
      (zs = [] ∧ ys = xs ∧ b = a) ∨ ∃ zs', zs = zs' ++ [a] ∧ xs = ys ++ b :: zs' := by
  constructor
  · intro h
    rcases List.eq_nil_or_concat zs with rfl | ⟨zs', z, rfl⟩
    · obtain ⟨hxs, ha⟩ := List.append_inj' h rfl
      exact .inl ⟨rfl, hxs.symm, (List.singleton_inj.1 ha).symm⟩
    · have h' : xs ++ [a] = (ys ++ b :: zs') ++ [z] := by simpa using h
      obtain ⟨hxs, ha⟩ := List.append_inj' h' rfl
      exact .inr ⟨zs', by rw [List.singleton_inj.1 ha, List.concat_eq_append], hxs⟩
  · rintro (⟨rfl, rfl, rfl⟩ | ⟨zs', rfl, rfl⟩)
    · rfl
    · simp

/-- The last entry of a log with one more: the new one, or an old one that it lets stand. -/
theorem Last.concat_iff {α : Type} {l : List α} {x y : α} {since : α → Prop} :
    Last (l ++ [x]) y since ↔ y = x ∨ (since x ∧ Last l y since) := by
  constructor
  · rintro ⟨before, after, heq, hsince⟩
    rcases concat_eq_append_cons_iff.1 heq with ⟨-, -, hy⟩ | ⟨after', rfl, hl⟩
    · exact .inl hy
    · exact .inr ⟨hsince x (by simp), before, after', hl, fun z hz => hsince z (by simp [hz])⟩
  · rintro (rfl | ⟨hx, before, after, rfl, hsince⟩)
    · exact ⟨l, [], rfl, by simp⟩
    · refine ⟨before, after ++ [x], by simp, fun z hz => ?_⟩
      rcases List.mem_append.1 hz with hz | hz
      · exact hsince z hz
      · rw [List.mem_singleton.1 hz]; exact hx

/-- What is the last since something is the last since less. -/
theorem Last.mono {α : Type} {l : List α} {y : α} {since since' : α → Prop}
    (h : Last l y since) (himp : ∀ x ∈ l, since x → since' x) : Last l y since' := by
  obtain ⟨before, after, rfl, hsince⟩ := h
  exact ⟨before, after, rfl, fun x hx => himp x (by simp [hx]) (hsince x hx)⟩

/-- Nothing is the last of no events. -/
theorem not_last_nil {α : Type} {y : α} {since : α → Prop} : ¬ Last [] y since := by
  rintro ⟨before, after, heq, -⟩
  exact absurd heq (by simp)

/-! ## Credentials with digests of their own -/

/-- Digests that do not collide in a longer history do not in a shorter one. -/
theorem Apart.of_concat {e : Event} (h : Apart credential (events ++ [e])) :
    Apart credential events :=
  fun e' he' => h e' (List.mem_append_left _ he')

/-- The digests of two credentials of a history differ when the credentials do. -/
theorem Apart.digest_ne {e : Event} {c : String} (h : Apart credential events) (he : e ∈ events)
    (hc : e.credential? = some c) (hne : c ≠ credential) :
    credentialDigest c ≠ credentialDigest credential :=
  fun hd => hne (h e he c hc hd)

/-! ## The principal's entry -/

/-- The entry that the log says is kept for a credential and scope: that of what was stored last,
unless a lookup since then came upon it stale. -/
def Keeps (settings : CacheSettings) (log : List (Moment × Event)) (credential scope : String)
    (h : Held) : Prop :=
  ∃ (stored : Moment) (p : Principal),
    Last log (stored, .store credential scope p) (fun x =>
      x.2.endsPrincipal credential scope = false ∧
        (x.2 = .lookup credential scope → h.isStale x.1.instant x.1.wall = false)) ∧
    h = ⟨.known p, settings.ttl.after stored.instant⟩

/-- One more event keeps a principal if it stores it, or does not end the one that was kept. -/
theorem keeps_concat_iff {e : Event} {h : Held} :
    Keeps settings (log ++ [(now, e)]) credential scope h ↔
      (∃ p, e = .store credential scope p ∧ h = ⟨.known p, settings.ttl.after now.instant⟩) ∨
        (e.endsPrincipal credential scope = false ∧
          (e = .lookup credential scope → h.isStale now.instant now.wall = false) ∧
          Keeps settings log credential scope h) := by
  constructor
  · rintro ⟨stored, q, hlast, rfl⟩
    rcases Last.concat_iff.1 hlast with heq | ⟨⟨hends, hlook⟩, hlast⟩
    · obtain ⟨rfl, rfl⟩ := Prod.mk.inj heq
      exact .inl ⟨q, rfl, rfl⟩
    · exact .inr ⟨hends, hlook, stored, q, hlast, rfl⟩
  · rintro (⟨q, rfl, rfl⟩ | ⟨hends, hlook, stored, q, hlast, rfl⟩)
    · exact ⟨now, q, Last.concat_iff.2 (.inl rfl), rfl⟩
    · exact ⟨stored, q, Last.concat_iff.2 (.inr ⟨⟨hends, hlook⟩, hlast⟩), rfl⟩

/-- An event that neither stores anything nor looks anything up for a credential and scope, and ends
nothing, keeps what there is. -/
theorem keeps_concat_other {e : Event} {h : Held}
    (hends : e.endsPrincipal credential scope = false) (hlook : e ≠ .lookup credential scope) :
    Keeps settings (log ++ [(now, e)]) credential scope h ↔
      Keeps settings log credential scope h := by
  rw [keeps_concat_iff]
  constructor
  · rintro (⟨q, rfl, -⟩ | ⟨-, -, hk⟩)
    · simp [Event.endsPrincipal] at hends
    · exact hk
  · exact fun hk => .inr ⟨hends, fun he => absurd he hlook, hk⟩

/-- An event that ends what there is without storing anything leaves nothing. -/
theorem not_keeps_concat {e : Event} {h : Held} (hends : e.endsPrincipal credential scope = true)
    (hstore : ∀ q, e ≠ .store credential scope q) :
    ¬ Keeps settings (log ++ [(now, e)]) credential scope h := by
  rw [keeps_concat_iff]
  rintro (⟨q, he, -⟩ | ⟨hkept, -⟩)
  · exact hstore q he
  · rw [hends] at hkept; cases hkept

/-- Under the key of a credential and scope stands exactly what the log keeps for them. -/
theorem get?_run_scopedKey (hapart : Apart credential events) (h : Held) :
    (run { settings } start events).entries.get? (scopedKey (credentialDigest credential) scope) =
        some h ↔ Keeps settings (Cache.log start events) credential scope h := by
  induction events using List.reverseRecOn generalizing h with
  | nil =>
    constructor
    · intro hget; cases hget
    · rintro ⟨stored, q, hlast, -⟩
      exact absurd hlast not_last_nil
  | append_singleton events e ih =>
    have ih := ih hapart.of_concat
    have hmem : e ∈ events ++ [e] := by simp
    rw [run_concat, log_concat]
    cases e with
    | store c s q =>
      rw [apply, get?_store, settings_run]
      by_cases hkey : c = credential ∧ s = scope
      · obtain ⟨rfl, rfl⟩ := hkey
        rw [if_pos rfl, keeps_concat_iff]
        constructor
        · exact fun hh => .inl ⟨q, rfl, (Option.some.inj hh).symm⟩
        · rintro (⟨q', he, rfl⟩ | ⟨hends, -⟩)
          · injection he with _ _ hq
            rw [hq]
          · simp [Event.endsPrincipal] at hends
      · have hne : scopedKey (credentialDigest credential) scope ≠
            scopedKey (credentialDigest c) s := by
          intro hk
          obtain ⟨hd, hs⟩ := scopedKey_inj hk
          exact hkey ⟨hapart _ hmem c rfl hd.symm, hs.symm⟩
        have hends : (Event.store c s q).endsPrincipal credential scope = false := by
          simpa [Event.endsPrincipal] using hkey
        rw [if_neg hne, ih, keeps_concat_other hends (by simp)]
    | storeUnknown c =>
      have hne : ¬ ((run { settings } start events).settings.negativeTtl.isZero = false ∧
          scopedKey (credentialDigest credential) scope = credentialDigest c) :=
        fun hk => scopedKey_ne_credentialDigest _ _ _ hk.2
      rw [apply, get?_storeUnknown, if_neg hne, ih, keeps_concat_other rfl (by simp)]
    | lookup c s =>
      by_cases hkey : c = credential ∧ s = scope
      · obtain ⟨rfl, rfl⟩ := hkey
        rw [apply, get?_lookup_scopedKey, keeps_concat_iff, ← ih, Option.filter_eq_some_iff]
        simp [Event.endsPrincipal, and_comm]
      · have hlook : Event.lookup c s ≠ .lookup credential scope := by
          simpa using hkey
        rw [keeps_concat_other rfl hlook, ← ih]
        rcases get?_lookup_eq_or (run { settings } start events) c s (clock start events)
          (scopedKey (credentialDigest credential) scope) with hget | ⟨-, hk | hk, -⟩
        · rw [apply, hget]
        · obtain ⟨hd, hs⟩ := scopedKey_inj hk
          exact absurd ⟨hapart _ hmem c rfl hd.symm, hs.symm⟩ hkey
        · exact absurd hk (scopedKey_ne_credentialDigest _ _ _)
    | invalidate c =>
      rw [apply, get?_invalidate]
      by_cases hc : c = credential
      · subst hc
        have hends : (Event.invalidate c).endsPrincipal c scope = true := by
          simp [Event.endsPrincipal]
        rw [if_pos ((isKeyOf_scopedKey c c scope).2 rfl)]
        refine ⟨fun hnone => ?_, fun hk => absurd hk (not_keeps_concat hends (by simp))⟩
        cases hnone
      · have hkey : ¬ isKeyOf (credentialDigest c)
            (scopedKey (credentialDigest credential) scope) = true :=
          fun hk => hapart.digest_ne hmem rfl hc ((isKeyOf_scopedKey _ _ _).1 hk)
        have hends : (Event.invalidate c).endsPrincipal credential scope = false := by
          simpa [Event.endsPrincipal] using hc
        rw [if_neg hkey, ih, keeps_concat_other hends (by simp)]
    | clear =>
      refine ⟨fun hnone => ?_, fun hk => absurd hk (not_keeps_concat rfl (by simp))⟩
      cases hnone
    | advance span => rw [apply, ih, keeps_concat_other rfl (by simp)]
    | setWall wall => rw [apply, ih, keeps_concat_other rfl (by simp)]

/-- The principal that the log vouches for is the one under the key that is not stale. -/
theorem fresh?_run_scopedKey (settings : CacheSettings) (start : Moment) (scope : String)
    (hapart : Apart credential events) (v : Verdict) :
    (run { settings } start events).fresh? (scopedKey (credentialDigest credential) scope)
        (clock start events) = some v ↔
      ∃ p, v = .known p ∧
        Vouches settings (Cache.log start events) (clock start events) credential scope p := by
  rw [fresh?_eq_some_iff]
  constructor
  · rintro ⟨h, hget, rfl, hfresh⟩
    obtain ⟨stored, p, hlast, rfl⟩ := (get?_run_scopedKey hapart h).1 hget
    obtain ⟨hlt, hend⟩ := (Held.isStale_known_eq_false rfl).1 hfresh
    refine ⟨p, rfl, stored, hlast.mono fun x _ hx => ⟨hx.1, fun he => ?_⟩, hlt, hend⟩
    exact ((Held.isStale_known_eq_false rfl).1 (hx.2 he)).2
  · rintro ⟨p, rfl, stored, hlast, hlt, hend⟩
    refine ⟨⟨.known p, settings.ttl.after stored.instant⟩, (get?_run_scopedKey hapart _).2
      ⟨stored, p, hlast.mono fun x hmem hx => ⟨hx.1, fun he => ?_⟩, rfl⟩, rfl,
      (Held.isStale_known_eq_false rfl).2 ⟨hlt, hend⟩⟩
    have hle := instant_le_of_mem_log hmem
    exact (Held.isStale_known_eq_false rfl).2 ⟨Nat.lt_of_le_of_lt hle hlt, hx.2 he⟩

/-! ## The marker's entry -/

/-- The marker that the log says was put last for a credential. -/
def Marks (settings : CacheSettings) (log : List (Moment × Event)) (credential : String)
    (h : Held) : Prop :=
  0 < settings.negativeTtl.nanos ∧ ∃ marked : Moment,
    Last log (marked, .storeUnknown credential) (fun x => x.2.endsMarker credential = false) ∧
    h = ⟨.unknown, settings.negativeTtl.after marked.instant⟩

/-- One more event keeps a marker if it sets it, or does not end the one that was kept. -/
theorem marks_concat_iff {e : Event} {h : Held} :
    Marks settings (log ++ [(now, e)]) credential h ↔
      (0 < settings.negativeTtl.nanos ∧ e = .storeUnknown credential ∧
          h = ⟨.unknown, settings.negativeTtl.after now.instant⟩) ∨
        (e.endsMarker credential = false ∧ Marks settings log credential h) := by
  constructor
  · rintro ⟨hpos, marked, hlast, rfl⟩
    rcases Last.concat_iff.1 hlast with heq | ⟨hends, hlast⟩
    · obtain ⟨rfl, rfl⟩ := Prod.mk.inj heq
      exact .inl ⟨hpos, rfl, rfl⟩
    · exact .inr ⟨hends, hpos, marked, hlast, rfl⟩
  · rintro (⟨hpos, rfl, rfl⟩ | ⟨hends, hpos, marked, hlast, rfl⟩)
    · exact ⟨hpos, now, Last.concat_iff.2 (.inl rfl), rfl⟩
    · exact ⟨hpos, marked, Last.concat_iff.2 (.inr ⟨hends, hlast⟩), rfl⟩

/-- The entry under a credential's digest is what the log marks, and what the log marks is the entry
until its life is over. -/
structure MarkerAgrees (settings : CacheSettings) (log : List (Moment × Event)) (now : Moment)
    (credential : String) (entry : Option Held) : Prop where
  sound : ∀ h, entry = some h → Marks settings log credential h
  complete : ∀ h, Marks settings log credential h → entry = some h ∨ h.expires ≤ now.instant

/-- An event that leaves the entry alone and ends no marker keeps the agreement. -/
theorem MarkerAgrees.concat_other {e : Event} {entry : Option Held}
    (hm : MarkerAgrees settings log now credential entry)
    (hends : e.endsMarker credential = false) :
    MarkerAgrees settings (log ++ [(now, e)]) (e.tick now) credential entry := by
  have hiff (h : Held) : Marks settings (log ++ [(now, e)]) credential h ↔
      Marks settings log credential h := by
    rw [marks_concat_iff]
    constructor
    · rintro (⟨-, rfl, -⟩ | ⟨-, hmarks⟩)
      · simp [Event.endsMarker] at hends
      · exact hmarks
    · exact fun hmarks => .inr ⟨hends, hmarks⟩
  refine ⟨fun h hh => (hiff h).2 (hm.sound h hh), fun h hh => ?_⟩
  exact (hm.complete h ((hiff h).1 hh)).imp_right fun hx =>
    Nat.le_trans hx (e.instant_le_tick now)

/-- An event that ends the marker without putting one leaves nothing to agree on. -/
theorem MarkerAgrees.concat_ended {e : Event} (hends : e.endsMarker credential = true)
    (hstore : e ≠ .storeUnknown credential) :
    MarkerAgrees settings (log ++ [(now, e)]) (e.tick now) credential none := by
  refine ⟨fun _ hnone => ?_, fun h hh => ?_⟩
  · cases hnone
  rcases marks_concat_iff.1 hh with ⟨-, he, -⟩ | ⟨hkept, -⟩
  · exact absurd he hstore
  · rw [hends] at hkept; cases hkept

/-- A marker may be taken away once its life is over. -/
theorem MarkerAgrees.drop {entry : Option Held} {h : Held}
    (hm : MarkerAgrees settings log now credential entry) (hget : entry = some h)
    (hstale : h.isStale now.instant now.wall = true) :
    MarkerAgrees settings log now credential none := by
  refine ⟨fun _ hnone => ?_, fun h' hh' => .inr ?_⟩
  · cases hnone
  rcases hm.complete h' hh' with heq | hx
  · obtain rfl := Option.some.inj (hget.symm.trans heq)
    obtain ⟨-, marked, -, rfl⟩ := hh'
    exact (Held.isStale_unknown rfl).1 hstale
  · exact hx

/-- Putting a marker makes the log and the entry agree, unless none are kept. -/
theorem MarkerAgrees.concat_storeUnknown {entry : Option Held}
    (hm : MarkerAgrees settings log now credential entry) :
    MarkerAgrees settings (log ++ [(now, .storeUnknown credential)]) now credential
      (if settings.negativeTtl.isZero = false then
        some ⟨.unknown, settings.negativeTtl.after now.instant⟩
      else entry) := by
  have hends : (Event.storeUnknown credential).endsMarker credential = true := by
    simp [Event.endsMarker]
  have hzero : settings.negativeTtl.isZero = false ↔ 0 < settings.negativeTtl.nanos := by
    simp [Duration.isZero, Nat.pos_iff_ne_zero]
  rcases Nat.eq_zero_or_pos settings.negativeTtl.nanos with hz | hpos
  · have hnot : ¬ settings.negativeTtl.isZero = false := by rw [hzero]; omega
    rw [if_neg hnot]
    exact ⟨fun h hh => absurd (hm.sound h hh).1 (by omega), fun h hh => absurd hh.1 (by omega)⟩
  · rw [if_pos (hzero.2 hpos)]
    refine ⟨fun h hh => ?_, fun h hh => .inl ?_⟩
    · exact marks_concat_iff.2 (.inl ⟨hpos, rfl, (Option.some.inj hh).symm⟩)
    · rcases marks_concat_iff.1 hh with ⟨-, -, rfl⟩ | ⟨hkept, -⟩
      · rfl
      · rw [hends] at hkept; cases hkept

/-- What stands under a credential's digest agrees with the log. -/
theorem markerAgrees_run (settings : CacheSettings) (start : Moment)
    (hapart : Apart credential events) :
    MarkerAgrees settings (Cache.log start events) (clock start events) credential
      ((run { settings } start events).entries.get? (credentialDigest credential)) := by
  induction events using List.reverseRecOn with
  | nil =>
    refine ⟨fun _ hnone => ?_, fun h hh => absurd hh.2.choose_spec.1 not_last_nil⟩
    cases hnone
  | append_singleton events e ih =>
    have ih := ih hapart.of_concat
    have hmem : e ∈ events ++ [e] := by simp
    rw [run_concat, log_concat, clock_concat]
    cases e with
    | store c s q =>
      rw [apply, get?_store, if_neg (scopedKey_ne_credentialDigest _ _ _).symm]
      exact ih.concat_other rfl
    | storeUnknown c =>
      rw [apply, get?_storeUnknown, settings_run]
      by_cases hc : c = credential
      · subst hc
        simpa [Event.tick] using ih.concat_storeUnknown
      · have hends : (Event.storeUnknown c).endsMarker credential = false := by
          simpa [Event.endsMarker] using hc
        rw [if_neg fun hk => hapart.digest_ne hmem rfl hc hk.2.symm]
        exact ih.concat_other hends
    | lookup c s =>
      rcases get?_lookup_eq_or (run { settings } start events) c s (clock start events)
        (credentialDigest credential) with hget | ⟨hnone, -, h, hheld, hstale⟩
      · rw [apply, hget]
        exact ih.concat_other rfl
      · rw [apply, hnone]
        exact (ih.drop hheld hstale).concat_other rfl
    | invalidate c =>
      rw [apply, get?_invalidate]
      by_cases hc : c = credential
      · subst hc
        have hends : (Event.invalidate c).endsMarker c = true := by simp [Event.endsMarker]
        rw [if_pos ((isKeyOf_credentialDigest c c).2 rfl)]
        exact MarkerAgrees.concat_ended hends (by simp)
      · have hkey : ¬ isKeyOf (credentialDigest c) (credentialDigest credential) = true :=
          fun hk => hapart.digest_ne hmem rfl hc ((isKeyOf_credentialDigest _ _).1 hk)
        have hends : (Event.invalidate c).endsMarker credential = false := by
          simpa [Event.endsMarker] using hc
        rw [if_neg hkey]
        exact ih.concat_other hends
    | clear => exact MarkerAgrees.concat_ended rfl (by simp)
    | advance span => exact ih.concat_other rfl
    | setWall wall => exact ih.concat_other rfl

/-- The marker is there and within its life exactly when the log denounces the credential. -/
theorem fresh?_run_marker (settings : CacheSettings) (start : Moment)
    (hapart : Apart credential events) (v : Verdict) :
    (run { settings } start events).fresh? (credentialDigest credential) (clock start events) =
        some v ↔
      v = .unknown ∧
        Denounces settings (Cache.log start events) (clock start events) credential := by
  have hm := markerAgrees_run settings start hapart
  rw [fresh?_eq_some_iff]
  constructor
  · rintro ⟨h, hget, rfl, hfresh⟩
    obtain ⟨hpos, marked, hlast, rfl⟩ := hm.sound h hget
    refine ⟨rfl, hpos, marked, hlast, Nat.lt_of_not_le fun hle => ?_⟩
    rw [Held.isStale_of_expires _ hle] at hfresh
    cases hfresh
  · rintro ⟨rfl, hpos, marked, hlast, hlt⟩
    rcases hm.complete _ ⟨hpos, marked, hlast, rfl⟩ with hget | hle
    · refine ⟨_, hget, rfl, Bool.eq_false_iff.2 fun hs => ?_⟩
      exact absurd ((Held.isStale_unknown rfl).1 hs) (Nat.not_le.2 hlt)
    · exact absurd hle (Nat.not_le.2 hlt)

end AccessGate.Cache
