import AccessGate.Proofs.Config.Rewriting
import AccessGate.Proofs.Gate.Room

/-!
# Lifetimes that are accepted and do not fit the clock

Settings are accepted with lifetimes of any length but zero. A file gives them in milliseconds of 64
bits, and those can be added to every instant but the last `2 ^ 64` milliseconds that the clock can
hold (`Instant.Early`). A variable of the environment gives one in seconds of 64 bits, which may be
more than the clock can hold at all. So whether a lifetime can be added is told by the value of its
variable alone (`Config.fits_after_iff`). Where it cannot, a request breaks off when it comes to the
cache with the validator's answer, and nowhere else (`Gate.step?_eq_none_iff`). The main statement
is `Config.lifetimes_exactly`.
-/

namespace AccessGate

/-- An instant after which the clock can hold `2 ^ 64` milliseconds. -/
def Instant.Early (t : Instant) : Prop := ((Duration.ofMillis (Nat.pow 2 64)).after t).Fits

/-! ## Adding a span -/

namespace Duration

variable {d : Duration} {now : Instant}

/-- Seconds add up by themselves. -/
theorem fits_after_ofSecs_iff {n : Nat} :
    ((ofSecs n).after now).Fits ↔ now / 1000000000 + n < Nat.pow 2 63 := by
  have hadd : (now + n * 1000000000) / 1000000000 = now / 1000000000 + n :=
    Nat.add_mul_div_right now n (by decide)
  rw [Instant.Fits, after, ofSecs, hadd]

/-- Milliseconds of 64 bits can be added to an early instant. -/
theorem InMillis.fits_after (h : d.InMillis) (hnow : now.Early) : (d.after now).Fits := by
  obtain ⟨n, hn, rfl⟩ := h
  have hle : (ofMillis n).after now ≤ (ofMillis (Nat.pow 2 64)).after now :=
    Nat.add_le_add_left (Nat.mul_le_mul_right _ (Nat.le_of_lt hn)) now
  exact Nat.lt_of_le_of_lt (Nat.div_le_div_right hle) hnow

end Duration

/-! ## Where a step of a request breaks off -/

namespace Gate

variable {g : Gate} {r : Request} {now : Moment} {reply : ValidationReply}

/-- A request breaks off where it comes to the cache with an answer and the clock has no room for
the entry, and otherwise takes its step. -/
theorem step?_cases (g : Gate) (r : Request) (now : Moment) (p : Progress) :
    ((∃ reply, p = .replied reply ∧ ¬ g.HasRoom now reply) ∧ g.step? r now p = none) ∨
    ((∀ reply, p = .replied reply → g.HasRoom now reply) ∧
      g.step? r now p = some (g.step r now p)) := by
  cases p with
  | replied reply =>
    by_cases hroom : g.HasRoom now reply
    · refine .inr ⟨by rintro _ ⟨⟩; exact hroom, ?_⟩
      rw [step?, identify?_of_hasRoom hroom, step]
      cases g.identify r now reply with
      | mk principal g' => cases principal <;> rfl
    · refine .inl ⟨⟨reply, rfl, hroom⟩, ?_⟩
      rw [step?, identify?_of_not_hasRoom hroom]
      rfl
  | arrived | accepted | scanned | missed | elapsed | asking | answered | identified | decided
  | ended => exact .inr ⟨by rintro _ ⟨⟩, rfl⟩

/-- A step breaks off exactly where the clock has no room for what is to be cached. -/
theorem step?_eq_none_iff (g : Gate) (r : Request) (now : Moment) (p : Progress) :
    g.step? r now p = none ↔ ∃ reply, p = .replied reply ∧ ¬ g.HasRoom now reply := by
  rcases g.step?_cases r now p with ⟨hnot, hstep⟩ | ⟨hroom, hstep⟩
  · exact iff_of_true hstep hnot
  · refine iff_of_false (by rw [hstep]; exact Option.some_ne_none _) ?_
    rintro ⟨reply, hreply, hnot⟩
    exact hnot (hroom reply hreply)

end Gate

namespace World

variable {w : World} {events : List (Moment × Event)}

/-- Where both lifetimes end within the clock, no event breaks a request off. -/
theorem attempt_of_fits {now : Moment} (e : Event)
    (httl : (w.gate.cache.settings.ttl.after now.instant).Fits)
    (hnegative : (w.gate.cache.settings.negativeTtl.after now.instant).Fits) :
    w.attempt now e = some (w.apply now e) := by
  cases e with
  | step i =>
    simp only [attempt, apply]
    cases w.requests[i]? with
    | none => rfl
    | some request =>
      obtain ⟨r, p⟩ := request
      rcases w.gate.step?_cases r now p with ⟨⟨reply, -, hnot⟩, -⟩ | ⟨-, hstep⟩
      · exact absurd (Gate.hasRoom_of_fits httl hnegative reply) hnot
      · simp only [hstep]
        rfl
  | request | answer | upkeep | tend | probe | clearCache | invalidate | registerScope
  | unregisterScope | resetBreaker => rfl

/-- In a run in which both lifetimes always end within the clock, no request breaks off. -/
theorem run?_of_fits {s : CacheSettings} (hs : w.gate.cache.settings = s)
    (h : ∀ e ∈ events, (s.ttl.after e.1.instant).Fits ∧ (s.negativeTtl.after e.1.instant).Fits) :
    w.run? events = some (w.run events) := by
  induction events generalizing w with
  | nil => rfl
  | cons e events ih =>
    obtain ⟨hfirst, hrest⟩ := List.forall_mem_cons.1 h
    have hsettings : (w.apply e.1 e.2).gate.cache.settings = s :=
      (congrArg Gate.Setup.lifetimes (setup_apply w e.1 e.2)).trans hs
    rw [run?, List.foldlM_cons, attempt_of_fits e.2 (hs ▸ hfirst.1) (hs ▸ hfirst.2), run_cons,
      ← ih hsettings hrest]
    rfl

end World

/-! ## Lifetimes of loaded settings -/

namespace Config

variable {file : Option File} {env : Option Environment} {e : Environment} {c : Config}
  {v : Variable} {value : String} {x : Setting} {d : Duration} {now : Instant}

/-- A variable that is set to a number of seconds leaves the clock room for them. -/
def InTime (env : Option Environment) (v : Variable) (now : Instant) : Prop :=
  ∀ e ∈ env, ∀ value ∈ e v.name, ∀ n, Variable.Number value n →
    now / 1000000000 + n < Nat.pow 2 63

/-- A setting that was loaded is what its variable means, if that is set. -/
theorem get_of_set (h : load file (some e) = .ok c) (hvalue : e v.name = some value)
    (hmeans : v.Means value x) : c.get v = x := by
  obtain ⟨b, -, hresult, rfl, -⟩ := load_eq_ok_iff.1 h
  rcases applyVariables_spec (by decide : Variable.all.Nodup) b with ⟨-, -, hover⟩ | hstopped
  · exact (hover.means v v.mem_all value hvalue).unique hmeans
  · obtain ⟨_, _, _, _, _, -, -, -, -, herror, -⟩ := hstopped
    cases hresult.symm.trans herror

/-- Whether a lifetime that was loaded can be added to an early instant is told by the value of its
variable: without one it can. -/
theorem fits_after_iff (h : load file env = .ok c) (hget : c.get v = .span d)
    (hd : d.InSeconds env v)
    (hmeans : ∀ value n, Variable.Number value n → v.Means value (.span (.ofSecs n)))
    (hnow : now.Early) : (d.after now).Fits ↔ InTime env v now := by
  constructor
  · rintro hfits e rfl value hvalue n hn
    have hsame := get_of_set h hvalue (hmeans value n hn)
    obtain rfl := Setting.span.inj (hget.symm.trans hsame)
    exact Duration.fits_after_ofSecs_iff.1 hfits
  · intro htime
    rcases hd with hmillis | ⟨e, he, value, hvalue, n, hn, rfl⟩
    · exact hmillis.fits_after hnow
    · exact Duration.fits_after_ofSecs_iff.2
        (htime e he value hvalue n (Variable.readNat_eq_ok_iff.1 hn))

/-- **Where accepted lifetimes are too long.** Settings were loaded, from a file or without, with
the environment or without, and make a gate. In any state that the gate comes to, keeping a
principal or a marker breaks off exactly where its life would end beyond the clock, and a marker of
no lifetime never does. A request breaks off exactly where it comes to the cache with an answer for
which this is so. At an early instant that is where the variable of the lifetime is set to a number
of seconds for which the clock has no room: a lifetime of a file, or the default, always ends within
the clock. So in a run at early instants for which the clock has room for both variables, no request
breaks off. -/
theorem lifetimes_exactly {parts : Gate.Parts} {start : Instant} {g : Gate}
    (h : load file env = .ok c) (hg : Gate.build c parts start = .ok g) :
    (∀ events credential scope p now,
      let cache := (World.run { gate := g } events).gate.cache
      cache.store? credential scope p now =
        (if (c.cacheTtl.after now).Fits then some (cache.store credential scope p now)
        else none) ∧
      cache.storeUnknown? credential now =
        if c.negativeCacheTtl.isZero = false → (c.negativeCacheTtl.after now).Fits then
          some (cache.storeUnknown credential now)
        else none) ∧
    (∀ events r now progress,
      let gate := (World.run { gate := g } events).gate
      gate.step? r now progress = none ↔
        ∃ reply, progress = .replied reply ∧ ¬ gate.HasRoom now reply) ∧
    (∀ now, now.Early →
      ((c.cacheTtl.after now).Fits ↔ InTime env .cacheTtl now) ∧
      ((c.negativeCacheTtl.after now).Fits ↔ InTime env .negativeCacheTtl now)) ∧
    ∀ events : List (Moment × Event),
      (∀ e ∈ events, e.1.instant.Early ∧ InTime env .cacheTtl e.1.instant ∧
        InTime env .negativeCacheTtl e.1.instant) →
      World.run? { gate := g } events = some (World.run { gate := g } events) := by
  have hbuilt : g.cache.settings = c.cacheSettings :=
    congrArg Gate.Setup.lifetimes (Gate.build_eq_ok hg).1
  obtain ⟨hgiven, -⟩ := given_of_load h
  have hfits (now : Instant) (hnow : now.Early) :
      ((c.cacheTtl.after now).Fits ↔ InTime env .cacheTtl now) ∧
      ((c.negativeCacheTtl.after now).Fits ↔ InTime env .negativeCacheTtl now) :=
    ⟨fits_after_iff h rfl hgiven.cacheTtl (fun _ n hn => ⟨n, hn, rfl⟩) hnow,
      fits_after_iff h rfl hgiven.negativeCacheTtl (fun _ n hn => ⟨n, hn, rfl⟩) hnow⟩
  refine ⟨fun events credential scope p now => ?_,
    fun events r now progress => Gate.step?_eq_none_iff _ r now progress, hfits,
    fun events hevents => ?_⟩
  · have hsettings : (World.run { gate := g } events).gate.cache.settings = c.cacheSettings :=
      (congrArg Gate.Setup.lifetimes (World.setup_run { gate := g } events)).trans hbuilt
    refine ⟨Cache.store?_eq.trans ?_, Cache.storeUnknown?_eq.trans ?_⟩
    · rw [hsettings]
      rfl
    · rw [hsettings]
      rfl
  · refine World.run?_of_fits hbuilt fun e he => ?_
    obtain ⟨hearly, htime, hnegative⟩ := hevents e he
    exact ⟨(hfits _ hearly).1.2 htime, (hfits _ hearly).2.2 hnegative⟩

/-- A lifetime of a minute can be added at the start of the clock, and one of almost `2 ^ 64`
seconds cannot. -/
theorem lifetimes_exactly_of_minute :
    let env : Environment := fun name =>
      if name = "BASTION_CACHE_TTL_SECS" then some "60"
      else if name = "BASTION_NEGATIVE_CACHE_TTL_SECS" then some "18446744073709551615" else none
    let c : Config := { cacheTtl := .ofSecs 60, negativeCacheTtl := .ofSecs 18446744073709551615 }
    ∃ g, load none (some env) = .ok c ∧ Gate.build c {} 0 = .ok g ∧
      g.cache.store? "tok" "org.x" .anonymous 0 =
        some (g.cache.store "tok" "org.x" .anonymous 0) ∧
      g.cache.storeUnknown? "tok" 0 = none ∧
      InTime (some env) .cacheTtl 0 ∧ ¬ InTime (some env) .negativeCacheTtl 0 := by
  intro env c
  have hload : load none (some env) = .ok c := by decide +kernel
  have hvalid : c.validate = .ok () := by decide +kernel
  obtain ⟨g, hg⟩ : ∃ g, Gate.build c {} 0 = .ok g := by
    rw [Gate.build, hvalid]
    exact ⟨_, rfl⟩
  have hminute : (c.cacheTtl.after 0).Fits := by decide
  have hlong : ¬ (c.negativeCacheTtl.after 0).Fits := by decide
  have hearly : Instant.Early 0 := by
    unfold Instant.Early
    decide
  obtain ⟨hkeep, -, hfits, -⟩ := lifetimes_exactly hload hg
  obtain ⟨hstore, hunknown⟩ := hkeep [] "tok" "org.x" .anonymous 0
  obtain ⟨htime, hnegative⟩ := hfits 0 hearly
  exact ⟨g, hload, hg, hstore.trans (if_pos hminute),
    hunknown.trans (if_neg fun h => hlong (h (by decide))), htime.1 hminute,
    fun h => hlong (hnegative.2 h)⟩

/-- With a lifetime of almost `2 ^ 64` seconds the settings are accepted, and the first request that
the validator lets in breaks off. -/
theorem lifetime_beyond_clock :
    let env : Environment := fun name =>
      if name = "BASTION_CACHE_TTL_SECS" then some "18446744073709551615" else none
    let c : Config := { cacheTtl := .ofSecs 18446744073709551615 }
    let reply : ValidationReply :=
      { valid := true, principalId := some "u", permissions := ["state:data:read"] }
    let events := [Event.request ⟨"get", "tok", "org.x"⟩, .step 0, .step 0, .step 0, .step 0,
      .answer 0 (.ok reply), .step 0, .step 0].map (⟨0, ⟨0, 0⟩⟩, ·)
    load none (some env) = .ok c ∧
      ∃ g, Gate.build c {} 0 = .ok g ∧ World.run? { gate := g } events = none := by
  intro env c reply events
  have hload : load none (some env) = .ok c := by decide +kernel
  have hvalid : c.validate = .ok () := by decide +kernel
  obtain ⟨g, hg⟩ : ∃ g, Gate.build c {} 0 = .ok g := by
    rw [Gate.build, hvalid]
    exact ⟨_, rfl⟩
  have hbroken : ((Gate.build c {} 0).toOption.map
      fun g => (World.run? { gate := g } events).isNone) = some true := by decide +kernel
  rw [hg] at hbroken
  exact ⟨hload, g, hg, Option.isNone_iff_eq_none.1 (Option.some.inj hbroken)⟩

end Config

end AccessGate
