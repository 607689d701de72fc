import AccessGate.Proofs.Gate.Course

/-!
# Credentials past their end

An answer may say at which second the credential ends (`ValidationReply.Expires`). If the calendar
can hold the second, the principal is past its end from then on, and if not, from the last instant
of the calendar on (`Principal.isExpired_iff`). So a second at or after the first of the calendar is
honoured: when it has come, no request is let in on the answer, neither by the step that takes the
answer in (`Gate.step_of_expired`) nor by a look into the cache (`Cache.scan_ne_hit`). The main
statement is `World.expiry_is_honoured`. A second before the first of the calendar has long passed,
and yet stands for never (`World.expiry_lost`).
-/

namespace AccessGate

/-- An answer that vouches for somebody until a second. -/
structure ValidationReply.Expires (reply : ValidationReply) (e : Int) : Prop where
  valid : reply.valid = true
  named : ∃ id, reply.principalId = some id ∧ id ≠ ""
  expiry : reply.expiresAt = some e

/-! ## Seconds and the calendar -/

namespace Timestamp

variable {now : Timestamp} {e : Int}

/-- A whole second is reached when it has come. -/
theorem reached_second : now.reached ⟨e, 0⟩ = true ↔ e ≤ now.seconds := by
  simp only [reached, Bool.or_eq_true, Bool.and_eq_true, decide_eq_true_eq, beq_iff_eq]
  omega

/-- The last instant of the calendar is reached after its last second, and before it is not. -/
theorem reached_never (h : lastSecond < now.seconds) : now.reached never = true := by
  simp [reached, never, h]

/-- What is never reached is reached in the last second only. -/
theorem seconds_of_reached_never (h : now.reached never = true) : lastSecond ≤ now.seconds := by
  rw [reached] at h
  simp only [Bool.or_eq_true, Bool.and_eq_true, decide_eq_true_eq, beq_iff_eq] at h
  exact h.elim Int.le_of_lt fun h => Int.le_of_eq h.1

end Timestamp

namespace Principal

variable {d d' : Domain} {reply reply' : ValidationReply} {p p' : Principal} {now : Timestamp}
  {e e' : Int}

/-- An answer that vouches for somebody until a second does so in every domain. -/
theorem exists_ofReply (h : reply.Expires e) (d : Domain) : ∃ p, ofReply d reply = .ok p := by
  obtain ⟨id, hid, hne⟩ := h.named
  exact ⟨_, ofReply_eq_ok_iff.2 ⟨h.valid, id, hid, hne, rfl⟩⟩

/-- A principal is past its end from the second on that the answer says, and if the calendar cannot
hold this second, from the last instant of the calendar on. -/
theorem isExpired_iff (h : reply.Expires e) (hp : ofReply d reply = .ok p) :
    p.isExpired now = true ↔
      if Timestamp.firstSecond ≤ e ∧ e ≤ Timestamp.lastSecond then e ≤ now.seconds
      else now.reached .never = true := by
  obtain ⟨-, -, -, hend⟩ := ofReply_eq_ok hp
  rw [h.expiry, endOfLife, Option.bind_some, Timestamp.ofSeconds?] at hend
  rw [isExpired, hend]
  split
  · exact Timestamp.reached_second
  · rfl

/-- From the second on that the answer says, a principal is past its end. -/
theorem isExpired_of_expires (h : reply.Expires e) (hfirst : Timestamp.firstSecond ≤ e)
    (hp : ofReply d reply = .ok p) (hnow : e ≤ now.seconds) : p.isExpired now = true := by
  rw [isExpired_iff h hp]
  split
  · exact hnow
  · next hout =>
    have hlast : Timestamp.lastSecond < e := Int.not_le.1 fun hle => hout ⟨hfirst, hle⟩
    exact Timestamp.reached_never (Int.lt_of_lt_of_le hlast hnow)

/-- Before the second that the answer says, a principal is not past its end. -/
theorem seconds_of_isExpired (h : reply.Expires e) (hfirst : Timestamp.firstSecond ≤ e)
    (hlast : e ≤ Timestamp.lastSecond) (hp : ofReply d reply = .ok p)
    (hexpired : p.isExpired now = true) : e ≤ now.seconds := by
  rwa [isExpired_iff h hp, if_pos ⟨hfirst, hlast⟩] at hexpired

/-- An earlier second ends a principal no later. -/
theorem isExpired_mono (h : reply.Expires e) (hfirst : Timestamp.firstSecond ≤ e)
    (hp : ofReply d reply = .ok p) (h' : reply'.Expires e') (hle : e ≤ e')
    (hp' : ofReply d' reply' = .ok p') (hexpired : p'.isExpired now = true) :
    p.isExpired now = true := by
  rw [isExpired_iff h' hp'] at hexpired
  split at hexpired
  · exact isExpired_of_expires h hfirst hp (Int.le_trans hle hexpired)
  · rw [isExpired_iff h hp]
    split
    · next hin => exact Int.le_trans hin.2 (Timestamp.seconds_of_reached_never hexpired)
    · exact hexpired

end Principal

/-! ## What the gate makes of it -/

/-- No look into a cache finds a principal that is past its end. -/
theorem Cache.scan_ne_hit {c : Cache} {digest scope : String} {now : Moment} {p : Principal}
    (h : p.isExpired now.wall = true) : (c.scan digest scope now).answer ≠ .hit p := by
  intro hhit
  have hfresh : ∃ key, c.fresh? key now = some (.known p) :=
    (fresh?_of_scan_hit hhit).elim (fun h => ⟨_, h⟩) (fun h => ⟨_, h⟩)
  obtain ⟨key, hkey⟩ := hfresh
  obtain ⟨expires, -, -, hend⟩ := fresh?_eq_some_known hkey
  rw [h] at hend
  cases hend

/-- A lookup leaves no principal in the cache that is past its end. -/
theorem Cache.verdict_lookup_ne {c : Cache} {credential scope : String} {now : Moment}
    {p : Principal} (h : p.isExpired now.wall = true) {held : Held}
    (hget : (c.lookup credential scope now).2.entries.get?
      (scopedKey (credentialDigest credential) scope) = some held) : held.verdict ≠ .known p := by
  intro hknown
  rw [get?_lookup_scopedKey, Option.filter_eq_some_iff] at hget
  have hfresh : held.isStale now.instant now.wall = false := by simpa using hget.2
  rw [((Held.isStale_known_eq_false hknown).1 hfresh).2] at h
  cases h

namespace Gate

variable {g : Gate} {reply : ValidationReply} {r : Request} {e : Int}

/-- An answer past its end is taken for a refusal. -/
theorem principalOf_of_expired {now : Timestamp} (h : reply.Expires e)
    (hfirst : Timestamp.firstSecond ≤ e) (hnow : e ≤ now.seconds) (g : Gate) :
    g.principalOf reply now = .error (.authentication "credential expired") := by
  obtain ⟨p, hp⟩ := Principal.exists_ofReply h g.domain
  rw [principalOf, hp]
  exact if_pos (Principal.isExpired_of_expires h hfirst hp hnow)

/-- By the step that takes in an answer past its end, a request is refused, and the cache takes in
that the credential is unknown. -/
theorem step_of_expired {now : Moment} (h : reply.Expires e) (hfirst : Timestamp.firstSecond ≤ e)
    (hnow : e ≤ now.wall.seconds) (g : Gate) (r : Request) :
    g.step r now (.replied reply) =
      (.decided none (.error (.authentication "credential expired")),
        { g with cache := g.cache.storeUnknown r.credential now.instant }) := by
  simp only [step, identify, principalOf_of_expired h hfirst hnow]

end Gate

namespace World

variable {w : World} {events past : List (Moment × Event)} {now : Moment} {i : Nat}
  {r : Request} {p : Principal} {reply : ValidationReply} {pattern : AccessPattern} {e : Int}

/-- A request that takes in an answer past its end is refused, and ends with the refusal; the cache
takes in that the credential is unknown. -/
theorem refused_of_expired (h : reply.Expires e) (hfirst : Timestamp.firstSecond ≤ e)
    (hget : (w.run past).requests[i]? = some (r, .replied reply)) (hnow : e ≤ now.wall.seconds) :
    (w.run (past ++ [(now, .step i)])).gate.cache =
        (w.run past).gate.cache.storeUnknown r.credential now.instant ∧
      ∀ more, (w.run (past ++ [(now, .step i)] ++ more)).requests[i]? =
        some (r, if ownSteps i more = 0
          then .decided none (.error (.authentication "credential expired"))
          else .ended (.error (.authentication "credential expired"))) := by
  have took : Took w (past ++ [(now, .step i)]) past now i r (.replied reply) :=
    ⟨List.prefix_refl _, hget⟩
  have hstep := Gate.step_of_expired h hfirst hnow (w.run past).gate r
  have hdecided := getElem?_run_step hget now
  rw [hstep] at hdecided
  refine ⟨?_, fun more => decided_run hdecided more⟩
  rw [took.gate_eq, hstep]

/-- Whoever is let in by a pattern was not past the end when the principal was found in the cache or
made out of an answer. -/
theorem not_expired_of_granted (hrequests : w.requests = [])
    (hcache : w.gate.cache.entries = .empty)
    (hgranted : (w.run events).requests[i]? = some (r, .ended (.ok ⟨p, some pattern⟩))) :
    ∃ past now q, Took w events past now i r q ∧ (q = .accepted ∨ ∃ reply, q = .replied reply) ∧
      p.isExpired now.wall = false := by
  obtain ⟨-, hwarranted, -⟩ :=
    (standing_run hrequests hcache events).2 i r _ hgranted p pattern rfl
  rcases hwarranted with ⟨stored, reply, past, took, -, -, hend⟩ | ⟨past, found, took, hend, -⟩
  · exact ⟨past, stored, _, took, .inr ⟨reply, rfl⟩, hend⟩
  · exact ⟨past, found, _, took, .inl rfl, hend⟩

/-- **The end of a credential is honoured.** Let an answer vouch for somebody until a second that is
not before the calendar. Then its principal is past the end from this second on, but not sooner if
the calendar can hold the second, and whenever a principal is whose answer names the same second or
a later one. From this second on, no look into any cache finds the principal, and none leaves it
there; and a request that takes in the answer is refused with an authentication error, while the
cache takes in that the credential is unknown. So in every run of a new gate, a request let in for
such a principal looked into the cache, or took in an answer, before this second. -/
theorem expiry_is_honoured (hreply : reply.Expires e) (hfirst : Timestamp.firstSecond ≤ e) :
    (∀ d, ∃ p, Principal.ofReply d reply = .ok p) ∧
    (∀ d p, Principal.ofReply d reply = .ok p →
      (∀ now : Timestamp, e ≤ now.seconds → p.isExpired now = true) ∧
      (e ≤ Timestamp.lastSecond → ∀ now, p.isExpired now = true → e ≤ now.seconds) ∧
      (∀ d' reply' e' p', ValidationReply.Expires reply' e' → e ≤ e' →
        Principal.ofReply d' reply' = .ok p' →
        ∀ now, p'.isExpired now = true → p.isExpired now = true) ∧
      ∀ (c : Cache) credential scope (now : Moment), e ≤ now.wall.seconds →
        (c.scan (credentialDigest credential) scope now).answer ≠ .hit p ∧
        ∀ held, (c.lookup credential scope now).2.entries.get?
            (Cache.scopedKey (credentialDigest credential) scope) = some held →
          held.verdict ≠ .known p) ∧
    (∀ (w : World) past i r (now : Moment),
      (w.run past).requests[i]? = some (r, .replied reply) → e ≤ now.wall.seconds →
      (w.run (past ++ [(now, .step i)])).gate.cache =
          (w.run past).gate.cache.storeUnknown r.credential now.instant ∧
        ∀ more, (w.run (past ++ [(now, .step i)] ++ more)).requests[i]? =
          some (r, if ownSteps i more = 0
            then .decided none (.error (.authentication "credential expired"))
            else .ended (.error (.authentication "credential expired")))) ∧
    ∀ c parts start g events i r p pattern, Gate.build c parts start = .ok g →
      Principal.ofReply parts.domain reply = .ok p →
      (run { gate := g } events).requests[i]? = some (r, .ended (.ok ⟨p, some pattern⟩)) →
      ∃ past now q, Took { gate := g } events past now i r q ∧
        (q = .accepted ∨ ∃ reply', q = .replied reply') ∧ now.wall.seconds < e := by
  refine ⟨Principal.exists_ofReply hreply, fun d p hp => ?_,
    fun w past i r now hget hnow => refused_of_expired hreply hfirst hget hnow,
    fun c parts start g events i r p pattern hbuild hp hgranted => ?_⟩
  · have hpast {now : Timestamp} (hnow : e ≤ now.seconds) : p.isExpired now = true :=
      Principal.isExpired_of_expires hreply hfirst hp hnow
    exact ⟨fun now => hpast,
      fun hlast now => Principal.seconds_of_isExpired hreply hfirst hlast hp,
      fun d' reply' e' p' hreply' hle hp' now =>
        Principal.isExpired_mono hreply hfirst hp hreply' hle hp',
      fun c credential scope now hnow => ⟨Cache.scan_ne_hit (hpast hnow),
        fun held => Cache.verdict_lookup_ne (hpast hnow)⟩⟩
  · obtain ⟨-, hempty⟩ := Gate.build_eq_ok hbuild
    obtain ⟨past, now, q, took, hq, hend⟩ := not_expired_of_granted rfl hempty hgranted
    refine ⟨past, now, q, took, hq, Int.not_le.1 fun hnow => ?_⟩
    rw [Principal.isExpired_of_expires hreply hfirst hp hnow] at hend
    cases hend

/-- An answer taken in when its second has come is refused; taken in before, it lets the request
in. -/
theorem expiry_is_honoured_to_the_second :
    let r : Request := ⟨"get", "t", "main"⟩
    let p : Principal :=
      { id := "u", permissions := [{ name := "state:data:read" }], validUntil := ⟨100, 0⟩ }
    let reply : ValidationReply :=
      { valid := true, principalId := some "u", permissions := ["state:data:read"],
        expiresAt := some 100 }
    let past : List (Moment × Event) :=
      [(⟨0, ⟨99, 0⟩⟩, .request r)] ++ List.replicate 4 (⟨1, ⟨99, 0⟩⟩, .step 0) ++
        [(⟨2, ⟨99, 0⟩⟩, .answer 0 (.ok reply)), (⟨2, ⟨99, 0⟩⟩, .step 0)]
    let takes (second : Int) : Moment × Event := (⟨3, ⟨second, 0⟩⟩, .step 0)
    let more : List (Moment × Event) := List.replicate 2 (⟨4, ⟨100, 0⟩⟩, .step 0)
    ∃ g, Gate.build {} {} 0 = .ok g ∧ reply.Expires 100 ∧ Timestamp.firstSecond ≤ 100 ∧
      (run { gate := g } past).requests[0]? = some (r, .replied reply) ∧
      (run { gate := g } (past ++ [takes 100] ++ more)).requests[0]? =
        some (r, .ended (.error (.authentication "credential expired"))) ∧
      (run { gate := g } (past ++ [takes 99] ++ more)).requests[0]? =
        some (r, .ended (.ok ⟨p, some .global⟩)) ∧
      ∃ before now q, Took { gate := g } (past ++ [takes 99] ++ more) before now 0 r q ∧
        now.wall.seconds < 100 := by
  intro r p reply past takes more
  have hreply : reply.Expires 100 := ⟨rfl, ⟨"u", rfl, by decide⟩, rfl⟩
  have hfirst : Timestamp.firstSecond ≤ 100 := by decide
  obtain ⟨-, -, hrefused, hgranted⟩ := expiry_is_honoured hreply hfirst
  obtain ⟨g, hbuild, hreplied, hlet⟩ : ∃ g, Gate.build {} {} 0 = .ok g ∧
      (run { gate := g } past).requests[0]? = some (r, .replied reply) ∧
      (run { gate := g } (past ++ [takes 99] ++ more)).requests[0]? =
        some (r, .ended (.ok ⟨p, some .global⟩)) :=
    ⟨_, rfl, by decide +kernel, by decide +kernel⟩
  obtain ⟨-, hended⟩ := hrefused { gate := g } past 0 r ⟨3, ⟨100, 0⟩⟩ hreplied (Int.le_refl _)
  obtain ⟨before, now, q, took, -, hbefore⟩ :=
    hgranted {} {} 0 g (past ++ [takes 99] ++ more) 0 r p .global hbuild rfl hlet
  exact ⟨g, hbuild, hreply, hfirst, hreplied, hended more, hlet, before, now, q, took, hbefore⟩

/-- **A second before the calendar is lost.** It has long passed, and yet a request is let in on an
answer that names it, for a principal that is not past its end. At the same time the principal of an
answer that names a later second is past its end, and the request refused. -/
theorem expiry_lost :
    let r : Request := ⟨"get", "t", "main"⟩
    let reply (e : Int) : ValidationReply :=
      { valid := true, principalId := some "u", permissions := ["state:data:read"],
        expiresAt := some e }
    let events (e : Int) : List (Moment × Event) :=
      [(⟨0, ⟨1000, 0⟩⟩, .request r)] ++ List.replicate 4 (⟨1, ⟨1000, 0⟩⟩, .step 0) ++
        [(⟨2, ⟨1000, 0⟩⟩, .answer 0 (.ok (reply e)))] ++
        List.replicate 4 (⟨3, ⟨1000, 0⟩⟩, .step 0)
    let early : Int := -9223372036854775808
    ∃ g p p', Gate.build {} {} 0 = .ok g ∧ early ≤ 1000 ∧
      (reply early).Expires early ∧ Principal.ofReply .state (reply early) = .ok p ∧
      p.isExpired ⟨1000, 0⟩ = false ∧
      (run { gate := g } (events early)).requests[0]? =
        some (r, .ended (.ok ⟨p, some .global⟩)) ∧
      (reply 1000).Expires 1000 ∧ Principal.ofReply .state (reply 1000) = .ok p' ∧
      p'.isExpired ⟨1000, 0⟩ = true ∧
      (run { gate := g } (events 1000)).requests[0]? =
        some (r, .ended (.error (.authentication "credential expired"))) := by
  intro r reply events early
  have hreply (e : Int) : (reply e).Expires e := ⟨rfl, ⟨"u", rfl, by decide⟩, rfl⟩
  exact ⟨_, _, _, rfl, by decide, hreply early, rfl, by decide +kernel, by decide +kernel,
    hreply 1000, rfl, by decide +kernel, by decide +kernel⟩

end World

end AccessGate
