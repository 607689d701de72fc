import AccessGate.Proofs.Cache.Entries

/-!
# The history of a cache

A history is a list of events: operations on the cache, and changes of its two clocks, of which the
monotonic one only moves on and the wall clock is set to any time. `Cache.log` puts down each event
with what the clocks showed when it happened, `Cache.clock` is what they show after all of them,
`Cache.run` the cache that is left, and `Cache.answerTo` what a lookup made then answers.

What a lookup should answer is told by the log alone. `Cache.Vouches` says that a principal was the
last stored for a credential and scope, is within its lifetime and has never been looked up past its
end; `Cache.Denounces` that the credential was marked as unknown and the marker is within its
lifetime. Neither mentions digests, keys or what is removed when.
-/

namespace AccessGate.Cache

/-- What can happen to a cache and its clocks. -/
inductive Event
  | store (credential scope : String) (p : Principal)
  | storeUnknown (credential : String)
  | lookup (credential scope : String)
  | invalidate (credential : String)
  | clear
  /-- The monotonic clock moves on. -/
  | advance (span : Duration)
  /-- The wall clock is set. -/
  | setWall (wall : Timestamp)

/-- The credential that an operation is about. -/
def Event.credential? : Event → Option String
  | .store c _ _ | .storeUnknown c | .lookup c _ | .invalidate c => some c
  | .clear | .advance _ | .setWall _ => none

/-- The clocks after an event. -/
def Event.tick (now : Moment) : Event → Moment
  | .advance span => { now with instant := span.after now.instant }
  | .setWall wall => { now with wall }
  | _ => now

/-- The clocks after a history. -/
def clock (start : Moment) (events : List Event) : Moment := events.foldl Event.tick start

/-- The cache after an event. -/
def apply (c : Cache) (now : Moment) : Event → Cache
  | .store credential scope p => c.store credential scope p now.instant
  | .storeUnknown credential => c.storeUnknown credential now.instant
  | .lookup credential scope => (c.lookup credential scope now).2
  | .invalidate credential => c.invalidate credential
  | .clear => c.clear
  | .advance _ | .setWall _ => c

/-- The events of a history, each with the clocks when it happened. -/
def log (start : Moment) : List Event → List (Moment × Event)
  | [] => []
  | e :: es => (start, e) :: log (e.tick start) es

/-- The cache after a history that began with another. -/
def run (c : Cache) (start : Moment) (events : List Event) : Cache :=
  (log start events).foldl (fun c x => c.apply x.1 x.2) c

/-- What a lookup answers after a history that began with an empty cache. -/
def answerTo (settings : CacheSettings) (start : Moment) (events : List Event)
    (credential scope : String) : Answer :=
  ((run { settings } start events).lookup credential scope (clock start events)).1

/-! ## What the log says -/

/-- Whether an event ends what was stored for a credential and scope: something else is stored for
both, the credential is invalidated, or the cache cleared. -/
def Event.endsPrincipal (credential scope : String) : Event → Bool
  | .store c s _ => c == credential && s == scope
  | .invalidate c => c == credential
  | .clear => true
  | _ => false

/-- Whether an event ends what was marked for a credential. -/
def Event.endsMarker (credential : String) : Event → Bool
  | .storeUnknown c => c == credential
  | .invalidate c => c == credential
  | .clear => true
  | _ => false

/-- An entry of a log, and something that holds of all entries after it. -/
def Last {α : Type} (l : List α) (y : α) (since : α → Prop) : Prop :=
  ∃ before after, l = before ++ y :: after ∧ ∀ x ∈ after, since x

/-- The log vouches for a principal: it is the last that was stored for the credential and scope,
its lifetime is not over, and it is not past its end, nor was it at a lookup since it was stored. -/
def Vouches (settings : CacheSettings) (log : List (Moment × Event)) (now : Moment)
    (credential scope : String) (p : Principal) : Prop :=
  ∃ stored : Moment,
    Last log (stored, .store credential scope p) (fun x =>
      x.2.endsPrincipal credential scope = false ∧
        (x.2 = .lookup credential scope → p.isExpired x.1.wall = false)) ∧
    now.instant < settings.ttl.after stored.instant ∧ p.isExpired now.wall = false

/-- The log denounces a credential: markers are kept, and the lifetime of its last one is not
over. -/
def Denounces (settings : CacheSettings) (log : List (Moment × Event)) (now : Moment)
    (credential : String) : Prop :=
  0 < settings.negativeTtl.nanos ∧ ∃ marked : Moment,
    Last log (marked, .storeUnknown credential) (fun x => x.2.endsMarker credential = false) ∧
    now.instant < settings.negativeTtl.after marked.instant

/-- The digests of the credentials of a history differ from that of another credential. -/
def Apart (credential : String) (events : List Event) : Prop :=
  ∀ e ∈ events, ∀ c, e.credential? = some c → credentialDigest c = credentialDigest credential →
    c = credential

/-! ## Runs -/

/-- The clocks of a longer run start where those of the first part end. -/
theorem clock_append (start : Moment) (xs ys : List Event) :
    clock start (xs ++ ys) = clock (clock start xs) ys :=
  List.foldl_append

/-- The log of a longer run is that of its parts. -/
theorem log_append (start : Moment) (xs ys : List Event) :
    log start (xs ++ ys) = log start xs ++ log (clock start xs) ys := by
  induction xs generalizing start with
  | nil => rfl
  | cons e es ih =>
    rw [List.cons_append, log, log, ih, List.cons_append]
    rfl

/-- One more event ticks the clocks once. -/
theorem clock_concat (start : Moment) (events : List Event) (e : Event) :
    clock start (events ++ [e]) = e.tick (clock start events) := by
  rw [clock_append]; rfl

/-- One more event is logged at the end, when it happens. -/
theorem log_concat (start : Moment) (events : List Event) (e : Event) :
    log start (events ++ [e]) = log start events ++ [(clock start events, e)] := by
  rw [log_append]; rfl

/-- One more event happens at the end. -/
theorem run_concat (c : Cache) (start : Moment) (events : List Event) (e : Event) :
    run c start (events ++ [e]) = (run c start events).apply (clock start events) e := by
  rw [run, log_concat, List.foldl_append]; rfl

/-- The monotonic clock never goes back. -/
theorem Event.instant_le_tick (now : Moment) (e : Event) : now.instant ≤ (e.tick now).instant := by
  cases e with
  | advance span => exact Nat.le_add_right _ _
  | store | storeUnknown | lookup | invalidate | clear | setWall => exact Nat.le_refl _

/-- The monotonic clock does not go back. -/
theorem instant_le_clock (start : Moment) (events : List Event) :
    start.instant ≤ (clock start events).instant := by
  induction events generalizing start with
  | nil => exact Nat.le_refl _
  | cons e es ih => exact Nat.le_trans (e.instant_le_tick start) (ih (e.tick start))

/-- Nothing in a log happened later than what the monotonic clock shows after it. -/
theorem instant_le_of_mem_log {start : Moment} {events : List Event} {x : Moment × Event}
    (hx : x ∈ log start events) : x.1.instant ≤ (clock start events).instant := by
  induction events generalizing start with
  | nil => cases hx
  | cons e es ih =>
    rcases List.mem_cons.1 hx with rfl | hx
    · exact instant_le_clock start (e :: es)
    · exact ih hx

/-- Operations leave the clocks alone. -/
theorem Event.tick_of_credential? {e : Event} {c : String} (h : e.credential? = some c)
    (now : Moment) : e.tick now = now := by
  cases e with
  | store | storeUnknown | lookup | invalidate => rfl
  | clear | advance | setWall => cases h

/-- An operation on one credential ends nothing for another. -/
theorem Event.ends_of_credential_ne {e : Event} {c credential : String} (scope : String)
    (h : e.credential? = some c) (hne : c ≠ credential) :
    e.endsPrincipal credential scope = false ∧ e.endsMarker credential = false := by
  have hbeq : (c == credential) = false := beq_false_of_ne hne
  cases e with
  | store c' s p =>
    obtain rfl := Option.some.inj h
    exact ⟨by rw [endsPrincipal, hbeq, Bool.false_and], rfl⟩
  | storeUnknown c' =>
    obtain rfl := Option.some.inj h
    exact ⟨rfl, hbeq⟩
  | invalidate c' =>
    obtain rfl := Option.some.inj h
    exact ⟨hbeq, hbeq⟩
  | lookup c' s => exact ⟨rfl, rfl⟩
  | clear | advance | setWall => cases h

/-- What is logged has happened. -/
theorem mem_of_mem_log {start : Moment} {events : List Event} {x : Moment × Event}
    (hx : x ∈ log start events) : x.2 ∈ events := by
  induction events generalizing start with
  | nil => cases hx
  | cons e es ih =>
    rcases List.mem_cons.1 hx with rfl | hx
    · exact List.mem_cons_self
    · exact List.mem_cons_of_mem _ (ih hx)

theorem settings_apply (c : Cache) (now : Moment) (e : Event) :
    (c.apply now e).settings = c.settings := by
  cases e with
  | store | invalidate | clear | advance | setWall => rfl
  | storeUnknown credential => exact settings_storeUnknown c credential now.instant
  | lookup credential scope => exact settings_cleanup c _ now.instant now.wall

/-- A run leaves the settings alone. -/
theorem settings_run (c : Cache) (start : Moment) (events : List Event) :
    (run c start events).settings = c.settings := by
  unfold run
  induction log start events generalizing c with
  | nil => rfl
  | cons x xs ih => exact (ih _).trans (settings_apply c x.1 x.2)

end AccessGate.Cache
