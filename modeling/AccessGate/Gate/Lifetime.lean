import AccessGate.Gate.Authorize

/-!
# Lifetimes on a clock that ends

The monotonic clock holds the seconds of an instant as a signed number of 64 bits. A span that goes
beyond them cannot be added to an instant, and what tries to add it breaks off. Entries of the cache
are given the end of their life by such an addition. `Cache.store?` and `Cache.storeUnknown?` are
the two operations that make entries as they are on this clock, without a result where they break
off, and `Gate.authorize?` is a request with them.
-/

namespace AccessGate

/-- The clock can hold an instant: its seconds are a signed number of 64 bits. -/
def Instant.Fits (t : Instant) : Prop := t / 1000000000 < Nat.pow 2 63

instance (t : Instant) : Decidable (Instant.Fits t) :=
  inferInstanceAs (Decidable (t / 1000000000 < Nat.pow 2 63))

/-- The instant a span after another, if the clock can hold it. -/
def Duration.after? (d : Duration) (t : Instant) : Option Instant :=
  if (d.after t).Fits then some (d.after t) else none

namespace Cache

/-- Keeps a principal for a credential and scope, or breaks off. -/
def store? (c : Cache) (credential scope : String) (p : Principal) (now : Instant) :
    Option Cache := do
  let expires ← c.settings.ttl.after? now
  some { c with
    entries := c.entries.insert (scopedKey (credentialDigest credential) scope)
      ⟨.known p, expires⟩ }

/-- Keeps that a credential is unknown, or breaks off. Where no markers are kept, no span is
added. -/
def storeUnknown? (c : Cache) (credential : String) (now : Instant) : Option Cache :=
  if c.settings.negativeTtl.isZero then some c
  else do
    let expires ← c.settings.negativeTtl.after? now
    some { c with
      entries := c.entries.insert (credentialDigest credential) ⟨.unknown, expires⟩ }

end Cache

namespace Gate

/-- Takes the principal of an answer into the cache, or that there is none, or breaks off. -/
def identify? (g : Gate) (r : Request) (now : Moment) (reply : ValidationReply) :
    Option (Except Error Principal × Gate) :=
  match g.principalOf reply now.wall with
  | .ok p => do
    let cache ← g.cache.store? r.credential r.scope p now.instant
    some (.ok p, { g with cache })
  | .error e => do
    let cache ← g.cache.storeUnknown? r.credential now.instant
    some (.error e, { g with cache })

/-- Takes a request that asked the validator to its end, or breaks off. -/
def conclude? (g : Gate) (r : Request) (generation : Nat) (now : Moment)
    (result : Except Error ValidationReply) : Option (Except Error Authorization × Gate) :=
  let g := g.hear generation now.instant result
  match result with
  | .error e => some (g.close r none (.error e))
  | .ok reply => do
    match ← g.identify? r now reply with
    | (.error e, g) => some (g.close r none (.error e))
    | (.ok p, g) => some (g.settle r p)

/-- Authorizes a request, or breaks off. -/
def authorize? {σ : Type} (g : Gate) (v : Validator σ) (s : σ) (wall : WallClock) (r : Request)
    (now : Instant) : Option (Finished σ (Except Error Authorization)) :=
  match g.approach r (wall.moment now) with
  | (.ends result, g) => some ⟨result, g, s, now⟩
  | (.asks generation, g) => do
    let (call, s) := v.validate s r.credential (wall.moment now)
    let finish := (g.validateInvoker.wait call).after now
    let (result, g) ←
      g.conclude? r generation (wall.moment finish) (g.validateInvoker.outcome call)
    some ⟨result, g, s, finish⟩

end Gate

end AccessGate
