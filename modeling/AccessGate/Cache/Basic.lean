import AccessGate.Binary64.Basic
import AccessGate.Cache.Key
import AccessGate.Principal
import AccessGate.Table

/-!
# The cache of validated principals

A principal is kept for one credential and one scope, and that a credential is unknown is kept for
the credential alone; both stand in one map, under the keys of `Cache.scopedKey` and
`credentialDigest`. Entries have a lifetime and are never swept: a lookup that comes upon one that
is past it, or on a principal past its own end, removes it. A lookup has two steps, each of which
sees the entries as they are then: `Cache.scan` only reads and finds the answer, `Cache.cleanup`
removes what the scan found stale if it still is. `Cache.lookup` is both.
-/

namespace AccessGate

/-- The lifetimes of cache entries. -/
structure CacheSettings where
  ttl : Duration := .ofSecs 300
  /-- The lifetime of markers of unknown credentials; none are kept when it is zero. -/
  negativeTtl : Duration := .ofSecs 30
deriving DecidableEq, Repr

/-- The counters of a cache. They have 64 bits, and runs are taken to be too short for one to
overflow. -/
structure CacheCounters where
  hits : Nat := 0
  misses : Nat := 0
  unknownHits : Nat := 0
  /-- Stale entries removed. -/
  expired : Nat := 0
deriving DecidableEq, Repr

/-- What an entry says of a credential. -/
inductive Verdict
  /-- It is a principal's. -/
  | known (p : Principal)
  /-- The validator refused it lately. -/
  | unknown
deriving DecidableEq, Repr

/-- A verdict with the end of its entry's life. -/
structure Held where
  verdict : Verdict
  expires : Instant
deriving DecidableEq, Repr

/-- Whether an entry is past its life, or its principal past its end. -/
def Held.isStale (h : Held) (instant : Instant) (wall : Timestamp) : Bool :=
  h.expires ≤ instant ||
    match h.verdict with
    | .known p => p.isExpired wall
    | .unknown => false

/-- The cache: verdicts by key. -/
structure Cache where
  settings : CacheSettings := {}
  entries : Table String Held := .empty
  counters : CacheCounters := {}

namespace Cache

/-- What a lookup answers. -/
inductive Answer
  | hit (p : Principal)
  /-- The credential was refused lately. -/
  | unknown
  | miss
deriving DecidableEq, Repr

/-- The answer that a verdict gives. -/
def Answer.ofVerdict : Verdict → Answer
  | .known p => .hit p
  | .unknown => .unknown

/-- The number of entries. -/
def size (c : Cache) : Nat := c.entries.size

/-! ## Lookup -/

/-- What a scan finds: the answer, and the keys of the stale entries that it came upon. -/
structure Scan where
  answer : Answer
  stale : List String
deriving DecidableEq, Repr

/-- Looks under keys in turn, up to the first with an entry that is not stale. -/
def scanKeys (c : Cache) (now : Moment) : List String → Scan
  | [] => ⟨.miss, []⟩
  | key :: keys =>
    match c.entries.get? key with
    | none => c.scanKeys now keys
    | some held =>
      if held.isStale now.instant now.wall then
        let later := c.scanKeys now keys
        ⟨later.answer, key :: later.stale⟩
      else ⟨Answer.ofVerdict held.verdict, []⟩

/-- The first step of a lookup: it changes nothing. The principal comes before the marker. -/
def scan (c : Cache) (digest scope : String) (now : Moment) : Scan :=
  c.scanKeys now [scopedKey digest scope, digest]

/-- Removes the entry under a key if it is stale. -/
def dropStale (scanned : Instant) (wall : Timestamp) (c : Cache) (key : String) : Cache :=
  match c.entries.get? key with
  | none => c
  | some held =>
    if held.isStale scanned wall then
      { c with
        entries := c.entries.erase key
        counters := { c.counters with expired := c.counters.expired + 1 } }
    else c

/-- The second step of a lookup: what the scan at `scanned` found stale goes, if it still is. -/
def cleanup (c : Cache) (stale : List String) (scanned : Instant) (wall : Timestamp) : Cache :=
  stale.foldl (dropStale scanned wall) c

/-- Counts an answer. -/
def countAnswer (c : Cache) (a : Answer) : Cache :=
  let n := c.counters
  { c with counters :=
      match a with
      | .hit _ => { n with hits := n.hits + 1 }
      | .unknown => { n with unknownHits := n.unknownHits + 1 }
      | .miss => { n with misses := n.misses + 1 } }

/-- Looks a credential up for a scope. -/
def lookup (c : Cache) (credential scope : String) (now : Moment) : Answer × Cache :=
  let found := c.scan (credentialDigest credential) scope now
  (found.answer, (c.cleanup found.stale now.instant now.wall).countAnswer found.answer)

/-! ## Storing and dropping -/

/-- Keeps a principal for a credential and scope. -/
def store (c : Cache) (credential scope : String) (p : Principal) (now : Instant) : Cache :=
  { c with
    entries := c.entries.insert (scopedKey (credentialDigest credential) scope)
      ⟨.known p, c.settings.ttl.after now⟩ }

/-- Keeps that a credential is unknown. -/
def storeUnknown (c : Cache) (credential : String) (now : Instant) : Cache :=
  if c.settings.negativeTtl.isZero then c
  else
    { c with
      entries := c.entries.insert (credentialDigest credential)
        ⟨.unknown, c.settings.negativeTtl.after now⟩ }

/-- The number of entries of a credential. -/
def countFor (c : Cache) (credential : String) : Nat :=
  (c.entries.filter fun key _ => isKeyOf (credentialDigest credential) key).size

/-- Drops every entry of a credential. -/
def invalidate (c : Cache) (credential : String) : Cache :=
  { c with entries := c.entries.filter fun key _ => !isKeyOf (credentialDigest credential) key }

/-- Drops every entry. -/
def clear (c : Cache) : Cache := { c with entries := .empty }

/-- The share of hits among hits and misses. -/
def hitRate (c : Cache) : Binary64 :=
  let total := c.counters.hits + c.counters.misses
  let rate := do
    let hits ← Binary64.ofNat? c.counters.hits
    let total ← Binary64.ofNat? total
    hits.div total
  if total = 0 then .zero false else rate.getD (.zero false)

end Cache

end AccessGate
