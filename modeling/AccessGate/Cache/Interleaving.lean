import AccessGate.Cache.Basic

/-!
# Lookups side by side

A cache serves many at once. Storing, marking, dropping and clearing take hold of the entries once,
a lookup does so twice: it notes the instant, scans the entries, and then removes those that it
found stale if they still are. Here a lookup is cut into these parts (`Lookup.step`), and anything
may come between them (`Traffic.apply`).
-/

namespace AccessGate.Cache

/-- How far a lookup has come, by what is to be done next. -/
inductive Progress
  /-- The entries are to be scanned. -/
  | begun
  /-- What the scan found stale is to be removed, and the answer counted. -/
  | scanned (found : Scan)
  | answered (answer : Answer)
deriving DecidableEq, Repr

/-- A lookup under way. -/
structure Lookup where
  credential : String
  scope : String
  /-- The instant noted before the scan, by which entries are past their life or not. -/
  instant : Instant
  progress : Progress := .begun
deriving DecidableEq, Repr

/-- One part of a lookup. Entries are judged by the instant noted, their principals by the wall
clock. After the answer there is no part left. -/
def Lookup.step (l : Lookup) (now : Moment) (c : Cache) : Lookup × Cache :=
  match l.progress with
  | .begun =>
    let found := c.scan (credentialDigest l.credential) l.scope ⟨l.instant, now.wall⟩
    ({ l with progress := .scanned found }, c)
  | .scanned found =>
    ({ l with progress := .answered found.answer },
      (c.cleanup found.stale l.instant now.wall).countAnswer found.answer)
  | .answered _ => (l, c)

/-- A cache with the lookups under way, numbered from the first. -/
structure Traffic where
  cache : Cache
  lookups : List Lookup := []

namespace Traffic

/-- What can happen next. -/
inductive Event
  /-- A lookup notes the instant. -/
  | lookup (credential scope : String)
  /-- A lookup goes on to its next part. -/
  | step (index : Nat)
  | store (credential scope : String) (p : Principal)
  | storeUnknown (credential : String)
  | invalidate (credential : String)
  | clear
deriving DecidableEq, Repr

/-- One event. -/
def apply (t : Traffic) (now : Moment) : Event → Traffic
  | .lookup credential scope =>
    { t with lookups := t.lookups ++ [{ credential, scope, instant := now.instant }] }
  | .step i =>
    match t.lookups[i]? with
    | none => t
    | some l =>
      let (l, cache) := l.step now t.cache
      { cache, lookups := t.lookups.set i l }
  | .store credential scope p =>
    { t with cache := t.cache.store credential scope p now.instant }
  | .storeUnknown credential => { t with cache := t.cache.storeUnknown credential now.instant }
  | .invalidate credential => { t with cache := t.cache.invalidate credential }
  | .clear => { t with cache := t.cache.clear }

/-- A run: events, each at its moment. -/
def run (t : Traffic) (events : List (Moment × Event)) : Traffic :=
  events.foldl (fun t e => t.apply e.1 e.2) t

theorem run_append (t : Traffic) (xs ys : List (Moment × Event)) :
    t.run (xs ++ ys) = (t.run xs).run ys := List.foldl_append

end Traffic

end AccessGate.Cache
