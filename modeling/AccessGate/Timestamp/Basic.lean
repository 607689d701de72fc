import AccessGate.Duration

/-!
# Wall-clock times

A `Timestamp` counts seconds from the start of 1970, in UTC, and nanoseconds into the second. Only
the years that the calendar of `Timestamp.Text` can write are representable; the last instant of
them stands for "never".
-/

namespace AccessGate

/-- A wall-clock time in UTC. A leap second counts as nanoseconds beyond a whole second. -/
structure Timestamp where
  seconds : Int
  nanos : Nat
deriving DecidableEq, Repr

namespace Timestamp

/-- The first representable second. -/
def firstSecond : Int := -8334601228800

/-- The last representable second. -/
def lastSecond : Int := 8210266876799

/-- The last representable instant: a time that never passes. -/
def never : Timestamp := ⟨lastSecond, 999999999⟩

/-- The time so many seconds after the start of 1970, if it is representable. -/
def ofSeconds? (s : Int) : Option Timestamp :=
  if firstSecond ≤ s ∧ s ≤ lastSecond then some ⟨s, 0⟩ else none

/-- Whether a time is at or after another. -/
def reached (now t : Timestamp) : Bool :=
  t.seconds < now.seconds || (t.seconds == now.seconds && t.nanos ≤ now.nanos)

end Timestamp

/-- What the clocks show: the monotonic instant and the wall-clock time. -/
structure Moment where
  instant : Instant
  wall : Timestamp
deriving DecidableEq, Repr

/-- What the wall clock shows at each instant. -/
abbrev WallClock := Instant → Timestamp

/-- What the clocks show at an instant. -/
def WallClock.moment (wall : WallClock) (t : Instant) : Moment := ⟨t, wall t⟩

end AccessGate
