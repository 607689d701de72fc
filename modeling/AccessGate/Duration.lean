/-!
# Spans of time

A span is a whole number of nanoseconds. Settings come in as whole milliseconds or seconds, so the
two readings `Duration.ofMillis` and `Duration.ofSecs` are exact, and `Duration.wholeMillis` takes a
span back to milliseconds. `Duration.text` writes a span in the largest unit that leaves a whole
part, with the fraction's trailing zeros left out.
-/

namespace AccessGate

/-- A span of time, in nanoseconds. -/
structure Duration where
  nanos : Nat
deriving DecidableEq, Repr

/-- An instant of the monotonic clock: nanoseconds since the clock's start. -/
abbrev Instant := Nat

namespace Duration

/-- A span of whole milliseconds. -/
def ofMillis (n : Nat) : Duration := ⟨n * 1000000⟩

/-- A span of whole seconds. -/
def ofSecs (n : Nat) : Duration := ⟨n * 1000000000⟩

/-- The empty span. -/
def isZero (d : Duration) : Bool := d.nanos == 0

/-- A span that is not empty has some nanoseconds. -/
theorem nanos_pos {d : Duration} (h : d.isZero = false) : 0 < d.nanos :=
  Nat.pos_of_ne_zero (by simpa [isZero] using h)

/-- The whole milliseconds of a span. -/
def wholeMillis (d : Duration) : Nat := d.nanos / 1000000

/-- The whole seconds of a span. -/
def wholeSecs (d : Duration) : Nat := d.nanos / 1000000000

@[simp] theorem wholeMillis_ofMillis (n : Nat) : (ofMillis n).wholeMillis = n := by
  simp [ofMillis, wholeMillis]

@[simp] theorem wholeSecs_ofSecs (n : Nat) : (ofSecs n).wholeSecs = n := by
  simp [ofSecs, wholeSecs]

/-- The instant a span after another. -/
def after (d : Duration) (t : Instant) : Instant := t + d.nanos

/-! ## Text -/

/-- The digits of a fraction `part / 10 ^ places`, trailing zeros left out. -/
def fractionDigits (part places : Nat) : List Char :=
  let digits := Nat.toDigits 10 part
  let padded := List.replicate (places - digits.length) '0' ++ digits
  (padded.reverse.dropWhile (· == '0')).reverse

/-- A whole part and the fraction `part / 10 ^ places`. -/
def decimal (whole part places : Nat) : String :=
  if part = 0 then toString whole
  else toString whole ++ "." ++ String.ofList (fractionDigits part places)

/-- A span in seconds, milliseconds, microseconds or nanoseconds, whichever is the largest unit not
above it. -/
def text (d : Duration) : String :=
  if d.nanos ≥ 1000000000 then
    decimal (d.nanos / 1000000000) (d.nanos % 1000000000) 9 ++ "s"
  else if d.nanos ≥ 1000000 then
    decimal (d.nanos / 1000000) (d.nanos % 1000000) 6 ++ "ms"
  else if d.nanos ≥ 1000 then
    decimal (d.nanos / 1000) (d.nanos % 1000) 3 ++ "µs"
  else
    decimal d.nanos 0 0 ++ "ns"

end Duration

end AccessGate
