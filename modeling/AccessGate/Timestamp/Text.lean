import AccessGate.Text.Blank
import AccessGate.Timestamp.Basic

/-!
# The text of a time

Times are written as `YYYY-MM-DDThh:mm:ssZ`, with three, six or nine digits of a fraction where one
is needed and a sign before years that do not have four digits. `Timestamp.ofText` reads that form
and more loosely written ones: blanks between the parts, fewer digits, a space for the `T`, and any
offset, which is taken off.
-/

namespace AccessGate.Timestamp

/-! ## The calendar -/

/-- A day of the calendar. -/
structure Date where
  year : Int
  month : Nat
  day : Nat
deriving DecidableEq, Repr

/-- The date so many days after the start of 1970. Years are counted from March, so that the day
which comes and goes is the last. -/
def Date.ofDays (days : Int) : Date :=
  let z := days + 719468
  let era := z / 146097
  let dayOfEra := (z % 146097).toNat
  let yearOfEra := (dayOfEra - dayOfEra / 1460 + dayOfEra / 36524 - dayOfEra / 146096) / 365
  let dayOfYear := dayOfEra - (365 * yearOfEra + yearOfEra / 4 - yearOfEra / 100)
  let m := (5 * dayOfYear + 2) / 153
  let day := dayOfYear - (153 * m + 2) / 5 + 1
  let month := if m < 10 then m + 3 else m - 9
  ⟨yearOfEra + era * 400 + (if month ≤ 2 then 1 else 0), month, day⟩

/-- The days from the start of 1970 to a date. -/
def Date.days (d : Date) : Int :=
  let y := if d.month ≤ 2 then d.year - 1 else d.year
  let era := y / 400
  let yearOfEra := (y % 400).toNat
  let m := if d.month > 2 then d.month - 3 else d.month + 9
  let dayOfYear := (153 * m + 2) / 5 + d.day - 1
  let dayOfEra := yearOfEra * 365 + yearOfEra / 4 - yearOfEra / 100 + dayOfYear
  era * 146097 + dayOfEra - 719468

/-- Whether a year has a twenty-ninth of February. -/
def isLeapYear (y : Int) : Bool := y % 4 == 0 && (y % 100 != 0 || y % 400 == 0)

/-- The number of days of a month. -/
def daysOfMonth (y : Int) (m : Nat) : Nat :=
  match m with
  | 2 => if isLeapYear y then 29 else 28
  | 4 | 6 | 9 | 11 => 30
  | _ => 31

/-! ## Writing -/

/-- A number with leading zeros up to a width. -/
def padded (width n : Nat) : String :=
  let digits := Nat.toDigits 10 n
  String.ofList (List.replicate (width - digits.length) '0' ++ digits)

/-- A year: four digits, or a sign and at least four. -/
def yearText (y : Int) : String :=
  if 0 ≤ y ∧ y ≤ 9999 then padded 4 y.toNat
  else (if y < 0 then "-" else "+") ++ padded 4 y.natAbs

/-- A fraction of a second in as many groups of three digits as it needs. -/
def fractionText (nanos : Nat) : String :=
  if nanos = 0 then ""
  else if nanos % 1000000 = 0 then "." ++ padded 3 (nanos / 1000000)
  else if nanos % 1000 = 0 then "." ++ padded 6 (nanos / 1000)
  else "." ++ padded 9 nanos

/-- The text of a time. -/
def text (t : Timestamp) : String :=
  let date := Date.ofDays (t.seconds / 86400)
  let s := (t.seconds % 86400).toNat
  yearText date.year ++ "-" ++ padded 2 date.month ++ "-" ++ padded 2 date.day ++ "T" ++
    padded 2 (s / 3600) ++ ":" ++ padded 2 (s / 60 % 60) ++ ":" ++
    padded 2 (s % 60 + t.nanos / 1000000000) ++ fractionText (t.nanos % 1000000000) ++ "Z"

/-! ## Reading -/

/-- Why a text is not a time. -/
inductive TextFault
  | outOfRange
  /-- Every part is in its range, but no time in UTC is that one. -/
  | impossible
  | invalidCharacter
  | tooShort
  | trailing
deriving DecidableEq, Repr

/-- The wording of a fault. -/
def TextFault.message : TextFault → String
  | outOfRange => "input is out of range"
  | impossible => "no possible date and time matching input"
  | invalidCharacter => "input contains invalid characters"
  | tooShort => "premature end of input"
  | trailing => "trailing input"

/-- A reader of the front of a text. -/
abbrev Reader (α : Type) := List Char → Except TextFault (α × List Char)

/-- The rest of a text after white space. -/
def skipBlank (cs : List Char) : List Char := cs.dropWhile Text.isBlankChar

/-- Reads at most `width` digits onto a number. -/
def readMore (n : Nat) : Nat → List Char → Nat × List Char
  | 0, cs => (n, cs)
  | _, [] => (n, [])
  | width + 1, c :: cs =>
    if c.isDigit then readMore (n * 10 + (c.toNat - '0'.toNat)) width cs else (n, c :: cs)

/-- Reads a number of at least one and at most `width` digits. -/
def readNumber (width : Nat) : Reader Nat
  | [] => .error .tooShort
  | c :: cs => if c.isDigit then .ok (readMore 0 width (c :: cs)) else .error .invalidCharacter

/-- Reads a number of at most two digits, at most `high`, after white space. -/
def readPart (low high : Nat) : Reader Nat := fun cs => do
  let (n, cs) ← readNumber 2 (skipBlank cs)
  if low ≤ n ∧ n ≤ high then .ok (n, cs) else .error .outOfRange

/-- Reads a mark after white space. -/
def readMark (mark : Char) : Reader Unit := fun cs =>
  match skipBlank cs with
  | [] => .error .tooShort
  | c :: cs => if c = mark then .ok ((), cs) else .error .invalidCharacter

/-- A year that fits 32 bits, with what follows it. -/
def boundedYear (y : Int) (rest : List Char) : Except TextFault (Int × List Char) :=
  if -Nat.pow 2 31 ≤ y ∧ y < Nat.pow 2 31 then .ok (y, rest) else .error .outOfRange

/-- Reads a year: up to four digits, or a sign and any number of them. -/
def readYear : Reader Int := fun cs =>
  match skipBlank cs with
  | '-' :: cs => do let (n, cs) ← readNumber cs.length cs; boundedYear (-n) cs
  | '+' :: cs => do let (n, cs) ← readNumber cs.length cs; boundedYear n cs
  | cs => do let (n, cs) ← readNumber 4 cs; boundedYear n cs

/-- Reads the mark between date and time. -/
def readSeparator : Reader Unit
  | [] => .error .tooShort
  | c :: cs => if c = 't' ∨ c = 'T' ∨ c = ' ' then .ok ((), cs) else .error .invalidCharacter

/-- Reads a fraction, or none, in nanoseconds; digits after the ninth are dropped. -/
def readFraction : Reader Nat
  | '.' :: cs => do
    let (n, rest) ← readNumber 9 cs
    let used := cs.length - rest.length
    .ok (n * Nat.pow 10 (9 - used), rest.dropWhile Char.isDigit)
  | cs => .ok (0, cs)

/-- Reads two digits. A character of several bytes takes the place of both. -/
def readPair : Reader Nat
  | c :: d :: cs =>
    if c.isDigit ∧ d.isDigit then
      .ok ((c.toNat - '0'.toNat) * 10 + (d.toNat - '0'.toNat), cs)
    else .error .invalidCharacter
  | [c] => .error (if c.utf8Size = 1 then .tooShort else .invalidCharacter)
  | [] => .error .tooShort

/-- Reads an offset from UTC, in seconds. -/
def readOffset : Reader Int := fun cs =>
  match cs with
  | [] => .error .tooShort
  | c :: rest =>
    if c = 'Z' ∨ c = 'z' then .ok (0, rest)
    else if c = '+' ∨ c = '-' ∨ c = '\u2212' then do
      let (hours, rest) ← readPair rest
      let rest := rest.dropWhile fun c => c == ':' || Text.isBlankChar c
      let (minutes, rest) ← readPair rest
      if minutes ≥ 60 then .error .outOfRange
      else
        let s : Int := hours * 3600 + minutes * 60
        .ok (if c = '+' then s else -s, rest)
    else
      match c.toLower, rest with
      | 'u', t :: k :: rest' =>
        if t.toLower = 't' ∧ k.toLower = 'c' then .ok (0, rest') else .error .invalidCharacter
      | _, _ => .error .invalidCharacter

/-- The first year of the calendar. -/
def firstYear : Int := -262143

/-- The last year of the calendar. -/
def lastYear : Int := 262142

/-- Whether a date is one of the calendar's. -/
def Date.isValid (d : Date) : Bool :=
  firstYear ≤ d.year && d.year ≤ lastYear && d.day ≤ daysOfMonth d.year d.month

/-- The time a text stands for, taken to UTC. -/
def ofText (s : String) : Except TextFault Timestamp := do
  let (year, cs) ← readYear s.toList
  let (_, cs) ← readMark '-' cs
  let (month, cs) ← readPart 1 12 cs
  let (_, cs) ← readMark '-' cs
  let (day, cs) ← readPart 1 31 cs
  let (_, cs) ← readSeparator cs
  let (hour, cs) ← readPart 0 23 cs
  let (_, cs) ← readMark ':' cs
  let (minute, cs) ← readPart 0 59 cs
  let (_, cs) ← readMark ':' cs
  let (second, cs) ← readPart 0 60 cs
  let (fraction, cs) ← readFraction cs
  let (offset, cs) ← readOffset (skipBlank cs)
  if !(skipBlank cs).isEmpty then .error .trailing
  else if !(Date.mk year month day).isValid || offset.natAbs ≥ 86400 then .error .outOfRange
  else
    let days := (Date.mk year month day).days
    let (second, nanos) :=
      if second = 60 then (59, 1000000000 + fraction) else (second, fraction)
    let t := days * 86400 + (hour * 3600 + minute * 60 + second : Nat) - offset
    if firstSecond ≤ t ∧ t ≤ lastSecond then .ok ⟨t, nanos⟩ else .error .impossible

end AccessGate.Timestamp
