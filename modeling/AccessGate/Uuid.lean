import AccessGate.Json.Decode

/-!
# Universally unique identifiers

A `Uuid` is a number of 128 bits. It is written as five groups of hexadecimal digits; it is read
from that form, alone, in braces or after `urn:uuid:`, or from its 32 digits without hyphens. The
length of a text tells which. A text of another form is told apart by what is wrong with it first:
that it is longer than any form, a character that does not belong, the number of groups, the length
of one.
-/

namespace AccessGate

open Json

/-- An identifier of 128 bits. -/
structure Uuid where
  value : Nat
deriving DecidableEq, Repr

namespace Uuid

/-- The lengths of the groups, in digits. -/
def groupLengths : List Nat := [8, 4, 4, 4, 12]

/-! ## Writing -/

/-- A number in so many hexadecimal digits, the highest first. -/
def hexDigits : Nat → Nat → List Char
  | 0, _ => []
  | width + 1, n => hexDigits width (n / 16) ++ [Nat.digitChar (n % 16)]

/-- Cuts digits into groups of the given lengths. -/
def cut : List Nat → List Char → List (List Char)
  | [], _ => []
  | n :: ns, cs => cs.take n :: cut ns (cs.drop n)

/-- The text of an identifier. -/
def text (u : Uuid) : String :=
  "-".intercalate ((cut groupLengths (hexDigits 32 u.value)).map String.ofList)

/-! ## Reading -/

/-- Why a text is not an identifier. -/
inductive Fault
  /-- A text of a length, in bytes, that no form has. -/
  | length (found : Nat)
  /-- A character that does not belong, with the bytes before it. -/
  | character (c : Char) (position : Nat)
  | groupCount (found : Nat)
  /-- The length of a group, counted from 0. -/
  | groupLength (group found : Nat)
deriving DecidableEq, Repr

/-- The wording of a fault. -/
def Fault.message : Fault → String
  | length found => s!"invalid length: found {found}"
  | character c position =>
    "invalid character: found " ++ ticked (String.singleton c) ++ s!" at {position}"
  | groupCount found => s!"invalid group count: expected 5, found {found}"
  | groupLength group found =>
    s!"invalid group length in group {group}: expected " ++
      toString (groupLengths.getD group 0) ++ s!", found {found}"

/-- The value of a hexadecimal digit. -/
def hexValue? (c : Char) : Option Nat :=
  if '0' ≤ c ∧ c ≤ '9' then some (c.toNat - '0'.toNat)
  else if 'a' ≤ c ∧ c ≤ 'f' then some (c.toNat - 'a'.toNat + 10)
  else if 'A' ≤ c ∧ c ≤ 'F' then some (c.toNat - 'A'.toNat + 10)
  else none

/-- The number that hexadecimal digits stand for. -/
def ofDigits? (cs : List Char) : Option Nat :=
  cs.foldlM (fun n c => (hexValue? c).map (n * 16 + ·)) 0

/-- The groups between hyphens. -/
def groups : List Char → List (List Char)
  | [] => [[]]
  | c :: cs =>
    if c = '-' then [] :: groups cs
    else
      match groups cs with
      | [] => [[c]]
      | g :: gs => (c :: g) :: gs

/-- The characters between braces. -/
def braced? : List Char → Option (List Char)
  | '{' :: cs => if cs.getLast? = some '}' then some cs.dropLast else none
  | _ => none

/-- What introduces an identifier as the name of a resource. -/
def urn : List Char := ['u', 'r', 'n', ':', 'u', 'u', 'i', 'd', ':']

/-- The rest of a text that starts with `urn:uuid:`, in capitals or not. -/
def afterUrn? (cs : List Char) : Option (List Char) :=
  if (cs.take urn.length).map Char.toLower = urn then some (cs.drop urn.length) else none

/-- The identifier written as five groups. -/
def ofGroups? (cs : List Char) : Option Uuid :=
  if (groups cs).map List.length = groupLengths then
    (ofDigits? (groups cs).flatten).map Uuid.mk
  else none

/-- The bytes of a text. -/
def byteLength (cs : List Char) : Nat := cs.foldl (fun n c => n + c.utf8Size) 0

/-- The first character that is neither a digit nor a hyphen, with the bytes before it. -/
def stray? : Nat → List Char → Option (Char × Nat)
  | _, [] => none
  | i, c :: cs =>
    if c = '-' ∨ (hexValue? c).isSome then stray? (i + c.utf8Size) cs else some (c, i)

/-- The first group but the last whose length is not the one it should have. -/
def wrongGroup? : Nat → List Nat → List (List Char) → Option (Nat × Nat)
  | i, n :: ns, g :: g' :: gs =>
    if g.length = n then wrongGroup? (i + 1) ns (g' :: gs) else some (i, g.length)
  | _, _, _ => none

/-- The bytes of the longest form. -/
def longestForm : Nat := 45

/-- The groups of a text whose length is that of groups, alone, in braces or introduced. -/
def grouped? (cs : List Char) : Option (List Char) :=
  match byteLength cs with
  | 36 => some cs
  | 38 => braced? cs
  | 45 => afterUrn? cs
  | _ => none

/-- The identifier written as 32 digits. -/
def ofPlainDigits? (cs : List Char) : Option Uuid :=
  if cs.length = 32 then (ofDigits? cs).map Uuid.mk else none

/-- What is wrong with groups that are no identifier, in a text of so many bytes that has so many
bytes before them. -/
def groupFault (size offset : Nat) (cs : List Char) : Fault :=
  match stray? offset cs with
  | some (c, i) => .character c i
  | none =>
    let gs := groups cs
    if gs.length ≠ 5 then .groupCount gs.length
    else
      match wrongGroup? 0 groupLengths gs with
      | some (group, found) => .groupLength group found
      | none => .groupLength 4 (size - 24)

/-- What is wrong with a text whose length is not that of groups. -/
def ungroupedFault (cs : List Char) : Fault :=
  let size := byteLength cs
  if size > longestForm then .length size
  else
    match braced? cs, afterUrn? cs with
    | some inner, _ => groupFault size 1 inner
    | none, some rest => groupFault size urn.length rest
    | none, none =>
      if cs.all fun c => (hexValue? c).isSome then .length size else groupFault size 0 cs

/-- The identifier that characters stand for. -/
def ofChars (cs : List Char) : Except Fault Uuid :=
  match grouped? cs with
  | some body => (ofGroups? body).elim (.error (groupFault (byteLength body) 0 body)) .ok
  | none => (ofPlainDigits? cs).elim (.error (ungroupedFault cs)) .ok

/-- The identifier a text stands for. -/
def ofText (s : String) : Except Fault Uuid := ofChars s.toList

/-- Reads an identifier. -/
def ofJson : Json → Except DecodeError Uuid
  | .string s =>
    match ofText s with
    | .ok u => .ok u
    | .error fault => .error (.malformed ("UUID parsing failed: " ++ fault.message))
  | j => .error (j.mismatch "a formatted UUID string")

end Uuid

end AccessGate
