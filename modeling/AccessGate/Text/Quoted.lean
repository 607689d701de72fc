import AccessGate.Text.Unseen

/-!
# Texts shown between quotes

A text in a diagnostic stands between double quotes, with quotes, backslashes and the characters
that do not show escaped: the four common ones by letter, any other by its code point in braces.
-/

namespace AccessGate.Text

/-- A character as it stands between quotes. -/
def shown (c : Char) : List Char :=
  if c = '"' then ['\\', '"']
  else if c = '\\' then ['\\', '\\']
  else if c = '\t' then ['\\', 't']
  else if c = '\n' then ['\\', 'n']
  else if c = '\r' then ['\\', 'r']
  else if c = '\x00' then ['\\', '0']
  else if isUnseen c then ['\\', 'u', '\x7b'] ++ Nat.toDigits 16 c.toNat ++ ['\x7d']
  else [c]

/-- A text between quotes. -/
def quoted (s : String) : String := String.ofList ('"' :: s.toList.flatMap shown ++ ['"'])

end AccessGate.Text
