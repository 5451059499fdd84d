import ClusterTuning.Text.Unprintable

/-!
# Quoted texts

Texts inside messages and queries stand between double quotes.  Quotes,
backslashes and the common control characters have short escapes, other
characters that cannot be seen are written by their number, and all else stands
for itself.
-/

namespace ClusterTuning.Text

namespace Quoted

/-- The lower-case hexadecimal digits of a number, without leading zeros. -/
def hexadecimal (n : Nat) : List Char :=
  Nat.toDigits 16 n

/-- A character written by its number. -/
def numbered (c : Char) : List Char :=
  ['\\', 'u', '\x7b'] ++ hexadecimal c.toNat ++ ['\x7d']

/-- What stands for a character between double quotes. -/
def escape (c : Char) : List Char :=
  if c = '"' then ['\\', '"']
  else if c = '\\' then ['\\', '\\']
  else if c = '\n' then ['\\', 'n']
  else if c = '\r' then ['\\', 'r']
  else if c = '\t' then ['\\', 't']
  else if c = '\x00' then ['\\', '0']
  else if 0x20 ≤ c.toNat ∧ c.toNat ≤ 0x7E then [c]
  else if unprintable.contains c then numbered c
  else [c]

/-- The text between double quotes, with its escapes. -/
def quote (s : List Char) : List Char :=
  '"' :: (s.flatMap escape ++ ['"'])

end Quoted

/-- A text in double quotes. -/
def quoted (s : String) : String :=
  String.ofList (Quoted.quote s.toList)

end ClusterTuning.Text
