/-!
# Form encoding

The encoding of a pair of texts in the query of an address: a blank becomes a
plus sign, letters, digits and `*-._` stand for themselves, and every other
byte of the UTF-8 form is written as `%` and two upper-case hexadecimal digits.
Reading an encoded text back is defined beside it.
-/

namespace ClusterTuning.Text.FormEncoding

/-- The bytes that stand for themselves. -/
def isPlain (b : UInt8) : Bool :=
  (0x61 ≤ b && b ≤ 0x7A) || (0x41 ≤ b && b ≤ 0x5A) || (0x30 ≤ b && b ≤ 0x39) ||
    b == 0x2A || b == 0x2D || b == 0x2E || b == 0x5F

/-- The upper-case hexadecimal digit of a number below sixteen. -/
def hexDigit (n : Nat) : Char :=
  if n < 10 then Char.ofNat (0x30 + n) else Char.ofNat (0x41 + (n - 10))

/-- What stands for one byte. -/
def encodeByte (b : UInt8) : List Char :=
  if b == 0x20 then ['+']
  else if isPlain b then [Char.ofNat b.toNat]
  else ['%', hexDigit (b.toNat / 16), hexDigit (b.toNat % 16)]

/-- The encoding of a sequence of bytes. -/
def encodeBytes (bytes : List UInt8) : List Char :=
  bytes.flatMap encodeByte

/-- The value of an upper-case or lower-case hexadecimal digit. -/
def hexValue? (c : Char) : Option Nat :=
  let n := c.toNat
  if 0x30 ≤ n ∧ n ≤ 0x39 then some (n - 0x30)
  else if 0x41 ≤ n ∧ n ≤ 0x46 then some (n - 0x41 + 10)
  else if 0x61 ≤ n ∧ n ≤ 0x66 then some (n - 0x61 + 10)
  else none

/-- The bytes that an encoded text stands for; a percent sign that starts no escape stands for
itself. -/
def decodeBytes : List Char → List UInt8
  | [] => []
  | '+' :: rest => 0x20 :: decodeBytes rest
  | '%' :: h :: l :: rest =>
    match hexValue? h, hexValue? l with
    | some a, some b => UInt8.ofNat (16 * a + b) :: decodeBytes rest
    | _, _ => 0x25 :: decodeBytes (h :: l :: rest)
  | c :: rest => (String.singleton c).toUTF8.toList ++ decodeBytes rest
termination_by s => s.length

/-- The encoding of a text. -/
def encode (s : String) : String :=
  String.ofList (encodeBytes s.toUTF8.toList)

/-- The encoding of one pair of a name and a value. -/
def encodePair (name value : String) : String :=
  encode name ++ "=" ++ encode value

end ClusterTuning.Text.FormEncoding
