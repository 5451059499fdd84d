import ClusterTuning.Yaml.Token.Scalar

/-!
# Reading tags, anchors and directives

The tokens that start with an exclamation mark, an ampersand, an asterisk or a
percent sign.
-/

namespace ClusterTuning.Yaml.Token

/-! ## Names of tags -/

/-- The characters of a tag, besides escapes; between angle brackets there are some more. -/
def isTagChar (verbatim : Bool) (c : Char) : Bool :=
  isWordChar c || [';', '/', '?', ':', '@', '&', '=', '+', '$', '.', '!', '~', '*', '\'', '(',
    ')'].any (· == c) || (verbatim && (c == ',' || c == '[' || c == ']'))

/-- The number of bytes of a character whose first byte is given. -/
def sequenceLength? (first : Nat) : Option Nat :=
  if first < 0x80 then some 1
  else if 0xC0 ≤ first ∧ first < 0xE0 then some 2
  else if 0xE0 ≤ first ∧ first < 0xF0 then some 3
  else if 0xF0 ≤ first ∧ first < 0xF8 then some 4
  else none

/-- The character that a complete sequence of bytes stands for. -/
def charOfBytes? (bytes : List Nat) : Option Char :=
  match bytes with
  | [a] => some (Char.ofNat a)
  | [a, b] =>
    let n := (a - 0xC0) * 0x40 + (b - 0x80)
    if 0x80 ≤ n then some (Char.ofNat n) else none
  | [a, b, c] =>
    let n := ((a - 0xE0) * 0x40 + (b - 0x80)) * 0x40 + (c - 0x80)
    if 0x800 ≤ n then charOfNumber? n else none
  | [a, b, c, d] =>
    let n := (((a - 0xF0) * 0x40 + (b - 0x80)) * 0x40 + (c - 0x80)) * 0x40 + (d - 0x80)
    if 0x10000 ≤ n then charOfNumber? n else none
  | _ => none

/-- The bytes of a character that have been read as escapes, and how many are missing. -/
structure ByteEscape where
  bytes : List Nat
  missing : Nat
deriving DecidableEq, Repr

/-- Reads the characters of a tag.  Within a character of several bytes, `pending` holds those that
were read. -/
def readTagChars (verbatim : Bool) : List Char → List Char → Bool → Option ByteEscape →
    Except Fault (Escaped × List Char)
  | '%' :: h :: l :: rest, text, readable, pending =>
    match hexValue? h, hexValue? l with
    | some a, some b =>
      let byte := 16 * a + b
      let step : Option ByteEscape := match pending with
        | none => (sequenceLength? byte).map fun n => ⟨[byte], n - 1⟩
        | some p =>
          if 0x80 ≤ byte ∧ byte < 0xC0 then some ⟨p.bytes ++ [byte], p.missing - 1⟩ else none
      match step with
      | none => .error .token
      | some p =>
        if 0 < p.missing then readTagChars verbatim rest text readable (some p)
        else match charOfBytes? p.bytes with
          | some c => readTagChars verbatim rest (c :: text) readable none
          | none => readTagChars verbatim rest text false none
    | _, _ => .error .token
  | c :: rest, text, readable, pending =>
    if pending.isSome || c == '%' then .error .token
    else if isTagChar verbatim c then readTagChars verbatim rest (c :: text) readable none
    else .ok (⟨text.reverse, readable⟩, c :: rest)
  | [], text, readable, pending =>
    if pending.isSome then .error .token else .ok (⟨text.reverse, readable⟩, [])

/-- Reads a handle: an exclamation mark, word characters and, if it is there, a second mark. -/
def readHandle (s : List Char) : List Char × List Char :=
  let word := (s.drop 1).takeWhile isWordChar
  match (s.drop 1).dropWhile isWordChar with
  | '!' :: rest => ('!' :: (word ++ ['!']), rest)
  | rest => ('!' :: word, rest)

/-- A handle proper: more than one exclamation mark, the last character one of them. -/
def isHandle (handle : List Char) : Bool :=
  1 < handle.length && handle.getLast? == some '!'

/-- Reads a tag and what follows it. -/
def readTagParts (s : List Char) : Except Fault (Token × List Char) :=
  match s with
  | '!' :: '<' :: rest => do
    let (suffix, after) ← readTagChars true rest [] true none
    if suffix.text = [] ∧ suffix.readable then .error .token
    else match after with
      | '>' :: after => .ok (.tag [] suffix, after)
      | _ => .error .token
  | _ => do
    let (handle, rest) := readHandle s
    let (suffix, after) ← readTagChars false rest [] true none
    if isHandle handle then
      if suffix.text = [] ∧ suffix.readable then .error .token else .ok (.tag handle suffix, after)
    else
      let suffix := { suffix with text := handle.drop 1 ++ suffix.text }
      if suffix.text = [] ∧ suffix.readable then .ok (.tag [] ⟨['!'], true⟩, after)
      else .ok (.tag ['!'] suffix, after)

/-- A tag ends at a gap or, between brackets, at a comma. -/
def readTag (inFlow : Bool) (cursor : Cursor) : Except Fault (Token × Cursor) := do
  let (token, rest) ← readTagParts cursor.rest
  if atGap rest || (inFlow && rest.head? == some ',') then
    .ok (token, cursor.skip (cursor.rest.length - rest.length))
  else .error .token

/-! ## Anchors -/

/-- What may follow the name of an anchor, besides a gap. -/
def endsAnchor (c : Char) : Bool :=
  ['?', ':', ',', ']', '\x7d', '%', '@', '\x60'].any (· == c)

/-- Reads the name of an anchor or alias after its mark. -/
def readAnchor (make : List Char → Token) (cursor : Cursor) : Except Fault (Token × Cursor) :=
  let name := (cursor.rest.drop 1).takeWhile isWordChar
  let after := cursor.skip (name.length + 1)
  if name ≠ [] ∧ (atGap after.rest || after.rest.head?.any endsAnchor) then
    .ok (make name, after)
  else .error .token

/-! ## Directives -/

/-- The digits of a version number; nine of them at most. -/
def readVersionNumber (s : List Char) : Except Fault (Nat × List Char) :=
  let digits := s.takeWhile Char.isDigit
  if digits = [] ∨ 9 < digits.length then .error .token
  else .ok (digits.foldl (fun n c => 10 * n + (c.toNat - 0x30)) 0, s.dropWhile Char.isDigit)

/-- Reads the version that a document is written for. -/
def readVersion (s : List Char) : Except Fault (Token × List Char) := do
  let (major, rest) ← readVersionNumber (s.dropWhile isBlank)
  match rest with
  | '.' :: rest =>
    let (minor, rest) ← readVersionNumber rest
    .ok (.version major minor, rest)
  | _ => .error .token

/-- Reads a handle and what it stands for. -/
def readTagDirective (s : List Char) : Except Fault (Token × List Char) := do
  let s := s.dropWhile isBlank
  if s.head? ≠ some '!' then .error .token
  let (handle, rest) := readHandle s
  if handle ≠ ['!'] ∧ !isHandle handle then .error .token
  if !(rest.head?.any isBlank) then .error .token
  let (expansion, rest) ← readTagChars true (rest.dropWhile isBlank) [] true none
  if (expansion.text = [] ∧ expansion.readable) ∨ !atGap rest then .error .token
  .ok (.tagDirective handle expansion, rest)

/-- Reads a directive and the rest of its line. -/
def readDirective (cursor : Cursor) : Except Fault (Token × Cursor) := do
  let s := cursor.rest.drop 1
  let name := s.takeWhile isWordChar
  let rest := s.dropWhile isWordChar
  if name = [] ∨ !atGap rest then .error .token
  let (token, rest) ←
    if name = "YAML".toList then readVersion rest
    else if name = "TAG".toList then readTagDirective rest
    else .error .token
  let after ← passLineEnd (cursor.skip (cursor.rest.length - rest.length))
  .ok (token, after)

end ClusterTuning.Yaml.Token
