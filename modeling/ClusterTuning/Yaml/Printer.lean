import ClusterTuning.Yaml.Fault
import ClusterTuning.Yaml.Scalar

/-!
# Writing documents

Collections are written in block form, one entry a line and indented by two
columns, but sequences inside mappings are not indented further.  The text of
every node ends with a line break, so a document is the concatenation of the
texts of its nodes.  A text of one line is written plain where that reads back as
the same text, else in single quotes, else in double quotes with escapes; a text
of several lines is written as a literal block.
-/

namespace ClusterTuning.Yaml

namespace Printer

/-! ## Classes of characters -/

/-- The characters that break lines. -/
def isBreak (c : Char) : Bool :=
  c == '\n' || c == '\r' || c == '\u0085' || c == '\u2028' || c == '\u2029'

/-- Blanks, breaks and the character zero. -/
def isGap (c : Char) : Bool :=
  c == ' ' || c == '\t' || isBreak c || c == '\x00'

/-- The characters that can stand in a document as they are. -/
def isPrintable (c : Char) : Bool :=
  let n := c.toNat
  n == 0x0A || (0x20 ≤ n && n ≤ 0x7E) || (0xA0 ≤ n && n != 0xFEFF && n != 0xFFFE && n != 0xFFFF)

/-- The characters that begin something other than a plain scalar. -/
def isIndicator (c : Char) : Bool :=
  ['#', ',', '[', ']', '\x7b', '\x7d', '&', '*', '!', '|', '>', '\'', '"', '%', '@', '\x60'].any
    (· == c)

/-! ## What the text of a scalar allows -/

/-- Whether the text starts with a gap or has ended. -/
def startsWithGap : List Char → Bool
  | [] => true
  | c :: _ => isGap c

/-- A space next to a line break, the space first. -/
def hasSpaceBreak : List Char → Bool
  | a :: b :: rest => (a == ' ' && isBreak b) || hasSpaceBreak (b :: rest)
  | _ => false

/-- A space next to a line break, the break first. -/
def hasBreakSpace : List Char → Bool
  | a :: b :: rest => (isBreak a && b == ' ') || hasBreakSpace (b :: rest)
  | _ => false

/-- A colon before a gap or a number sign after one, past the first character. -/
def hasInnerIndicator : List Char → Bool
  | a :: b :: rest =>
    (b == ':' && startsWithGap rest) || (b == '#' && isGap a) || hasInnerIndicator (b :: rest)
  | _ => false

/-- Whether the text, written plain, would begin or hold something else. -/
def hasIndicator (s : List Char) : Bool :=
  (match s with
    | '-' :: '-' :: '-' :: _ => true
    | '.' :: '.' :: '.' :: _ => true
    | c :: rest => isIndicator c || ((c == '?' || c == ':' || c == '-') && startsWithGap rest)
    | [] => false) || hasInnerIndicator s

/-- A space or a break at the start or the end. -/
def hasLooseEnd (s : List Char) : Bool :=
  let loose (c : Char) : Bool := c == ' ' || isBreak c
  s.head?.any loose || s.getLast?.any loose

/-- Characters that only escapes can bring in. -/
def needsEscapes (s : List Char) : Bool :=
  s.any (fun c => !isPrintable c) || hasSpaceBreak s

/-- Whether the text can be written plain. -/
def allowsPlain (s : List Char) : Bool :=
  !(hasLooseEnd s || s.any isBreak || needsEscapes s || hasIndicator s)

/-- Whether the text can be written in single quotes. -/
def allowsSingle (s : List Char) : Bool :=
  !(needsEscapes s || hasBreakSpace s)

/-- Whether the text can be written as a literal block. -/
def allowsLiteral (s : List Char) : Bool :=
  !(s.isEmpty || needsEscapes s || s.getLast? == some ' ')

/-- The ways of writing a scalar. -/
inductive Style where
  | plain
  | single
  | double
  | literal
deriving DecidableEq, Repr

/-- How a text is written so that it is read back as a text. -/
def textStyle (s : List Char) : Style :=
  if '\n' ∈ s then (if allowsLiteral s then .literal else .double)
  else if Scalar.meaning s == .text && !Scalar.isPaddedDigits s && allowsPlain s then .plain
  else if allowsSingle s then .single
  else .double

/-! ## Scalars -/

/-- A run of spaces. -/
def spaces (n : Nat) : List Char :=
  List.replicate n ' '

/-- The inside of single quotes; a line break is followed by the indentation. -/
def singleBody (indent : Nat) : Bool → List Char → List Char
  | broken, [] => if broken then spaces indent else []
  | broken, c :: rest =>
    if isBreak c then c :: singleBody indent true rest
    else (if broken then spaces indent else []) ++
      (if c == '\'' then ['\'', '\''] else [c]) ++ singleBody indent false rest

/-- An upper-case hexadecimal number of a fixed number of digits. -/
def hexDigits (width n : Nat) : List Char :=
  let digits := (Nat.toDigits 16 n).map Char.toUpper
  List.replicate (width - digits.length) '0' ++ digits

/-- The escapes of one letter. -/
def shortEscape? (c : Char) : Option Char :=
  ([('\x00', '0'), ('\x07', 'a'), ('\x08', 'b'), ('\t', 't'), ('\n', 'n'), ('\x0b', 'v'),
    ('\x0c', 'f'), ('\r', 'r'), ('\x1b', 'e'), ('"', '"'), ('\\', '\\'), ('\u0085', 'N'),
    ('\u2028', 'L'), ('\u2029', 'P')].find? (·.1 == c)).map (·.2)

/-- What stands for a character in double quotes. -/
def doubleChar (c : Char) : List Char :=
  match shortEscape? c with
  | some letter => ['\\', letter]
  | none =>
    if isPrintable c then [c]
    else if c.toNat ≤ 0xFF then '\\' :: 'x' :: hexDigits 2 c.toNat
    else if c.toNat ≤ 0xFFFF then '\\' :: 'u' :: hexDigits 4 c.toNat
    else '\\' :: 'U' :: hexDigits 8 c.toNat

/-- The lines of a literal block; every line that holds something is indented. -/
def literalBody (indent : Nat) : Bool → List Char → List Char
  | _, [] => []
  | broken, c :: rest =>
    if isBreak c then c :: literalBody indent true rest
    else (if broken then spaces indent else []) ++ c :: literalBody indent false rest

/-- The marks after the bar of a literal block: the indentation if the text itself starts with a
space or a break, and what becomes of the breaks at its end. -/
def literalHints (s : List Char) : List Char :=
  (if s.head?.any fun c => c == ' ' || isBreak c then ['2'] else []) ++
    (match s.reverse with
      | [] => ['-']
      | [c] => if isBreak c then ['+'] else ['-']
      | c :: d :: _ => if isBreak c then (if isBreak d then ['+'] else []) else ['-'])

/-- The text up to a line break at its end, which is added if it has none. -/
def endLine (s : List Char) : List Char :=
  if s.getLast?.any isBreak then s else s ++ ['\n']

/-- A scalar on one line, without the break at its end. -/
def inlineScalar (indent : Nat) (style : Style) (s : List Char) : List Char :=
  match style with
  | .single => '\'' :: (singleBody indent false s ++ ['\''])
  | .double => '"' :: (s.flatMap doubleChar ++ ['"'])
  | _ => s

/-- A scalar with the break at its end. -/
def scalarLine (indent : Nat) (style : Style) (s : List Char) : List Char :=
  match style with
  | .literal => endLine ('|' :: (literalHints s ++ '\n' :: literalBody indent true s))
  | _ => inlineScalar indent style s ++ ['\n']

/-- The style and the text of a scalar; absent for collections and tagged values. -/
def scalar? : Value → Option (Style × List Char)
  | .null => some (.plain, "null".toList)
  | .bool b => some (.plain, (boolText b).toList)
  | .number n => some (.plain, n.text.toList)
  | .string s => some (textStyle s.toList, s.toList)
  | _ => none

/-! ## Tags -/

/-- A tag in full: a mark and the name. -/
def fullTag (tag : String) : List Char :=
  match (tagName tag).toList with
  | '!' :: rest => '!' :: rest
  | name => '!' :: name

/-- The characters that stand for themselves in a tag. -/
def isTagChar (c : Char) : Bool :=
  c.isAlphanum || ['-', '_', ';', '/', '?', ':', '@', '&', '=', '+', '$', ',', '.', '~', '*', '\'',
    '(', ')', '[', ']'].any (· == c)

/-- What stands for a character in a tag. -/
def tagChar (c : Char) : List Char :=
  if isTagChar c then [c]
  else (String.singleton c).toUTF8.toList.flatMap fun b => '%' :: hexDigits 2 b.toNat

/-- The written form of a tag. -/
def tagText (tag : String) : List Char :=
  match fullTag tag with
  | '!' :: c :: rest => '!' :: (c :: rest).flatMap tagChar
  | s => '!' :: '<' :: (s.flatMap tagChar ++ ['>'])

/-! ## Nodes -/

/-- Where a node stands.  The number is the column of the collection around it. -/
inductive Place where
  | root
  /-- After the dash of a sequence entry. -/
  | item (column : Nat)
  /-- After the question mark or the colon of an entry whose key has lines of its own. -/
  | mark (column : Nat)
  /-- After a key and its colon. -/
  | field (column : Nat)
deriving DecidableEq, Repr

namespace Place

/-- The indentation of the lines of a scalar. -/
def scalarColumn : Place → Nat
  | root => 2
  | item column => column + 2
  | mark column => column + 2
  | field column => column + 2

/-- The column of the entries of a mapping. -/
def mappingColumn : Place → Nat
  | root => 0
  | item column => column + 2
  | mark column => column + 2
  | field column => column + 2

/-- The column of the entries of a sequence; below a key or a tag in a mapping they stand at the
column of the mapping. -/
def sequenceColumn (hasTag : Bool) : Place → Nat
  | root => 0
  | item column => column + 2
  | mark column => if hasTag then column else column + 2
  | field column => column

/-- Whether something stands before the node on its line. -/
def isInline : Place → Bool
  | root => false
  | _ => true

/-- What comes before the first entry of a collection: a space on the line of the dash or mark, or
a new line after a key or a tag. -/
def lead (hasTag : Bool) (column : Nat) : Place → List Char
  | root => if hasTag then '\n' :: spaces column else []
  | field _ => '\n' :: spaces column
  | _ => if hasTag then '\n' :: spaces column else [' ']

end Place

/-- The tag of a node, after a space if something stands before it. -/
def tagPart (place : Place) : Option String → List Char
  | none => []
  | some tag => (if place.isInline then [' '] else []) ++ tagText tag

/-- The space before a node on the line of its key, dash or tag. -/
def gap (place : Place) (tag : Option String) : List Char :=
  if place.isInline || tag.isSome then [' '] else []

/-- The number of bytes of a text. -/
def byteLength (s : List Char) : Nat :=
  (String.ofList s).utf8ByteSize

/-- Keys of more bytes than this have lines of their own. -/
def longestSimpleKey : Nat := 128

/-- A key that fits on the line of its value, without the colon. -/
def simpleKey? (column : Nat) : Value → Option (List Char)
  | .tagged tag v => (simple? v).bind fun (text, size) =>
      if (fullTag tag |> byteLength) + size ≤ longestSimpleKey then
        some (tagText tag ++ ' ' :: text)
      else none
  | v => (simple? v).bind fun (text, size) => if size ≤ longestSimpleKey then some text else none
where
  simple? : Value → Option (List Char × Nat)
    | .sequence [] => some ("[]".toList, 0)
    | .mapping [] => some (['\x7b', '\x7d'], 0)
    | v => (scalar? v).bind fun (style, s) =>
        if s.any isBreak then none else some (inlineScalar (column + 2) style s, byteLength s)

mutual

/-- The text of a node under an optional tag, from what precedes it on its line to the break at
its end. -/
def node (place : Place) (tag : Option String) : Value → List Char
  | .tagged inner v => node place (some inner) v
  | .sequence [] => tagPart place tag ++ gap place tag ++ "[]\n".toList
  | .sequence (x :: xs) =>
    let column := place.sequenceColumn tag.isSome
    tagPart place tag ++ place.lead tag.isSome column ++
      '-' :: node (.item column) none x ++ items column xs
  | .mapping [] => tagPart place tag ++ gap place tag ++ ['\x7b', '\x7d', '\n']
  | .mapping ((k, v) :: rest) =>
    let column := place.mappingColumn
    tagPart place tag ++ place.lead tag.isSome column ++
      (match simpleKey? column k with
        | some key => key ++ ':' :: node (.field column) none v
        | none => '?' :: node (.mark column) none k ++
            spaces column ++ ':' :: node (.mark column) none v) ++
      entries column rest
  | v => tagPart place tag ++ gap place tag ++
      (match scalar? v with
        | some (style, s) => scalarLine place.scalarColumn style s
        | none => [])

/-- The entries of a sequence after the first one. -/
def items (column : Nat) : List Value → List Char
  | [] => []
  | x :: xs => spaces column ++ '-' :: node (.item column) none x ++ items column xs

/-- The entries of a mapping after the first one. -/
def entries (column : Nat) : List (Value × Value) → List Char
  | [] => []
  | (k, v) :: rest =>
    spaces column ++
      (match simpleKey? column k with
        | some key => key ++ ':' :: node (.field column) none v
        | none => '?' :: node (.mark column) none k ++
            spaces column ++ ':' :: node (.mark column) none v) ++
      entries column rest

end

/-! ## Documents -/

/-- A tag as the one key of a mapping would read as the tag of its value, and so would the one key
of a mapping of one entry. -/
def ambiguousKey : List (Value × Value) → Bool
  | [(.tagged _ _, _)] => true
  | [(.mapping [_], _)] => true
  | _ => false

mutual

/-- Whether a value has a written form.  A tag stands for one value, so no tag stands under a tag. -/
def isWritable (underTag : Bool) : Value → Bool
  | .tagged _ v => !underTag && isWritable true v
  | .sequence xs => areWritable xs
  | .mapping es => (underTag || !ambiguousKey es) && entriesWritable es
  | _ => true

/-- Whether every item has a written form. -/
def areWritable : List Value → Bool
  | [] => true
  | x :: xs => isWritable false x && areWritable xs

/-- Whether every key and value has a written form. -/
def entriesWritable : List (Value × Value) → Bool
  | [] => true
  | (k, v) :: rest => isWritable false k && isWritable false v && entriesWritable rest

end

/-- The text of a document. -/
def document (v : Value) : List Char :=
  node .root none v

end Printer

/-- Writes a document. -/
def Value.write (v : Value) : Except Fault String :=
  if Printer.isWritable false v then .ok (String.ofList (Printer.document v))
  else .error .unwritable

end ClusterTuning.Yaml
