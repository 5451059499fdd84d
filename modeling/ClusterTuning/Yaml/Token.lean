import ClusterTuning.Yaml.Fault

/-!
# Tokens of documents

The units a text of documents consists of, and places in that text.  Block
collections have no brackets of their own: their start and end are tokens that
follow from the indentation.
-/

namespace ClusterTuning.Yaml

/-- How a scalar is written. -/
inductive ScalarStyle where
  | plain
  | singleQuoted
  | doubleQuoted
  | literal
  | folded
deriving DecidableEq, Repr, Inhabited

/-- A text in which an escape may stand for bytes that form no character. -/
structure Escaped where
  text : List Char
  /-- Every escape stands for a character. -/
  readable : Bool := true
deriving DecidableEq, Repr, Inhabited

/-- A token. -/
inductive Token where
  | version (major minor : Nat)
  | tagDirective (handle : List Char) (expansion : Escaped)
  | documentStart
  | documentEnd
  | blockSequenceStart
  | blockMappingStart
  | blockEnd
  | flowSequenceStart
  | flowSequenceEnd
  | flowMappingStart
  | flowMappingEnd
  | blockEntry
  | flowEntry
  | key
  | value
  | mention (name : List Char)
  | anchor (name : List Char)
  | tag (handle : List Char) (suffix : Escaped)
  | scalar (style : ScalarStyle) (text : List Char)
deriving DecidableEq, Repr, Inhabited

/-- A place in a text. -/
structure Mark where
  index : Nat := 0
  line : Nat := 0
  column : Nat := 0
deriving DecidableEq, Repr, Inhabited

namespace Mark

/-- The place after `n` characters of the same line. -/
def advance (mark : Mark) (n : Nat := 1) : Mark :=
  { mark with index := mark.index + n, column := mark.column + n }

/-- The place after a line break of `n` characters. -/
def newline (mark : Mark) (n : Nat := 1) : Mark :=
  { index := mark.index + n, line := mark.line + 1, column := 0 }

end Mark

/-- What is left of a text, and where it starts. -/
structure Cursor where
  rest : List Char
  mark : Mark := {}
deriving Repr, Inhabited

/-- The cursor after `n` characters of the same line. -/
def Cursor.skip (cursor : Cursor) (n : Nat) : Cursor :=
  { rest := cursor.rest.drop n, mark := cursor.mark.advance n }

/-! ## Classes of characters -/

namespace Token

/-- The characters that break lines. -/
def isBreak (c : Char) : Bool :=
  c == '\n' || c == '\r' || c == '\u0085' || c == '\u2028' || c == '\u2029'

/-- Spaces and tabs. -/
def isBlank (c : Char) : Bool :=
  c == ' ' || c == '\t'

/-- Whether a text is at a blank, at a break or at its end. -/
def atGap : List Char → Bool
  | [] => true
  | c :: _ => isBlank c || isBreak c

/-- Whether a text is at a break or at its end. -/
def atBreak : List Char → Bool
  | [] => true
  | c :: _ => isBreak c

/-- The characters of anchors and of the names of directives. -/
def isWordChar (c : Char) : Bool :=
  c.isAlphanum || c == '_' || c == '-'

/-- Whether a line starts with the mark of a document start or end. -/
def atDocumentMark : List Char → Bool
  | '-' :: '-' :: '-' :: rest => atGap rest
  | '.' :: '.' :: '.' :: rest => atGap rest
  | _ => false

/-- The characters that a text of documents may hold. -/
def isAllowed (c : Char) : Bool :=
  let n := c.toNat
  n == 0x09 || n == 0x0A || n == 0x0D || (0x20 ≤ n && n ≤ 0x7E) || n == 0x85 ||
    (0xA0 ≤ n && n ≤ 0xFFFD) || 0x10000 ≤ n

/-- The text that a line break counts as: a separator of lines or paragraphs stands for itself, every
other break for a line feed. -/
def breakText (c : Char) : Char :=
  if c == '\u2028' || c == '\u2029' then c else '\n'

end Token

end ClusterTuning.Yaml
