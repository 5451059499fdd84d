import ClusterTuning.Yaml.Token

/-!
# Reading scalars

Scalars over several lines are folded: blanks around a line break fall away, a
single break becomes a space and of several breaks the first one falls away.
Literal blocks keep their lines, less the indentation.
-/

namespace ClusterTuning.Yaml.Token

/-- What a scalar reader found. -/
structure ScalarRead where
  text : List Char
  cursor : Cursor
  /-- A line break was passed after the last character. -/
  crossedLine : Bool := false
deriving Repr

/-- Blanks and breaks that are passed and not yet part of the text. -/
inductive Gap where
  | none
  /-- Blanks of one line, reversed. -/
  | blanks (reversed : List Char)
  /-- The first break, if it was not escaped, and the breaks after it, reversed. -/
  | lines (first : Option Char) (reversed : List Char)
deriving DecidableEq, Repr

namespace Gap

/-- Whether a line break was passed. -/
def crossedLine : Gap → Bool
  | lines _ _ => true
  | _ => false

/-- Whether nothing was passed. -/
def isNone : Gap → Bool
  | none => true
  | _ => false

/-- One more blank. -/
def pushBlank (c : Char) : Gap → Gap
  | none => blanks [c]
  | blanks r => blanks (c :: r)
  | lines first r => lines first r

/-- One more line break. -/
def pushBreak (c : Char) : Gap → Gap
  | lines first r => lines first (breakText c :: r)
  | _ => lines (some (breakText c)) []

/-- What the gap becomes in the text, reversed. -/
def folded : Gap → List Char
  | none => []
  | blanks r => r
  | lines (some '\n') r => if r = [] then [' '] else r
  | lines (some c) r => r ++ [c]
  | lines Option.none r => r

end Gap

/-! ## Plain scalars -/

/-- The characters that end a plain scalar between brackets. -/
def isFlowIndicator (c : Char) : Bool :=
  c == ',' || c == '[' || c == ']' || c == '\x7b' || c == '\x7d'

/-- Reads a plain scalar.  Outside brackets its lines are indented to `indent` at least. -/
def readPlain (inFlow : Bool) (indent : Nat) : List Char → Mark → List Char → Gap →
    Except Fault ScalarRead
  | [], mark, text, gap => .ok ⟨text.reverse, ⟨[], mark⟩, gap.crossedLine⟩
  | '\r' :: '\n' :: rest, mark, text, gap =>
    readPlain inFlow indent rest (mark.newline 2) text (gap.pushBreak '\n')
  | c :: rest, mark, text, gap =>
    if isBlank c then
      if gap.crossedLine && c == '\t' && mark.column < indent then .error .token
      else readPlain inFlow indent rest mark.advance text (gap.pushBlank c)
    else if isBreak c then
      readPlain inFlow indent rest mark.newline text (gap.pushBreak c)
    else if (!gap.isNone && !inFlow && mark.column < indent) ||
        (mark.column == 0 && atDocumentMark (c :: rest)) ||
        (!gap.isNone && c == '#') then
      .ok ⟨text.reverse, ⟨c :: rest, mark⟩, gap.crossedLine⟩
    else if inFlow && c == ':' && rest.head?.any (fun d => isFlowIndicator d || d == '?') then
      .error .token
    else if (c == ':' && atGap rest) || (inFlow && isFlowIndicator c) then
      .ok ⟨text.reverse, ⟨c :: rest, mark⟩, gap.crossedLine⟩
    else readPlain inFlow indent rest mark.advance (c :: (gap.folded ++ text)) .none

/-! ## Quoted scalars -/

/-- Reads what follows an opening single quote. -/
def readSingle : List Char → Mark → List Char → Gap → Except Fault ScalarRead
  | [], _, _, _ => .error .token
  | '\r' :: '\n' :: rest, mark, text, gap => readSingle rest (mark.newline 2) text (gap.pushBreak '\n')
  | '\'' :: '\'' :: rest, mark, text, gap =>
    readSingle rest (mark.advance 2) ('\'' :: (gap.folded ++ text)) .none
  | c :: rest, mark, text, gap =>
    if mark.column == 0 && atDocumentMark (c :: rest) then .error .token
    else if isBlank c then readSingle rest mark.advance text (gap.pushBlank c)
    else if isBreak c then readSingle rest mark.newline text (gap.pushBreak c)
    else if c == '\'' then .ok ⟨(gap.folded ++ text).reverse, ⟨rest, mark.advance⟩, false⟩
    else readSingle rest mark.advance (c :: (gap.folded ++ text)) .none

/-- The value of a hexadecimal digit. -/
def hexValue? (c : Char) : Option Nat :=
  let n := c.toNat
  if 0x30 ≤ n ∧ n ≤ 0x39 then some (n - 0x30)
  else if 0x41 ≤ n ∧ n ≤ 0x46 then some (n - 0x41 + 10)
  else if 0x61 ≤ n ∧ n ≤ 0x66 then some (n - 0x61 + 10)
  else none

/-- The character that an escape of one letter stands for. -/
def shortEscape? (c : Char) : Option Char :=
  ([('0', '\x00'), ('a', '\x07'), ('b', '\x08'), ('t', '\t'), ('\t', '\t'), ('n', '\n'),
    ('v', '\x0b'), ('f', '\x0c'), ('r', '\r'), ('e', '\x1b'), (' ', ' '), ('"', '"'), ('/', '/'),
    ('\\', '\\'), ('N', '\u0085'), ('_', '\u00A0'), ('L', '\u2028'),
    ('P', '\u2029')].find? (·.1 == c)).map (·.2)

/-- The number of digits of an escape by number. -/
def escapeWidth? (c : Char) : Option Nat :=
  if c == 'x' then some 2 else if c == 'u' then some 4 else if c == 'U' then some 8 else none

/-- The character with a given number, surrogates excluded. -/
def charOfNumber? (n : Nat) : Option Char :=
  if n < 0xD800 ∨ (0xDFFF < n ∧ n ≤ 0x10FFFF) then some (Char.ofNat n) else none

/-- The state of a reader of double quotes within an escape by number. -/
structure NumberEscape where
  left : Nat
  value : Nat
deriving DecidableEq, Repr

/-- Reads what follows an opening double quote.  Within an escape by number, `number` holds the
digits that are missing and the value of those that were read. -/
def readDouble : List Char → Mark → List Char → Gap → Option NumberEscape → Except Fault ScalarRead
  | [], _, _, _, _ => .error .token
  | c :: rest, mark, text, gap, some number =>
    match hexValue? c with
    | none => .error .token
    | some d =>
      let value := number.value * 16 + d
      if 1 < number.left then
        readDouble rest mark.advance text gap (some ⟨number.left - 1, value⟩)
      else match charOfNumber? value with
        | some c => readDouble rest mark.advance (c :: text) .none none
        | none => .error .token
  | '\r' :: '\n' :: rest, mark, text, gap, none =>
    readDouble rest (mark.newline 2) text (gap.pushBreak '\n') none
  | '\\' :: '\r' :: '\n' :: rest, mark, text, gap, none =>
    readDouble rest (mark.newline 3) (gap.folded ++ text) (.lines none []) none
  | '\\' :: c :: rest, mark, text, gap, none =>
    if isBreak c then readDouble rest (mark.newline 2) (gap.folded ++ text) (.lines none []) none
    else match shortEscape? c, escapeWidth? c with
      | some d, _ => readDouble rest (mark.advance 2) (d :: (gap.folded ++ text)) .none none
      | none, some width =>
        readDouble rest (mark.advance 2) (gap.folded ++ text) .none (some ⟨width, 0⟩)
      | none, none => .error .token
  | c :: rest, mark, text, gap, none =>
    if mark.column == 0 && atDocumentMark (c :: rest) then .error .token
    else if isBlank c then readDouble rest mark.advance text (gap.pushBlank c) none
    else if isBreak c then readDouble rest mark.newline text (gap.pushBreak c) none
    else if c == '"' then .ok ⟨(gap.folded ++ text).reverse, ⟨rest, mark.advance⟩, false⟩
    else readDouble rest mark.advance (c :: (gap.folded ++ text)) .none none

/-! ## Block scalars -/

/-- What becomes of the line breaks at the end of a block scalar. -/
inductive Chomping where
  | strip
  | clip
  | keep
deriving DecidableEq, Repr

/-- The marks after the bar or the angle bracket. -/
structure BlockHeader where
  chomping : Chomping := .clip
  increment : Option Nat := none
deriving DecidableEq, Repr

/-- The chomping mark at the start of a text. -/
def readChomping? : List Char → Option (Chomping × List Char)
  | '+' :: rest => some (.keep, rest)
  | '-' :: rest => some (.strip, rest)
  | _ => none

/-- The indentation mark at the start of a text; zero is no indentation. -/
def readIncrement : List Char → Except Fault (Option Nat × List Char)
  | c :: rest =>
    if c == '0' then .error .token
    else if '1' ≤ c ∧ c ≤ '9' then .ok (some (c.toNat - 0x30), rest)
    else .ok (none, c :: rest)
  | [] => .ok (none, [])

/-- The marks of a block scalar, in either order, and what follows them. -/
def readBlockHeader (s : List Char) : Except Fault (BlockHeader × List Char) :=
  match readChomping? s with
  | some (chomping, rest) => do
    let (increment, rest) ← readIncrement rest
    .ok (⟨chomping, increment⟩, rest)
  | none => do
    let (increment, rest) ← readIncrement s
    match increment, readChomping? rest with
    | some n, some (chomping, rest) => .ok (⟨chomping, some n⟩, rest)
    | increment, _ => .ok (⟨.clip, increment⟩, rest)

/-- The empty lines before the first line of a block whose indentation is not known, and the
greatest indentation among them and that line. -/
structure LeadingLines where
  cursor : Cursor
  /-- The breaks, reversed. -/
  breaks : List Char
  widest : Nat
deriving Repr

/-- Passes the empty lines before a block whose indentation is not known. -/
def readLeadingLines : List Char → Mark → List Char → Nat → Except Fault LeadingLines
  | [], mark, breaks, widest => .ok ⟨⟨[], mark⟩, breaks, max widest mark.column⟩
  | '\r' :: '\n' :: rest, mark, breaks, widest =>
    readLeadingLines rest (mark.newline 2) ('\n' :: breaks) (max widest mark.column)
  | c :: rest, mark, breaks, widest =>
    if c == ' ' then readLeadingLines rest mark.advance breaks widest
    else if c == '\t' then .error .token
    else if isBreak c then
      readLeadingLines rest mark.newline (breakText c :: breaks) (max widest mark.column)
    else .ok ⟨⟨c :: rest, mark⟩, breaks, max widest mark.column⟩

/-- The lines of a block that were read. -/
structure BlockLines where
  /-- The text up to the end of the last line that holds something, reversed. -/
  text : List Char := []
  /-- The break at the end of that line. -/
  lineBreak : Option Char := none
  /-- The breaks of the empty lines after it, reversed. -/
  emptyLines : List Char := []
  /-- That line started with a blank. -/
  indentedMore : Bool := false
  /-- A line is being read. -/
  inLine : Bool := false
deriving Repr

namespace BlockLines

/-- The text before a further line that starts with the character `c`, reversed.  In folded blocks a
single break between lines that start with no blank becomes a space. -/
def joined (lines : BlockLines) (isFolded : Bool) (c : Char) : List Char :=
  let folds := isFolded && lines.lineBreak == some '\n' && !lines.indentedMore && !isBlank c
  if folds then
    (if lines.emptyLines = [] then ' ' :: lines.text else lines.emptyLines ++ lines.text)
  else lines.emptyLines ++ (lines.lineBreak.toList ++ lines.text)

/-- The whole text, its end treated as the header says. -/
def chomped (lines : BlockLines) : Chomping → List Char
  | .strip => lines.text.reverse
  | .clip => (lines.lineBreak.toList ++ lines.text).reverse
  | .keep => (lines.emptyLines ++ (lines.lineBreak.toList ++ lines.text)).reverse

end BlockLines

/-- Reads the lines of a block at a known indentation. -/
def readBlockLines (isFolded : Bool) (indent : Nat) : List Char → Mark → BlockLines →
    Except Fault (BlockLines × Cursor)
  | [], mark, lines => .ok (lines, ⟨[], mark⟩)
  | '\r' :: '\n' :: rest, mark, lines =>
    readBlockLines isFolded indent rest (mark.newline 2)
      (if lines.inLine then { lines with lineBreak := some '\n', emptyLines := [], inLine := false }
       else { lines with emptyLines := '\n' :: lines.emptyLines })
  | c :: rest, mark, lines =>
    if isBreak c then
      readBlockLines isFolded indent rest mark.newline
        (if lines.inLine then
          { lines with lineBreak := some (breakText c), emptyLines := [], inLine := false }
         else { lines with emptyLines := breakText c :: lines.emptyLines })
    else if lines.inLine then
      readBlockLines isFolded indent rest mark.advance { lines with text := c :: lines.text }
    else if mark.column < indent then
      if c == ' ' then readBlockLines isFolded indent rest mark.advance lines
      else if c == '\t' then .error .token
      else .ok (lines, ⟨c :: rest, mark⟩)
    else
      readBlockLines isFolded indent rest mark.advance
        { text := c :: lines.joined isFolded c, lineBreak := none, emptyLines := [],
          indentedMore := isBlank c, inLine := true }

/-- A line break at the start of a text is passed. -/
def passBreak (cursor : Cursor) : Cursor :=
  match cursor.rest with
  | '\r' :: '\n' :: rest => ⟨rest, cursor.mark.newline 2⟩
  | c :: rest => if isBreak c then ⟨rest, cursor.mark.newline⟩ else cursor
  | [] => cursor

/-- Passes the blanks and the comment at the end of a line, and its break.  Anything else there is a
fault. -/
def passLineEnd (cursor : Cursor) : Except Fault Cursor :=
  let cursor := cursor.skip (cursor.rest.takeWhile isBlank).length
  let cursor :=
    if cursor.rest.head? == some '#' then
      cursor.skip (cursor.rest.takeWhile fun c => !isBreak c).length
    else cursor
  if atBreak cursor.rest then .ok (passBreak cursor) else .error .token

/-- Reads a block scalar from its bar or angle bracket on.  The collection around it stands at
`parent`, which is `-1` outside any collection. -/
def readBlock (isFolded : Bool) (parent : Int) (cursor : Cursor) : Except Fault ScalarRead := do
  let (header, rest) ← readBlockHeader (cursor.rest.drop 1)
  let cursor ← passLineEnd (cursor.skip (cursor.rest.length - rest.length))
  let (indent, breaks, cursor) ← match header.increment with
    | some n => pure ((max parent 0).toNat + n, [], cursor)
    | none => do
      let leading ← readLeadingLines cursor.rest cursor.mark [] 0
      pure (max (max leading.widest (parent + 1).toNat) 1, leading.breaks, leading.cursor)
  let (lines, cursor) ←
    readBlockLines isFolded indent cursor.rest cursor.mark { emptyLines := breaks }
  .ok ⟨lines.chomped header.chomping, cursor, true⟩

end ClusterTuning.Yaml.Token
