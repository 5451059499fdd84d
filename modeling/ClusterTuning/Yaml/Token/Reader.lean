import ClusterTuning.Yaml.Token.Tag

/-!
# Reading tokens

The text is read from left to right.  Outside brackets the columns of the lines
open and close block collections.  A scalar, a bracket, an alias or a node's
properties may turn out to be the key of a mapping when a colon follows on the same
line; the token for the key is then put in before it.
-/

namespace ClusterTuning.Yaml.Token

/-- A place where a key without a mark of its own may have started. -/
structure SimpleKey where
  /-- The line has to hold a key. -/
  required : Bool
  /-- The number of tokens before the key. -/
  position : Nat
  mark : Mark
deriving Repr

/-- The state of the reader. -/
structure Reader where
  cursor : Cursor
  /-- The tokens so far, reversed. -/
  tokens : List Token := []
  /-- Their number. -/
  count : Nat := 0
  /-- The possible key at each level of brackets, the innermost first. -/
  keys : List (Option SimpleKey) := [none]
  /-- A key without a mark may start here. -/
  keyAllowed : Bool := true
  /-- The column of the innermost block collection, `-1` outside any. -/
  indent : Int := -1
  /-- The columns of the collections around it. -/
  indents : List Int := []
deriving Repr

namespace Reader

/-- Whether the place is between brackets. -/
def inFlow (r : Reader) : Bool :=
  match r.keys with
  | _ :: _ :: _ => true
  | _ => false

/-- Adds a token. -/
def emit (r : Reader) (token : Token) : Reader :=
  { r with tokens := token :: r.tokens, count := r.count + 1 }

/-- Puts a token in after the first `position` ones. -/
def emitAt (r : Reader) (position : Nat) (token : Token) : Reader :=
  { r with tokens := r.tokens.insertIdx (r.count - position) token, count := r.count + 1 }

/-- Moves on by `n` characters of the line. -/
def skip (r : Reader) (n : Nat) : Reader :=
  { r with cursor := r.cursor.skip n }

/-! ## Keys -/

/-- A key that ended without a colon: too long, or on an earlier line. -/
def isStale (r : Reader) (key : SimpleKey) : Bool :=
  key.mark.line < r.cursor.mark.line || key.mark.index + 1024 < r.cursor.mark.index

/-- Forgets the keys that can no longer be keys. -/
def dropStaleKeys (r : Reader) : Except Fault Reader :=
  if r.keys.any fun key => key.any fun k => r.isStale k && k.required then .error .token
  else .ok { r with keys := r.keys.map fun key => key.filter fun k => !r.isStale k }

/-- Forgets the key at the innermost level. -/
def removeKey (r : Reader) : Except Fault Reader :=
  match r.keys with
  | some k :: rest =>
    if k.required then .error .token else .ok { r with keys := none :: rest }
  | _ => .ok r

/-- Remembers that a key may start here. -/
def saveKey (r : Reader) : Except Fault Reader :=
  if r.keyAllowed then do
    let required := !r.inFlow && r.indent == (r.cursor.mark.column : Int)
    let r ← r.removeKey
    .ok { r with keys := some ⟨required, r.count, r.cursor.mark⟩ :: r.keys.tail }
  else .ok r

/-! ## Indentation -/

/-- Closes the block collections that stand to the right of a column. -/
def unrollTo (column : Int) : List Int → Reader → Reader
  | [], r => r
  | outer :: rest, r =>
    if column < r.indent then
      unrollTo column rest { r.emit .blockEnd with indent := outer, indents := rest }
    else r

/-- Closes the block collections that stand to the right of a column, outside brackets. -/
def unroll (r : Reader) (column : Int) : Reader :=
  if r.inFlow then r else unrollTo column r.indents r

/-- Opens a block collection at a column to the right of the innermost one, outside brackets. -/
def roll (r : Reader) (column : Nat) (position : Nat) (token : Token) : Reader :=
  if !r.inFlow && r.indent < (column : Int) then
    { r.emitAt position token with indent := column, indents := r.indent :: r.indents }
  else r

/-! ## Blanks between tokens -/

/-- Passes blanks, comments and line breaks, and a mark of the byte order at the start of a line.
Tabs may not indent a line that starts with a key.
The last argument tells whether a comment is being passed. -/
def passGap (inFlow : Bool) : List Char → Mark → Bool → Bool → Cursor × Bool
  | [], mark, keyAllowed, _ => (⟨[], mark⟩, keyAllowed)
  | '\r' :: '\n' :: rest, mark, keyAllowed, _ =>
    passGap inFlow rest (mark.newline 2) (keyAllowed || !inFlow) false
  | c :: rest, mark, keyAllowed, inComment =>
    if isBreak c then passGap inFlow rest mark.newline (keyAllowed || !inFlow) false
    else if inComment || c == ' ' || (c == '\ufeff' && mark.column == 0) ||
        (c == '\t' && (inFlow || !keyAllowed)) then
      passGap inFlow rest mark.advance keyAllowed inComment
    else if c == '#' then passGap inFlow rest mark.advance keyAllowed true
    else (⟨c :: rest, mark⟩, keyAllowed)

/-! ## The tokens -/

/-- A directive or a document mark closes every block collection. -/
def atLineStart (r : Reader) : Except Fault Reader := do
  let r ← (r.unroll (-1)).removeKey
  .ok { r with keyAllowed := false }

/-- A directive. -/
def directive (r : Reader) : Except Fault Reader := do
  let r ← r.atLineStart
  let (token, cursor) ← readDirective r.cursor
  .ok { r.emit token with cursor }

/-- The mark of a document start or end. -/
def documentMark (r : Reader) (token : Token) : Except Fault Reader := do
  let r ← r.atLineStart
  .ok ((r.emit token).skip 3)

/-- An opening bracket. -/
def openFlow (r : Reader) (token : Token) : Except Fault Reader := do
  let r ← r.saveKey
  .ok ({ r.emit token with keys := none :: r.keys, keyAllowed := true }.skip 1)

/-- A closing bracket. -/
def closeFlow (r : Reader) (token : Token) : Except Fault Reader := do
  let r ← r.removeKey
  let keys := if r.inFlow then r.keys.tail else r.keys
  .ok ({ r.emit token with keys, keyAllowed := false }.skip 1)

/-- A comma between brackets. -/
def flowComma (r : Reader) : Except Fault Reader := do
  let r ← r.removeKey
  .ok ({ r.emit .flowEntry with keyAllowed := true }.skip 1)

/-- The dash of a sequence entry. -/
def dash (r : Reader) : Except Fault Reader := do
  if !r.inFlow && !r.keyAllowed then .error .token
  let r := r.roll r.cursor.mark.column r.count .blockSequenceStart
  let r ← r.removeKey
  .ok ({ r.emit .blockEntry with keyAllowed := true }.skip 1)

/-- The question mark before a key. -/
def keyMark (r : Reader) : Except Fault Reader := do
  if !r.inFlow && !r.keyAllowed then .error .token
  let r := r.roll r.cursor.mark.column r.count .blockMappingStart
  let r ← r.removeKey
  .ok ({ r.emit .key with keyAllowed := !r.inFlow }.skip 1)

/-- The colon before a value. -/
def valueMark (r : Reader) : Except Fault Reader :=
  match r.keys.head? with
  | some (some k) =>
    let r := (r.emitAt k.position .key).roll k.mark.column k.position .blockMappingStart
    .ok ({ r.emit .value with keys := none :: r.keys.tail, keyAllowed := false }.skip 1)
  | _ => do
    if !r.inFlow && !r.keyAllowed then .error .token
    let r := r.roll r.cursor.mark.column r.count .blockMappingStart
    .ok ({ r.emit .value with keyAllowed := !r.inFlow }.skip 1)

/-- An alias, an anchor or a tag. -/
def property (r : Reader) (read : Cursor → Except Fault (Token × Cursor)) :
    Except Fault Reader := do
  let r ← r.saveKey
  let (token, cursor) ← read r.cursor
  .ok { r.emit token with keyAllowed := false, cursor }

/-- A block scalar, which is never a key. -/
def blockScalar (r : Reader) (isFolded : Bool) : Except Fault Reader := do
  let r ← r.removeKey
  let found ← readBlock isFolded r.indent r.cursor
  .ok { r.emit (.scalar (if isFolded then .folded else .literal) found.text) with
    keyAllowed := true, cursor := found.cursor }

/-- A quoted or plain scalar. -/
def flowScalar (r : Reader) (style : ScalarStyle) (read : Cursor → Except Fault ScalarRead) :
    Except Fault Reader := do
  let r ← r.saveKey
  let found ← read r.cursor
  .ok { r.emit (.scalar style found.text) with keyAllowed := found.crossedLine, cursor := found.cursor }

/-- The characters that begin no plain scalar. -/
def isIndicator (c : Char) : Bool :=
  ['-', '?', ':', ',', '[', ']', '\x7b', '\x7d', '#', '&', '*', '!', '|', '>', '\'', '"', '%', '@',
    '\x60'].any (· == c)

/-- Whether a plain scalar starts with the character `c` before `rest`. -/
def startsPlain (inFlow : Bool) (c : Char) (rest : List Char) : Bool :=
  !(isBlank c || isIndicator c) ||
    (c == '-' && !(rest.head?.any isBlank)) ||
    (!inFlow && (c == '?' || c == ':') && !atGap rest)

/-- Reads the token that starts with the character `c`. -/
def token (r : Reader) (c : Char) (rest : List Char) : Except Fault Reader :=
  let atStart := r.cursor.mark.column == 0
  if atStart && c == '%' then r.directive
  else if atStart && atDocumentMark (c :: rest) then
    r.documentMark (if c == '-' then .documentStart else .documentEnd)
  else if c == '[' then r.openFlow .flowSequenceStart
  else if c == '\x7b' then r.openFlow .flowMappingStart
  else if c == ']' then r.closeFlow .flowSequenceEnd
  else if c == '\x7d' then r.closeFlow .flowMappingEnd
  else if c == ',' then r.flowComma
  else if c == '-' && atGap rest then r.dash
  else if c == '?' && (r.inFlow || atGap rest) then r.keyMark
  else if c == ':' && (r.inFlow || atGap rest) then r.valueMark
  else if c == '*' then r.property (readAnchor .mention)
  else if c == '&' then r.property (readAnchor .anchor)
  else if c == '!' then r.property (readTag r.inFlow)
  else if c == '|' && !r.inFlow then r.blockScalar false
  else if c == '>' && !r.inFlow then r.blockScalar true
  else if c == '\'' then
    r.flowScalar .singleQuoted fun cursor =>
      readSingle (cursor.rest.drop 1) cursor.mark.advance [] .none
  else if c == '"' then
    r.flowScalar .doubleQuoted fun cursor =>
      readDouble (cursor.rest.drop 1) cursor.mark.advance [] .none none
  else if startsPlain r.inFlow c rest then
    r.flowScalar .plain fun cursor =>
      readPlain r.inFlow (r.indent + 1).toNat cursor.rest cursor.mark [] .none
  else .error .token

/-- The end of the text closes every block collection. -/
def finish (r : Reader) : Except Fault (List Token) := do
  let r ← (r.unroll (-1)).removeKey
  .ok r.tokens.reverse

/-- Reads the remaining tokens, `steps` of them at most. -/
def run : Nat → Reader → Except Fault (List Token)
  | 0, _ => .error .token
  | steps + 1, r => do
    let (cursor, keyAllowed) := passGap r.inFlow r.cursor.rest r.cursor.mark r.keyAllowed false
    let r ← { r with cursor, keyAllowed }.dropStaleKeys
    let r := r.unroll cursor.mark.column
    match cursor.rest with
    | [] => r.finish
    | c :: rest => run steps (← r.token c rest)

end Reader

/-- Reads the tokens of a text. -/
def readAll (text : List Char) : Except Fault (List Token) :=
  if text.all isAllowed then Reader.run (text.length + 1) { cursor := ⟨text, {}⟩ }
  else .error .character

end ClusterTuning.Yaml.Token
