import ClusterTuning.Numeric.Decimal
import ClusterTuning.Text.Pieces
import ClusterTuning.Text.Quoted

/-!
# Paths of fields

A path leads from the root of a document to one of its values.  A plain segment
names a field of a mapping; a segment in square brackets addresses a list entry
by a keyed field (`[name=app]`), by its own text (`[=value]`) or by its position
(`[0]`).
-/

namespace ClusterTuning

/-- One step of a path. -/
inductive Segment where
  /-- A field of a mapping. -/
  | field (name : String)
  /-- The list entry whose field `key` has the given text; without a key, the entry itself. -/
  | keyed (key value : String)
  /-- The list entry at a position. -/
  | index (position : Nat)
deriving DecidableEq, Repr

namespace Path

/-- Why a path cannot be used. -/
inductive Fault where
  | wholeDocument
  | emptyField
  | malformedIndex (segment : String)
  | notMapping (segment : Segment)
  | notSequence (segment : Segment)
  | noEntry (segment : Segment)
deriving DecidableEq, Repr

/-- Whether a segment addresses a list entry. -/
def isListIndex (segment : List Char) : Bool :=
  segment.head? == some '[' && segment.getLast? == some ']'

/-- What stands between the brackets of a list index. -/
def bracketed? (segment : List Char) : Option (List Char) :=
  if isListIndex segment then some segment.tail.dropLast else none

/-- The field and the value of a keyed list index. -/
def splitKeyed? (segment : List Char) : Option (List Char × List Char) :=
  (bracketed? segment).bind (Text.cutFirst '=')

/-- Positions are below this bound. -/
def positionBound : Nat := 18446744073709551616

/-- A position: digits with an optional plus sign. -/
def readPosition? (text : List Char) : Option Nat :=
  let digits := match text with
    | '+' :: rest => rest
    | s => s
  (readNat? digits).filter (· < positionBound)

end Path

/-- Reads one segment. -/
def Segment.parse (text : String) : Except Path.Fault Segment :=
  match Path.bracketed? text.toList with
  | none => if text.isEmpty then .error .emptyField else .ok (.field text)
  | some inner =>
    match Text.cutFirst '=' inner with
    | some (key, value) => .ok (.keyed (String.ofList key) (String.ofList value))
    | none =>
      match Path.readPosition? inner with
      | some position => .ok (.index position)
      | none => .error (.malformedIndex text)

/-- Reads every segment of a path. -/
def Path.parse (segments : List String) : Except Path.Fault (List Segment) :=
  segments.mapM Segment.parse

/-- How a segment is shown in messages. -/
def Segment.describe : Segment → String
  | .field name => "Field(" ++ Text.quoted name ++ ")"
  | .keyed key value =>
    "Keyed \x7b field: " ++ Text.quoted key ++ ", value: " ++ Text.quoted value ++ " \x7d"
  | .index position => "Index(" ++ intText position ++ ")"

namespace Path.Fault

/-- The path, or the segment of it, that a fault is about. -/
def subject : Fault → String
  | wholeDocument => ""
  | emptyField => ""
  | malformedIndex segment => segment
  | notMapping segment => segment.describe
  | notSequence segment => segment.describe
  | noEntry segment => segment.describe

/-- What is wrong with it. -/
def reason : Fault → String
  | wholeDocument => "cannot replace the whole document"
  | emptyField => "empty field name"
  | malformedIndex _ => "list index must be a position or field=value"
  | notMapping _ => "expected a mapping"
  | notSequence _ => "expected a sequence"
  | noEntry _ => "expected an existing list entry"

end Path.Fault

end ClusterTuning
