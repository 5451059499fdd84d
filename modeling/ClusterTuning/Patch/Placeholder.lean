import ClusterTuning.Text.Pieces
import ClusterTuning.Yaml.Value

/-!
# Placeholders in patches

A value that is filled in later is written as a template expression.  A whole
number among them carries an integer tag while its document is written, so that
the expression stands in single quotes behind that tag; the tag and the quotes
are taken out of the text afterwards, line by line.
-/

namespace ClusterTuning

open Yaml

namespace Placeholder

/-- The expression for the value of a parameter. -/
def expression (parameter : String) : String :=
  "\x7b\x7b .Values." ++ parameter ++ " \x7d\x7d"

/-- A placeholder for a whole number. -/
def int (expression : String) : Value :=
  .tagged "int" (.string expression)

/-- What follows an integer tag and an opening quote, if the text starts with them. -/
def afterTag? : List Char → Option (List Char)
  | '!' :: 'i' :: 'n' :: 't' :: ' ' :: '\'' :: rest => some rest
  | '!' :: '!' :: 'i' :: 'n' :: 't' :: ' ' :: '\'' :: rest => some rest
  | _ => none

/-- A line without its first tagged quotation, which reaches to the last quote of the line. -/
def bareLine : List Char → List Char
  | [] => []
  | c :: rest =>
    match (afterTag? (c :: rest)).bind (Text.cutLast '\'') with
    | some (inside, after) => inside ++ after
    | none => c :: bareLine rest

/-- The text with the tags and quotes of integers taken out. -/
def bareInts (text : String) : String :=
  String.ofList (Text.glue '\n' ((Text.pieces '\n' text.toList).map bareLine))

end Placeholder

end ClusterTuning
