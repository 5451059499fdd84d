import ClusterTuning.Failure
import ClusterTuning.Text.Lines
import ClusterTuning.Yaml.Decode
import ClusterTuning.Yaml.Printer

/-!
# Streams of documents

A stream is a text of several documents, with `---` lines between them.  Reading
drops documents that are null.  A header stands before the first document as
comment lines.
-/

namespace ClusterTuning.Stream

open Yaml

/-- Reads the documents of a stream that are not null. -/
def read (text : String) : Except Failure (List Value) :=
  ((do (← Node.readStream text).mapM Node.toValue) : Except Fault (List Value)).mapError
    (fun _ => .document) |>.map (List.filter fun v => !v.isNull)

/-- The comment lines for a header; a blank one has none. -/
def comments (header : List Char) : List Char :=
  if Text.trim header = [] then []
  else (Text.lines header).flatMap fun line => '#' :: ' ' :: (line ++ ['\n'])

/-- The line between two documents. -/
def separator : List Char :=
  ['-', '-', '-', '\n']

/-- Writes documents as a stream, after the header if there is one. -/
def write (documents : List Value) (header : Option String) : Except Failure String := do
  let texts ← (documents.mapM Value.write).mapError fun _ => Failure.document
  return String.ofList
    ((header.map fun h => comments h.toList).getD [] ++
      List.intercalate separator (texts.map String.toList))

end ClusterTuning.Stream
