import ClusterTuning.Text.CaseData

/-!
# Lower case

The lower-case form of a text under the Unicode mapping.  Each character is
mapped on its own, but for a capital sigma, which takes its final form at the
end of a word, and the dotted capital i, which keeps its dot as a mark.
-/

namespace ClusterTuning.Text

/-- Whether the run maps the code point. -/
def CaseRun.covers (run : CaseRun) (code : Nat) : Bool :=
  run.first ≤ code && code ≤ run.last && (code - run.first) % run.step == 0

/-- The lower-case form of one character, whatever stands around it. -/
def lowerChar (c : Char) : List Char :=
  if c.toNat < 0x80 then [c.toLower]
  else if c = '\u0130' then ['i', '\u0307']
  else match caseRuns.find? (·.covers c.toNat) with
    | some run => [Char.ofNat (c.toNat + run.distance).toNat]
    | none => [c]

/-- Whether the nearest character that counts is a letter with case. -/
def meetsCased (neighbours : List Char) : Bool :=
  match neighbours.dropWhile caseIgnorable.contains with
  | [] => false
  | c :: _ => cased.contains c

/-- The lower-case form of a text whose earlier characters, nearest first, are `before`. -/
def lowerAfter : List Char → List Char → List Char
  | _, [] => []
  | before, c :: rest =>
    (if c = '\u03A3' then
      if meetsCased before && !meetsCased rest then ['\u03C2'] else ['\u03C3']
    else lowerChar c) ++ lowerAfter (c :: before) rest

/-- The lower-case form of a text. -/
def lowercase (s : List Char) : List Char :=
  lowerAfter [] s

end ClusterTuning.Text
