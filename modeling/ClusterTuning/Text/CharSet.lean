/-!
# Sets of characters by their boundaries

A property of characters is stored as the increasing list of code points at
which membership changes.  A code point belongs to the set when an odd number of
boundaries lie at or below it, so an interval costs two numbers however long it is.
-/

namespace ClusterTuning

/-- A set of characters, given by the code points at which membership changes. -/
structure CharSet where
  boundaries : List Nat

namespace CharSet

/-- Parity of the boundaries at or below `code`, starting from `inside`. -/
def parity (code : Nat) : List Nat → Bool → Bool
  | [], inside => inside
  | b :: rest, inside => if code < b then inside else parity code rest (!inside)

/-- Membership of a character. -/
def contains (set : CharSet) (c : Char) : Bool :=
  parity c.toNat set.boundaries false

end CharSet

end ClusterTuning
