/-!
# Faults of documents

Why a text is not a stream of documents, why a document is not an object of the
expected kind, and why a value cannot be written.
-/

namespace ClusterTuning.Yaml

/-- What is wrong with a document. -/
inductive Fault where
  /-- A character that documents may not hold. -/
  | character
  /-- Characters that form no token. -/
  | token
  /-- Tokens that form no document. -/
  | arrangement
  /-- A reference to an anchor that is not there. -/
  | anchor
  /-- Nesting or repetition beyond the limits. -/
  | limit
  /-- A scalar that does not suit its tag or does not fit. -/
  | scalar
  /-- A key that a mapping has already. -/
  | duplicateKey
  /-- A part of another kind than expected. -/
  | kind
  /-- A field that an object cannot do without. -/
  | missingField
  /-- A stream of several documents where one is expected. -/
  | severalDocuments
  /-- A value that has no written form. -/
  | unwritable
deriving DecidableEq, Repr

end ClusterTuning.Yaml
