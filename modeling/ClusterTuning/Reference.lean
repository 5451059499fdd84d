/-!
# References to cluster resources

A reference names the resource that a patch changes.  References are ordered by
kind, namespace, name and last by API version.
-/

namespace ClusterTuning

/-- The identity of a resource; an empty namespace means none is given. -/
structure Reference where
  apiVersion : String
  kind : String
  «namespace» : String := ""
  name : String
deriving DecidableEq, Repr, Inhabited

namespace Reference

/-- The order of references: by kind, namespace, name and API version. -/
def order (a b : Reference) : Ordering :=
  (compare a.kind b.kind).then <|
    (compare a.namespace b.namespace).then <|
      (compare a.name b.name).then (compare a.apiVersion b.apiVersion)

instance : Std.TransCmp order :=
  inferInstanceAs <| Std.TransCmp <|
    compareLex (compareOn fun r : Reference => r.kind) <|
      compareLex (compareOn fun r => r.namespace) <|
        compareLex (compareOn fun r => r.name) (compareOn fun r => r.apiVersion)

instance : Std.LawfulEqCmp order where
  compare_self := Std.ReflCmp.compare_self
  eq_of_compare := by
    intro a b h
    simp only [order, Ordering.then_eq_eq, Std.LawfulEqOrd.compare_eq_iff_eq] at h
    obtain ⟨hk, hs, hn, hv⟩ := h
    cases a
    cases b
    simp_all

/-- The short text of a reference, without its API version. -/
def display (r : Reference) : String :=
  if r.namespace.isEmpty then r.kind ++ "/" ++ r.name
  else r.kind ++ "/" ++ r.namespace ++ "/" ++ r.name

end Reference

/-- How a patch is applied to its target. -/
inductive PatchStrategy where
  | json
  | merge
  | strategic
deriving DecidableEq, Repr

namespace PatchStrategy

/-- The name of a strategy. -/
def name : PatchStrategy → String
  | json => "json"
  | merge => "merge"
  | strategic => "strategic"

/-- The strategy with a given name. -/
def ofName? (name : String) : Option PatchStrategy :=
  [json, merge, strategic].find? (·.name == name)

end PatchStrategy

end ClusterTuning
