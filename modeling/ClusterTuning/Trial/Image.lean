import ClusterTuning.Text.Pieces

/-!
# Image references

The name of an image is the last component of its path, without a tag.
-/

namespace ClusterTuning.Image

/-- The last component of the path of an image. -/
def lastComponent (image : List Char) : List Char :=
  ((Text.pieces '/' image).getLast?).getD []

/-- A container name for an image: the last component of its path up to a colon, unless the colon
comes first. -/
def containerName (image : String) : String :=
  let component := lastComponent image.toList
  match Text.cutFirst ':' component with
  | some (name, _) => String.ofList (if name = [] then component else name)
  | none => String.ofList component

end ClusterTuning.Image
