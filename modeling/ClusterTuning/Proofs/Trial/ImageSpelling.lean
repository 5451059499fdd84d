import ClusterTuning.Proofs.Text.Cutting
import ClusterTuning.Trial.Image

/-!
# Where the name of an image stands

The text of an image ends in its name, or in its name with a tag behind a colon.  What
comes before the last slash is where the image is found, and does not count.  A colon
right at the start of the last component separates nothing.

* `Image.IsLastComponent`, `Image.IsName` — the last component and the name, by their
  place in the text;
* `Image.isName_iff` — a container is named by the name of its image.
-/

namespace ClusterTuning.Image

open Text

/-- What stands behind the last slash, or everything if there is none. -/
inductive IsLastComponent : String → String → Prop where
  | whole {component : String} (hplain : '/' ∉ component.toList) :
      IsLastComponent component component
  | behind (path : String) {component : String} (hplain : '/' ∉ component.toList) :
      IsLastComponent (path ++ "/" ++ component) component

/-- The last component of an image up to its first colon, unless there is none or it comes first. -/
inductive IsName (image : String) : String → Prop where
  | tagged {name tag : String} (hlast : IsLastComponent image (name ++ ":" ++ tag))
      (hne : name ≠ "") (hplain : ':' ∉ name.toList) : IsName image name
  | untagged {component : String} (hlast : IsLastComponent image component)
      (hplain : ':' ∉ component.toList) : IsName image component
  | unnamed {tag : String} (hlast : IsLastComponent image (":" ++ tag)) : IsName image (":" ++ tag)

variable {image component name : String}

theorem toList_located (path component : String) :
    (path ++ "/" ++ component).toList = path.toList ++ '/' :: component.toList := by
  simp [String.toList_append]

theorem toList_tagged (name tag : String) :
    (name ++ ":" ++ tag).toList = name.toList ++ ':' :: tag.toList := by
  simp [String.toList_append]

theorem toList_unnamed (tag : String) : (":" ++ tag).toList = ':' :: tag.toList := by
  simp [String.toList_append]

theorem exists_isLastComponent (image : String) : ∃ component, IsLastComponent image component := by
  cases hcut : cutLast '/' image.toList with
  | none => exact ⟨image, .whole (cutLast_eq_none_iff.1 hcut)⟩
  | some cut =>
    obtain ⟨himage, hplain⟩ := cutLast_eq_some_iff.1 hcut
    have hsplit : image = String.ofList cut.1 ++ "/" ++ String.ofList cut.2 := by
      rw [← String.toList_inj, toList_located, String.toList_ofList, String.toList_ofList, himage]
    refine ⟨String.ofList cut.2, ?_⟩
    rw [hsplit]
    exact .behind _ (by rwa [String.toList_ofList])

theorem IsLastComponent.eq (h : IsLastComponent image component) :
    lastComponent image.toList = component.toList := by
  unfold lastComponent
  cases h with
  | whole hplain => rw [pieces_of_not_mem hplain, List.getLast?_singleton, Option.getD_some]
  | behind path hplain =>
    rw [toList_located, pieces_append, pieces_of_not_mem hplain, List.getLast?_concat, Option.getD_some]

theorem containerName_of_colon (hlast : IsLastComponent image component) {before after : List Char}
    (h : component.toList = before ++ ':' :: after) (hplain : ':' ∉ before) :
    containerName image = String.ofList (if before = [] then component.toList else before) := by
  unfold containerName
  dsimp only
  rw [hlast.eq, cutFirst_eq_some_iff.2 ⟨h, hplain⟩]

theorem containerName_of_plain (hlast : IsLastComponent image component)
    (hplain : ':' ∉ component.toList) : containerName image = component := by
  unfold containerName
  dsimp only
  rw [hlast.eq, cutFirst_eq_none_iff.2 hplain]
  exact String.ofList_toList

/-- A container is named by the name of its image. -/
theorem isName_iff : IsName image name ↔ containerName image = name := by
  constructor
  · intro h
    cases h with
    | @tagged name tag hlast hne hplain =>
      rw [containerName_of_colon hlast (toList_tagged name tag) hplain,
        if_neg (mt String.toList_eq_nil_iff.1 hne), String.ofList_toList]
    | untagged hlast hplain => exact containerName_of_plain hlast hplain
    | @unnamed tag hlast =>
      rw [containerName_of_colon hlast (toList_unnamed tag) List.not_mem_nil, if_pos rfl,
        String.ofList_toList]
  · rintro rfl
    obtain ⟨component, hlast⟩ := exists_isLastComponent image
    cases hcut : cutFirst ':' component.toList with
    | none =>
      have hplain := cutFirst_eq_none_iff.1 hcut
      rw [containerName_of_plain hlast hplain]
      exact .untagged hlast hplain
    | some cut =>
      obtain ⟨hsplit, hplain⟩ := cutFirst_eq_some_iff.1 hcut
      rw [containerName_of_colon hlast hsplit hplain]
      by_cases hnil : cut.1 = []
      · have hcomponent : component = ":" ++ String.ofList cut.2 := by
          rw [← String.toList_inj, toList_unnamed, String.toList_ofList, hsplit, hnil, List.nil_append]
        rw [if_pos hnil, String.ofList_toList, hcomponent]
        exact .unnamed (hcomponent ▸ hlast)
      · have hcomponent : component = String.ofList cut.1 ++ ":" ++ String.ofList cut.2 := by
          rw [← String.toList_inj, toList_tagged, String.toList_ofList, String.toList_ofList, hsplit]
        rw [if_neg hnil]
        refine .tagged (hcomponent ▸ hlast) ?_ (by rwa [String.toList_ofList])
        rwa [ne_eq, ← String.toList_eq_nil_iff, String.toList_ofList]

end ClusterTuning.Image
