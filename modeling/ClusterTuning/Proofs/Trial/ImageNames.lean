import ClusterTuning.Proofs.Text.Cutting
import ClusterTuning.Proofs.Trial.Updating
import Mathlib.Data.List.TakeWhile

/-!
# Container names from image references

An image reference has up to six parts: a host with a port, the components of a path,
a name, a tag and a digest.  The container name that is made of it is the name
alone, but where a digest follows without a tag: there the first colon is the one
inside the digest, and what stands before it is kept.

* `ImageReference` — the parts of a reference, and its text;
* `ImageReference.containerName_text` — the container name for every reference;
* `ImageReference.containerName_eq_name_iff` — when it is the name of the image, also
  for the containers that an update names.
-/

namespace ClusterTuning

/-! ## Cutting -/

namespace Text

variable {sep : Char}

theorem exists_cutFirst (sep : Char) (s t : List Char) :
    ∃ after, cutFirst sep (s ++ sep :: t) = some (s.takeWhile (· ≠ sep), after) := by
  induction s with
  | nil => exact ⟨t, by simp [cutFirst]⟩
  | cons c rest ih =>
    obtain ⟨after, hafter⟩ := ih
    rw [List.cons_append, cutFirst]
    by_cases hc : c = sep
    · exact ⟨rest ++ sep :: t, by simp [hc]⟩
    · exact ⟨after, by rw [if_neg hc, hafter]; simp [hc]⟩

end Text

/-! ## References -/

/-- The characters that stand between the parts of a reference. -/
def ImageReference.marks : List Char := ['/', ':', '@']

/-- A text that can be a name in a reference. -/
structure ImageReference.Name where
  text : List Char
  ne_nil : text ≠ []
  plain : ∀ c ∈ marks, c ∉ text

/-- A reference to an image. -/
structure ImageReference where
  /-- The host, and its port. -/
  host : Option (ImageReference.Name × Option (List Char))
  components : List ImageReference.Name
  name : ImageReference.Name
  tag : Option (List Char)
  /-- The algorithm, and what it gives. -/
  digest : Option (List Char × List Char)
  tag_plain : ∀ t ∈ tag, ∀ c ∈ ImageReference.marks, c ∉ t
  digest_plain : ∀ d ∈ digest, '/' ∉ d.1 ∧ '/' ∉ d.2

namespace ImageReference

variable (r : ImageReference)

/-- The host with its port. -/
def hostText : Name × Option (List Char) → List Char
  | (host, none) => host.text
  | (host, some port) => host.text ++ ':' :: port

/-- The tag and the digest behind the name. -/
def suffix : List Char :=
  (r.tag.map (':' :: ·)).getD [] ++
    (r.digest.map fun d => '@' :: (d.1 ++ ':' :: d.2)).getD []

/-- The text of a reference. -/
def text : String :=
  String.ofList <| Text.glue '/' <|
    (r.host.map hostText).toList ++ r.components.map (·.text) ++ [r.name.text ++ r.suffix]

/-- What stands behind the name in a container name. -/
def remainder : List Char :=
  match r.tag, r.digest with
  | none, some (algorithm, _) => '@' :: algorithm.takeWhile (· ≠ ':')
  | _, _ => []

theorem slash_not_mem_last : '/' ∉ r.name.text ++ r.suffix := by
  have hname := r.name.plain '/' (by decide)
  rw [List.mem_append, not_or]
  refine ⟨hname, ?_⟩
  unfold suffix
  rw [List.mem_append, not_or]
  constructor
  · cases htag : r.tag with
    | none => simp
    | some t => simpa using r.tag_plain t htag '/' (by decide)
  · cases hdigest : r.digest with
    | none => simp
    | some d => simpa [not_or] using r.digest_plain d hdigest

theorem lastComponent_text : Image.lastComponent r.text.toList = r.name.text ++ r.suffix := by
  unfold Image.lastComponent text
  rw [String.toList_ofList, Text.pieces_glue '/' (by simp), List.flatMap_append,
    List.flatMap_singleton, Text.pieces_of_not_mem r.slash_not_mem_last, List.getLast?_concat]
  rfl

theorem takeWhile_name (s : List Char) :
    (r.name.text ++ s).takeWhile (· ≠ ':') = r.name.text ++ s.takeWhile (· ≠ ':') := by
  refine List.takeWhile_append_of_pos fun c hc => ?_
  have hcolon := r.name.plain ':' (by decide)
  exact decide_eq_true fun heq => hcolon (heq ▸ hc)

/-- Where a colon follows, the container name is what stands before the first one. -/
theorem containerName_of_colon {before after : List Char}
    (h : r.suffix = before ++ ':' :: after) :
    Image.containerName r.text = String.ofList (r.name.text ++ before.takeWhile (· ≠ ':')) := by
  obtain ⟨rest, hcut⟩ := Text.exists_cutFirst ':' (r.name.text ++ before) after
  have hne : r.name.text ++ before.takeWhile (· ≠ ':') ≠ [] :=
    List.append_ne_nil_of_left_ne_nil r.name.ne_nil _
  rw [takeWhile_name, List.append_assoc] at hcut
  unfold Image.containerName
  rw [lastComponent_text, h]
  dsimp only
  rw [hcut]
  exact congrArg String.ofList (if_neg hne)

/-- The container name is the name of the image and, if a digest follows the name at once, what
stands before the colon of the digest. -/
theorem containerName_text :
    Image.containerName r.text = String.ofList (r.name.text ++ r.remainder) := by
  cases htag : r.tag with
  | some t =>
    have hsuffix : r.suffix = [] ++ ':' :: (t ++
        (r.digest.map fun d => '@' :: (d.1 ++ ':' :: d.2)).getD []) := by
      rw [suffix, htag]
      rfl
    have hremainder : r.remainder = [] := by
      rw [remainder, htag]
    rw [containerName_of_colon r hsuffix, hremainder]
    rfl
  | none =>
    cases hdigest : r.digest with
    | some d =>
      have hsuffix : r.suffix = '@' :: d.1 ++ ':' :: d.2 := by
        rw [suffix, htag, hdigest]
        rfl
      have hremainder : r.remainder = ('@' :: d.1).takeWhile (· ≠ ':') := by
        rw [remainder, htag, hdigest]
        rfl
      rw [containerName_of_colon r hsuffix, hremainder]
    | none =>
      have hlast : Image.lastComponent r.text.toList = r.name.text := by
        rw [lastComponent_text, suffix, htag, hdigest]
        exact List.append_nil _
      have hremainder : r.remainder = [] := by
        rw [remainder, htag, hdigest]
      unfold Image.containerName
      rw [hlast, hremainder, List.append_nil]
      dsimp only
      rw [Text.cutFirst_eq_none_iff.2 (r.name.plain ':' (by decide))]

theorem remainder_eq_nil_iff : r.remainder = [] ↔ r.tag.isSome ∨ r.digest = none := by
  unfold remainder
  cases r.tag <;> cases r.digest <;> simp

/-- **A container name is the name of its image unless a digest follows that name at once**: then
it is the name with the algorithm of the digest.  The same holds of the names that an update fills
in. -/
theorem containerName_eq_name_iff (r : ImageReference) :
    Image.containerName r.text = String.ofList (r.name.text ++ r.remainder) ∧
      (Image.containerName r.text = String.ofList r.name.text ↔ r.tag.isSome ∨ r.digest = none) ∧
      ∀ (s : CustomScenario) (e : Experiment) (i : Nat) (c : Container),
        (s.apply e).trialPod.containers[i]? = some c → c.image = some r.text →
          ((s.podTemplate.getD e.trialPod).containers[i]?.getD {}).name = "" →
            c.name = Image.containerName r.text := by
  refine ⟨r.containerName_text, ?_, ?_⟩
  · rw [containerName_text, String.ofList_inj, ← remainder_eq_nil_iff]
    exact List.append_right_eq_self
  · intro s e i c hc himage hname
    have hupdated := (s.updates_apply e).pod.container i c hc
    have hfound := Image.isName_iff.1 (hupdated.name_found hname)
    rw [← hfound, himage]
    rfl

/-- An image with a tag, from a host with a port. -/
def runner : ImageReference where
  host := some (⟨"localhost".toList, by simp, by simp [marks]⟩, some "5000".toList)
  components := [⟨"load".toList, by simp, by simp [marks]⟩]
  name := ⟨"runner".toList, by simp, by simp [marks]⟩
  tag := some "1.2".toList
  digest := none
  tag_plain := by
    rintro t ⟨⟩
    simp [marks]
  digest_plain := by
    rintro d ⟨⟩

theorem containerName_eq_name_iff_sample :
    runner.text = "localhost:5000/load/runner:1.2" ∧ Image.containerName runner.text = "runner" ∧
      ∃ c, (({ image := some runner.text } : CustomScenario).apply .new).trialPod.containers[0]? =
        some c ∧ c.name = "runner" := by
  obtain ⟨-, hiff, hupdate⟩ := containerName_eq_name_iff runner
  have hname := hiff.2 (.inl rfl)
  have hc : (({ image := some runner.text } : CustomScenario).apply .new).trialPod.containers[0]? =
      some { name := "runner", image := some runner.text } := rfl
  exact ⟨by decide +kernel, hname, _, hc, (hupdate _ _ _ _ hc rfl rfl).trans hname⟩

/-- A digest without a tag before it is taken for a tag. -/
theorem containerName_of_untagged_digest : ∃ r : ImageReference,
    r.text = "busybox@sha256:abc" ∧ r.name.text = "busybox".toList ∧
      Image.containerName r.text = "busybox@sha256" := by
  refine ⟨⟨none, [], ⟨"busybox".toList, by simp, by simp [marks]⟩, none,
    some ("sha256".toList, "abc".toList), ?_, ?_⟩, ?_, ?_, ?_⟩
  · rintro t ⟨⟩
  · rintro d ⟨⟩
    decide +kernel
  · decide +kernel
  · rfl
  · decide +kernel

end ImageReference

end ClusterTuning
