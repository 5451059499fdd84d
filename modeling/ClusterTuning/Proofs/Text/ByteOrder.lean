import ClusterTuning.Reference
import Mathlib.Data.String.Basic

/-!
# The order of texts is the order of their bytes

Texts are compared by their characters.  A reader who compares the UTF-8 bytes
instead, one after the other, comes to the same order: of two characters the
smaller one has the smaller encoding, and no encoding is the beginning of
another one.

* `bytes_lt_bytes` — the statement for texts;
* `Reference.order_eq_lt_iff` — the order of references is the order of their
  four texts, each read as bytes.
-/

namespace ClusterTuning

namespace Text

/-- The UTF-8 encoding of a text. -/
def bytes (s : String) : List UInt8 :=
  s.toUTF8.data.toList

/-! ## Bytes that differ -/

/-- The first byte in which the two lists differ is smaller in the first one; neither list is the
beginning of the other one. -/
inductive Below : List UInt8 → List UInt8 → Prop where
  | head {x y : UInt8} {xs ys : List UInt8} (h : x < y) : Below (x :: xs) (y :: ys)
  | tail {x : UInt8} {xs ys : List UInt8} (h : Below xs ys) : Below (x :: xs) (x :: ys)

/-- What follows the first difference does not matter. -/
theorem Below.append_lt {xs ys : List UInt8} (h : Below xs ys) (u v : List UInt8) :
    xs ++ u < ys ++ v := by
  induction h with
  | head hxy => exact List.Lex.rel hxy
  | tail _ ih => exact List.Lex.cons ih

theorem ofNat_lt_ofNat {m n : Nat} (hmn : m < n) (hn : n < 256) :
    UInt8.ofNat m < UInt8.ofNat n := by
  rw [UInt8.lt_iff_toNat_lt, UInt8.toNat_ofNat', UInt8.toNat_ofNat']
  omega

/-- Two lists that start with different bytes. -/
theorem Below.of_lt {m n : Nat} {xs ys : List UInt8} (hmn : m < n) (hn : n < 256) :
    Below (UInt8.ofNat m :: xs) (UInt8.ofNat n :: ys) :=
  .head (ofNat_lt_ofNat hmn hn)

/-- Two lists whose first bytes are in order, with a smaller rest if these bytes are equal. -/
theorem Below.of_le {m n : Nat} {xs ys : List UInt8} (hmn : m ≤ n) (hn : n < 256)
    (h : m = n → Below xs ys) : Below (UInt8.ofNat m :: xs) (UInt8.ofNat n :: ys) := by
  rcases Nat.lt_or_eq_of_le hmn with hlt | rfl
  · exact .of_lt hlt hn
  · exact .tail (h rfl)

/-! ## Characters -/

theorem below_utf8EncodeChar {a b : Char} (h : a < b) :
    Below (String.utf8EncodeChar a) (String.utf8EncodeChar b) := by
  have hab : a.val.toNat < b.val.toNat := h
  have hb : b.val.toNat < 0x110000 := by
    rcases b.valid with hv | ⟨-, hv⟩
    · exact Nat.lt_trans hv (by decide)
    · exact hv
  unfold String.utf8EncodeChar
  generalize a.val.toNat = m at *
  generalize b.val.toNat = n at *
  dsimp only
  split_ifs
  -- a longer encoding starts with a greater byte; of two encodings of the same length the first
  -- bytes are compared, then the second ones if these are equal, and so on
  all_goals first
    | exact .of_lt (by omega) (by omega)
    | exact .of_le (by omega) (by omega) fun _ => .of_lt (by omega) (by omega)
    | exact .of_le (by omega) (by omega) fun _ => .of_le (by omega) (by omega) fun _ =>
        .of_lt (by omega) (by omega)
    | exact .of_le (by omega) (by omega) fun _ => .of_le (by omega) (by omega) fun _ =>
        .of_le (by omega) (by omega) fun _ => .of_lt (by omega) (by omega)

/-! ## Texts -/

theorem bytes_eq (s : String) : bytes s = s.toList.flatMap String.utf8EncodeChar := by
  conv => lhs; rw [← String.ofList_toList (s := s)]
  rw [bytes, String.toUTF8_eq_toByteArray, String.toByteArray_ofList, List.utf8Encode,
    List.data_toByteArray, List.toList_toArray]

theorem flatMap_lt_flatMap {s t : List Char} (h : s < t) :
    s.flatMap String.utf8EncodeChar < t.flatMap String.utf8EncodeChar := by
  induction h with
  | nil =>
    rename_i c t
    rw [List.flatMap_nil, List.flatMap_cons]
    cases hc : String.utf8EncodeChar c with
    | nil => exact absurd hc String.utf8EncodeChar_ne_nil
    | cons x xs => exact List.Lex.nil
  | cons _ ih =>
    rw [List.flatMap_cons, List.flatMap_cons]
    exact List.append_left_lt ih
  | rel hab =>
    rw [List.flatMap_cons, List.flatMap_cons]
    exact (below_utf8EncodeChar hab).append_lt _ _

/-- Comparing the bytes of two texts comes to the same as comparing their characters. -/
theorem bytes_lt_bytes {s t : String} : bytes s < bytes t ↔ s < t := by
  have mono : ∀ {u v : String}, u < v → bytes u < bytes v := by
    intro u v h
    rw [bytes_eq, bytes_eq]
    exact flatMap_lt_flatMap h
  constructor
  · intro h
    rcases lt_trichotomy s t with hlt | rfl | hgt
    · exact hlt
    · exact absurd h (List.lt_irrefl _)
    · exact absurd h (List.lt_asymm (mono hgt))
  · exact mono

theorem bytes_inj {s t : String} : bytes s = bytes t ↔ s = t := by
  constructor
  · intro h
    have hst : ¬s < t := fun hlt => List.lt_irrefl _ (h ▸ bytes_lt_bytes.2 hlt)
    have hts : ¬t < s := fun hlt => List.lt_irrefl _ (h ▸ bytes_lt_bytes.2 hlt)
    exact le_antisymm (not_lt.1 hts) (not_lt.1 hst)
  · rintro rfl
    rfl

end Text

/-! ## References -/

namespace Reference

/-- The texts by which references are ordered, as bytes: kind, namespace, name and API version. -/
def byteKey (r : Reference) : List (List UInt8) :=
  [r.kind, r.namespace, r.name, r.apiVersion].map Text.bytes

/-- The order of references compares the bytes of their four texts. -/
theorem order_eq_lt_iff {a b : Reference} : order a b = .lt ↔ a.byteKey < b.byteKey := by
  have lt_iff : ∀ {s t : String}, compare s t = .lt ↔ Text.bytes s < Text.bytes t :=
    fun {_ _} => compareOfLessAndEq_eq_lt.trans Text.bytes_lt_bytes.symm
  have eq_iff : ∀ {s t : String}, compare s t = .eq ↔ Text.bytes s = Text.bytes t :=
    fun {_ _} => Std.LawfulEqOrd.compare_eq_iff_eq.trans Text.bytes_inj.symm
  simp only [order, byteKey, Ordering.then_eq_lt, List.map_cons, List.map_nil,
    List.cons_lt_cons_iff, lt_iff, eq_iff]
  simp

end Reference

end ClusterTuning
