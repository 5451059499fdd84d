import ClusterTuning.Proofs.Yaml.Token.Indicators

/-!
# Keys on the line of their value

A key that is a short text without breaks stands on the line of its value.  What is
written for it is short enough for the reader, which looks no further than 1024
characters for the colon: no character takes more than four for each of its bytes.

* `simpleKey?_string` — which texts are such keys;
* `unbroken_inlineScalar`, `length_inlineScalar_le` — what is written for them.
-/

namespace ClusterTuning.Yaml.Token

open Printer (Style isPrintable)

/-! ## Bytes -/

theorem byteLength_cons (c : Char) (s : List Char) :
    Printer.byteLength (c :: s) = c.utf8Size + Printer.byteLength s := by
  rw [Printer.byteLength, String.ofList_cons, String.utf8ByteSize_append,
    String.utf8ByteSize_singleton]
  rfl

theorem not_val_le {c : Char} {n : UInt32} (h : n.toNat < c.toNat) : ¬ c.val ≤ n :=
  fun hle => Nat.not_lt.2 (UInt32.le_iff_toNat_le.1 hle) h

theorem two_le_utf8Size {c : Char} (h : 0x7F < c.toNat) : 2 ≤ c.utf8Size := by
  unfold Char.utf8Size
  dsimp only
  rw [if_neg (not_val_le (Nat.lt_of_le_of_lt (by decide) h))]
  split_ifs <;> decide

theorem utf8Size_eq_four {c : Char} (h : 0xFFFF < c.toNat) : c.utf8Size = 4 := by
  have hnot {n : UInt32} (hn : n.toNat ≤ 0xFFFF) : ¬ c.val ≤ n :=
    not_val_le (Nat.lt_of_le_of_lt hn h)
  unfold Char.utf8Size
  dsimp only
  rw [if_neg (hnot (by decide)), if_neg (hnot (by decide)), if_neg (hnot (by decide))]

/-- A text that takes no more than four characters for each byte of another one. -/
theorem length_flatMap_le {f : Char → List Char} (hf : ∀ c, (f c).length ≤ 4 * c.utf8Size)
    (s : List Char) : (s.flatMap f).length ≤ 4 * Printer.byteLength s := by
  induction s with
  | nil => exact Nat.zero_le _
  | cons c rest ih =>
    have hc := hf c
    rw [List.flatMap_cons, List.length_append, byteLength_cons]
    omega

/-! ## What is written for a text without breaks -/

/-- The inside of single quotes, where there is no break. -/
theorem singleBody_unbroken {s : List Char} (h : ∀ c ∈ s, isBreak c = false) (indent : Nat) :
    Printer.singleBody indent false s =
      s.flatMap fun c => if c = '\'' then ['\'', '\''] else [c] := by
  induction s with
  | nil => rfl
  | cons c rest ih =>
    obtain ⟨hc, hrest⟩ := List.forall_mem_cons.1 h
    rw [singleBody_cons hc, ih hrest, List.flatMap_cons]
    rfl

theorem length_doubleChar_le (c : Char) : (Printer.doubleChar c).length ≤ 4 * c.utf8Size := by
  have hpos := c.utf8Size_pos
  unfold Printer.doubleChar
  split
  · simp only [List.length_cons, List.length_nil]
    omega
  · split_ifs with hprint hbyte hplane
    · simp only [List.length_cons, List.length_nil]
      omega
    · rw [List.length_cons, List.length_cons, length_hexDigits (by decide) (by omega)]
      omega
    · have hsize := two_le_utf8Size (Nat.lt_of_lt_of_le (by decide) (Nat.not_le.1 hbyte))
      rw [List.length_cons, List.length_cons, length_hexDigits (by decide) (by omega)]
      omega
    · have hvalid : c.toNat < 0xD800 ∨ 0xDFFF < c.toNat ∧ c.toNat < 0x110000 := c.valid
      have hsize := utf8Size_eq_four (Nat.not_le.1 hplane)
      rw [List.length_cons, List.length_cons, length_hexDigits (by decide) (by omega)]
      omega

theorem unbroken_inlineScalar {style : Style} {s : List Char} (h : ∀ c ∈ s, isBreak c = false)
    (indent : Nat) : ∀ c ∈ Printer.inlineScalar indent style s, isBreak c = false := by
  have hquoted {q : Char} (hq : isBreak q = false) {body : List Char}
      (hbody : ∀ c ∈ body, isBreak c = false) : ∀ c ∈ q :: (body ++ [q]), isBreak c = false := by
    intro c hc
    rcases List.mem_cons.1 hc with rfl | hc
    · exact hq
    rcases List.mem_append.1 hc with hc | hc
    · exact hbody c hc
    · exact List.mem_singleton.1 hc ▸ hq
  cases style with
  | plain => exact h
  | literal => exact h
  | single =>
    refine hquoted (by rfl) fun c hc => ?_
    rw [singleBody_unbroken h, List.mem_flatMap] at hc
    obtain ⟨d, hd, hc⟩ := hc
    split_ifs at hc with hquote
    · subst hquote
      simp only [List.mem_cons, List.not_mem_nil, or_false, or_self] at hc
      exact hc ▸ rfl
    · exact List.mem_singleton.1 hc ▸ h d hd
  | double =>
    refine hquoted (by rfl) fun c hc => ?_
    obtain ⟨d, -, hc⟩ := List.mem_flatMap.1 hc
    exact (doubleChar_spec hc).2

/-- What is written for a text without breaks takes at most two characters more than four for each
byte. -/
theorem length_inlineScalar_le {style : Style} {s : List Char} (h : ∀ c ∈ s, isBreak c = false)
    (indent : Nat) :
    (Printer.inlineScalar indent style s).length ≤ 4 * Printer.byteLength s + 2 := by
  have hself : s.length ≤ 4 * Printer.byteLength s := by
    have hone : ∀ c : Char, [c].length ≤ 4 * c.utf8Size := fun c => by
      have hpos := c.utf8Size_pos
      simp only [List.length_singleton]
      omega
    simpa using length_flatMap_le hone s
  cases style with
  | plain => exact Nat.le_add_right_of_le hself
  | literal => exact Nat.le_add_right_of_le hself
  | single =>
    have hquote : ∀ c : Char,
        (if c = '\'' then ['\'', '\''] else [c]).length ≤ 4 * c.utf8Size := fun c => by
      have hpos := c.utf8Size_pos
      split_ifs <;> simp only [List.length_cons, List.length_nil] <;> omega
    rw [Printer.inlineScalar, List.length_cons, List.length_append, List.length_singleton,
      singleBody_unbroken h]
    exact Nat.add_le_add_right (length_flatMap_le hquote s) 2
  | double =>
    rw [Printer.inlineScalar, List.length_cons, List.length_append, List.length_singleton]
    exact Nat.add_le_add_right (length_flatMap_le length_doubleChar_le s) 2

/-! ## Keys -/

/-- The texts that stand on the line of their value. -/
theorem simpleKey?_string (column : Nat) (s : String) :
    Printer.simpleKey? column (.string s) =
      if s.toList.any isBreak = false ∧ Printer.byteLength s.toList ≤ Printer.longestSimpleKey then
        some (Printer.inlineScalar (column + 2) (Printer.textStyle s.toList) s.toList)
      else none := by
  have hbreak : s.toList.any Printer.isBreak = s.toList.any isBreak := rfl
  simp only [Printer.simpleKey?, Printer.simpleKey?.simple?, Printer.scalar?, Option.bind_some,
    hbreak]
  cases s.toList.any isBreak with
  | true => rfl
  | false => simp

/-- A key on the line of its value is written in a style of one line and is short. -/
theorem simpleKey?_spec {column : Nat} {s : String} {key : List Char}
    (h : Printer.simpleKey? column (.string s) = some key) :
    key = Printer.inlineScalar (column + 2) (Printer.textStyle s.toList) s.toList ∧
      Printer.textStyle s.toList ≠ .literal ∧ (∀ c ∈ key, isBreak c = false) ∧
      key.length ≤ 1024 := by
  rw [simpleKey?_string] at h
  split at h
  · next hsimple =>
    obtain ⟨hbreak, hsize⟩ := hsimple
    rw [List.any_eq_false] at hbreak
    have hunbroken : ∀ c ∈ s.toList, isBreak c = false := fun c hc => by simpa using hbreak c hc
    have hfeed : '\n' ∉ s.toList := fun hmem => absurd (hunbroken '\n' hmem) (by decide)
    have hlength :=
      @length_inlineScalar_le (Printer.textStyle s.toList) s.toList hunbroken (column + 2)
    obtain rfl := Option.some.inj h
    refine ⟨rfl, ?_, unbroken_inlineScalar hunbroken _, ?_⟩
    · unfold Printer.textStyle
      rw [if_neg hfeed]
      split_ifs <;> decide
    · simp only [Printer.longestSimpleKey] at hsize
      omega
  · exact nomatch h

end ClusterTuning.Yaml.Token
