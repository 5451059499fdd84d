import ClusterTuning.Yaml.Scalar
import Mathlib.Data.Nat.Digits.Defs

/-!
# Numerals and words that are read back

The text of a number, of a truth value and of null means what it was written for:
the digits of a number name it, and no numeral is one of the words.

* `Scalar.readInteger?_intText` — an integer of any size;
* `Scalar.meaning_intText`, `Scalar.meaning_boolText` — as plain scalars.
-/

namespace ClusterTuning

/-! ## Digits -/

/-- The digits of a number are digits of its base. -/
theorem exists_of_mem_toDigits {base n : Nat} (hbase : 1 < base) {c : Char}
    (h : c ∈ Nat.toDigits base n) : ∃ d < base, c = Nat.digitChar d := by
  induction n using Nat.strongRecOn with
  | _ n ih =>
    by_cases hn : n < base
    · rw [Nat.toDigits_of_lt_base hn, List.mem_singleton] at h
      exact ⟨n, hn, h⟩
    · have hpos : 0 < base := Nat.lt_of_succ_lt hbase
      have hle : base ≤ n := Nat.le_of_not_lt hn
      rw [Nat.toDigits_of_base_le hbase hle, List.mem_append, List.mem_singleton] at h
      rcases h with h | h
      · exact ih (n / base) (Nat.div_lt_self (Nat.lt_of_lt_of_le hpos hle) hbase) h
      · exact ⟨n % base, Nat.mod_lt n hpos, h⟩

/-- The digits of a positive number begin with one that is not zero. -/
theorem exists_toDigits_eq_cons {base n : Nat} (hbase : 1 < base) (hn : 0 < n) :
    ∃ d rest, 0 < d ∧ d < base ∧ Nat.toDigits base n = Nat.digitChar d :: rest := by
  induction n using Nat.strongRecOn with
  | _ n ih =>
    by_cases h : n < base
    · exact ⟨n, [], hn, h, Nat.toDigits_of_lt_base h⟩
    · have hle : base ≤ n := Nat.le_of_not_lt h
      obtain ⟨d, rest, hpos, hd, heq⟩ := ih (n / base) (Nat.div_lt_self hn hbase)
        (Nat.div_pos hle (Nat.lt_of_succ_lt hbase))
      refine ⟨d, rest ++ [Nat.digitChar (n % base)], hpos, hd, ?_⟩
      rw [Nat.toDigits_of_base_le hbase hle, heq, List.cons_append]

namespace Yaml.Scalar

theorem digitValue?_digitChar {base d : Nat} (hbase : base ≤ 16) (hd : d < base) :
    digitValue? base (Nat.digitChar d) = some d := by
  have hall : ∀ d < 16, digitValue? 16 (Nat.digitChar d) = some d := by decide
  have h16 := hall d (Nat.lt_of_lt_of_le hd hbase)
  unfold digitValue? at h16 ⊢
  obtain ⟨hvalue, -⟩ := Option.filter_eq_some_iff.1 h16
  exact Option.filter_eq_some_iff.2 ⟨hvalue, decide_eq_true hd⟩

theorem readDigits?_toDigits {base : Nat} (hlow : 1 < base) (hhigh : base ≤ 16) (n : Nat) :
    readDigits? base (Nat.toDigits base n) = some n := by
  rw [readDigits?, if_neg Nat.toDigits_ne_nil]
  induction n using Nat.strongRecOn with
  | _ n ih =>
    by_cases h : n < base
    · rw [Nat.toDigits_of_lt_base h, List.foldl_cons, List.foldl_nil, Option.bind_some,
        digitValue?_digitChar hhigh h, Option.map_some, Nat.mul_zero, Nat.zero_add]
    · have hle : base ≤ n := Nat.le_of_not_lt h
      have hpos : 0 < base := Nat.lt_of_succ_lt hlow
      rw [Nat.toDigits_of_base_le hlow hle, List.foldl_append,
        ih (n / base) (Nat.div_lt_self (Nat.lt_of_lt_of_le hpos hle) hlow), List.foldl_cons,
        List.foldl_nil, Option.bind_some, digitValue?_digitChar hhigh (Nat.mod_lt n hpos),
        Option.map_some, Nat.div_add_mod]

/-! ## Integers -/

/-- The digits of a number begin with a digit, and with zero only where it is the only one. -/
theorem natDigits_eq (n : Nat) :
    natDigits n = ['0'] ∨ ∃ c rest, isDigit c = true ∧ c ≠ '0' ∧ natDigits n = c :: rest := by
  rcases Nat.eq_zero_or_pos n with rfl | hn
  · exact .inl rfl
  · obtain ⟨d, rest, hpos, hd, heq⟩ := @exists_toDigits_eq_cons 10 n (by decide) hn
    have hall : ∀ d < 10, 0 < d → isDigit (Nat.digitChar d) = true ∧ Nat.digitChar d ≠ '0' := by
      decide
    exact .inr ⟨Nat.digitChar d, rest, (hall d hd hpos).1, (hall d hd hpos).2, heq⟩

theorem isDigit_of_mem_natDigits {n : Nat} {c : Char} (h : c ∈ natDigits n) :
    isDigit c = true := by
  obtain ⟨d, hd, rfl⟩ := exists_of_mem_toDigits (by decide) h
  have hall : ∀ d < 10, isDigit (Nat.digitChar d) = true := by decide
  exact hall d hd

theorem readUnsigned?_natDigits (n : Nat) : readUnsigned? (natDigits n) = some n := by
  have hdigits : readDigits? 10 (natDigits n) = some n :=
    readDigits?_toDigits (by decide) (by decide) n
  rcases natDigits_eq n with hzero | ⟨c, rest, hc, hne, heq⟩
  · rw [hzero] at hdigits ⊢
    exact hdigits
  · rw [heq] at hdigits ⊢
    have hpadded : isPaddedDigits (c :: rest) = false := by
      have hsign : c ≠ '-' ∧ c ≠ '+' := by
        constructor <;> (rintro rfl; exact absurd hc (by decide))
      unfold isPaddedDigits
      split
      · next h => exact absurd (List.cons.inj h).1 hsign.1
      · next h => exact absurd (List.cons.inj h).1 hsign.2
      · dsimp only
        split
        · next h => exact absurd (List.cons.inj h).1 hne
        · rfl
    unfold readUnsigned?
    split
    · next h => exact absurd (List.cons.inj h).1 hne
    · next h => exact absurd (List.cons.inj h).1 hne
    · next h => exact absurd (List.cons.inj h).1 hne
    · rw [hpadded, if_neg Bool.false_ne_true, hdigits]

theorem readInteger?_natDigits (n : Nat) : readInteger? (natDigits n) = some (n : Int) := by
  have hsign : ∀ c ∈ natDigits n, c ≠ '+' ∧ c ≠ '-' := by
    intro c hc
    have h := isDigit_of_mem_natDigits hc
    constructor <;> (rintro rfl; exact absurd h (by decide))
  unfold readInteger?
  split
  · next h => exact absurd rfl (hsign _ (h ▸ List.mem_cons_self)).1
  · next h => exact absurd rfl (hsign _ (h ▸ List.mem_cons_self)).2
  · rw [readUnsigned?_natDigits]
    rfl

/-- The text of an integer is read as this integer. -/
theorem readInteger?_intText (n : Int) : readInteger? (intText n).toList = some n := by
  rw [intText, String.toList_ofList]
  by_cases hn : n < 0
  · have habs : -(n.natAbs : Int) = n := by omega
    rw [if_pos hn, readInteger?, readUnsigned?_natDigits]
    exact congrArg some habs
  · have habs : (n.natAbs : Int) = n := by omega
    rw [if_neg hn, readInteger?_natDigits, habs]

/-! ## Words -/

/-- The characters of numerals. -/
def isNumeralChar (c : Char) : Bool :=
  c == '-' || isDigit c

theorem isNumeralChar_of_mem_intText {n : Int} {c : Char} (h : c ∈ (intText n).toList) :
    isNumeralChar c = true := by
  rw [intText, String.toList_ofList] at h
  rw [isNumeralChar, Bool.or_eq_true, beq_iff_eq]
  split at h
  · rcases List.mem_cons.1 h with rfl | h
    · exact .inl rfl
    · exact .inr (isDigit_of_mem_natDigits h)
  · exact .inr (isDigit_of_mem_natDigits h)

theorem intText_ne_nil (n : Int) : (intText n).toList ≠ [] := by
  rw [intText, String.toList_ofList]
  split
  · exact List.cons_ne_nil _ _
  · exact Nat.toDigits_ne_nil

/-- A numeral is none of some words that all have another character. -/
theorem any_eq_intText_eq_false {words : List String} {n : Int}
    (h : ∀ w ∈ words, w.toList.all isNumeralChar = false) :
    words.any (·.toList == (intText n).toList) = false := by
  rw [List.any_eq_false]
  intro w hw heq
  have hall : w.toList.all isNumeralChar = true :=
    List.all_eq_true.2 fun c hc => isNumeralChar_of_mem_intText (beq_iff_eq.1 heq ▸ hc)
  exact Bool.false_ne_true ((h w hw).symm.trans hall)

theorem isNullWord_intText (n : Int) : isNullWord (intText n).toList = false :=
  any_eq_intText_eq_false (by decide)

theorem readBool?_intText (n : Int) : readBool? (intText n).toList = none := by
  unfold readBool?
  rw [any_eq_intText_eq_false (by decide), any_eq_intText_eq_false (by decide)]
  rfl

theorem fits64_iff {n : Int} : fits64 n = true ↔ minInt64 ≤ n ∧ n ≤ maxUInt64 := by
  rw [fits64, Bool.and_eq_true, decide_eq_true_iff, decide_eq_true_iff]

/-- An integer of 64 bits is written so that it means itself. -/
theorem meaning_intText {n : Int} (h : fits64 n = true) :
    meaning (intText n).toList = .integer n := by
  have hwide : fits128 n = true := by
    obtain ⟨hlow, hhigh⟩ := fits64_iff.1 h
    rw [fits128, Bool.and_eq_true, decide_eq_true_iff, decide_eq_true_iff]
    simp only [minInt64, maxUInt64, minInt128, maxUInt128] at *
    omega
  have hword : ¬ ((intText n).toList = [] ∨ isNullWord (intText n).toList = true) := by
    rw [isNullWord_intText, not_or]
    exact ⟨intText_ne_nil n, Bool.false_ne_true⟩
  rw [meaning, if_neg hword, readBool?_intText, readInteger?_intText]
  simp only [Option.filter_some, hwide, h, if_true]

theorem meaning_boolText (b : Bool) : meaning (boolText b).toList = .bool b := by
  cases b <;> decide

end Yaml.Scalar

end ClusterTuning
