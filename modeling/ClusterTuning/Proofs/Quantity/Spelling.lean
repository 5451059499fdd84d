import ClusterTuning.Proofs.Quantity.Amounts
import ClusterTuning.Proofs.Text.Trimming

/-!
# How quantities are spelled

The grammar of quantities, as a relation between amounts and texts that does not
mention the reader: white space around a sign, a numeral and a suffix.  A text that
spells an amount is read as this amount, and every other text is refused.

* `Decimal.read?_eq_some_iff` — numerals;
* `Quantity.Factor.read?_eq_some_iff` — suffixes;
* `Quantity.Amount.read?_eq_some_iff` — amounts;
* `Quantity.parse_spelled` — which texts are read, and as what.
-/

namespace ClusterTuning

open Text

variable {s : List Char} {n : Nat} {k : Int}

/-! ## Characters and signs -/

namespace Quantity

theorem isNumberChar_of_isDigit {c : Char} (h : isDigit c = true) : isNumberChar c = true := by
  rw [isNumberChar, h, Bool.true_or]

theorem isBlank_of_isNumberChar {c : Char} (h : isNumberChar c = true) : isBlank c = false := by
  have hrange : 46 ≤ c.toNat ∧ c.toNat ≤ 57 := by
    simp only [isNumberChar, isDigit, Bool.or_eq_true, Bool.and_eq_true, decide_eq_true_eq,
      beq_iff_eq] at h
    rcases h with h | rfl
    · omega
    · decide
  exact isBlank_of_toNat (by omega) (by omega)

/-- The signs of numbers below zero, and of the others. -/
def signs (negative : Bool) : List (List Char) :=
  if negative then [['-']] else [[], ['+']]

theorem exists_cutSign (s : List Char) :
    ∃ sign ∈ signs (cutSign s).1, s = sign ++ (cutSign s).2 := by
  unfold cutSign
  split
  · exact ⟨['-'], List.mem_cons_self, rfl⟩
  · exact ⟨['+'], List.mem_cons_of_mem _ List.mem_cons_self, rfl⟩
  · exact ⟨[], List.mem_cons_self, rfl⟩

theorem isBlank_of_mem_signs {negative : Bool} {sign : List Char} (h : sign ∈ signs negative) :
    ∀ c ∈ sign, isBlank c = false := by
  have hsigns : ∀ negative, ∀ sign ∈ signs negative, sign.any isBlank = false := by decide
  simpa using hsigns negative sign h

/-- A sign ends where a digit or a point follows. -/
theorem cutSign_append {negative : Bool} {sign : List Char} (hsign : sign ∈ signs negative)
    (hs : ∀ c, s.head? = some c → isNumberChar c = true) :
    cutSign (sign ++ s) = (negative, s) := by
  have hplain : cutSign s = (false, s) := by
    unfold cutSign
    split
    · exact absurd (hs _ rfl) (by decide)
    · exact absurd (hs _ rfl) (by decide)
    · rfl
  cases negative with
  | false =>
    have hcases : sign = [] ∨ sign = ['+'] := by simpa [signs] using hsign
    rcases hcases with rfl | rfl
    · exact hplain
    · rfl
  | true =>
    obtain rfl : sign = ['-'] := by simpa [signs] using hsign
    rfl

end Quantity

open Quantity

/-! ## Integers -/

/-- A text of decimal digits only. -/
def IsDigits (s : List Char) : Prop :=
  ∀ c ∈ s, isDigit c = true

theorem IsDigits.takeWhile_eq (h : IsDigits s) : s.takeWhile isDigit = s :=
  List.takeWhile_eq_self_iff.2 h

theorem IsDigits.dropWhile_eq (h : IsDigits s) : s.dropWhile isDigit = [] :=
  List.dropWhile_eq_nil_iff.2 h

theorem IsDigits.cut_point (h : IsDigits s) (rest : List Char) :
    (s ++ '.' :: rest).takeWhile isDigit = s ∧
      (s ++ '.' :: rest).dropWhile isDigit = '.' :: rest := by
  refine takeWhile_append_of_head h ?_
  rintro c ⟨⟩
  decide

theorem readNat?_eq_some_iff : readNat? s = some n ↔ (s ≠ [] ∧ IsDigits s) ∧ digitsValue s = n := by
  rw [readNat?, Option.ite_none_right_eq_some, List.all_eq_true, Option.some.injEq]
  rfl

/-- The texts of an integer: a sign and digits. -/
inductive SpellsInt : List Char → Int → Prop where
  | mk {negative : Bool} {sign digits : List Char} (hsign : sign ∈ signs negative)
      (hne : digits ≠ []) (hdigits : IsDigits digits) :
      SpellsInt (sign ++ digits) (if negative then -(digitsValue digits) else digitsValue digits)

theorem readInt?_eq (s : List Char) :
    readInt? s =
      (readNat? (cutSign s).2).map fun n : Nat => if (cutSign s).1 then -(n : Int) else n := by
  fun_cases cutSign s with
  | case1 rest =>
    change ((readNat? rest).bind fun n => some (n : Int)).map (fun n => -n) = _
    cases readNat? rest <;> rfl
  | case2 rest => rfl
  | case3 s hminus hplus =>
    rw [readInt?]
    · rfl
    · exact hplus
    · exact hminus

theorem readInt?_eq_some_iff : readInt? s = some k ↔ SpellsInt s k := by
  constructor
  · intro h
    rw [readInt?_eq] at h
    obtain ⟨n, hn, rfl⟩ := Option.map_eq_some_iff.1 h
    obtain ⟨⟨hne, hdigits⟩, rfl⟩ := readNat?_eq_some_iff.1 hn
    obtain ⟨sign, hsign, hs⟩ := exists_cutSign s
    have hspells := SpellsInt.mk hsign hne hdigits
    rwa [← hs] at hspells
  · intro h
    cases h with
    | mk hsign hne hdigits =>
      have hcut := cutSign_append hsign fun c hc =>
        isNumberChar_of_isDigit (hdigits c (List.mem_of_head? hc))
      rw [readInt?_eq, hcut, readNat?_eq_some_iff.2 ⟨⟨hne, hdigits⟩, rfl⟩]
      rfl

theorem SpellsInt.isBlank_of_mem (h : SpellsInt s k) : ∀ c ∈ s, isBlank c = false := by
  cases h with
  | mk hsign _ hdigits =>
    refine List.forall_mem_append.2 ⟨isBlank_of_mem_signs hsign, fun c hc => ?_⟩
    exact isBlank_of_isNumberChar (isNumberChar_of_isDigit (hdigits c hc))

/-! ## Numerals -/

namespace Decimal

/-- The texts of a numeral: digits with one point among them or without one, and at least one
digit. -/
inductive Spells : List Char → Decimal → Prop where
  | whole {digits : List Char} (hne : digits ≠ []) (hdigits : IsDigits digits) :
      Spells digits ⟨digitsValue digits, 0⟩
  | point {whole fraction : List Char} (hne : whole ++ fraction ≠ []) (hwhole : IsDigits whole)
      (hfraction : IsDigits fraction) :
      Spells (whole ++ '.' :: fraction)
        ⟨digitsValue (whole ++ fraction), -(fraction.length : Int)⟩

variable {d : Decimal} {whole fraction : List Char}

theorem Spells.ne_nil (h : d.Spells s) : s ≠ [] := by
  cases h with
  | whole hne _ => exact hne
  | point _ _ _ => simp

theorem Spells.isNumberChar (h : d.Spells s) : ∀ c ∈ s, isNumberChar c = true := by
  intro c hc
  cases h with
  | whole _ hdigits => exact isNumberChar_of_isDigit (hdigits c hc)
  | point _ hwhole hfraction =>
    rcases List.mem_append.1 hc with hc | hc
    · exact isNumberChar_of_isDigit (hwhole c hc)
    · rcases List.mem_cons.1 hc with rfl | hc
      · decide
      · exact isNumberChar_of_isDigit (hfraction c hc)

/-- Digits and points are digits only, or digits up to a first point. -/
theorem isDigits_or_point (h : ∀ c ∈ s, isNumberChar c = true) :
    IsDigits s ∨ ∃ whole rest, IsDigits whole ∧ s = whole ++ '.' :: rest := by
  induction s with
  | nil => exact .inl nofun
  | cons c s ih =>
    obtain ⟨hc, hs⟩ := List.forall_mem_cons.1 h
    rw [isNumberChar, Bool.or_eq_true, beq_iff_eq] at hc
    rcases hc with hc | rfl
    · rcases ih hs with hdigits | ⟨whole, rest, hwhole, rfl⟩
      · exact .inl (List.forall_mem_cons.2 ⟨hc, hdigits⟩)
      · exact .inr ⟨c :: whole, rest, List.forall_mem_cons.2 ⟨hc, hwhole⟩, rfl⟩
    · exact .inr ⟨[], s, nofun, rfl⟩

theorem read?_of_isDigits (h : IsDigits s) :
    read? s = if s = [] then none else some ⟨digitsValue s, 0⟩ := by
  simp [read?, h.takeWhile_eq, h.dropWhile_eq, ofParts]

theorem read?_of_point (hwhole : IsDigits whole) (hfraction : IsDigits fraction) :
    read? (whole ++ '.' :: fraction) = if whole ++ fraction = [] then none else
      some ⟨digitsValue (whole ++ fraction), -(fraction.length : Int)⟩ := by
  obtain ⟨htake, hdrop⟩ := hwhole.cut_point fraction
  simp [read?, htake, hdrop, hfraction.takeWhile_eq, hfraction.dropWhile_eq, ofParts]

/-- A second point ends the numeral, and no power of ten starts with it. -/
theorem read?_of_points (hwhole : IsDigits whole) (hfraction : IsDigits fraction)
    (rest : List Char) : read? (whole ++ '.' :: (fraction ++ '.' :: rest)) = none := by
  obtain ⟨htake, hdrop⟩ := hwhole.cut_point (fraction ++ '.' :: rest)
  obtain ⟨htake', hdrop'⟩ := hfraction.cut_point rest
  simp [read?, htake, hdrop, htake', hdrop']

/-- A text of digits and points is read as the numeral that it spells. -/
theorem read?_eq_some_iff (hs : ∀ c ∈ s, isNumberChar c = true) :
    read? s = some d ↔ d.Spells s := by
  constructor
  · intro h
    rcases isDigits_or_point hs with hdigits | ⟨whole, rest, hwhole, rfl⟩
    · rw [read?_of_isDigits hdigits, Option.ite_none_left_eq_some] at h
      obtain ⟨hne, h⟩ := h
      obtain rfl := Option.some.inj h
      exact .whole hne hdigits
    · have hrest : ∀ c ∈ rest, isNumberChar c = true := by
        intro c hc
        exact hs c (List.mem_append_right _ (List.mem_cons_of_mem _ hc))
      rcases isDigits_or_point hrest with hfraction | ⟨fraction, rest, hfraction, rfl⟩
      · rw [read?_of_point hwhole hfraction, Option.ite_none_left_eq_some] at h
        obtain ⟨hne, h⟩ := h
        obtain rfl := Option.some.inj h
        exact .point hne hwhole hfraction
      · rw [read?_of_points hwhole hfraction] at h
        exact nomatch h
  · intro h
    cases h with
    | whole hne hdigits => rw [read?_of_isDigits hdigits, if_neg hne]
    | point hne hwhole hfraction => rw [read?_of_point hwhole hfraction, if_neg hne]

end Decimal

/-! ## Suffixes -/

namespace Quantity

namespace Factor

/-- The texts of a factor: the name of a scale, or an exponent of 32 bits behind its mark. -/
inductive Spells : List Char → Factor → Prop where
  | scale {name : String} {u : Scale} (hname : (name, u) ∈ scales) : Spells name.toList (.scale u)
  | power {mark : Char} {digits : List Char} {k : Int} (hmark : mark = 'e' ∨ mark = 'E')
      (hdigits : SpellsInt digits k) (hfits : minInt32 ≤ k ∧ k ≤ maxInt32) :
      Spells (mark :: digits) (.power k)

variable {f : Factor}

/-- No scale is named like a power of ten. -/
theorem not_scale_of_power {mark : Char} (hmark : mark = 'e' ∨ mark = 'E')
    (hdigits : SpellsInt s k) :
    (scales.find? fun entry => entry.1.toList == mark :: s) = none := by
  have hnames : ∀ entry ∈ scales, entry.1.toList.head? = some 'e' ∨
      entry.1.toList.head? = some 'E' → entry.1.toList.tail ∈ [[], ['i']] := by decide
  rw [List.find?_eq_none]
  intro entry hentry heq
  have heq := eq_of_beq heq
  have htail := hnames entry hentry (by simpa [heq] using hmark)
  rw [heq, List.tail_cons] at htail
  have hread := readInt?_eq_some_iff.2 hdigits
  have hnone : ∀ t ∈ [[], ['i']], readInt? t = none := by decide
  rw [hnone s htail] at hread
  exact Option.some_ne_none _ hread.symm

theorem read?_of_mem_scales {name : String} {u : Scale} (hname : (name, u) ∈ scales) :
    read? name.toList = some (.scale u) := by
  have hfind : ∀ entry ∈ scales,
      scales.find? (fun other => other.1.toList == entry.1.toList) = some entry := by
    decide +kernel
  unfold read?
  rw [hfind (name, u) hname]

theorem read?_of_power {mark : Char} (hmark : mark = 'e' ∨ mark = 'E') (hdigits : SpellsInt s k)
    (hfits : minInt32 ≤ k ∧ k ≤ maxInt32) : read? (mark :: s) = some (.power k) := by
  unfold read?
  rw [not_scale_of_power hmark hdigits]
  dsimp only
  rw [if_pos hmark, readInt?_eq_some_iff.2 hdigits, Option.filter_some,
    if_pos ((fitsInt32_iff k).2 hfits)]
  rfl

theorem read?_eq_some_iff : read? s = some f ↔ f.Spells s := by
  constructor
  · intro h
    unfold read? at h
    split at h
    · next name u hfind =>
      obtain rfl := Option.some.inj h
      have hname := List.find?_some hfind
      obtain rfl : name.toList = s := eq_of_beq hname
      exact .scale (List.mem_of_find?_eq_some hfind)
    · split at h
      · next mark digits =>
        split at h
        · next hmark =>
          obtain ⟨k, hk, rfl⟩ := Option.map_eq_some_iff.1 h
          obtain ⟨hread, hfits⟩ := Option.filter_eq_some_iff.1 hk
          exact .power hmark (readInt?_eq_some_iff.1 hread) ((fitsInt32_iff k).1 hfits)
        · exact nomatch h
      · exact nomatch h
  · intro h
    cases h with
    | scale hname => exact read?_of_mem_scales hname
    | power hmark hdigits hfits => exact read?_of_power hmark hdigits hfits

-- the letter as a suffix, as the start of one, and before an exponent
example : Factor.read? ['E'] = some (.scale ⟨10 ^ 18, by norm_num, by norm_num⟩) ∧
    Factor.read? ['E', 'i'] = some (.scale ⟨2 ^ 60, by norm_num, by norm_num⟩) ∧
    Factor.read? ['E', '1'] = some (.power 1) ∧ Factor.read? ['E', 'k'] = none := by
  decide +kernel

theorem Spells.not_isNumberChar (h : f.Spells s) {c : Char} (hc : s.head? = some c) :
    isNumberChar c = false := by
  cases h with
  | scale hname =>
    have hheads : ∀ entry ∈ scales, entry.1.toList.head?.any isNumberChar = false := by decide
    have hhead := hheads _ hname
    rwa [hc] at hhead
  | power hmark _ _ =>
    obtain rfl := Option.some.inj hc
    rcases hmark with rfl | rfl <;> decide

theorem Spells.isBlank_of_mem (h : f.Spells s) : ∀ c ∈ s, isBlank c = false := by
  cases h with
  | scale hname =>
    have hall : ∀ entry ∈ scales, entry.1.toList.any isBlank = false := by decide
    simpa using hall _ hname
  | power hmark hdigits _ =>
    refine List.forall_mem_cons.2 ⟨?_, hdigits.isBlank_of_mem⟩
    rcases hmark with rfl | rfl <;> decide

end Factor

/-! ## Amounts -/

namespace Amount

/-- The texts of an amount: a sign, a numeral and a suffix, with white space around them. -/
inductive Spells : List Char → Amount → Prop where
  | mk {before sign numeral suffix after : List Char} {a : Amount} (hbefore : Blank before)
      (hsign : sign ∈ signs a.negative) (hnumeral : a.numeral.Spells numeral)
      (hsuffix : a.factor.Spells suffix) (hafter : Blank after) :
      Spells (before ++ (sign ++ (numeral ++ suffix)) ++ after) a

variable {a : Amount}

theorem read?_eq_some_iff : read? s = some a ↔ a.Spells s := by
  constructor
  · intro h
    obtain ⟨before, after, hbefore, hafter, hs⟩ := exists_blank_trim s
    obtain ⟨sign, hsign, htrimmed⟩ := exists_cutSign (trim s)
    unfold read? at h
    dsimp only at h
    obtain ⟨numeral, hnumeral, h⟩ := Option.bind_eq_some_iff.1 h
    obtain ⟨factor, hfactor, rfl⟩ := Option.map_eq_some_iff.1 h
    have hchars : ∀ c ∈ (cutSign (trim s)).2.takeWhile isNumberChar, isNumberChar c = true :=
      List.all_eq_true.1 List.all_takeWhile
    have hspells := Spells.mk (a := ⟨_, numeral, factor⟩) hbefore hsign
      ((Decimal.read?_eq_some_iff hchars).1 hnumeral) (Factor.read?_eq_some_iff.1 hfactor) hafter
    rwa [List.takeWhile_append_dropWhile, ← htrimmed, ← hs] at hspells
  · intro h
    cases h with
    | @mk before sign numeral suffix after a hbefore hsign hnumeral hsuffix hafter =>
      have hchars := hnumeral.isNumberChar
      -- the text starts and ends with characters of its parts, which are no white space
      have hblank : ∀ c ∈ sign ++ (numeral ++ suffix), isBlank c = false := by
        refine List.forall_mem_append.2 ⟨isBlank_of_mem_signs hsign, ?_⟩
        refine List.forall_mem_append.2 ⟨?_, hsuffix.isBlank_of_mem⟩
        intro c hc
        exact isBlank_of_isNumberChar (hchars c hc)
      have hne : sign ++ (numeral ++ suffix) ≠ [] := by simp [hnumeral.ne_nil]
      have htrim := trim_append hne hbefore hafter
        (fun c hc => hblank c (List.mem_of_head? hc))
        (fun c hc => hblank c (List.mem_of_getLast? hc))
      have hcut : cutSign (sign ++ (numeral ++ suffix)) = (a.negative, numeral ++ suffix) := by
        refine cutSign_append hsign fun c hc => ?_
        rw [List.head?_append_of_ne_nil _ hnumeral.ne_nil] at hc
        exact hchars c (List.mem_of_head? hc)
      obtain ⟨htake, hdrop⟩ := takeWhile_append_of_head hchars
        (fun c hc => hsuffix.not_isNumberChar hc)
      unfold read?
      rw [htrim, hcut]
      dsimp only
      rw [htake, hdrop, (Decimal.read?_eq_some_iff hchars).2 hnumeral, Option.bind_some,
        Factor.read?_eq_some_iff.2 hsuffix]
      rfl

end Amount

/-- A failure names the text as it stands. -/
theorem eq_of_parse_eq_error {text : String} {failure : Failure}
    (h : parse text = .error failure) : failure = .quantity text := by
  unfold parse at h
  split at h
  · exact nomatch h
  · exact (Except.error.inj h).symm

/-- **Which texts are read, and as what.**  A text is read exactly if it spells an amount, as the
number of this amount.  Every text that spells none is refused as it stands. -/
theorem parse_spelled (text : String) :
    (∀ x, parse text = .ok x ↔ ∃ a : Amount, a.Spells text.toList ∧ a.number = x) ∧
      (parse text = .error (.quantity text) ↔ ¬∃ a : Amount, a.Spells text.toList) := by
  have hok : ∀ x, parse text = .ok x ↔ ∃ a : Amount, a.Spells text.toList ∧ a.number = x := by
    intro x
    rw [parse_eq_ok_iff]
    simp only [Amount.read?_eq_some_iff]
  refine ⟨hok, ?_⟩
  constructor
  · rintro herror ⟨a, ha⟩
    have hread := (hok a.number).2 ⟨a, ha, rfl⟩
    exact nomatch herror.symm.trans hread
  · intro hnone
    cases hparse : parse text with
    | ok x =>
      obtain ⟨a, ha, -⟩ := (hok x).1 hparse
      exact absurd ⟨a, ha⟩ hnone
    | error failure =>
      rw [eq_of_parse_eq_error hparse]

end Quantity

end ClusterTuning
