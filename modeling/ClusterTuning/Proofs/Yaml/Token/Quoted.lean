import ClusterTuning.Proofs.Yaml.Numerals
import ClusterTuning.Proofs.Yaml.Token.Place

/-!
# Quoted scalars are read back

In single quotes a text may hold separators of lines; then its further lines are
indented.  In double quotes it has one line, and escapes bring in what cannot stand
as it is.

* `readSingle_body`, `readDouble_body` — what stands between the quotes is read.
-/

namespace ClusterTuning.Yaml.Token

open Printer (isPrintable ne_of_isPrintable)

/-! ## Single quotes -/

theorem Gap.folded_lines {c : Char} (hc : c ≠ '\n') (reversed : List Char) :
    (Gap.lines (some c) reversed).folded = reversed ++ [c] := by
  unfold folded
  split <;> simp_all

section
variable {c : Char} {mark : Mark} {text rest : List Char} {gap : Gap}

theorem readSingle_space :
    readSingle (' ' :: rest) mark text gap =
      readSingle rest mark.advance text (gap.pushBlank ' ') := by
  rw [readSingle, if_neg (by simp [atDocumentMark]), if_pos (by decide)]
  · exact nofun
  · exact nofun

theorem readSingle_break (hprint : isPrintable c = true) (hbreak : isBreak c = true) :
    readSingle (c :: rest) mark text gap =
      readSingle rest mark.newline text (gap.pushBreak c) := by
  rcases eq_of_isBreak hprint hbreak with rfl | rfl | rfl <;>
  · rw [readSingle, if_neg (by simp [atDocumentMark]), if_neg (by decide), if_pos (by decide)]
    · exact nofun
    · exact nofun

theorem readSingle_char (hprint : isPrintable c = true) (hspace : c ≠ ' ')
    (hbreak : isBreak c = false) (hquote : c ≠ '\'') (hcolumn : 0 < mark.column) :
    readSingle (c :: rest) mark text gap =
      readSingle rest mark.advance (c :: (gap.folded ++ text)) .none := by
  have hblank : isBlank c = false := by
    rw [isBlank_of_isPrintable hprint]
    simpa using hspace
  rw [readSingle, if_neg (by simp [Nat.ne_of_gt hcolumn]), if_neg (by simp [hblank]),
    if_neg (by simp [hbreak]), if_neg (by simpa using hquote)]
  · rintro rest' rfl
    exact absurd hprint (by decide)
  · rintro rest' rfl
    exact absurd rfl hquote

theorem readSingle_quote :
    readSingle ('\'' :: '\'' :: rest) mark text gap =
      readSingle rest (mark.advance 2) ('\'' :: (gap.folded ++ text)) .none := by
  rw [readSingle]

theorem readSingle_close (h : rest.head? ≠ some '\'') :
    readSingle ('\'' :: rest) mark text gap =
      .ok ⟨(gap.folded ++ text).reverse, ⟨rest, mark.advance⟩, false⟩ := by
  rw [readSingle, if_neg (by simp [atDocumentMark]), if_neg (by decide), if_neg (by decide),
    if_pos (by decide)]
  · exact nofun
  · rintro rest' - rfl
    exact h rfl

end

theorem readSingle_spaces {mark : Mark} {text rest reversed : List Char} {first : Option Char}
    (n : Nat) :
    readSingle (Printer.spaces n ++ rest) mark text (.lines first reversed) =
      readSingle rest (mark.advance n) text (.lines first reversed) := by
  induction n generalizing mark with
  | zero => rfl
  | succ n ih =>
    rw [Printer.spaces, List.replicate_succ, List.cons_append, readSingle_space]
    exact ih.trans (by rw [Mark.advance_advance, Nat.add_comm])

theorem hasSpaceBreak_cons {c : Char} {rest : List Char}
    (h : Printer.hasSpaceBreak (c :: rest) = false) :
    (c = ' ' → ∀ d ∈ rest.head?, isBreak d = false) ∧ Printer.hasSpaceBreak rest = false := by
  cases rest with
  | nil => exact ⟨fun _ => nofun, rfl⟩
  | cons d rest =>
    rw [Printer.hasSpaceBreak, Bool.or_eq_false_iff] at h
    refine ⟨?_, h.2⟩
    rintro rfl d' hd'
    obtain rfl := Option.some.inj hd'
    exact h.1

theorem hasBreakSpace_cons {c : Char} {rest : List Char}
    (h : Printer.hasBreakSpace (c :: rest) = false) :
    (isBreak c = true → rest.head? ≠ some ' ') ∧ Printer.hasBreakSpace rest = false := by
  cases rest with
  | nil => exact ⟨fun _ => nofun, rfl⟩
  | cons d rest =>
    rw [Printer.hasBreakSpace, Bool.or_eq_false_iff] at h
    refine ⟨fun hc hd => ?_, h.2⟩
    obtain rfl := Option.some.inj hd
    have hbreak : Printer.isBreak c = true := hc
    rw [hbreak] at h
    exact nomatch h.1

/-- What waits before the rest of a text in single quotes: breaks at the start of a line, blanks
within one. -/
structure Waits (broken : Bool) (gap : Gap) (mark : Mark) (s : List Char) : Prop where
  atBreak : broken = true → s.head? ≠ some ' ' ∧
    ∃ first reversed, gap = .lines (some first) reversed ∧ first ≠ '\n'
  inLine : broken = false → gap.crossedLine = false ∧ 0 < mark.column ∧
    (gap = .none ∨ ∀ d ∈ s.head?, isBreak d = false)

theorem Waits.line {gap : Gap} {mark : Mark} {s : List Char} (hcrossed : gap.crossedLine = false)
    (hcolumn : 0 < mark.column) (h : gap = .none ∨ ∀ d ∈ s.head?, isBreak d = false) :
    Waits false gap mark s :=
  ⟨nofun, fun _ => ⟨hcrossed, hcolumn, h⟩⟩

/-- A break joins the ones that wait, for no blank waits before it. -/
theorem Waits.pushBreak {broken : Bool} {gap : Gap} {mark : Mark} {c : Char} {rest : List Char}
    (h : Waits broken gap mark (c :: rest)) (hprint : isPrintable c = true)
    (hbreak : isBreak c = true) (hfeed : c ≠ '\n') (hhead : rest.head? ≠ some ' ') :
    (gap.pushBreak c).folded = c :: gap.folded ∧
      Waits true (gap.pushBreak c) mark.newline rest := by
  have htext := breakText_eq_self hprint hbreak
  cases broken with
  | true =>
    obtain ⟨-, first, reversed, rfl, hfirst⟩ := h.atBreak rfl
    rw [Gap.pushBreak, htext, Gap.folded_lines hfirst, Gap.folded_lines hfirst]
    exact ⟨rfl, fun _ => ⟨hhead, first, _, rfl, hfirst⟩, nofun⟩
  | false =>
    obtain ⟨-, -, rfl | hne⟩ := h.inLine rfl
    · show (Gap.lines (some (breakText c)) []).folded = _ ∧
        Waits true (.lines (some (breakText c)) []) _ _
      rw [htext, Gap.folded_lines hfeed]
      exact ⟨rfl, fun _ => ⟨hhead, c, [], rfl, hfeed⟩, nofun⟩
    · exact absurd hbreak (by simp [hne c rfl])

/-- The indentation of a line in single quotes is passed. -/
theorem Waits.readSingle {broken : Bool} {gap : Gap} {mark : Mark} {s : List Char}
    {indent : Nat} (hindent : 0 < indent) (h : Waits broken gap mark s) (text rest : List Char) :
    0 < (mark.passed (if broken then Printer.spaces indent else [])).column ∧
      readSingle ((if broken then Printer.spaces indent else []) ++ rest) mark text gap =
        readSingle rest (mark.passed (if broken then Printer.spaces indent else [])) text gap := by
  cases broken with
  | true =>
    obtain ⟨-, first, reversed, rfl, -⟩ := h.atBreak rfl
    rw [if_pos rfl, readSingle_spaces, Mark.passed_spaces]
    exact ⟨Nat.lt_of_lt_of_le hindent (Nat.le_add_left _ _), rfl⟩
  | false => exact ⟨(h.inLine rfl).2.1, rfl⟩

theorem singleBody_break {c : Char} (hc : isBreak c = true) (indent : Nat) (broken : Bool)
    (rest : List Char) :
    Printer.singleBody indent broken (c :: rest) = c :: Printer.singleBody indent true rest := by
  rw [Printer.singleBody]
  exact if_pos hc

theorem singleBody_cons {c : Char} (hc : isBreak c = false) (indent : Nat) (broken : Bool)
    (rest : List Char) :
    Printer.singleBody indent broken (c :: rest) =
      (if broken then Printer.spaces indent else []) ++
        ((if c = '\'' then ['\'', '\''] else [c]) ++ Printer.singleBody indent false rest) := by
  have hprinter : Printer.isBreak c = false := hc
  rw [Printer.singleBody, hprinter, if_neg Bool.false_ne_true, List.append_assoc]
  simp only [beq_iff_eq]

/-- The inside of single quotes is read up to their end. -/
theorem readSingle_body {indent : Nat} (hindent : 0 < indent) {after : List Char}
    (hafter : after.head? ≠ some '\'') (s : List Char) :
    ∀ {broken : Bool} {mark : Mark} {text : List Char} {gap : Gap},
      (∀ c ∈ s, isPrintable c = true) → '\n' ∉ s → Printer.hasSpaceBreak s = false →
      Printer.hasBreakSpace s = false → Waits broken gap mark s →
      readSingle (Printer.singleBody indent broken s ++ '\'' :: after) mark text gap =
        .ok ⟨(s.reverse ++ (gap.folded ++ text)).reverse,
          ⟨after, (mark.passed (Printer.singleBody indent broken s)).advance⟩, false⟩ := by
  induction s with
  | nil =>
    intro broken mark text gap _ _ _ _ hgap
    obtain ⟨-, hspaces⟩ := hgap.readSingle hindent text ('\'' :: after)
    rw [Printer.singleBody, hspaces, readSingle_close hafter]
    rfl
  | cons c rest ih =>
    intro broken mark text gap hprint hfeed hspaceBreak hbreakSpace hgap
    obtain ⟨hc, hrest⟩ := List.forall_mem_cons.1 hprint
    obtain ⟨hcfeed, hrestFeed⟩ := not_or.1 (mt List.mem_cons.2 hfeed)
    obtain ⟨hspace, hrestSpaceBreak⟩ := hasSpaceBreak_cons hspaceBreak
    obtain ⟨hbreakHead, hrestBreakSpace⟩ := hasBreakSpace_cons hbreakSpace
    cases hcbreak : isBreak c with
    | true =>
      obtain ⟨hfolded, hwaits⟩ := hgap.pushBreak hc hcbreak (Ne.symm hcfeed) (hbreakHead hcbreak)
      rw [singleBody_break hcbreak, List.cons_append, readSingle_break hc hcbreak,
        ih hrest hrestFeed hrestSpaceBreak hrestBreakSpace hwaits, hfolded,
        Mark.passed_break hcbreak]
      simp
    | false =>
      obtain ⟨hcolumn, hindentation⟩ := hgap.readSingle hindent text
        ((if c = '\'' then ['\'', '\''] else [c]) ++
          (Printer.singleBody indent false rest ++ '\'' :: after))
      rw [singleBody_cons hcbreak, List.append_assoc, List.append_assoc, hindentation,
        Mark.passed_append]
      generalize mark.passed (if broken then Printer.spaces indent else []) = start at hcolumn ⊢
      by_cases hquote : c = '\''
      · subst hquote
        have hwaits : Waits false .none (start.advance 2) rest :=
          .line rfl (Nat.succ_pos _) (.inl rfl)
        rw [if_pos rfl, List.cons_append, List.singleton_append, readSingle_quote,
          ih hrest hrestFeed hrestSpaceBreak hrestBreakSpace hwaits, List.cons_append,
          List.singleton_append, Mark.passed_cons (by rfl), Mark.passed_cons (by rfl),
          Mark.advance_advance]
        simp [Gap.folded]
      · rw [if_neg hquote, List.singleton_append, List.singleton_append, Mark.passed_cons hcbreak]
        by_cases hblank : c = ' '
        · subst hblank
          have hbroken : broken = false := by
            cases broken with
            | true => exact absurd rfl (hgap.atBreak rfl).1
            | false => rfl
          have hcrossed := (hgap.inLine hbroken).1
          have hwaits : Waits false (gap.pushBlank ' ') start.advance rest :=
            .line (Gap.crossedLine_pushBlank hcrossed ' ') (Nat.succ_pos _) (.inr (hspace rfl))
          rw [readSingle_space, ih hrest hrestFeed hrestSpaceBreak hrestBreakSpace hwaits,
            Gap.folded_pushBlank hcrossed]
          simp
        · have hwaits : Waits false .none start.advance rest :=
            .line rfl (Nat.succ_pos _) (.inl rfl)
          rw [readSingle_char hc hblank hcbreak hquote hcolumn,
            ih hrest hrestFeed hrestSpaceBreak hrestBreakSpace hwaits]
          simp [Gap.folded]

/-! ## Double quotes -/

section
variable {c : Char} {mark : Mark} {text rest : List Char} {gap : Gap}

theorem readDouble_space :
    readDouble (' ' :: rest) mark text gap none =
      readDouble rest mark.advance text (gap.pushBlank ' ') none := by
  rw [readDouble, if_neg (by simp [atDocumentMark]), if_pos (by decide)]
  all_goals exact nofun

theorem readDouble_char (hprint : isPrintable c = true) (hspace : c ≠ ' ')
    (hbreak : isBreak c = false) (hquote : c ≠ '"') (hslash : c ≠ '\\')
    (hcolumn : 0 < mark.column) :
    readDouble (c :: rest) mark text gap none =
      readDouble rest mark.advance (c :: (gap.folded ++ text)) .none none := by
  have hblank : isBlank c = false := by
    rw [isBlank_of_isPrintable hprint]
    simpa using hspace
  rw [readDouble, if_neg (by simp [Nat.ne_of_gt hcolumn]), if_neg (by simp [hblank]),
    if_neg (by simp [hbreak]), if_neg (by simpa using hquote)]
  · rintro rest' rfl
    exact absurd hprint (by decide)
  · rintro rest' rfl
    exact absurd rfl hslash
  · rintro d rest' rfl
    exact absurd rfl hslash

theorem readDouble_close :
    readDouble ('"' :: rest) mark text gap none =
      .ok ⟨(gap.folded ++ text).reverse, ⟨rest, mark.advance⟩, false⟩ := by
  rw [readDouble, if_neg (by simp [atDocumentMark]), if_neg (by decide), if_neg (by decide),
    if_pos (by decide)]
  all_goals exact nofun

/-- The letters of the escapes that are written are read. -/
theorem shortEscape?_of_printer {letter : Char} (h : Printer.shortEscape? c = some letter) :
    shortEscape? letter = some c ∧ isPrintable letter = true ∧ isBreak letter = false := by
  have hall : ∀ e ∈ [('\x00', '0'), ('\x07', 'a'), ('\x08', 'b'), ('\t', 't'), ('\n', 'n'),
      ('\x0b', 'v'), ('\x0c', 'f'), ('\r', 'r'), ('\x1b', 'e'), ('"', '"'), ('\\', '\\'),
      ('\u0085', 'N'), ('\u2028', 'L'), ('\u2029', 'P')],
      shortEscape? e.2 = some e.1 ∧ isPrintable e.2 = true ∧ isBreak e.2 = false := by decide
  obtain ⟨e, he, rfl⟩ := Option.map_eq_some_iff.1 h
  have hc : e.1 = c := by simpa using List.find?_some he
  exact hc ▸ hall e (List.mem_of_find?_eq_some he)

theorem readDouble_letter {letter : Char} (h : Printer.shortEscape? c = some letter) :
    readDouble ('\\' :: letter :: rest) mark text gap none =
      readDouble rest (mark.advance 2) (c :: (gap.folded ++ text)) .none none := by
  obtain ⟨hescape, -, hbreak⟩ := shortEscape?_of_printer h
  rw [readDouble, if_neg (by simp [hbreak]), hescape]
  rintro rest' rfl
  exact absurd hbreak (by decide)

theorem readDouble_width {letter : Char} {width : Nat} (hbreak : isBreak letter = false)
    (hshort : shortEscape? letter = none) (hwidth : escapeWidth? letter = some width) :
    readDouble ('\\' :: letter :: rest) mark text gap none =
      readDouble rest (mark.advance 2) (gap.folded ++ text) .none (some ⟨width, 0⟩) := by
  rw [readDouble, if_neg (by simp [hbreak]), hshort, hwidth]
  rintro rest' rfl
  exact absurd hbreak (by decide)

end

/-! ### Escapes by number -/

/-- The number that hexadecimal digits name. -/
def hexNumber (digits : List Char) (value : Nat) : Nat :=
  digits.foldl (fun n d => n * 16 + (hexValue? d).getD 0) value

theorem readDouble_digits {mark : Mark} {text rest : List Char} {gap : Gap} {digits : List Char}
    {width : Nat} (hlength : digits.length = width) (hne : digits ≠ [])
    (hdigits : ∀ d ∈ digits, (hexValue? d).isSome = true) (value : Nat)
    {c : Char} (hc : charOfNumber? (hexNumber digits value) = some c) :
    readDouble (digits ++ rest) mark text gap (some ⟨width, value⟩) =
      readDouble rest (mark.advance width) (c :: text) .none none := by
  subst hlength
  induction digits generalizing value mark with
  | nil => exact absurd rfl hne
  | cons d digits ih =>
    obtain ⟨hd, hrest⟩ := List.forall_mem_cons.1 hdigits
    obtain ⟨n, hn⟩ := Option.isSome_iff_exists.1 hd
    have hnumber : hexNumber (d :: digits) value = hexNumber digits (value * 16 + n) := by
      rw [hexNumber, List.foldl_cons, hn]
      rfl
    rw [hnumber] at hc
    rw [List.cons_append, readDouble, hn]
    cases digits with
    | nil =>
      have hvalue : charOfNumber? (value * 16 + n) = some c := hc
      simp only [List.length_singleton, Nat.lt_irrefl, if_false, hvalue]
      rfl
    | cons e digits =>
      have hleft : 1 < (d :: e :: digits).length := by simp
      simp only [hleft, if_true]
      refine (ih (List.cons_ne_nil e digits) hrest (value * 16 + n) hc).trans ?_
      rw [Mark.advance_advance, Nat.add_comm 1]
      rfl

theorem hexValue?_digitChar {d : Nat} (hd : d < 16) :
    hexValue? (Nat.digitChar d).toUpper = some d := by
  have hall : ∀ d < 16, hexValue? (Nat.digitChar d).toUpper = some d := by decide
  exact hall d hd

theorem hexNumber_append (s t : List Char) (value : Nat) :
    hexNumber (s ++ t) value = hexNumber t (hexNumber s value) :=
  List.foldl_append

theorem hexNumber_toDigits (n : Nat) :
    hexNumber ((Nat.toDigits 16 n).map Char.toUpper) 0 = n := by
  induction n using Nat.strongRecOn with
  | _ n ih =>
    by_cases h : n < 16
    · rw [Nat.toDigits_of_lt_base h, List.map_singleton, hexNumber, List.foldl_cons,
        hexValue?_digitChar h]
      exact Nat.zero_add n
    · have hle : 16 ≤ n := Nat.le_of_not_lt h
      rw [Nat.toDigits_of_base_le (by decide) hle, List.map_append, hexNumber_append,
        ih (n / 16) (by omega), List.map_singleton, hexNumber, List.foldl_cons,
        hexValue?_digitChar (Nat.mod_lt n (by decide))]
      exact Nat.div_add_mod' n 16

theorem hexNumber_hexDigits (width n : Nat) : hexNumber (Printer.hexDigits width n) 0 = n := by
  have hzeros : ∀ k, hexNumber (List.replicate k '0') 0 = 0 := by
    intro k
    induction k with
    | zero => rfl
    | succ k ih => exact ih
  rw [Printer.hexDigits, hexNumber_append, hzeros, hexNumber_toDigits]

theorem length_hexDigits {width n : Nat} (hwidth : 0 < width) (h : n < 16 ^ width) :
    (Printer.hexDigits width n).length = width := by
  have hle := (Nat.length_toDigits_le_iff (by decide) hwidth).2 h
  simp only [Printer.hexDigits, List.length_append, List.length_replicate, List.length_map]
  omega

theorem isSome_hexValue?_of_mem {width n : Nat} {d : Char} (h : d ∈ Printer.hexDigits width n) :
    (hexValue? d).isSome = true := by
  rcases List.mem_append.1 h with h | h
  · rw [List.eq_of_mem_replicate h]
    rfl
  · obtain ⟨e, he, rfl⟩ := List.mem_map.1 h
    obtain ⟨k, hk, rfl⟩ := exists_of_mem_toDigits (by decide) he
    rw [hexValue?_digitChar hk]
    rfl

theorem charOfNumber?_toNat (c : Char) : charOfNumber? c.toNat = some c := by
  have hvalid : c.toNat < 0xD800 ∨ 0xDFFF < c.toNat ∧ c.toNat < 0x110000 := c.valid
  rw [charOfNumber?, if_pos (by omega), Char.ofNat_toNat]

/-- An escape by number stands for the character with this number. -/
theorem readDouble_number {c letter : Char} {width : Nat} {mark : Mark} {text rest : List Char}
    {gap : Gap} (hbreak : isBreak letter = false) (hshort : shortEscape? letter = none)
    (hwidth : escapeWidth? letter = some width) (hpos : 0 < width) (hc : c.toNat < 16 ^ width) :
    readDouble ('\\' :: letter :: (Printer.hexDigits width c.toNat ++ rest)) mark text gap none =
      readDouble rest (mark.advance (width + 2)) (c :: (gap.folded ++ text)) .none none := by
  have hlength := length_hexDigits hpos hc
  have hne : Printer.hexDigits width c.toNat ≠ [] := by
    rw [← List.length_pos_iff, hlength]
    exact hpos
  have hnumber : charOfNumber? (hexNumber (Printer.hexDigits width c.toNat) 0) = some c := by
    rw [hexNumber_hexDigits, charOfNumber?_toNat]
  rw [readDouble_width hbreak hshort hwidth,
    readDouble_digits hlength hne (fun _ => isSome_hexValue?_of_mem) 0 hnumber,
    Mark.advance_advance, Nat.add_comm 2]

theorem isBreak_of_unescaped {c : Char} (hprint : isPrintable c = true)
    (h : Printer.shortEscape? c = none) : isBreak c = false := by
  rw [Bool.eq_false_iff]
  intro hbreak
  rcases eq_of_isBreak hprint hbreak with rfl | rfl | rfl <;> exact nomatch h

/-- What is written for a character in double quotes is read as this character, which is in the text
or waits before what comes next. -/
theorem readDouble_doubleChar {mark : Mark} {text rest : List Char} {gap : Gap} (c : Char)
    (hgap : gap.crossedLine = false) (hcolumn : 0 < mark.column) :
    ∃ text' gap', gap'.crossedLine = false ∧ gap'.folded ++ text' = c :: (gap.folded ++ text) ∧
      readDouble (Printer.doubleChar c ++ rest) mark text gap none =
        readDouble rest (mark.advance (Printer.doubleChar c).length) text' gap' none := by
  have hnumber {letter : Char} {width : Nat} (hbreak : isBreak letter = false)
      (hshort : shortEscape? letter = none) (hwidth : escapeWidth? letter = some width)
      (hpos : 0 < width) (hc : c.toNat < 16 ^ width) :
      readDouble ('\\' :: letter :: Printer.hexDigits width c.toNat ++ rest) mark text gap none =
        readDouble rest
          (mark.advance ('\\' :: letter :: Printer.hexDigits width c.toNat).length)
          (c :: (gap.folded ++ text)) .none none := by
    rw [List.length_cons, List.length_cons, length_hexDigits hpos hc]
    exact readDouble_number hbreak hshort hwidth hpos hc
  cases hescape : Printer.shortEscape? c with
  | some letter =>
    have hchar : Printer.doubleChar c = ['\\', letter] := by rw [Printer.doubleChar, hescape]
    rw [hchar]
    exact ⟨_, _, rfl, rfl, readDouble_letter hescape⟩
  | none =>
    have hchar : Printer.doubleChar c = if isPrintable c then [c]
        else if c.toNat ≤ 0xFF then '\\' :: 'x' :: Printer.hexDigits 2 c.toNat
        else if c.toNat ≤ 0xFFFF then '\\' :: 'u' :: Printer.hexDigits 4 c.toNat
        else '\\' :: 'U' :: Printer.hexDigits 8 c.toNat := by
      rw [Printer.doubleChar, hescape]
    rw [hchar]
    split_ifs with hprint hbyte hplane
    · by_cases hspace : c = ' '
      · subst hspace
        exact ⟨text, gap.pushBlank ' ', Gap.crossedLine_pushBlank hgap ' ',
          by rw [Gap.folded_pushBlank hgap]; rfl, readDouble_space⟩
      · have hne : ∀ d, Printer.shortEscape? d ≠ none → c ≠ d := by
          rintro d hd rfl
          exact hd hescape
        exact ⟨_, _, rfl, rfl, readDouble_char hprint hspace (isBreak_of_unescaped hprint hescape)
          (hne '"' (by decide)) (hne '\\' (by decide)) hcolumn⟩
    · exact ⟨_, _, rfl, rfl, hnumber (by rfl) (by decide) (by rfl) (by decide) (by omega)⟩
    · exact ⟨_, _, rfl, rfl, hnumber (by rfl) (by decide) (by rfl) (by decide) (by omega)⟩
    · have hvalid : c.toNat < 0xD800 ∨ 0xDFFF < c.toNat ∧ c.toNat < 0x110000 := c.valid
      exact ⟨_, _, rfl, rfl, hnumber (by rfl) (by decide) (by rfl) (by decide) (by omega)⟩

/-- Double quotes hold printable characters of one line. -/
theorem doubleChar_spec {c d : Char} (h : d ∈ Printer.doubleChar c) :
    isPrintable d = true ∧ isBreak d = false := by
  have hhex {letter : Char} {width n : Nat}
      (hletter : isPrintable letter = true ∧ isBreak letter = false)
      (hd : d ∈ '\\' :: letter :: Printer.hexDigits width n) :
      isPrintable d = true ∧ isBreak d = false := by
    rcases List.mem_cons.1 hd with rfl | hd
    · decide
    rcases List.mem_cons.1 hd with rfl | hd
    · exact hletter
    rcases List.mem_append.1 hd with hd | hd
    · rw [List.eq_of_mem_replicate hd]
      decide
    · obtain ⟨e, he, rfl⟩ := List.mem_map.1 hd
      obtain ⟨k, hk, rfl⟩ := exists_of_mem_toDigits (by decide) he
      have hall : ∀ k < 16, isPrintable (Nat.digitChar k).toUpper = true ∧
          isBreak (Nat.digitChar k).toUpper = false := by decide
      exact hall k hk
  unfold Printer.doubleChar at h
  split at h
  · next letter hletter =>
    rcases List.mem_cons.1 h with rfl | h
    · decide
    · rw [List.mem_singleton.1 h]
      exact (shortEscape?_of_printer hletter).2
  · next hescape =>
    split_ifs at h with hprint
    · rw [List.mem_singleton.1 h]
      exact ⟨hprint, isBreak_of_unescaped hprint hescape⟩
    · exact hhex (by decide) h
    · exact hhex (by decide) h
    · exact hhex (by decide) h

/-- The inside of double quotes is read up to their end. -/
theorem readDouble_body {after : List Char} (s : List Char) :
    ∀ {mark : Mark} {text : List Char} {gap : Gap}, gap.crossedLine = false → 0 < mark.column →
      readDouble (s.flatMap Printer.doubleChar ++ '"' :: after) mark text gap none =
        .ok ⟨(s.reverse ++ (gap.folded ++ text)).reverse,
          ⟨after, (mark.passed (s.flatMap Printer.doubleChar)).advance⟩, false⟩ := by
  induction s with
  | nil => exact fun _ _ => readDouble_close
  | cons c rest ih =>
    intro mark text gap hgap hcolumn
    obtain ⟨text', gap', hgap', htext, hread⟩ := readDouble_doubleChar c hgap hcolumn
    rw [List.flatMap_cons, List.append_assoc, hread,
      ih hgap' (Nat.lt_of_lt_of_le hcolumn (Nat.le_add_right _ _)), htext, Mark.passed_append,
      Mark.passed_eq_advance fun _ hd => (doubleChar_spec hd).2]
    simp

end ClusterTuning.Yaml.Token
