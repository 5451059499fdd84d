import ClusterTuning.Proofs.Yaml.Numerals
import ClusterTuning.Proofs.Yaml.Token.Literal
import ClusterTuning.Proofs.Yaml.Token.Plain
import ClusterTuning.Proofs.Yaml.Token.Quoted
import ClusterTuning.Proofs.Yaml.Token.Steps

/-!
# Scalars are read back

Every scalar is written in a style that suits its text, and then it is read as one
token with this text: before the colon of its key or at the end of a line.
-/

namespace ClusterTuning.Yaml.Token

open Printer (isPrintable ne_of_isPrintable Style)

/-! ## Texts and their styles -/

/-- What single quotes are written for: nothing that has to be escaped, no line feed and no space
next to a break. -/
structure IsSingle (s : List Char) : Prop where
  printable : ∀ c ∈ s, isPrintable c = true
  unfed : '\n' ∉ s
  spaceBreak : Printer.hasSpaceBreak s = false
  breakSpace : Printer.hasBreakSpace s = false

/-- The texts that a style can be used for. -/
def Suits : Style → List Char → Prop
  | .plain, s => IsPlain s
  | .single, s => IsSingle s
  | .double, _ => True
  | .literal, s => s ≠ [] ∧ ∀ c ∈ s, isPrintable c = true

theorem forall_isPrintable_of_needsEscapes {s : List Char} (h : Printer.needsEscapes s = false) :
    (∀ c ∈ s, isPrintable c = true) ∧ Printer.hasSpaceBreak s = false := by
  rw [Printer.needsEscapes, Bool.or_eq_false_iff, List.any_eq_false] at h
  exact ⟨fun c hc => by simpa using h.1 c hc, h.2⟩

theorem suits_textStyle (s : List Char) : Suits (Printer.textStyle s) s := by
  unfold Printer.textStyle
  split
  · split
    · next hliteral =>
      simp only [Printer.allowsLiteral, Bool.not_eq_true', Bool.or_eq_false_iff] at hliteral
      exact ⟨by simpa using hliteral.1.1, (forall_isPrintable_of_needsEscapes hliteral.1.2).1⟩
    · trivial
  · next hfeed =>
    split
    · next hplain =>
      simp only [Bool.and_eq_true, beq_iff_eq] at hplain
      obtain ⟨⟨hmeaning, -⟩, hallows⟩ := hplain
      refine isPlain_of_allowsPlain ?_ hallows
      rintro rfl
      exact nomatch hmeaning
    · split
      · next hsingle =>
        simp only [Printer.allowsSingle, Bool.not_eq_true', Bool.or_eq_false_iff] at hsingle
        obtain ⟨hprint, hspace⟩ := forall_isPrintable_of_needsEscapes hsingle.1
        exact ⟨hprint, hfeed, hspace, hsingle.2⟩
      · trivial

/-! ### Numerals -/

theorem isPrintable_of_isNumeralChar {c : Char} (h : Scalar.isNumeralChar c = true) :
    isPrintable c = true := by
  have hnumber : c.toNat = 45 ∨ 48 ≤ c.toNat ∧ c.toNat ≤ 57 := by
    rw [Scalar.isNumeralChar, Bool.or_eq_true, beq_iff_eq] at h
    rcases h with rfl | h
    · exact .inl rfl
    · right
      simpa [isDigit] using h
  simp only [isPrintable, Bool.or_eq_true, Bool.and_eq_true, decide_eq_true_eq]
  omega

theorem hasInnerIndicator_eq_false {s : List Char} (h : ∀ c ∈ s, c ≠ ':' ∧ c ≠ '#') :
    Printer.hasInnerIndicator s = false := by
  match s with
  | [] => rfl
  | [_] => rfl
  | a :: b :: rest =>
    obtain ⟨-, hrest⟩ := List.forall_mem_cons.1 h
    obtain ⟨hcolon, hsharp⟩ := hrest b List.mem_cons_self
    rw [Printer.hasInnerIndicator, hasInnerIndicator_eq_false hrest]
    simp [hcolon, hsharp]

theorem of_mem_natDigits {n : Nat} {c : Char} (h : c ∈ natDigits n) :
    Printer.isGap c = false ∧ Printer.isIndicator c = false ∧ c ∉ ['-', '.', '?', ':'] := by
  obtain ⟨d, hd, rfl⟩ := exists_of_mem_toDigits (by decide) h
  have hall : ∀ d < 10, Printer.isGap (Nat.digitChar d) = false ∧
      Printer.isIndicator (Nat.digitChar d) = false ∧
      Nat.digitChar d ∉ ['-', '.', '?', ':'] := by decide
  exact hall d hd

/-- A text whose first character begins nothing else and whose second one is no dash and no
point. -/
theorem hasIndicator_eq_false {c : Char} {rest : List Char}
    (hindicator : Printer.isIndicator c = false)
    (hgap : c = '?' ∨ c = ':' ∨ c = '-' → Printer.startsWithGap rest = false)
    (hnext : ∀ d ∈ rest.head?, d ≠ '-' ∧ d ≠ '.')
    (hinner : Printer.hasInnerIndicator (c :: rest) = false) :
    Printer.hasIndicator (c :: rest) = false := by
  unfold Printer.hasIndicator
  rw [hinner, Bool.or_false]
  split
  · next heq => exact absurd rfl (hnext '-' ((List.cons.inj heq).2 ▸ rfl)).1
  · next heq => exact absurd rfl (hnext '.' ((List.cons.inj heq).2 ▸ rfl)).2
  · next heq =>
    obtain ⟨rfl, rfl⟩ := List.cons.inj heq
    simpa [hindicator, or_imp, and_assoc] using hgap
  · next heq => exact nomatch heq

/-- The numerals that are written plain. -/
theorem isPlain_intText (n : Int) : IsPlain (intText n).toList := by
  have hne {c : Char} (h : c ∈ (intText n).toList) {d : Char}
      (hd : Scalar.isNumeralChar d = false) : c ≠ d := by
    rintro rfl
    exact Bool.false_ne_true (hd.symm.trans (Scalar.isNumeralChar_of_mem_intText h))
  have hprint : ∀ c ∈ (intText n).toList, isPrintable c = true := fun c hc =>
    isPrintable_of_isNumeralChar (Scalar.isNumeralChar_of_mem_intText hc)
  refine ⟨Scalar.intText_ne_nil n, hprint, fun c hc => ?_,
    fun h => hne (List.mem_of_mem_head? h) rfl rfl,
    fun h => hne (List.mem_of_getLast? h) rfl rfl, ?_⟩
  · rw [Bool.eq_false_iff]
    intro hbreak
    rcases eq_of_isBreak (hprint c hc) hbreak with h | h | h <;> exact hne hc rfl h
  · have hinner : Printer.hasInnerIndicator (intText n).toList = false :=
      hasInnerIndicator_eq_false fun c hc => ⟨hne hc rfl, hne hc rfl⟩
    rw [intText, String.toList_ofList] at hinner ⊢
    have hdigits : natDigits n.natAbs ≠ [] := Nat.toDigits_ne_nil
    obtain ⟨d, ds, hdigits⟩ := List.exists_cons_of_ne_nil hdigits
    have hall : ∀ e ∈ d :: ds, _ := fun e he => of_mem_natDigits (hdigits ▸ he)
    obtain ⟨hgap, hindicator, hd⟩ := hall d List.mem_cons_self
    have hnext {e : Char} (he : e ∈ d :: ds) : e ≠ '-' ∧ e ≠ '.' := by
      have := (hall e he).2.2
      simp at this
      exact ⟨this.1, this.2.1⟩
    rw [hdigits] at hinner ⊢
    split_ifs at hinner ⊢
    · exact hasIndicator_eq_false (by decide) (fun _ => hgap)
        (fun e he => hnext (List.mem_of_mem_head? he)) hinner
    · refine hasIndicator_eq_false hindicator (fun h => ?_)
        (fun e he => hnext (List.mem_cons_of_mem _ (List.mem_of_mem_head? he))) hinner
      rcases h with rfl | rfl | rfl <;> exact absurd (by simp) hd

/-! ### Scalars -/

theorem suits_of_scalar? {v : Value} {style : Style} {s : List Char}
    (h : Printer.scalar? v = some (style, s)) (hv : ∀ x, v ≠ .number (.float x)) :
    Suits style s := by
  cases v with
  | null =>
    obtain ⟨rfl, rfl⟩ := Prod.mk.inj (Option.some.inj h)
    exact isPlain_of_allowsPlain (by decide) (by decide)
  | bool b =>
    obtain ⟨rfl, rfl⟩ := Prod.mk.inj (Option.some.inj h)
    cases b <;> exact isPlain_of_allowsPlain (by decide) (by decide)
  | number n =>
    obtain ⟨rfl, rfl⟩ := Prod.mk.inj (Option.some.inj h)
    cases n with
    | integer n => exact isPlain_intText n
    | float x => exact absurd rfl (hv x)
  | string t =>
    obtain ⟨rfl, rfl⟩ := Prod.mk.inj (Option.some.inj h)
    exact suits_textStyle t.toList
  | sequence items => exact nomatch h
  | mapping entries => exact nomatch h
  | tagged tag v => exact nomatch h

/-! ## The tokens of scalars -/

/-- The style of the token that a scalar is read as. -/
def scalarStyle : Style → ScalarStyle
  | .plain => .plain
  | .single => .singleQuoted
  | .double => .doubleQuoted
  | .literal => .literal

namespace Reader

variable {r : Reader}

/-- How the reader reads a scalar that is no block. -/
def readInline (r : Reader) : Style → Cursor → Except Fault ScalarRead
  | .single, cursor => readSingle cursor.rest.tail cursor.mark.advance [] .none
  | .double, cursor => readDouble cursor.rest.tail cursor.mark.advance [] .none none
  | _, cursor => readPlain false (r.indent + 1).toNat cursor.rest cursor.mark [] .none

/-- The reader knows three more characters that begin something else, but only before a gap. -/
theorem isIndicator_eq (c : Char) :
    isIndicator c = (Printer.isIndicator c || ('-' == c || ('?' == c || ':' == c))) := by
  simp only [isIndicator, Printer.isIndicator, List.any_cons, List.any_nil, Bool.or_false]
  ac_rfl

theorem startsPlain_of_isIndicator {c : Char} {rest : List Char}
    (hindicator : Printer.isIndicator c = false) (hblank : isBlank c = false)
    (hgap : c = '?' ∨ c = ':' ∨ c = '-' → atGap rest = false) :
    startsPlain false c rest = true := by
  by_cases hmark : c = '?' ∨ c = ':' ∨ c = '-'
  · have hrest := hgap hmark
    cases rest with
    | nil => exact nomatch hrest
    | cons d rest =>
      have hd : isBlank d = false := (Bool.or_eq_false_iff.1 hrest).1
      rcases hmark with rfl | rfl | rfl <;> simp [startsPlain, hrest, hd]
  · obtain ⟨hquestion, hcolon, hdash⟩ : c ≠ '?' ∧ c ≠ ':' ∧ c ≠ '-' := by simpa using hmark
    simp [startsPlain, hblank, isIndicator_eq, hindicator, hquestion.symm, hcolon.symm, hdash.symm]

theorem token_plain {s after : List Char} {c : Char} {tail : List Char} (hs : IsPlain s)
    (hflow : r.inFlow = false) (h : s ++ after = c :: tail)
    (hafter : ∀ c ∈ after.head?, c ≠ '-' ∧ c ≠ '.') :
    r.token c tail = r.flowScalar .plain (r.readInline .plain) := by
  have hmark := not_atDocumentMark_append hs.ne_nil hs.indicator hafter
  obtain ⟨d, rest, rfl⟩ := List.exists_cons_of_ne_nil hs.ne_nil
  rw [List.cons_append] at h hmark
  obtain ⟨rfl, rfl⟩ := List.cons.inj h
  obtain ⟨hd, hrest⟩ := List.forall_mem_cons.1 hs.printable
  obtain ⟨hindicator, hgap, -⟩ := hasIndicator_cons hs.indicator
  have hgap' : d = '?' ∨ d = ':' ∨ d = '-' → atGap (rest ++ after) = false := fun h =>
    atGap_append hrest (hgap (by tauto))
  have hblank : isBlank d = false := by
    rw [isBlank_of_isPrintable hd]
    simpa using hs.head
  have hplain := startsPlain_of_isIndicator hindicator hblank hgap'
  have hne (e : Char) (he : Printer.isIndicator e = true) : (d == e) = false := by
    rw [beq_eq_false_iff_ne]
    rintro rfl
    exact Bool.false_ne_true (hindicator.symm.trans he)
  have hdash : (d == '-' && atGap (rest ++ after)) = false := by
    by_cases h : d = '-' <;> simp [h, hgap']
  have hquestion : (d == '?' && atGap (rest ++ after)) = false := by
    by_cases h : d = '?' <;> simp [h, hgap']
  have hcolon : (d == ':' && atGap (rest ++ after)) = false := by
    by_cases h : d = ':' <;> simp [h, hgap']
  simp only [token, hmark, hflow, hne '%' rfl, hne '[' rfl, hne '\x7b' rfl, hne ']' rfl,
    hne '\x7d' rfl, hne ',' rfl, hne '*' rfl, hne '&' rfl, hne '!' rfl, hne '|' rfl, hne '>' rfl,
    hne '\'' rfl, hne '"' rfl, hdash, hquestion, hcolon, hplain, Bool.and_false, Bool.false_and,
    Bool.false_or, Bool.false_eq_true, if_false, if_true]
  rfl

theorem token_single (r : Reader) (tail : List Char) :
    r.token '\'' tail = r.flowScalar .singleQuoted (r.readInline .single) := by
  simp [token, atDocumentMark]
  rfl

theorem token_double (r : Reader) (tail : List Char) :
    r.token '"' tail = r.flowScalar .doubleQuoted (r.readInline .double) := by
  simp [token, atDocumentMark]
  rfl

theorem token_literal (hflow : r.inFlow = false) (tail : List Char) :
    r.token '|' tail = r.blockScalar false := by
  simp [token, atDocumentMark, hflow]

/-- A scalar that is no block is read in its style. -/
theorem token_inline {style : Style} {s after tail : List Char} {c : Char} {indent : Nat}
    (hs : Suits style s) (hstyle : style ≠ .literal) (hflow : r.inFlow = false)
    (h : Printer.inlineScalar indent style s ++ after = c :: tail)
    (hafter : ∀ c ∈ after.head?, c ≠ '-' ∧ c ≠ '.') :
    r.token c tail = r.flowScalar (scalarStyle style) (r.readInline style) := by
  cases style with
  | plain => exact token_plain hs hflow h hafter
  | single =>
    obtain ⟨rfl, -⟩ := List.cons.inj h
    exact token_single r tail
  | double =>
    obtain ⟨rfl, -⟩ := List.cons.inj h
    exact token_double r tail
  | literal => exact absurd rfl hstyle

/-! ### What the reader finds -/

theorem readInline_plain {s after : List Char} {mark : Mark} (hs : IsPlain s)
    (hindent : r.indent ≤ mark.column) (hafter : ∀ c ∈ after.head?, c ≠ '-' ∧ c ≠ '.') :
    r.readInline .plain ⟨s ++ after, mark⟩ =
      readPlain false (r.indent + 1).toNat after (mark.passed s) s.reverse .none := by
  have hle : (r.indent + 1).toNat ≤ mark.column + 1 := by omega
  exact hs.readPlain hle hafter

theorem passed_quoted {q : Char} (hq : isBreak q = false) (mark : Mark) (body : List Char) :
    mark.passed (q :: (body ++ [q])) = (mark.advance.passed body).advance := by
  rw [Mark.passed_cons hq, Mark.passed_append, Mark.passed_cons hq, Mark.passed_nil]

/-- A quoted scalar is read up to its closing quote. -/
theorem readInline_quoted {style : Style} {indent : Nat} {s after : List Char} {mark : Mark}
    (hs : Suits style s) (hstyle : style = .single ∨ style = .double) (hindent : 0 < indent)
    (hafter : after.head? ≠ some '\'') :
    r.readInline style ⟨Printer.inlineScalar indent style s ++ after, mark⟩ =
      .ok ⟨s, ⟨after, mark.passed (Printer.inlineScalar indent style s)⟩, false⟩ := by
  have htext : (s.reverse ++ (Gap.none.folded ++ [])).reverse = s := by simp [Gap.folded]
  rcases hstyle with rfl | rfl
  · have hwaits : Waits false .none mark.advance s :=
      .line rfl (Nat.succ_pos mark.column) (.inl rfl)
    have hread := @readSingle_body indent hindent after hafter s false mark.advance [] .none
      hs.printable hs.unfed hs.spaceBreak hs.breakSpace hwaits
    rw [Printer.inlineScalar, passed_quoted (by rfl)]
    show readSingle (Printer.singleBody indent false s ++ ['\''] ++ after) mark.advance [] .none = _
    rw [List.append_assoc, List.singleton_append, hread, htext]
  · have hread := @readDouble_body after s mark.advance [] .none rfl (Nat.succ_pos mark.column)
    rw [Printer.inlineScalar, passed_quoted (by rfl)]
    show readDouble (s.flatMap Printer.doubleChar ++ ['"'] ++ after) mark.advance [] .none none = _
    rw [List.append_assoc, List.singleton_append, hread, htext]

/-- Before the colon of a key. -/
theorem readInline_key {style : Style} {indent : Nat} {s rest : List Char} {mark : Mark}
    (hs : Suits style s) (hstyle : style ≠ .literal) (hindent : 0 < indent)
    (hcolumn : r.indent ≤ mark.column) (hgap : atGap rest = true) :
    r.readInline style ⟨Printer.inlineScalar indent style s ++ ':' :: rest, mark⟩ =
      .ok ⟨s, ⟨':' :: rest, mark.passed (Printer.inlineScalar indent style s)⟩, false⟩ := by
  have hcolon : ∀ c ∈ (':' :: rest).head?, c ≠ '-' ∧ c ≠ '.' := by simp
  cases style with
  | plain =>
    show r.readInline .plain ⟨s ++ ':' :: rest, mark⟩ = _
    rw [readInline_plain hs hcolumn hcolon, readPlain_colon hgap, List.reverse_reverse]
    rfl
  | single => exact readInline_quoted hs (.inl rfl) hindent nofun
  | double => exact readInline_quoted hs (.inr rfl) hindent nofun
  | literal => exact absurd rfl hstyle

/-- At the end of a line. -/
theorem readInline_line {style : Style} {indent column : Nat} {s rest : List Char} {mark : Mark}
    (hs : Suits style s) (hstyle : style ≠ .literal) (hindent : 0 < indent)
    (hcolumn : r.indent ≤ mark.column) (h : Follows r.indent column rest) :
    let after := '\n' :: (Printer.spaces column ++ rest)
    ∃ found, r.readInline style ⟨Printer.inlineScalar indent style s ++ after, mark⟩ = .ok found ∧
      found.text = s ∧ found.cursor.rest.length ≤ after.length ∧
      passGap false found.cursor.rest found.cursor.mark found.crossedLine false =
        (⟨rest, (mark.passed (Printer.inlineScalar indent style s)).newline.advance column⟩,
          true) := by
  intro after
  have hline : ∀ c ∈ after.head?, c ≠ '-' ∧ c ≠ '.' := by simp [after]
  have hgap (start : Mark) : passGap false after start false false =
      (⟨rest, start.newline.advance column⟩, true) := by
    rw [passGap_break, passGap_spaces, passGap_of_startsToken h.head]
  cases style with
  | plain =>
    have hread : r.readInline .plain ⟨s ++ after, mark⟩ =
        .ok ⟨s, ⟨rest, (mark.passed s).newline.advance column⟩, true⟩ := by
      rw [readInline_plain hs hcolumn hline, readPlain_line h, List.reverse_reverse]
    refine ⟨_, hread, rfl, ?_, passGap_of_startsToken h.head⟩
    · simp only [after, List.length_cons, List.length_append]
      omega
  | single => exact ⟨_, readInline_quoted hs (.inl rfl) hindent nofun, rfl, le_rfl, hgap _⟩
  | double => exact ⟨_, readInline_quoted hs (.inr rfl) hindent nofun, rfl, le_rfl, hgap _⟩
  | literal => exact absurd rfl hstyle

/-! ### The state behind a scalar -/

/-- The key that a token at this place may turn out to be. -/
def possibleKey (r : Reader) : Option SimpleKey :=
  if r.keyAllowed then some ⟨r.indent == (r.cursor.mark.column : Int), r.count, r.cursor.mark⟩
  else none

theorem saveKey_eq (hkeys : r.keys = [none]) :
    r.saveKey = .ok { r with keys := [r.possibleKey] } := by
  have hflow : r.inFlow = false := by rw [inFlow, hkeys]
  have hremove : r.removeKey = .ok r := by rw [removeKey, hkeys]
  unfold saveKey possibleKey
  split
  · rw [hremove, ok_bind, hflow, hkeys]
    rfl
  · rw [← hkeys]

theorem flowScalar_eq (hkeys : r.keys = [none]) {style : ScalarStyle}
    {read : Cursor → Except Fault ScalarRead} {found : ScalarRead}
    (hread : read r.cursor = .ok found) :
    r.flowScalar style read =
      .ok { r.emit (.scalar style found.text) with
        keys := [r.possibleKey], keyAllowed := found.crossedLine, cursor := found.cursor } := by
  rw [flowScalar, saveKey_eq hkeys, ok_bind, hread, ok_bind]
  rfl

/-- Behind a token and the end of its line. -/
theorem settle_emit {text rest : List Char} {key : Option SimpleKey} {token : Token}
    {cursor : Cursor} {keyAllowed : Bool} (hkeys : r.keys = [none])
    (hstale : ∀ k ∈ key, k.required = false ∧ k.mark.line < (r.cursor.mark.passed text).line)
    (hgap : passGap false cursor.rest cursor.mark keyAllowed false =
      (⟨rest, r.cursor.mark.passed text⟩, true)) :
    settle { r.emit token with keys := [key], keyAllowed, cursor } =
      .ok ((r.past text rest [token]).unroll (r.cursor.mark.passed text).column) := by
  have hpast : { r.emit token with
      keys := [none], keyAllowed := true, cursor := ⟨rest, r.cursor.mark.passed text⟩ } =
        r.past text rest [token] := by
    rw [past, ← hkeys]
    rfl
  rw [← hpast]
  exact settle_of_passGap rfl hstale hgap

theorem possibleKey_stale {text : List Char} {b : Char} (hb : isBreak b = true) (hmem : b ∈ text)
    (hcolumn : r.indent < r.cursor.mark.column) :
    ∀ k ∈ r.possibleKey, k.required = false ∧
      k.mark.line < (r.cursor.mark.passed text).line := by
  intro k hk
  unfold possibleKey at hk
  split at hk
  · obtain rfl := Option.some.inj hk
    exact ⟨beq_eq_false_iff_ne.2 (Int.ne_of_lt hcolumn), Mark.line_lt_passed hb hmem _⟩
  · exact nomatch hk

theorem exists_scalarLine (indent : Nat) (style : Style) (s : List Char) :
    ∃ t b, isBreak b = true ∧ Printer.scalarLine indent style s = t ++ [b] := by
  cases style with
  | literal => exact exists_endLine (List.cons_ne_nil _ _)
  | plain => exact ⟨_, '\n', rfl, rfl⟩
  | single => exact ⟨_, '\n', rfl, rfl⟩
  | double => exact ⟨_, '\n', rfl, rfl⟩

theorem scalarLine_inline {style : Style} (h : style ≠ .literal) (indent : Nat) (s : List Char) :
    Printer.scalarLine indent style s = Printer.inlineScalar indent style s ++ ['\n'] := by
  cases style with
  | literal => exact absurd rfl h
  | plain => rfl
  | single => rfl
  | double => rfl

theorem inlineScalar_ne_nil {style : Style} {s : List Char} (hs : Suits style s)
    (h : style ≠ .literal) (indent : Nat) : Printer.inlineScalar indent style s ≠ [] := by
  cases style with
  | literal => exact absurd rfl h
  | plain => exact hs.ne_nil
  | single => exact List.cons_ne_nil _ _
  | double => exact List.cons_ne_nil _ _

/-- Behind whole lines and some spaces. -/
theorem column_passed_lines {s t : List Char} {b : Char} (hb : isBreak b = true)
    (h : s = t ++ [b]) (mark : Mark) (n : Nat) :
    (mark.passed (s ++ Printer.spaces n)).column = n := by
  rw [h, Mark.passed_append, Mark.passed_spaces]
  show ((mark.passed (t ++ [b])).column + n) = n
  rw [Mark.column_passed_concat hb, Nat.zero_add]

/-- A literal block is read as one token. -/
theorem token_block {s rest tail : List Char} {c : Char} {column : Nat}
    (hs : Suits .literal s) (hkeys : r.keys = [none]) (h : Follows r.indent column rest)
    (hrest : r.cursor.rest = Printer.scalarLine ((max r.indent 0).toNat + 2) .literal s ++
      (Printer.spaces column ++ rest))
    (hcons : r.cursor.rest = c :: tail) :
    r.token c tail = .ok { r.emit (.scalar .literal s) with
      keys := [none], keyAllowed := true,
      cursor := ⟨rest, r.cursor.mark.passed (Printer.scalarLine ((max r.indent 0).toNat + 2)
        .literal s ++ Printer.spaces column)⟩ } := by
  have hflow : r.inFlow = false := by rw [inFlow, hkeys]
  have hremove : r.removeKey = .ok r := by rw [removeKey, hkeys]
  have hbar : c = '|' := by
    have hfirst := hcons.symm.trans hrest
    rw [scalarLine_literal _ hs.1] at hfirst
    exact (List.cons.inj hfirst).1
  rw [hbar, token_literal hflow, blockScalar, hremove, ok_bind]
  show (readBlock false r.indent ⟨r.cursor.rest, r.cursor.mark⟩ >>= _) = _
  rw [hrest, readBlock_literal hs.1 hs.2 h, ok_bind, ← hkeys]
  rfl

/-- A scalar is read as one token, up to the next token of a further line. -/
theorem token_scalar {style : Style} {s rest tail : List Char} {c : Char} {indent column : Nat}
    (hs : Suits style s) (hkeys : r.keys = [none]) (hcolumn : r.indent < r.cursor.mark.column)
    (hindent : indent = (max r.indent 0).toNat + 2) (h : Follows r.indent column rest)
    (hrest : r.cursor.rest = Printer.scalarLine indent style s ++ (Printer.spaces column ++ rest))
    (hcons : r.cursor.rest = c :: tail) :
    ∃ s₁, r.token c tail = .ok s₁ ∧ s₁.cursor.rest.length ≤ tail.length ∧
      s₁.settle = .ok ((r.past (Printer.scalarLine indent style s ++ Printer.spaces column) rest
        [.scalar (scalarStyle style) s]).unroll column) := by
  subst hindent
  have hflow : r.inFlow = false := by rw [inFlow, hkeys]
  obtain ⟨t, b, hb, hend⟩ := exists_scalarLine ((max r.indent 0).toNat + 2) style s
  have hbmem : b ∈ Printer.scalarLine ((max r.indent 0).toNat + 2) style s ++
      Printer.spaces column := by simp [hend]
  have hplace := column_passed_lines hb hend r.cursor.mark column
  have htail : tail.length + 1 = r.cursor.rest.length := by rw [hcons, List.length_cons]
  by_cases hstyle : style = .literal
  · subst hstyle
    refine ⟨_, token_block hs hkeys h hrest hcons, ?_, ?_⟩
    · have hlength : rest.length < r.cursor.rest.length := by
        rw [hrest, hend]
        simp only [List.length_append, List.length_singleton]
        omega
      show rest.length ≤ tail.length
      omega
    · rw [settle_emit hkeys (by simp) (passGap_of_startsToken h.head), hplace]
      rfl
  · rw [scalarLine_inline hstyle, List.append_assoc, List.singleton_append] at hrest
    obtain ⟨found, hread, rfl, hlength, hgap⟩ := @readInline_line r style
      ((max r.indent 0).toNat + 2) column s rest r.cursor.mark hs hstyle (Nat.succ_pos _)
      (Int.le_of_lt hcolumn) h
    rw [← hrest] at hread
    have htoken := (token_inline hs hstyle hflow (hrest.symm.trans hcons) (by simp)).trans
      (flowScalar_eq hkeys hread)
    refine ⟨_, htoken, ?_, ?_⟩
    · have hne := List.length_pos_iff.2
        (inlineScalar_ne_nil hs hstyle ((max r.indent 0).toNat + 2))
      have hsum := congrArg List.length hrest
      rw [List.length_append] at hsum
      show found.cursor.rest.length ≤ tail.length
      omega
    · have hpassed : r.cursor.mark.passed (Printer.scalarLine ((max r.indent 0).toNat + 2) style
          found.text ++ Printer.spaces column) = (r.cursor.mark.passed (Printer.inlineScalar
            ((max r.indent 0).toNat + 2) style found.text)).newline.advance column := by
        rw [scalarLine_inline hstyle, List.append_assoc, List.singleton_append,
          Mark.passed_append, Mark.passed_break (by rfl), Mark.passed_spaces]
      rw [← hpassed] at hgap
      rw [settle_emit hkeys (possibleKey_stale hb hbmem hcolumn) hgap, hplace]

end Reader

end ClusterTuning.Yaml.Token
