import Mathlib.Data.List.TakeWhile
import ClusterTuning.Proofs.Yaml.Token.Indicators

/-!
# Every token takes a character

The reader is given a number of steps, and each token takes one of them.  As it takes a
character of the text, too, as many steps as there are characters are enough.

* `length_of_readPlain`, `length_of_readBlock` … — what the readers of scalars leave;
* `length_of_token` — after a token less of the text is left than before;
* `run_congr` — the reader does not run out of steps.
-/

namespace ClusterTuning.Yaml.Token

variable {s text rest : List Char} {c : Char} {mark : Mark} {cursor after : Cursor} {gap : Gap}
  {found : ScalarRead}

theorem length_skip (cursor : Cursor) (n : Nat) :
    (cursor.skip n).rest.length = cursor.rest.length - n :=
  List.length_drop

/-! ## Scalars -/

theorem length_of_readPlain {inFlow : Bool} {indent : Nat}
    (h : readPlain inFlow indent s mark text gap = .ok found) :
    found.cursor.rest.length ≤ s.length := by
  fun_induction readPlain inFlow indent s mark text gap <;> grind

/-- The first character of a plain scalar is part of it or of a line break. -/
theorem length_of_readPlain_cons {inFlow : Bool} {indent : Nat}
    (hmark : ¬(mark.column == 0 && atDocumentMark (c :: rest)) = true)
    (hstop : ¬(c == ':' && atGap rest || inFlow && isFlowIndicator c) = true)
    (h : readPlain inFlow indent (c :: rest) mark text .none = .ok found) :
    found.cursor.rest.length ≤ rest.length := by
  generalize hs : c :: rest = s at h hmark
  generalize hgap : Gap.none = gap at h
  revert h
  fun_cases readPlain inFlow indent s mark text gap <;> grind [→ length_of_readPlain, Gap.isNone]

theorem length_of_readSingle (h : readSingle s mark text gap = .ok found) :
    found.cursor.rest.length ≤ s.length := by
  fun_induction readSingle s mark text gap <;> grind

theorem length_of_readDouble {number : Option NumberEscape}
    (h : readDouble s mark text gap number = .ok found) :
    found.cursor.rest.length ≤ s.length := by
  fun_induction readDouble s mark text gap number <;> grind

/-! ## Block scalars -/

theorem length_of_readLeadingLines {breaks : List Char} {widest : Nat} {leading : LeadingLines}
    (h : readLeadingLines s mark breaks widest = .ok leading) :
    leading.cursor.rest.length ≤ s.length := by
  fun_induction readLeadingLines s mark breaks widest <;> grind

theorem length_of_readBlockLines {isFolded : Bool} {indent : Nat} {lines : BlockLines}
    {read : BlockLines × Cursor} (h : readBlockLines isFolded indent s mark lines = .ok read) :
    read.2.rest.length ≤ s.length := by
  fun_induction readBlockLines isFolded indent s mark lines <;> grind

theorem length_passBreak_le (cursor : Cursor) :
    (passBreak cursor).rest.length ≤ cursor.rest.length := by
  fun_cases passBreak cursor <;> grind

theorem length_of_passLineEnd (h : passLineEnd cursor = .ok after) :
    after.rest.length ≤ cursor.rest.length := by
  grind [passLineEnd, length_passBreak_le, length_skip]

theorem length_of_readIncrement {found : Option Nat × List Char}
    (h : readIncrement s = .ok found) : found.2.length ≤ s.length := by
  revert h
  fun_cases readIncrement s <;> grind

theorem length_of_readChomping? {found : Chomping × List Char} (h : readChomping? s = some found) :
    found.2.length ≤ s.length := by
  revert h
  fun_cases readChomping? s <;> grind

theorem length_of_readBlockHeader {found : BlockHeader × List Char}
    (h : readBlockHeader s = .ok found) : found.2.length ≤ s.length := by
  unfold readBlockHeader at h
  split at h
  · next chomping rest hmark =>
    obtain ⟨⟨increment, behind⟩, hincrement, hfound⟩ := bind_eq_ok_iff.1 h
    have hrest := length_of_readChomping? hmark
    have hbehind := length_of_readIncrement hincrement
    obtain rfl := Except.ok.inj hfound
    exact Nat.le_trans hbehind hrest
  · obtain ⟨⟨increment, behind⟩, hincrement, hfound⟩ := bind_eq_ok_iff.1 h
    have hbehind := length_of_readIncrement hincrement
    dsimp only at hfound
    split at hfound
    · next hmark =>
      obtain rfl := Except.ok.inj hfound
      exact Nat.le_trans (length_of_readChomping? hmark) hbehind
    · obtain rfl := Except.ok.inj hfound
      exact hbehind

theorem length_of_readBlock {isFolded : Bool} {parent : Int} (hrest : cursor.rest = c :: rest)
    (h : readBlock isFolded parent cursor = .ok found) :
    found.cursor.rest.length ≤ rest.length := by
  obtain ⟨⟨header, behind⟩, hheader, h⟩ := bind_eq_ok_iff.1 h
  obtain ⟨after, hafter, h⟩ := bind_eq_ok_iff.1 h
  have hlength := length_of_readBlockHeader hheader
  have hafter := length_of_passLineEnd hafter
  dsimp only at h
  rw [length_skip, hrest] at hafter
  rw [hrest] at hlength
  have hstart : after.rest.length ≤ rest.length := by grind
  split at h
  · rw [pure_bind] at h
    obtain ⟨⟨lines, last⟩, hlines, h⟩ := bind_eq_ok_iff.1 h
    obtain rfl := Except.ok.inj h
    exact Nat.le_trans (length_of_readBlockLines hlines) hstart
  · obtain ⟨leading, hleading, h⟩ := bind_eq_ok_iff.1 h
    rw [pure_bind] at h
    obtain ⟨⟨lines, last⟩, hlines, h⟩ := bind_eq_ok_iff.1 h
    obtain rfl := Except.ok.inj h
    calc last.rest.length ≤ leading.cursor.rest.length := length_of_readBlockLines hlines
      _ ≤ after.rest.length := length_of_readLeadingLines hleading
      _ ≤ rest.length := hstart

/-! ## Tags, anchors and directives -/

theorem length_of_readTagChars {verbatim readable : Bool} {pending : Option ByteEscape}
    {found : Escaped × List Char} (h : readTagChars verbatim s text readable pending = .ok found) :
    found.2.length ≤ s.length := by
  fun_induction readTagChars verbatim s text readable pending <;> grind

theorem length_readHandle_le (s : List Char) : (readHandle s).2.length ≤ s.length - 1 := by
  have h := List.length_dropWhile_le isWordChar (s.drop 1)
  unfold readHandle
  grind

theorem length_of_readTagParts {found : Token × List Char}
    (h : readTagParts (c :: s) = .ok found) : found.2.length ≤ s.length := by
  unfold readTagParts at h
  split at h
  · next behind heq =>
    obtain ⟨⟨suffix, after⟩, hchars, h⟩ := bind_eq_ok_iff.1 h
    have hafter := length_of_readTagChars hchars
    grind
  · have hhandle := length_readHandle_le (c :: s)
    generalize readHandle (c :: s) = handle at h hhandle
    obtain ⟨⟨suffix, after⟩, hchars, h⟩ := bind_eq_ok_iff.1 h
    have hafter := length_of_readTagChars hchars
    grind

theorem length_of_readTag {inFlow : Bool} {found : Token × Cursor}
    (hrest : cursor.rest = c :: rest) (h : readTag inFlow cursor = .ok found) :
    found.2.rest.length ≤ rest.length := by
  obtain ⟨⟨token, behind⟩, hparts, h⟩ := bind_eq_ok_iff.1 h
  rw [hrest] at hparts
  have hbehind := length_of_readTagParts hparts
  grind [length_skip]

theorem length_of_readAnchor {make : List Char → Token} {found : Token × Cursor}
    (hrest : cursor.rest = c :: rest) (h : readAnchor make cursor = .ok found) :
    found.2.rest.length ≤ rest.length := by
  unfold readAnchor at h
  grind [length_skip]

theorem length_of_readVersionNumber {found : Nat × List Char}
    (h : readVersionNumber s = .ok found) : found.2.length ≤ s.length := by
  unfold readVersionNumber at h
  grind [List.length_dropWhile_le]

theorem length_of_readVersion {found : Token × List Char} (h : readVersion s = .ok found) :
    found.2.length ≤ s.length := by
  obtain ⟨⟨major, behind⟩, hmajor, h⟩ := bind_eq_ok_iff.1 h
  dsimp only at h
  split at h
  · obtain ⟨⟨minor, last⟩, hminor, h⟩ := bind_eq_ok_iff.1 h
    obtain rfl := Except.ok.inj h
    have hlast := length_of_readVersionNumber hminor
    have hbehind := length_of_readVersionNumber hmajor
    grind [List.length_dropWhile_le]
  · exact nomatch h

theorem length_of_readTagDirective {found : Token × List Char}
    (h : readTagDirective s = .ok found) : found.2.length ≤ s.length := by
  have hstart := List.length_dropWhile_le isBlank s
  simp only [readTagDirective] at h
  generalize s.dropWhile isBlank = start at h hstart
  split at h
  · exact nomatch h
  split at h
  · exact nomatch h
  split at h
  · exact nomatch h
  obtain ⟨⟨expansion, after⟩, hchars, h⟩ := bind_eq_ok_iff.1 h
  have hafter := length_of_readTagChars hchars
  have hgap := List.length_dropWhile_le isBlank (readHandle start).2
  have hhandle := length_readHandle_le start
  split at h
  · exact nomatch h
  · obtain rfl := Except.ok.inj h
    dsimp only at hafter ⊢
    omega

theorem length_of_readDirective {found : Token × Cursor}
    (hrest : cursor.rest = c :: rest) (h : readDirective cursor = .ok found) :
    found.2.rest.length ≤ rest.length := by
  have hpassed {token : Token} {behind : List Char}
      (hbehind : behind.length ≤ (rest.dropWhile isWordChar).length)
      (h : (passLineEnd (cursor.skip ((c :: rest).length - behind.length)) >>= fun after =>
        .ok (token, after)) = .ok found) : found.2.rest.length ≤ rest.length := by
    obtain ⟨after, hafter, h⟩ := bind_eq_ok_iff.1 h
    obtain rfl := Except.ok.inj h
    have hafter := length_of_passLineEnd hafter
    rw [length_skip, hrest, List.length_cons] at hafter
    have hname := List.length_dropWhile_le isWordChar rest
    dsimp only
    omega
  simp only [readDirective, hrest, List.drop_one, List.tail_cons] at h
  split at h
  · exact nomatch h
  split at h
  · obtain ⟨⟨token, behind⟩, hversion, h⟩ := bind_eq_ok_iff.1 h
    exact hpassed (length_of_readVersion hversion) h
  split at h
  · obtain ⟨⟨token, behind⟩, hdirective, h⟩ := bind_eq_ok_iff.1 h
    exact hpassed (length_of_readTagDirective hdirective) h
  · exact nomatch h

/-! ## Tokens -/

namespace Reader

variable {r t : Reader}

theorem cursor_of_removeKey (h : r.removeKey = .ok t) : t.cursor = r.cursor := by
  unfold removeKey at h
  grind

theorem cursor_of_saveKey (h : r.saveKey = .ok t) : t.cursor = r.cursor := by
  unfold saveKey at h
  split at h
  · obtain ⟨u, hu, h⟩ := bind_eq_ok_iff.1 h
    obtain rfl := Except.ok.inj h
    have hcursor := cursor_of_removeKey hu
    exact hcursor
  · exact (Except.ok.inj h) ▸ rfl

theorem cursor_of_atLineStart (h : r.atLineStart = .ok t) : t.cursor = r.cursor := by
  obtain ⟨u, hu, h⟩ := bind_eq_ok_iff.1 h
  obtain rfl := Except.ok.inj h
  exact (cursor_of_removeKey hu).trans (cursor_unroll r (-1))

@[simp]
theorem cursor_roll (column position : Nat) (token : Token) :
    (r.roll column position token).cursor = r.cursor := by
  unfold roll
  split <;> rfl

/-- A token of fixed length is passed when it is added. -/
theorem cursor_of_bind_skip {x : Except Fault Reader} {f : Reader → Reader} {n : Nat}
    (hx : ∀ {u}, x = .ok u → u.cursor = cursor) (hf : ∀ u, (f u).cursor = u.cursor)
    (h : (x >>= fun u => .ok ((f u).skip n)) = .ok t) : t.cursor = cursor.skip n := by
  obtain ⟨u, hu, h⟩ := bind_eq_ok_iff.1 h
  obtain rfl := Except.ok.inj h
  rw [← hx hu, ← hf u]
  rfl

theorem cursor_of_documentMark {token : Token} (h : r.documentMark token = .ok t) :
    t.cursor = r.cursor.skip 3 :=
  cursor_of_bind_skip (f := (·.emit token)) cursor_of_atLineStart (fun _ => rfl) h

theorem cursor_of_openFlow {token : Token} (h : r.openFlow token = .ok t) :
    t.cursor = r.cursor.skip 1 :=
  cursor_of_bind_skip
    (f := fun u => { u.emit token with keys := none :: u.keys, keyAllowed := true })
    cursor_of_saveKey (fun _ => rfl) h

theorem cursor_of_closeFlow {token : Token} (h : r.closeFlow token = .ok t) :
    t.cursor = r.cursor.skip 1 :=
  cursor_of_bind_skip
    (f := fun u => { u.emit token with
      keys := if u.inFlow then u.keys.tail else u.keys, keyAllowed := false })
    cursor_of_removeKey (fun _ => rfl) h

theorem cursor_of_flowComma (h : r.flowComma = .ok t) : t.cursor = r.cursor.skip 1 :=
  cursor_of_bind_skip (f := fun u => { u.emit .flowEntry with keyAllowed := true })
    cursor_of_removeKey (fun _ => rfl) h

theorem cursor_of_dash (h : r.dash = .ok t) : t.cursor = r.cursor.skip 1 := by
  simp only [dash] at h
  split at h
  · cases h
  · exact cursor_of_bind_skip (f := fun u => { u.emit .blockEntry with keyAllowed := true })
      (fun hu => (cursor_of_removeKey hu).trans (cursor_roll ..)) (fun _ => rfl) h

theorem cursor_of_keyMark (h : r.keyMark = .ok t) : t.cursor = r.cursor.skip 1 := by
  simp only [keyMark] at h
  split at h
  · cases h
  · exact cursor_of_bind_skip (f := fun u => { u.emit .key with keyAllowed := !u.inFlow })
      (fun hu => (cursor_of_removeKey hu).trans (cursor_roll ..)) (fun _ => rfl) h

theorem cursor_of_valueMark (h : r.valueMark = .ok t) : t.cursor = r.cursor.skip 1 := by
  unfold valueMark at h
  split at h
  · obtain rfl := Except.ok.inj h
    exact congrArg (·.skip 1) (cursor_roll ..)
  · simp only at h
    split at h
    · exact nomatch h
    · obtain rfl := Except.ok.inj h
      exact congrArg (·.skip 1) (cursor_roll ..)

section Lengths

variable (hrest : r.cursor.rest = c :: rest)

include hrest

theorem length_of_skip {n : Nat} (hn : 0 < n) (h : t.cursor = r.cursor.skip n) :
    t.cursor.rest.length ≤ rest.length := by
  rw [h, length_skip, hrest, List.length_cons]
  omega

theorem length_of_directive (h : r.directive = .ok t) : t.cursor.rest.length ≤ rest.length := by
  obtain ⟨u, hu, h⟩ := bind_eq_ok_iff.1 h
  obtain ⟨found, hfound, h⟩ := bind_eq_ok_iff.1 h
  obtain rfl := Except.ok.inj h
  rw [cursor_of_atLineStart hu] at hfound
  exact length_of_readDirective hrest hfound

omit hrest in
theorem length_of_property {read : Cursor → Except Fault (Token × Cursor)}
    (hread : ∀ {found}, read r.cursor = .ok found → found.2.rest.length ≤ rest.length)
    (h : r.property read = .ok t) : t.cursor.rest.length ≤ rest.length := by
  obtain ⟨u, hu, h⟩ := bind_eq_ok_iff.1 h
  obtain ⟨found, hfound, h⟩ := bind_eq_ok_iff.1 h
  obtain rfl := Except.ok.inj h
  exact hread (cursor_of_saveKey hu ▸ hfound)

theorem length_of_blockScalar {isFolded : Bool} (h : r.blockScalar isFolded = .ok t) :
    t.cursor.rest.length ≤ rest.length := by
  obtain ⟨u, hu, h⟩ := bind_eq_ok_iff.1 h
  obtain ⟨found, hfound, h⟩ := bind_eq_ok_iff.1 h
  obtain rfl := Except.ok.inj h
  exact length_of_readBlock ((congrArg Cursor.rest (cursor_of_removeKey hu)).trans hrest) hfound

omit hrest in
theorem length_of_flowScalar {style : ScalarStyle} {read : Cursor → Except Fault ScalarRead}
    (hread : ∀ {found}, read r.cursor = .ok found → found.cursor.rest.length ≤ rest.length)
    (h : r.flowScalar style read = .ok t) : t.cursor.rest.length ≤ rest.length := by
  obtain ⟨u, hu, h⟩ := bind_eq_ok_iff.1 h
  obtain ⟨found, hfound, h⟩ := bind_eq_ok_iff.1 h
  obtain rfl := Except.ok.inj h
  exact hread (cursor_of_saveKey hu ▸ hfound)

/-- After a token less of the text is left than before. -/
theorem length_of_token (h : r.token c rest = .ok t) : t.cursor.rest.length ≤ rest.length := by
  unfold token at h
  rcases ite_eq_iff.1 h with ⟨-, h⟩ | ⟨-, h⟩
  · exact length_of_directive hrest h
  rcases ite_eq_iff.1 h with ⟨-, h⟩ | ⟨hmark, h⟩
  · exact length_of_skip hrest (by decide) (cursor_of_documentMark h)
  rcases ite_eq_iff.1 h with ⟨-, h⟩ | ⟨hseq, h⟩
  · exact length_of_skip hrest (by decide) (cursor_of_openFlow h)
  rcases ite_eq_iff.1 h with ⟨-, h⟩ | ⟨hmap, h⟩
  · exact length_of_skip hrest (by decide) (cursor_of_openFlow h)
  rcases ite_eq_iff.1 h with ⟨-, h⟩ | ⟨hseqEnd, h⟩
  · exact length_of_skip hrest (by decide) (cursor_of_closeFlow h)
  rcases ite_eq_iff.1 h with ⟨-, h⟩ | ⟨hmapEnd, h⟩
  · exact length_of_skip hrest (by decide) (cursor_of_closeFlow h)
  rcases ite_eq_iff.1 h with ⟨-, h⟩ | ⟨hcomma, h⟩
  · exact length_of_skip hrest (by decide) (cursor_of_flowComma h)
  rcases ite_eq_iff.1 h with ⟨-, h⟩ | ⟨-, h⟩
  · exact length_of_skip hrest (by decide) (cursor_of_dash h)
  rcases ite_eq_iff.1 h with ⟨-, h⟩ | ⟨-, h⟩
  · exact length_of_skip hrest (by decide) (cursor_of_keyMark h)
  rcases ite_eq_iff.1 h with ⟨-, h⟩ | ⟨hcolon, h⟩
  · exact length_of_skip hrest (by decide) (cursor_of_valueMark h)
  rcases ite_eq_iff.1 h with ⟨-, h⟩ | ⟨-, h⟩
  · exact length_of_property (length_of_readAnchor hrest) h
  rcases ite_eq_iff.1 h with ⟨-, h⟩ | ⟨-, h⟩
  · exact length_of_property (length_of_readAnchor hrest) h
  rcases ite_eq_iff.1 h with ⟨-, h⟩ | ⟨-, h⟩
  · exact length_of_property (length_of_readTag hrest) h
  rcases ite_eq_iff.1 h with ⟨-, h⟩ | ⟨-, h⟩
  · exact length_of_blockScalar hrest h
  rcases ite_eq_iff.1 h with ⟨-, h⟩ | ⟨-, h⟩
  · exact length_of_blockScalar hrest h
  rcases ite_eq_iff.1 h with ⟨-, h⟩ | ⟨-, h⟩
  · refine length_of_flowScalar (fun hread => ?_) h
    rw [hrest] at hread
    exact length_of_readSingle hread
  rcases ite_eq_iff.1 h with ⟨-, h⟩ | ⟨-, h⟩
  · refine length_of_flowScalar (fun hread => ?_) h
    rw [hrest] at hread
    exact length_of_readDouble hread
  rcases ite_eq_iff.1 h with ⟨-, h⟩ | ⟨-, h⟩
  · refine length_of_flowScalar (fun hread => ?_) h
    rw [hrest] at hread
    have hindicator : isFlowIndicator c = false := by
      rw [isFlowIndicator, Bool.eq_false_of_not_eq_true hcomma, Bool.eq_false_of_not_eq_true hseq,
        Bool.eq_false_of_not_eq_true hseqEnd, Bool.eq_false_of_not_eq_true hmap,
        Bool.eq_false_of_not_eq_true hmapEnd]
      rfl
    refine length_of_readPlain_cons hmark (fun hstop => hcolon ?_) hread
    rw [hindicator, Bool.and_false, Bool.or_false, Bool.and_eq_true] at hstop
    rw [hstop.1, hstop.2, Bool.or_true, Bool.and_true]
  · exact nomatch h

end Lengths

/-! ## Steps -/

/-- With more steps than characters the reader does not run out of them. -/
theorem run_congr {m n : Nat} {r : Reader} (hm : r.cursor.rest.length < m)
    (hn : r.cursor.rest.length < n) : run m r = run n r := by
  induction m generalizing n r with
  | zero => exact absurd hm (Nat.not_lt_zero _)
  | succ m ih =>
    obtain ⟨n, rfl⟩ := Nat.exists_eq_add_one_of_ne_zero (Nat.ne_zero_of_lt hn)
    rw [run_succ, run_succ]
    cases hsettle : r.settle with
    | error fault => rfl
    | ok s =>
      have hlength := length_of_settle hsettle
      rw [ok_bind, ok_bind, readOn, readOn]
      split
      · rfl
      · next c rest hrest =>
        rw [hrest, List.length_cons] at hlength
        cases htoken : s.token c rest with
        | error fault => rfl
        | ok t =>
          have hleft := length_of_token hrest htoken
          rw [ok_bind, ok_bind]
          exact ih (by omega) (by omega)

end Reader

end ClusterTuning.Yaml.Token
