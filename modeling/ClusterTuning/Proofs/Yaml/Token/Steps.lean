import ClusterTuning.Proofs.Outcome
import ClusterTuning.Proofs.Yaml.Token.Place
import ClusterTuning.Yaml.Token.Reader

/-!
# The reader of tokens, step by step

Before each token the reader passes a gap, forgets the keys that have become stale
and closes the collections to the right of the token.  Then the reader is settled:
its next step reads the token and settles again.

* `Steps` — from one settled state to a later one;
* `Arrives` — from any state to a settled one;
* `readOn_of_steps` — what remains to be read does not depend on the way.
-/

namespace ClusterTuning.Yaml.Token.Reader

variable {r : Reader}

/-! ## Open collections -/

@[simp]
theorem cursor_unrollTo (column : Int) (outer : List Int) (r : Reader) :
    (unrollTo column outer r).cursor = r.cursor := by
  induction outer generalizing r with
  | nil => rfl
  | cons c rest ih =>
    rw [unrollTo]
    split
    · exact ih _
    · rfl

@[simp]
theorem cursor_unroll (r : Reader) (column : Int) : (r.unroll column).cursor = r.cursor := by
  unfold unroll
  split
  · rfl
  · exact cursor_unrollTo column r.indents r

/-- Nothing stands to the right of the column. -/
theorem unroll_of_le {column : Int} (h : r.indent ≤ column) : r.unroll column = r := by
  have hto (outer : List Int) : unrollTo column outer r = r := by
    cases outer with
    | nil => rfl
    | cons c rest => rw [unrollTo, if_neg (Int.not_lt.2 h)]
  unfold unroll
  split
  · rfl
  · exact hto r.indents

/-- The state in which a further collection stands open at a column. -/
def enter (r : Reader) (column : Nat) : Reader :=
  { r with indent := column, indents := r.indent :: r.indents }

theorem unroll_eq (hflow : r.inFlow = false) (column : Int) :
    r.unroll column = unrollTo column r.indents r := by
  rw [unroll, hflow, if_neg Bool.false_ne_true]

/-- A collection to the right of the column is closed first. -/
theorem unroll_enter (hflow : r.inFlow = false) {column : Int} {inner : Nat}
    (h : column < inner) : (r.enter inner).unroll column = (r.emit .blockEnd).unroll column := by
  have hflow' : (r.enter inner).inFlow = false ∧ (r.emit .blockEnd).inFlow = false := ⟨hflow, hflow⟩
  rw [unroll_eq hflow'.1, unroll_eq hflow'.2]
  exact if_pos h

/-- Of two columns the one to the left decides. -/
theorem unroll_unroll {a b : Int} (h : a ≤ b) (r : Reader) :
    (r.unroll b).unroll a = r.unroll a := by
  have hto : ∀ (outer : List Int) (r : Reader), r.inFlow = false → r.indents = outer →
      (unrollTo b outer r).unroll a = unrollTo a outer r := by
    intro outer
    induction outer with
    | nil => exact fun r hflow hnil => by rw [unrollTo, unroll_eq hflow, hnil]
    | cons c rest ih =>
      intro r hflow hcons
      rw [unrollTo]
      split
      · next hb =>
        have ha : a < r.indent := Int.lt_of_le_of_lt h hb
        refine (ih { r.emit .blockEnd with indent := c, indents := rest } hflow rfl).trans ?_
        exact (if_pos ha).symm
      · rw [unroll_eq hflow, hcons]
  cases hflow : r.inFlow with
  | true =>
    have hself : ∀ column, r.unroll column = r := fun column => if_pos hflow
    rw [hself, hself]
  | false => rw [unroll_eq hflow, unroll_eq hflow, hto r.indents r hflow rfl]

/-! ## Gaps -/

/-- What no gap holds at the place where a token starts. -/
def StartsToken (rest : List Char) : Prop :=
  ∀ c ∈ rest.head?, isBlank c = false ∧ isBreak c = false ∧ c ≠ '#' ∧ c ≠ '\ufeff'

/-- A character that begins no break of two characters. -/
theorem passGap_cons {inFlow keyAllowed : Bool} {c : Char} {rest : List Char} {mark : Mark}
    (hreturn : c ≠ '\r') :
    passGap inFlow (c :: rest) mark keyAllowed false =
      if isBreak c then passGap inFlow rest mark.newline (keyAllowed || !inFlow) false
      else if c == ' ' || (c == '\ufeff' && mark.column == 0) ||
          (c == '\t' && (inFlow || !keyAllowed)) then
        passGap inFlow rest mark.advance keyAllowed false
      else if c == '#' then passGap inFlow rest mark.advance keyAllowed true
      else (⟨c :: rest, mark⟩, keyAllowed) := by
  rw [passGap, Bool.false_or]
  exact fun _ h => absurd h hreturn

theorem passGap_of_startsToken {inFlow keyAllowed : Bool} {rest : List Char} {mark : Mark}
    (h : StartsToken rest) :
    passGap inFlow rest mark keyAllowed false = (⟨rest, mark⟩, keyAllowed) := by
  cases rest with
  | nil => rfl
  | cons c rest =>
    obtain ⟨hblank, hbreak, hsharp, horder⟩ := h c rfl
    have hspace : c ≠ ' ' ∧ c ≠ '\t' := by simpa [isBlank] using hblank
    have hreturn : c ≠ '\r' := by
      rintro rfl
      exact absurd hbreak (by decide)
    rw [passGap_cons hreturn, if_neg (by simp [hbreak]), if_neg (by simp [hspace, horder]),
      if_neg (by simpa using hsharp)]

theorem passGap_spaces {inFlow keyAllowed : Bool} {rest : List Char} {mark : Mark} (n : Nat) :
    passGap inFlow (Printer.spaces n ++ rest) mark keyAllowed false =
      passGap inFlow rest (mark.advance n) keyAllowed false := by
  induction n generalizing mark with
  | zero => rfl
  | succ n ih =>
    rw [Printer.spaces, List.replicate_succ, List.cons_append, passGap_cons (by decide),
      if_neg (by decide), if_pos (by simp)]
    exact ih.trans (by rw [Mark.advance_advance, Nat.add_comm])

/-- Behind a break a key may start. -/
theorem passGap_break {keyAllowed : Bool} {rest : List Char} {mark : Mark} :
    passGap false ('\n' :: rest) mark keyAllowed false =
      passGap false rest mark.newline true false := by
  rw [passGap_cons (by decide), if_pos (by decide), Bool.not_false, Bool.or_true]

theorem length_passGap_le (inFlow : Bool) (s : List Char) (mark : Mark)
    (keyAllowed inComment : Bool) :
    (passGap inFlow s mark keyAllowed inComment).1.rest.length ≤ s.length := by
  fun_induction passGap inFlow s mark keyAllowed inComment with
  | case1 => exact Nat.le_refl _
  | case2 _ _ _ _ ih => exact Nat.le_succ_of_le (Nat.le_succ_of_le ih)
  | case3 _ _ _ _ _ _ _ ih => exact Nat.le_succ_of_le ih
  | case4 _ _ _ _ _ _ _ _ ih => exact Nat.le_succ_of_le ih
  | case5 _ _ _ _ _ _ _ _ _ ih => exact Nat.le_succ_of_le ih
  | case6 => exact Nat.le_refl _

/-! ## Settling -/

/-- Passes what stands before the next token and closes the collections to its right. -/
def settle (r : Reader) : Except Fault Reader := do
  let (cursor, keyAllowed) := passGap r.inFlow r.cursor.rest r.cursor.mark r.keyAllowed false
  let r ← { r with cursor, keyAllowed }.dropStaleKeys
  return r.unroll cursor.mark.column

/-- Reads the remaining tokens from the next one on, `steps` of them at most after it. -/
def readOn (steps : Nat) (r : Reader) : Except Fault (List Token) :=
  match r.cursor.rest with
  | [] => r.finish
  | c :: rest => do run steps (← r.token c rest)

theorem cursor_of_dropStaleKeys {s : Reader} (h : r.dropStaleKeys = .ok s) :
    s.cursor = r.cursor := by
  unfold dropStaleKeys at h
  split at h
  · exact nomatch h
  · exact (Except.ok.inj h) ▸ rfl

/-- Each round of the reader settles and reads on. -/
theorem run_succ (steps : Nat) (r : Reader) : run (steps + 1) r = r.settle >>= readOn steps := by
  rw [run, settle]
  generalize passGap r.inFlow r.cursor.rest r.cursor.mark r.keyAllowed false = passed
  dsimp only
  cases hkeys : { r with cursor := passed.1, keyAllowed := passed.2 }.dropStaleKeys with
  | error fault => rfl
  | ok s =>
    have hcursor : s.cursor = passed.1 := cursor_of_dropStaleKeys hkeys
    show _ = readOn steps (s.unroll passed.1.mark.column)
    rw [readOn, cursor_unroll, hcursor]
    rfl

theorem length_of_settle {s : Reader} (h : r.settle = .ok s) :
    s.cursor.rest.length ≤ r.cursor.rest.length := by
  obtain ⟨t, ht, hs⟩ := bind_eq_ok_iff.1 h
  obtain rfl := Except.ok.inj hs
  rw [cursor_unroll, cursor_of_dropStaleKeys ht]
  exact length_passGap_le _ _ _ _ _

/-! ## Steps -/

/-- From one settled state to a later one. -/
inductive Steps : Reader → Reader → Prop where
  | refl (r : Reader) : Steps r r
  | token {r r₁ r₂ s : Reader} {c : Char} {rest : List Char} (hrest : r.cursor.rest = c :: rest)
      (htoken : r.token c rest = .ok r₁) (hlength : r₁.cursor.rest.length ≤ rest.length)
      (hsettle : r₁.settle = .ok r₂) (h : Steps r₂ s) : Steps r s

/-- From any state to a settled one. -/
def Arrives (r s : Reader) : Prop :=
  ∃ t, r.settle = .ok t ∧ Steps t s

theorem Steps.trans {s t : Reader} (h : Steps r s) (ht : Steps s t) : Steps r t := by
  induction h with
  | refl => exact ht
  | token hrest htoken hlength hsettle _ ih => exact .token hrest htoken hlength hsettle (ih ht)

theorem Arrives.trans {s t : Reader} (h : Arrives r s) (ht : Steps s t) : Arrives r t := by
  obtain ⟨u, hu, hsteps⟩ := h
  exact ⟨u, hu, hsteps.trans ht⟩

theorem Steps.of_arrives {r₁ s : Reader} {c : Char} {rest : List Char}
    (hrest : r.cursor.rest = c :: rest) (htoken : r.token c rest = .ok r₁)
    (hlength : r₁.cursor.rest.length ≤ rest.length) (h : Arrives r₁ s) : Steps r s := by
  obtain ⟨t, ht, hsteps⟩ := h
  exact .token hrest htoken hlength ht hsteps

/-- What remains to be read after some steps is what remained before. -/
theorem readOn_of_steps {s : Reader} (h : Steps r s) :
    ∀ n, r.cursor.rest.length ≤ n → ∃ m, s.cursor.rest.length ≤ m ∧ readOn n r = readOn m s := by
  induction h with
  | refl => exact fun n hn => ⟨n, hn, rfl⟩
  | @token r r₁ r₂ s c rest hrest htoken hlength hsettle h ih =>
    intro n hn
    rw [hrest, List.length_cons] at hn
    obtain ⟨n, rfl⟩ := Nat.exists_eq_add_one_of_ne_zero (Nat.ne_zero_of_lt hn)
    have hlength₂ := length_of_settle hsettle
    obtain ⟨m, hm, heq⟩ := ih n (by omega)
    refine ⟨m, hm, ?_⟩
    rw [← heq, readOn, hrest]
    show (r.token c rest >>= run (n + 1)) = _
    rw [htoken, ok_bind, run_succ, hsettle, ok_bind]

/-! ## What has been read -/

/-- The state after a text of whole lines has been read as some tokens. -/
def past (r : Reader) (text rest : List Char) (tokens : List Token) : Reader :=
  { r with
    cursor := ⟨rest, r.cursor.mark.passed text⟩
    tokens := tokens.reverse ++ r.tokens
    count := r.count + tokens.length
    keyAllowed := true }

theorem past_past (r : Reader) (s t u rest : List Char) (as bs : List Token) :
    (r.past s u as).past t rest bs = r.past (s ++ t) rest (as ++ bs) := by
  simp only [past, Mark.passed_append, List.reverse_append, List.append_assoc, List.length_append,
    Nat.add_assoc]

theorem past_enter (r : Reader) (column : Nat) (s rest : List Char) (as : List Token) :
    (r.enter column).past s rest as = (r.past s rest as).enter column :=
  rfl

theorem emit_past (r : Reader) (s rest : List Char) (as : List Token) (a : Token) :
    (r.past s rest as).emit a = r.past s rest (as ++ [a]) := by
  simp only [past, emit, List.reverse_append, List.reverse_singleton,
    List.cons_append, List.nil_append, List.length_append, List.length_singleton, Nat.add_assoc]

/-- Outside brackets, a key that has become stale is forgotten. -/
theorem settle_of_passGap {key : Option SimpleKey} {cursor : Cursor} {keyAllowed : Bool}
    (hkeys : r.keys = [key])
    (hstale : ∀ k ∈ key, k.required = false ∧ k.mark.line < cursor.mark.line)
    (hgap : passGap false r.cursor.rest r.cursor.mark r.keyAllowed false = (cursor, keyAllowed)) :
    r.settle = .ok ({ r with cursor, keyAllowed, keys := [none] }.unroll cursor.mark.column) := by
  have hflow : r.inFlow = false := by rw [inFlow, hkeys]
  have hdrop : { r with cursor, keyAllowed }.dropStaleKeys =
      .ok { r with cursor, keyAllowed, keys := [none] } := by
    cases key with
    | none => simp [dropStaleKeys, hkeys]
    | some k =>
      obtain ⟨hrequired, hline⟩ := hstale k rfl
      simp [dropStaleKeys, hkeys, hrequired, isStale, Nat.not_le.2 hline]
  rw [settle, hflow, hgap]
  dsimp only
  rw [hdrop]
  rfl

end ClusterTuning.Yaml.Token.Reader
