import ClusterTuning.Proofs.Outcome
import ClusterTuning.Proofs.Text.Trimming
import ClusterTuning.Selector

/-!
# How selectors are spelled

The grammar of selectors, as a relation between requirements and texts that does
not mention the reader.  A text has at most one reading in it, and the reader
finds that reading exactly when there is one.

* `Selector.readRequirement_eq_ok_iff` — single requirements;
* `Selector.splitAt_eq_ok_iff` — the parts between commas outside parentheses;
* `Selector.parse_eq_ok_iff` — whole selectors.
-/

namespace ClusterTuning

namespace Selector

open Text

/-! ## Characters of keys and values -/

theorem isBlank_of_isKeyChar {c : Char} (h : isKeyChar c = true) : isBlank c = false := by
  have htoNat : c.toNat = c.val.toNat := rfl
  have hrange : 45 ≤ c.toNat ∧ c.toNat ≤ 122 := by
    simp only [isKeyChar, isValueChar, isAlnum, Bool.or_eq_true, Bool.and_eq_true,
      decide_eq_true_eq, beq_iff_eq, Char.le_def, UInt32.le_iff_toNat_le] at h
    rcases h with ((((((h | h) | h) | rfl) | rfl) | rfl) | rfl)
    · change 97 ≤ c.val.toNat ∧ c.val.toNat ≤ 122 at h
      omega
    · change 65 ≤ c.val.toNat ∧ c.val.toNat ≤ 90 at h
      omega
    · change 48 ≤ c.val.toNat ∧ c.val.toNat ≤ 57 at h
      omega
    all_goals decide
  exact isBlank_of_toNat (by omega) (by omega)

theorem isKeyChar_of_isAlnum {c : Char} (h : isAlnum c = true) : isKeyChar c = true := by
  simp [isKeyChar, isValueChar, h]

theorem isAlnum_head_of_isName {inside : Char → Bool} {s : List Char} {c : Char}
    (h : isName inside s = true) (hc : s.head? = some c) : isAlnum c = true := by
  simp only [isName, Bool.and_eq_true, hc, Option.any_some] at h
  exact h.1.1

theorem isAlnum_head_of_isValue {s : List Char} {c : Char} (h : isValue s = true)
    (hc : s.head? = some c) : isAlnum c = true := by
  cases s with
  | nil => exact nomatch hc
  | cons d rest => exact isAlnum_head_of_isName h hc

theorem isKey_nil : isKey [] = false :=
  rfl

theorem isBlank_head_of_isKey {key : List Char} {c : Char} (h : isKey key = true)
    (hc : key.head? = some c) : isBlank c = false :=
  isBlank_of_isKeyChar (isKeyChar_of_isAlnum (isAlnum_head_of_isName h hc))

theorem isBlank_head_of_isValue {value : List Char} {c : Char} (h : isValue value = true)
    (hc : value.head? = some c) : isBlank c = false :=
  isBlank_of_isKeyChar (isKeyChar_of_isAlnum (isAlnum_head_of_isValue h hc))

/-- No key goes on in a text. -/
def KeyEnds (s : List Char) : Prop :=
  ∀ c, s.head? = some c → isKeyChar c = false

theorem keyEnds_of_isBlank {gap s : List Char} (hgap : Blank gap) (hne : gap ≠ []) :
    KeyEnds (gap ++ s) := by
  intro c hc
  rw [List.head?_append_of_ne_nil _ hne] at hc
  by_contra hkey
  have hblank := hgap c (List.mem_of_mem_head? hc)
  rw [isBlank_of_isKeyChar (by simpa using hkey)] at hblank
  exact Bool.false_ne_true hblank

theorem keyEnds_append {gap s : List Char} (hgap : Blank gap) (hs : KeyEnds s) :
    KeyEnds (gap ++ s) := by
  by_cases hne : gap = []
  · rwa [hne, List.nil_append]
  · exact keyEnds_of_isBlank hgap hne

/-- A key is all that can be taken from the front. -/
theorem takeWhile_key {key s : List Char} (hkey : isKey key = true) (hs : KeyEnds s) :
    (key ++ s).takeWhile isKeyChar = key ∧ (key ++ s).dropWhile isKeyChar = s := by
  have hall : ∀ c ∈ key, isKeyChar c = true := by
    simp only [isKey, isName, Bool.and_eq_true, List.all_eq_true] at hkey
    exact hkey.2
  exact takeWhile_append_of_head hall hs

theorem takeWhile_of_keyEnds {s : List Char} (hs : KeyEnds s) : s.takeWhile isKeyChar = [] := by
  cases s with
  | nil => rfl
  | cons c rest => exact List.takeWhile_cons_of_neg (by simp [hs c rfl])

/-! ## The grammar of requirements -/

/-- The word of a set requirement. -/
def setWord (positive : Bool) : List Char :=
  if positive then ['i', 'n'] else ['n', 'o', 't', 'i', 'n']

/-- The signs of equalities and of inequalities. -/
def signs (positive : Bool) : List (List Char) :=
  if positive then [['='], ['=', '=']] else [['!', '=']]

/-- A text spells a requirement. -/
inductive Requirement.Spelled : Requirement → List Char → Prop where
  | set {key gap gap₂ body : List Char} (positive : Bool) (hkey : isKey key = true)
      (hgap : Blank gap) (hne : gap ≠ []) (hgap₂ : Blank gap₂) (hline : '\n' ∉ body)
      (hvalues : ∀ v ∈ (pieces ',' body).map trim, isValue v = true)
      (hsome : ∃ v ∈ (pieces ',' body).map trim, v ≠ []) :
      Spelled (.set key positive ((pieces ',' body).map trim))
        (key ++ (gap ++ (setWord positive ++ (gap₂ ++ '(' :: (body ++ [')'])))))
  | equal {key gap sign gap₂ value : List Char} (hkey : isKey key = true) (hgap : Blank gap)
      (hsign : sign ∈ signs true) (hgap₂ : Blank gap₂) (hvalue : isValue value = true) :
      Spelled (.equal key value) (key ++ (gap ++ (sign ++ (gap₂ ++ value))))
  | unequal {key gap sign gap₂ value : List Char} (hkey : isKey key = true) (hgap : Blank gap)
      (hsign : sign ∈ signs false) (hgap₂ : Blank gap₂) (hvalue : isValue value = true) :
      Spelled (.unequal key value) (key ++ (gap ++ (sign ++ (gap₂ ++ value))))
  | present {gap key : List Char} (hgap : Blank gap) (hkey : isKey key = true) :
      Spelled (.present key) (gap ++ key)
  | absent {gap key : List Char} (hgap : Blank gap) (hkey : isKey key = true) :
      Spelled (.absent key) ('!' :: (gap ++ key))

/-! ## Reading set requirements -/

theorem setWord?_eq_some_iff {s rest : List Char} {positive : Bool} :
    setWord? s = some (positive, rest) ↔ s = setWord positive ++ rest := by
  constructor
  · intro h
    unfold setWord? at h
    split at h
    · simp only [Option.some.injEq, Prod.mk.injEq] at h
      obtain ⟨rfl, rfl⟩ := h
      rfl
    · simp only [Option.some.injEq, Prod.mk.injEq] at h
      obtain ⟨rfl, rfl⟩ := h
      rfl
    · exact nomatch h
  · rintro rfl
    cases positive <;> rfl

theorem isBlank_head_setWord (positive : Bool) (s : List Char) :
    ∀ c, (setWord positive ++ s).head? = some c → isBlank c = false := by
  intro c hc
  cases positive <;> (obtain rfl := Option.some.inj hc; decide)

/-- A set requirement has a key, white space, one of the two words, and parentheses that enclose
one line. -/
theorem setParts?_eq_some_iff {s key body : List Char} {positive : Bool} :
    setParts? s = some (key, positive, body) ↔ isKey key = true ∧ '\n' ∉ body ∧
      ∃ gap gap₂, Blank gap ∧ gap ≠ [] ∧ Blank gap₂ ∧
        s = key ++ (gap ++ (setWord positive ++ (gap₂ ++ '(' :: (body ++ [')'])))) := by
  constructor
  · intro h
    unfold setParts? at h
    dsimp only at h
    split at h
    · next hcond =>
      obtain ⟨hkey, hblank⟩ := hcond
      obtain ⟨⟨p, after⟩, hword, h⟩ := Option.bind_eq_some_iff.1 h
      have hword := setWord?_eq_some_iff.1 hword
      dsimp only at h
      split at h
      · next inner hinner =>
        split at h
        · next hbody =>
          simp only [Option.some.injEq, Prod.mk.injEq] at h
          obtain ⟨rfl, rfl, rfl⟩ := h
          obtain ⟨gap, hgap, hrest⟩ := exists_blank_append_trimStart (s.dropWhile isKeyChar)
          obtain ⟨gap₂, hgap₂, hafter⟩ := exists_blank_append_trimStart after
          refine ⟨hkey, hbody.2, gap, gap₂, hgap, ?_, hgap₂, ?_⟩
          · rintro rfl
            rw [hrest, hword, List.nil_append] at hblank
            cases p with
            | false => exact absurd (show isBlank 'n' = true from hblank) (by decide)
            | true => exact absurd (show isBlank 'i' = true from hblank) (by decide)
          · have hlast := List.dropLast_append_getLast? ')' hbody.1
            rw [hlast, ← hinner, ← hafter, ← hword, ← hrest, List.takeWhile_append_dropWhile]
        · exact nomatch h
      · exact nomatch h
    · exact nomatch h
  · rintro ⟨hkey, hline, gap, gap₂, hgap, hne, hgap₂, rfl⟩
    have hends := keyEnds_of_isBlank
      (s := setWord positive ++ (gap₂ ++ '(' :: (body ++ [')']))) hgap hne
    have hopen : ∀ c, ('(' :: (body ++ [')'])).head? = some c → isBlank c = false := by
      intro c hc
      obtain rfl := Option.some.inj hc
      decide
    have hblank : (gap ++ (setWord positive ++ (gap₂ ++ '(' :: (body ++ [')'])))).head?.any
        isBlank = true := by
      cases gap with
      | nil => exact absurd rfl hne
      | cons c rest => exact hgap c List.mem_cons_self
    unfold setParts?
    dsimp only
    obtain ⟨htake, hdrop⟩ := takeWhile_key hkey hends
    rw [htake, hdrop, if_pos ⟨hkey, hblank⟩, trimStart_append hgap (isBlank_head_setWord _ _),
      setWord?_eq_some_iff.2 rfl, Option.bind_some]
    dsimp only
    rw [trimStart_append hgap₂ hopen]
    simp [hline]

/-! ## Reading equalities -/

/-- The sign at the start of a text: whether it is one of equality, and what follows it. -/
def sign? : List Char → Option (Bool × List Char)
  | '=' :: '=' :: rest => some (true, rest)
  | '=' :: rest => some (true, rest)
  | '!' :: '=' :: rest => some (false, rest)
  | _ => none

theorem equalityParts?_eq_some_iff_sign? {s key value : List Char} {positive : Bool} :
    equalityParts? s = some (key, positive, value) ↔
      ∃ tail, sign? (trimStart (s.dropWhile isKeyChar)) = some (positive, tail) ∧
        key = s.takeWhile isKeyChar ∧ value = trimStart tail ∧ isKey key = true ∧
          isValue value = true := by
  have hunfold : equalityParts? s = (sign? (trimStart (s.dropWhile isKeyChar))).bind fun cut =>
      if isKey (s.takeWhile isKeyChar) ∧ isValue (trimStart cut.2) then
        some (s.takeWhile isKeyChar, cut.1, trimStart cut.2)
      else none := rfl
  rw [hunfold, Option.bind_eq_some_iff]
  constructor
  · rintro ⟨⟨p, tail⟩, hsign, h⟩
    obtain ⟨⟨hkey, hvalue⟩, h⟩ := Option.ite_none_right_eq_some.1 h
    simp only [Option.some.injEq, Prod.mk.injEq] at h
    obtain ⟨rfl, rfl, rfl⟩ := h
    exact ⟨tail, hsign, rfl, rfl, hkey, hvalue⟩
  · rintro ⟨tail, hsign, rfl, rfl, hkey, hvalue⟩
    exact ⟨(positive, tail), hsign, if_pos ⟨hkey, hvalue⟩⟩

theorem exists_sign_append {s tail : List Char} {positive : Bool}
    (h : sign? s = some (positive, tail)) : ∃ sign ∈ signs positive, s = sign ++ tail := by
  unfold sign? at h
  split at h
  · obtain ⟨rfl, rfl⟩ := Prod.mk.inj (Option.some.inj h)
    exact ⟨['=', '='], by decide, rfl⟩
  · obtain ⟨rfl, rfl⟩ := Prod.mk.inj (Option.some.inj h)
    exact ⟨['='], by decide, rfl⟩
  · obtain ⟨rfl, rfl⟩ := Prod.mk.inj (Option.some.inj h)
    exact ⟨['!', '='], by decide, rfl⟩
  · exact nomatch h

/-- A sign is read as such unless a second one follows. -/
theorem sign?_append {sign tail : List Char} {positive : Bool} (hsign : sign ∈ signs positive)
    (htail : tail.head? ≠ some '=') : sign? (sign ++ tail) = some (positive, tail) := by
  cases positive with
  | false =>
    obtain rfl := List.mem_singleton.1 hsign
    rfl
  | true =>
    rcases List.mem_pair.1 hsign with rfl | rfl
    · cases tail with
      | nil => rfl
      | cons c rest =>
        have hc : c ≠ '=' := fun hc => htail (congrArg some hc)
        simp [sign?, hc]
    · rfl

theorem head_of_mem_signs {sign rest : List Char} {positive : Bool} (hsign : sign ∈ signs positive) :
    ∀ c, (sign ++ rest).head? = some c → isKeyChar c = false ∧ isBlank c = false := by
  intro c hc
  cases positive with
  | false =>
    obtain rfl := List.mem_singleton.1 hsign
    obtain rfl := Option.some.inj hc
    decide
  | true =>
    rcases List.mem_pair.1 hsign with rfl | rfl <;> (obtain rfl := Option.some.inj hc; decide)

/-- An equality has a key, a sign and a value, with white space between them. -/
theorem equalityParts?_eq_some_iff {s key value : List Char} {positive : Bool} :
    equalityParts? s = some (key, positive, value) ↔ isKey key = true ∧ isValue value = true ∧
      ∃ gap sign gap₂, Blank gap ∧ sign ∈ signs positive ∧ Blank gap₂ ∧
        s = key ++ (gap ++ (sign ++ (gap₂ ++ value))) := by
  rw [equalityParts?_eq_some_iff_sign?]
  constructor
  · rintro ⟨tail, hcut, rfl, rfl, hkey, hvalue⟩
    obtain ⟨sign, hsign, hcut⟩ := exists_sign_append hcut
    obtain ⟨gap, hgap, hrest⟩ := exists_blank_append_trimStart (s.dropWhile isKeyChar)
    obtain ⟨gap₂, hgap₂, htail⟩ := exists_blank_append_trimStart tail
    refine ⟨hkey, hvalue, gap, sign, gap₂, hgap, hsign, hgap₂, ?_⟩
    rw [← htail, ← hcut, ← hrest, List.takeWhile_append_dropWhile]
  · rintro ⟨hkey, hvalue, gap, sign, gap₂, hgap, hsign, hgap₂, rfl⟩
    have hhead : ∀ c, (sign ++ (gap₂ ++ value)).head? = some c →
        isKeyChar c = false ∧ isBlank c = false := head_of_mem_signs hsign
    have hnext : (gap₂ ++ value).head? ≠ some '=' := by
      intro hfirst
      cases gap₂ with
      | nil => exact absurd (isAlnum_head_of_isValue hvalue hfirst) (by decide)
      | cons c rest =>
        obtain rfl := Option.some.inj hfirst
        exact absurd (hgap₂ '=' List.mem_cons_self) (by decide)
    obtain ⟨htake, hdrop⟩ := takeWhile_key hkey (keyEnds_append hgap fun c hc => (hhead c hc).1)
    refine ⟨gap₂ ++ value, ?_, htake.symm, ?_, hkey, hvalue⟩
    · rw [hdrop, trimStart_append hgap fun c hc => (hhead c hc).2, sign?_append hsign hnext]
    · exact (trimStart_append hgap₂ fun c hc => isBlank_head_of_isValue hvalue hc).symm

/-! ## Reading single requirements -/

/-- Sets and equalities start with a key. -/
theorem parts?_of_keyEnds {s : List Char} (h : KeyEnds s) :
    setParts? s = none ∧ equalityParts? s = none := by
  have htake := takeWhile_of_keyEnds h
  constructor
  · simp [setParts?, htake, isKey_nil]
  · simp [equalityParts?, htake, isKey_nil]

/-- A key alone is neither a set requirement nor an equality. -/
theorem parts?_of_isKey {key : List Char} (h : isKey key = true) :
    setParts? key = none ∧ equalityParts? key = none := by
  obtain ⟨htake, hdrop⟩ := takeWhile_key (s := []) h fun c hc => nomatch hc
  rw [List.append_nil] at htake hdrop
  constructor
  · simp [setParts?, hdrop]
  · simp [equalityParts?, hdrop, trimStart]

/-- An equality is no set requirement: its sign is no word. -/
theorem setParts?_of_equalityParts? {s key value : List Char} {positive : Bool}
    (h : equalityParts? s = some (key, positive, value)) : setParts? s = none := by
  cases hset : setParts? s with
  | none => rfl
  | some parts =>
    obtain ⟨key', word, body⟩ := parts
    obtain ⟨hkey', -, gap, gap₂, hgap, hne, -, hs⟩ := setParts?_eq_some_iff.1 hset
    obtain ⟨htake, hdrop⟩ := takeWhile_key hkey' (keyEnds_of_isBlank
      (s := setWord word ++ (gap₂ ++ '(' :: (body ++ [')']))) hgap hne)
    rw [← hs] at htake hdrop
    have htrim := trimStart_append hgap
      (isBlank_head_setWord word (gap₂ ++ '(' :: (body ++ [')'])))
    unfold equalityParts? at h
    dsimp only at h
    rw [hdrop, htrim] at h
    cases word <;> exact nomatch h

theorem existenceParts?_eq_some_iff {s key : List Char} {positive : Bool} :
    existenceParts? s = some (key, positive) ↔ isKey key = true ∧
      ∃ gap, Blank gap ∧ s = (if positive then [] else ['!']) ++ (gap ++ key) := by
  constructor
  · intro h
    unfold existenceParts? at h
    split at h
    next present rest hmark =>
    dsimp only at h
    split at h
    · next hkey =>
      simp only [Option.some.injEq, Prod.mk.injEq] at h
      obtain ⟨rfl, rfl⟩ := h
      obtain ⟨gap, hgap, hrest⟩ := exists_blank_append_trimStart rest
      refine ⟨hkey, gap, hgap, ?_⟩
      rw [← hrest]
      split at hmark
      · obtain ⟨rfl, rfl⟩ := Prod.mk.inj hmark
        rfl
      · obtain ⟨rfl, rfl⟩ := Prod.mk.inj hmark
        rfl
    · exact nomatch h
  · rintro ⟨hkey, gap, hgap, rfl⟩
    have htrim : trimStart (gap ++ key) = key :=
      trimStart_append hgap fun c hc => isBlank_head_of_isKey hkey hc
    cases positive with
    | false => simp [existenceParts?, htrim, hkey]
    | true =>
      have hmark : ∀ rest, gap ++ key = '!' :: rest → False := by
        intro rest hrest
        cases gap with
        | nil =>
          exact absurd (isAlnum_head_of_isName hkey (congrArg List.head? hrest)) (by decide)
        | cons c t =>
          obtain rfl := (List.cons.inj hrest).1
          exact absurd (hgap '!' List.mem_cons_self) (by decide)
      show existenceParts? (gap ++ key) = some (key, true)
      cases hrest : gap ++ key with
      | nil =>
        rw [hrest] at htrim
        simp [existenceParts?, htrim, hkey]
      | cons c t =>
        have hc : c ≠ '!' := fun hc => hmark t (by rw [hrest, hc])
        rw [hrest] at htrim
        simp [existenceParts?, htrim, hkey, hc]

/-- A requirement that is a set with a valid list of values. -/
theorem readRequirement_of_set {s key body : List Char} {positive : Bool} {r : Requirement}
    (h : setParts? s = some (key, positive, body)) :
    readRequirement s = .ok r ↔ (∀ v ∈ (pieces ',' body).map trim, isValue v = true) ∧
      (∃ v ∈ (pieces ',' body).map trim, v ≠ []) ∧
        r = .set key positive ((pieces ',' body).map trim) := by
  have hvalid : ((pieces ',' body).map trim).any (fun v => !isValue v) = true ↔
      ¬ ∀ v ∈ (pieces ',' body).map trim, isValue v = true := by simp
  have hempty : ((pieces ',' body).map trim).all (·.isEmpty) = true ↔
      ¬ ∃ v ∈ (pieces ',' body).map trim, v ≠ [] := by simp
  rw [readRequirement, h]
  dsimp only
  constructor
  · intro hread
    split at hread
    · exact nomatch hread
    · next hvalues =>
      split at hread
      · exact nomatch hread
      · next hsome =>
        exact ⟨not_not.1 (mt hvalid.2 hvalues), not_not.1 (mt hempty.2 hsome),
          (Except.ok.inj hread).symm⟩
  · rintro ⟨hvalues, hsome, rfl⟩
    rw [if_neg fun hany => hvalid.1 hany hvalues, if_neg fun hall => hempty.1 hall hsome]

theorem readRequirement_of_equality {s key value : List Char} {positive : Bool}
    (h : equalityParts? s = some (key, positive, value)) :
    readRequirement s = .ok (if positive then .equal key value else .unequal key value) := by
  rw [readRequirement, setParts?_of_equalityParts? h]
  dsimp only
  rw [h]
  cases positive <;> rfl

theorem readRequirement_of_existence {s key : List Char} {positive : Bool}
    (hparts : setParts? s = none ∧ equalityParts? s = none)
    (h : existenceParts? s = some (key, positive)) :
    readRequirement s = .ok (if positive then .present key else .absent key) := by
  rw [readRequirement, hparts.1]
  dsimp only
  rw [hparts.2]
  dsimp only
  rw [h]
  cases positive <;> rfl

theorem readRequirement_of_none {s : List Char}
    (hparts : setParts? s = none ∧ equalityParts? s = none) (h : existenceParts? s = none) :
    readRequirement s = .error (.unrecognized (String.ofList s)) := by
  rw [readRequirement, hparts.1]
  dsimp only
  rw [hparts.2]
  dsimp only
  rw [h]

theorem spelled_of_readRequirement {s : List Char} {r : Requirement}
    (h : readRequirement s = .ok r) : r.Spelled s := by
  cases hset : setParts? s with
  | some parts =>
    obtain ⟨key, positive, body⟩ := parts
    obtain ⟨hvalues, hsome, rfl⟩ := (readRequirement_of_set hset).1 h
    obtain ⟨hkey, hline, gap, gap₂, hgap, hne, hgap₂, rfl⟩ := setParts?_eq_some_iff.1 hset
    exact .set positive hkey hgap hne hgap₂ hline hvalues hsome
  | none =>
    cases heq : equalityParts? s with
    | some parts =>
      obtain ⟨key, positive, value⟩ := parts
      obtain rfl := Except.ok.inj ((readRequirement_of_equality heq).symm.trans h)
      obtain ⟨hkey, hvalue, gap, sign, gap₂, hgap, hsign, hgap₂, rfl⟩ :=
        equalityParts?_eq_some_iff.1 heq
      cases positive with
      | true => exact .equal hkey hgap hsign hgap₂ hvalue
      | false => exact .unequal hkey hgap hsign hgap₂ hvalue
    | none =>
      cases hex : existenceParts? s with
      | some parts =>
        obtain ⟨key, positive⟩ := parts
        obtain rfl := Except.ok.inj ((readRequirement_of_existence ⟨hset, heq⟩ hex).symm.trans h)
        obtain ⟨hkey, gap, hgap, rfl⟩ := existenceParts?_eq_some_iff.1 hex
        cases positive with
        | true => exact .present hgap hkey
        | false => exact .absent hgap hkey
      | none => exact nomatch (readRequirement_of_none ⟨hset, heq⟩ hex).symm.trans h

theorem Requirement.Spelled.readRequirement_eq {s : List Char} {r : Requirement}
    (h : r.Spelled s) : readRequirement s = .ok r := by
  cases h with
  | @set key gap gap₂ body positive hkey hgap hne hgap₂ hline hvalues hsome =>
    have hset : setParts? _ = some (key, positive, body) :=
      setParts?_eq_some_iff.2 ⟨hkey, hline, gap, gap₂, hgap, hne, hgap₂, rfl⟩
    exact (readRequirement_of_set hset).2 ⟨hvalues, hsome, rfl⟩
  | @equal key gap sign gap₂ value hkey hgap hsign hgap₂ hvalue =>
    have heq : equalityParts? _ = some (key, true, value) := equalityParts?_eq_some_iff.2
      ⟨hkey, hvalue, gap, sign, gap₂, hgap, hsign, hgap₂, rfl⟩
    exact readRequirement_of_equality heq
  | @unequal key gap sign gap₂ value hkey hgap hsign hgap₂ hvalue =>
    have heq : equalityParts? _ = some (key, false, value) := equalityParts?_eq_some_iff.2
      ⟨hkey, hvalue, gap, sign, gap₂, hgap, hsign, hgap₂, rfl⟩
    exact readRequirement_of_equality heq
  | @present gap key hgap hkey =>
    have hparts : setParts? (gap ++ key) = none ∧ equalityParts? (gap ++ key) = none := by
      by_cases hne : gap = []
      · rw [hne, List.nil_append]
        exact parts?_of_isKey hkey
      · exact parts?_of_keyEnds (keyEnds_of_isBlank hgap hne)
    have hex : existenceParts? (gap ++ key) = some (key, true) :=
      existenceParts?_eq_some_iff.2 ⟨hkey, gap, hgap, rfl⟩
    exact readRequirement_of_existence hparts hex
  | @absent gap key hgap hkey =>
    have hends : KeyEnds ('!' :: (gap ++ key)) := by
      intro c hc
      obtain rfl := Option.some.inj hc
      decide
    have hex : existenceParts? ('!' :: (gap ++ key)) = some (key, false) :=
      existenceParts?_eq_some_iff.2 ⟨hkey, gap, hgap, rfl⟩
    exact readRequirement_of_existence (parts?_of_keyEnds hends) hex

/-- **The reader of requirements accepts what the grammar spells, and gives it its meaning.** -/
theorem readRequirement_eq_ok_iff {s : List Char} {r : Requirement} :
    readRequirement s = .ok r ↔ r.Spelled s :=
  ⟨spelled_of_readRequirement, Requirement.Spelled.readRequirement_eq⟩

/-! ## Commas outside parentheses -/

/-- With some parentheses open before it, a text closes all of them, closes none that is not open,
and has commas only where one is open. -/
structure Enclosed (depth : Nat) (p : List Char) : Prop where
  closed : p.count ')' = depth + p.count '('
  nested : ∀ before after, p = before ++ after → before.count ')' ≤ depth + before.count '('
  inner : ∀ before after, p = before ++ ',' :: after →
    before.count ')' < depth + before.count '('

theorem enclosed_nil_iff {depth : Nat} : Enclosed depth [] ↔ depth = 0 := by
  constructor
  · intro h
    simpa [eq_comm] using h.closed
  · rintro rfl
    exact ⟨rfl, fun before after h => by simp_all, fun before after h => by simp_all⟩

/-- How many parentheses are open after a character. -/
def depthAfter (depth : Nat) (c : Char) : Nat :=
  if c = '(' then depth + 1 else if c = ')' then depth - 1 else depth

/-- The parentheses that are open after a text do not depend on where the counting starts. -/
theorem count_cons_add {depth : Nat} {c : Char} (h : c = ')' → 0 < depth) (p : List Char) :
    (c :: p).count ')' + (depthAfter depth c + p.count '(') =
      depth + (c :: p).count '(' + p.count ')' := by
  unfold depthAfter
  by_cases hopen : c = '('
  · subst hopen
    simp
    omega
  · by_cases hclose : c = ')'
    · subst hclose
      have := h rfl
      simp
      omega
    · simp [hopen, hclose]
      omega

theorem enclosed_cons_iff {depth : Nat} {c : Char} {p : List Char} :
    Enclosed depth (c :: p) ↔
      (c = ')' ∨ c = ',' → 0 < depth) ∧ Enclosed (depthAfter depth c) p := by
  constructor
  · rintro ⟨hclosed, hnested, hinner⟩
    have hpos : c = ')' ∨ c = ',' → 0 < depth := by
      rintro (rfl | rfl)
      · exact Nat.succ_le_iff.1 (by simpa using hnested [')'] p rfl)
      · simpa using hinner [] p rfl
    have hcount := count_cons_add fun hc => hpos (.inl hc)
    refine ⟨hpos, by have := hcount p; omega, fun before after h => ?_, fun before after h => ?_⟩
    · have := hnested (c :: before) after (by rw [h, List.cons_append])
      have := hcount before
      omega
    · have := hinner (c :: before) after (by rw [h, List.cons_append])
      have := hcount before
      omega
  · rintro ⟨hpos, hclosed, hnested, hinner⟩
    have hcount := count_cons_add fun hc => hpos (.inl hc)
    refine ⟨by have := hcount p; omega, fun before after h => ?_, fun before after h => ?_⟩
    · cases before with
      | nil => exact Nat.zero_le _
      | cons d before =>
        obtain ⟨rfl, hp⟩ := List.cons.inj h
        have := hnested before after hp
        have := hcount before
        omega
    · cases before with
      | nil => simpa using hpos (.inr (List.cons.inj h).1)
      | cons d before =>
        obtain ⟨rfl, hp⟩ := List.cons.inj h
        have := hinner before after hp
        have := hcount before
        omega

theorem glue_cons_cons {sep c : Char} {p : List Char} {ps : List (List Char)} :
    glue sep ((c :: p) :: ps) = c :: glue sep (p :: ps) := by
  cases ps <;> rfl

/-- A text glued together is cut open at its first character: that character begins the first part,
or it is the separator after an empty first part. -/
theorem glue_eq_cons_iff {sep c : Char} {p rest : List Char} {ps : List (List Char)} :
    glue sep (p :: ps) = c :: rest ↔
      (∃ t, p = c :: t ∧ glue sep (t :: ps) = rest) ∨
        (p = [] ∧ c = sep ∧ ∃ q qs, ps = q :: qs ∧ glue sep (q :: qs) = rest) := by
  cases p with
  | nil =>
    cases ps with
    | nil => simp [glue]
    | cons q qs => simp [glue, eq_comm]
  | cons d t => simp [glue_cons_cons, and_comm, eq_comm]

theorem splitAt_nil {depth : Nat} {part : List Char} :
    splitAt [] depth part = if depth = 0 then .ok [part.reverse] else .error .unbalanced := by
  cases depth <;> rfl

theorem splitAt_cons {c : Char} {rest part : List Char} {depth : Nat} :
    splitAt (c :: rest) depth part =
      if c = ')' ∧ depth = 0 then .error .unbalanced
      else if c = ',' ∧ depth = 0 then (splitAt rest 0 []).map (part.reverse :: ·)
      else splitAt rest (depthAfter depth c) (c :: part) := by
  by_cases hopen : c = '('
  · subst hopen
    simp [splitAt, depthAfter]
  · by_cases hclose : c = ')'
    · subst hclose
      cases depth <;> simp [splitAt, depthAfter]
    · by_cases hcomma : c = ','
      · subst hcomma
        cases depth <;> simp [splitAt, depthAfter]
      · simp [splitAt, depthAfter, hopen, hclose, hcomma]

/-- **A text is cut apart at the commas outside parentheses.**  The part that is being read goes on
at the front of the text. -/
theorem splitAt_eq_ok_iff {s part : List Char} {depth : Nat} {parts : List (List Char)} :
    splitAt s depth part = .ok parts ↔ ∃ p ps, parts = (part.reverse ++ p) :: ps ∧
      glue ',' (p :: ps) = s ∧ Enclosed depth p ∧ ∀ q ∈ ps, Enclosed 0 q := by
  induction s generalizing depth part parts with
  | nil =>
    rw [splitAt_nil]
    constructor
    · intro h
      split at h
      · next hdepth =>
        obtain rfl := Except.ok.inj h
        exact ⟨[], [], by simp, rfl, enclosed_nil_iff.2 hdepth, by simp⟩
      · exact nomatch h
    · rintro ⟨p, ps, rfl, hglue, hp, -⟩
      cases ps with
      | nil =>
        obtain rfl : p = [] := hglue
        rw [if_pos (enclosed_nil_iff.1 hp), List.append_nil]
      | cons q qs => simp [glue] at hglue
  | cons c rest ih =>
    rw [splitAt_cons]
    split_ifs with hclose hcomma
    · -- a parenthesis that closes nothing stands in the first part
      obtain ⟨rfl, rfl⟩ := hclose
      refine iff_of_false (by simp) ?_
      rintro ⟨p, ps, -, hglue, hp, -⟩
      rcases glue_eq_cons_iff.1 hglue with ⟨t, rfl, -⟩ | ⟨-, hsep, -⟩
      · exact absurd ((enclosed_cons_iff.1 hp).1 (.inl rfl)) (Nat.lt_irrefl 0)
      · exact absurd hsep (by decide)
    · -- a comma outside parentheses ends the first part
      obtain ⟨rfl, rfl⟩ := hcomma
      rw [map_eq_ok_iff]
      constructor
      · rintro ⟨qs, hqs, rfl⟩
        obtain ⟨p, ps, rfl, hglue, hp, hps⟩ := ih.1 hqs
        refine ⟨[], p :: ps, by simp, glue_eq_cons_iff.2 (.inr ⟨rfl, rfl, p, ps, rfl, hglue⟩),
          enclosed_nil_iff.2 rfl, List.forall_mem_cons.2 ⟨hp, hps⟩⟩
      · rintro ⟨p, ps, rfl, hglue, hp, hps⟩
        rcases glue_eq_cons_iff.1 hglue with ⟨t, rfl, -⟩ | ⟨rfl, -, q, qs, rfl, hrest⟩
        · exact absurd ((enclosed_cons_iff.1 hp).1 (.inr rfl)) (Nat.lt_irrefl 0)
        · obtain ⟨hq, hqs⟩ := List.forall_mem_cons.1 hps
          exact ⟨q :: qs, ih.2 ⟨q, qs, rfl, hrest, hq, hqs⟩, by simp⟩
    · -- any other character goes on with the first part
      have hpos : c = ')' ∨ c = ',' → 0 < depth := by
        rintro (rfl | rfl)
        · exact Nat.pos_of_ne_zero fun hdepth => hclose ⟨rfl, hdepth⟩
        · exact Nat.pos_of_ne_zero fun hdepth => hcomma ⟨rfl, hdepth⟩
      rw [ih]
      constructor
      · rintro ⟨p, ps, rfl, hglue, hp, hps⟩
        exact ⟨c :: p, ps, by simp, by rw [glue_cons_cons, hglue],
          enclosed_cons_iff.2 ⟨hpos, hp⟩, hps⟩
      · rintro ⟨p, ps, rfl, hglue, hp, hps⟩
        rcases glue_eq_cons_iff.1 hglue with ⟨t, rfl, hrest⟩ | ⟨rfl, rfl, -⟩
        · exact ⟨t, ps, by simp, hrest, (enclosed_cons_iff.1 hp).2, hps⟩
        · exact absurd (enclosed_nil_iff.1 hp) (Nat.pos_iff_ne_zero.1 (hpos (.inr rfl)))

/-! ## The grammar of selectors -/

/-- A text spells a list of requirements: it has none, or its parts between the commas outside
parentheses spell one each, with white space around them. -/
inductive Spells : List Char → List Requirement → Prop where
  | blank {s : List Char} (h : Blank s) : Spells s []
  | list {parts : List (List Char)} {rs : List Requirement} (hne : parts ≠ [])
      (hparts : ∀ p ∈ parts, Enclosed 0 p)
      (hrs : List.Forall₂ (fun p r => r.Spelled (trim p)) parts rs) : Spells (glue ',' parts) rs

theorem enclosed_of_blank {s : List Char} (h : Blank s) : Enclosed 0 s := by
  induction s with
  | nil => exact enclosed_nil_iff.2 rfl
  | cons c s ih =>
    have hne : ∀ d, isBlank d = false → c ≠ d := by
      rintro d hd rfl
      rw [h c List.mem_cons_self] at hd
      exact Bool.false_ne_true hd.symm
    have hdepth : depthAfter 0 c = 0 := by
      rw [depthAfter, if_neg (hne '(' (by decide)), if_neg (hne ')' (by decide))]
    refine enclosed_cons_iff.2 ⟨?_, ?_⟩
    · rintro (rfl | rfl)
      · exact absurd rfl (hne ')' (by decide))
      · exact absurd rfl (hne ',' (by decide))
    · rw [hdepth]
      exact ih fun d hd => h d (List.mem_cons_of_mem c hd)

theorem Requirement.Spelled.ne_nil {r : Requirement} {s : List Char} (h : r.Spelled s) :
    s ≠ [] := by
  rintro rfl
  have hread := readRequirement_eq_ok_iff.2 h
  exact nomatch hread

/-- Reading the parts one by one gives what the text spells. -/
theorem requirements_bind_eq_ok_iff {s : List Char} {rs : List Requirement} :
    (requirements s >>= fun parts => parts.mapM readRequirement) = .ok rs ↔ Spells s rs := by
  have hread {parts : List (List Char)} :
      (parts.map trim).mapM readRequirement = .ok rs ↔
        List.Forall₂ (fun p r => Requirement.Spelled r (trim p)) parts rs := by
    rw [mapM_eq_ok_iff, List.forall₂_map_left_iff]
    simp only [readRequirement_eq_ok_iff]
  rw [bind_eq_ok_iff]
  constructor
  · rintro ⟨trimmed, hreq, hrs⟩
    obtain ⟨parts, hparts, hreq⟩ := bind_eq_ok_iff.1 hreq
    obtain ⟨p, ps, rfl, hglue, hp, hps⟩ := splitAt_eq_ok_iff.1 hparts
    rw [List.reverse_nil, List.nil_append] at hreq
    dsimp only at hreq
    split_ifs at hreq with hblank hempty
    · obtain rfl := Except.ok.inj hreq
      obtain rfl := Except.ok.inj hrs
      obtain ⟨htrim, hnil⟩ := List.cons.inj hblank
      obtain rfl := List.map_eq_nil_iff.1 hnil
      rw [← hglue]
      exact .blank (trim_eq_nil_iff.1 htrim)
    · obtain rfl := Except.ok.inj hreq
      rw [← hglue]
      exact .list (List.cons_ne_nil p ps) (List.forall_mem_cons.2 ⟨hp, hps⟩) (hread.1 hrs)
  · intro h
    cases h with
    | blank h =>
      refine ⟨[], bind_eq_ok_iff.2 ⟨[s], ?_, ?_⟩, rfl⟩
      · exact splitAt_eq_ok_iff.2 ⟨s, [], rfl, rfl, enclosed_of_blank h, by simp⟩
      · simp [trim_eq_nil_iff.2 h]
    | @list parts rs hne hparts hrs =>
      have hfilled : ∀ p ∈ parts.map trim, p ≠ [] := by
        intro p hp
        obtain ⟨r, -, hr⟩ := exists_mem_mapM (hread.2 hrs) hp
        exact (readRequirement_eq_ok_iff.1 hr).ne_nil
      refine ⟨parts.map trim, bind_eq_ok_iff.2 ⟨parts, ?_, ?_⟩, hread.2 hrs⟩
      · cases parts with
        | nil => exact absurd rfl hne
        | cons p ps =>
          obtain ⟨hp, hps⟩ := List.forall_mem_cons.1 hparts
          exact splitAt_eq_ok_iff.2 ⟨p, ps, rfl, rfl, hp, hps⟩
      · dsimp only
        rw [if_neg, if_neg]
        · simpa using hfilled
        · intro h
          exact hfilled [] (by simp [h]) rfl

/-- A text spells one list of requirements at most. -/
theorem Spells.unique {s : List Char} {rs rs' : List Requirement} (h : Spells s rs)
    (h' : Spells s rs') : rs = rs' :=
  Except.ok.inj ((requirements_bind_eq_ok_iff.2 h).symm.trans (requirements_bind_eq_ok_iff.2 h'))

/-- **The reader accepts exactly the texts that spell requirements**, and gives the structured form
of these. -/
theorem parse_eq_ok_iff {text : String} {selector : LabelSelector} :
    parse text = .ok selector ↔ ∃ rs, Spells text.toList rs ∧ ofRequirements rs = selector := by
  have hparse : parse text =
      (requirements text.toList >>= fun parts => parts.mapM readRequirement).map
        ofRequirements := by
    unfold parse
    cases requirements text.toList with
    | error fault => rfl
    | ok parts =>
      show (parts.mapM readRequirement >>= fun rs => .ok (ofRequirements rs)) =
        (parts.mapM readRequirement).map ofRequirements
      cases parts.mapM readRequirement <;> rfl
  rw [hparse, map_eq_ok_iff]
  simp only [requirements_bind_eq_ok_iff]

end Selector

end ClusterTuning
