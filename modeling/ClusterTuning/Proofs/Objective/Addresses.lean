import ClusterTuning.Objective.Datadog
import ClusterTuning.Proofs.Text.ByteOrder

/-!
# Addresses of queries

How values are aggregated is said in the address of a metric, as a form-encoded pair.
Whatever the text of the aggregator is, its encoding holds no mark of the form, and
reading the query of the address gives this text back.

* `FormEncoding.decodeBytes_encodeBytes` — the bytes behind an encoding;
* `FormEncoding.IsEncoded.eq_encode` — the only encoding of a text;
* `FormEncoding.decodeQuery?_encodePair` — the pair behind its encoding;
* `Objective.url_datadogMetrics` — the address of the metric of an objective.
-/

namespace ClusterTuning

namespace Text

theorem toList_loop (b : ByteArray) (i : Nat) (r : List UInt8) :
    ByteArray.toList.loop b i r = r.reverse ++ b.data.toList.drop i := by
  fun_induction ByteArray.toList.loop b i r with
  | case1 i r hlt ih =>
    have hi : i < b.data.toList.length := hlt
    have hget : b.get! i = b.data.toList[i] := getElem!_pos b.data i hlt
    rw [ih, List.drop_eq_getElem_cons hi, hget, List.reverse_cons, List.append_assoc]
    rfl
  | case2 i r hge =>
    have hi : b.data.toList.length ≤ i := Nat.le_of_not_lt hge
    rw [List.drop_eq_nil_of_le hi, List.append_nil]

theorem toList_eq (b : ByteArray) : b.toList = b.data.toList := by
  rw [ByteArray.toList, toList_loop]
  rfl

theorem toList_toUTF8 (s : String) : s.toUTF8.toList = bytes s :=
  toList_eq s.toUTF8

namespace FormEncoding

variable {b : UInt8} {s : List Char}

/-! ## Encoded texts -/

/-- The digits that stand in escapes. -/
def hexDigits : List Char := "0123456789ABCDEF".toList

/-- The characters that stand for themselves: letters, digits and some marks. -/
def StandsForItself (c : Char) : Prop :=
  c.isAlphanum = true ∨ c ∈ ['*', '-', '.', '_']

instance : DecidablePred StandsForItself := fun c =>
  inferInstanceAs (Decidable (c.isAlphanum = true ∨ c ∈ ['*', '-', '.', '_']))

/-- The character with the number of an escape. -/
def escaped (high low : Char) : Char :=
  Char.ofNat (16 * hexDigits.idxOf high + hexDigits.idxOf low)

/-- The form-encoded texts: characters that stand for themselves, plus signs for spaces, and escapes
for the bytes that cannot be written so. -/
inductive IsEncoded : List Char → Prop where
  | nil : IsEncoded []
  | plain {c : Char} {rest : List Char} (hc : StandsForItself c) (hrest : IsEncoded rest) :
      IsEncoded (c :: rest)
  | space {rest : List Char} (hrest : IsEncoded rest) : IsEncoded ('+' :: rest)
  | escape {high low : Char} {rest : List Char} (hhigh : high ∈ hexDigits) (hlow : low ∈ hexDigits)
      (hneeded : ¬ StandsForItself (escaped high low) ∧ escaped high low ≠ ' ')
      (hrest : IsEncoded rest) : IsEncoded ('%' :: high :: low :: rest)

theorem hexDigits_eq : hexDigits = (List.range 16).map hexDigit := by
  decide

theorem hexDigit_mem {n : Nat} (h : n < 16) : hexDigit n ∈ hexDigits := by
  rw [hexDigits_eq]
  exact List.mem_map_of_mem (List.mem_range.2 h)

theorem exists_of_mem_hexDigits {c : Char} (h : c ∈ hexDigits) : ∃ n < 16, hexDigit n = c := by
  rw [hexDigits_eq] at h
  obtain ⟨n, hn, rfl⟩ := List.mem_map.1 h
  exact ⟨n, List.mem_range.1 hn, rfl⟩

theorem hexValue?_hexDigit : ∀ n < 16, hexValue? (hexDigit n) = some n := by
  decide

theorem escaped_hexDigit : ∀ a < 16, ∀ b < 16,
    escaped (hexDigit a) (hexDigit b) = Char.ofNat (16 * a + b) := by
  decide +kernel

theorem forall_byte {P : UInt8 → Prop} (h : ∀ n < 256, P (UInt8.ofNat n)) (b : UInt8) : P b := by
  have hb := h b.toNat b.toNat_lt
  rwa [UInt8.ofNat_toNat] at hb

theorem isPlain_iff : ∀ b, isPlain b = true ↔ StandsForItself (Char.ofNat b.toNat) :=
  forall_byte (by decide +kernel)

theorem isSpace_iff : ∀ b : UInt8, (b == 0x20) = true ↔ Char.ofNat b.toNat = ' ' :=
  forall_byte (by decide +kernel)

theorem isEncoded_encodeByte_append (b : UInt8) (h : IsEncoded s) :
    IsEncoded (encodeByte b ++ s) := by
  have hb := b.toNat_lt
  unfold encodeByte
  split
  · exact .space h
  · split
    · next hplain => exact .plain ((isPlain_iff b).1 hplain) h
    · next hspace hplain =>
      refine .escape (hexDigit_mem (by omega)) (hexDigit_mem (by omega)) ?_ h
      rw [escaped_hexDigit _ (by omega) _ (by omega), Nat.div_add_mod]
      exact ⟨(isPlain_iff b).not.1 hplain, (isSpace_iff b).not.1 hspace⟩

theorem isEncoded_encodeBytes (bs : List UInt8) : IsEncoded (encodeBytes bs) := by
  induction bs with
  | nil => exact .nil
  | cons b bs ih => exact isEncoded_encodeByte_append b ih

/-- Other characters do not come up in an encoded text. -/
theorem IsEncoded.not_mem (h : IsEncoded s) {c : Char}
    (hc : ¬ StandsForItself c ∧ c ≠ '+' ∧ c ≠ '%' ∧ c ∉ hexDigits) : c ∉ s := by
  obtain ⟨hself, hplus, hpercent, hhex⟩ := hc
  induction h with
  | nil => exact List.not_mem_nil
  | plain hplain _ ih =>
    refine List.not_mem_cons_of_ne_of_not_mem ?_ ih
    rintro rfl
    exact hself hplain
  | space _ ih => exact List.not_mem_cons_of_ne_of_not_mem hplus ih
  | escape hhigh hlow _ _ ih =>
    simp only [List.mem_cons, not_or]
    refine ⟨hpercent, ?_, ?_, ih⟩
    · rintro rfl
      exact hhex hhigh
    · rintro rfl
      exact hhex hlow

/-! ## Reading bytes back -/

theorem decodeBytes_plain (h : isPlain b = true) (s : List Char) :
    decodeBytes (Char.ofNat b.toNat :: s) = b :: decodeBytes s := by
  have hbyte : ∀ b, isPlain b = true → String.utf8EncodeChar (Char.ofNat b.toNat) = [b] ∧
      Char.ofNat b.toNat ≠ '+' ∧ Char.ofNat b.toNat ≠ '%' := forall_byte (by decide +kernel)
  obtain ⟨hbytes, hplus, hpercent⟩ := hbyte b h
  rw [decodeBytes, toList_toUTF8, bytes_eq, String.toList_singleton, List.flatMap_singleton, hbytes,
    List.singleton_append]
  · exact hplus
  · exact fun _ _ _ h => absurd h hpercent

theorem decodeBytes_escape {x y : Nat} (hx : x < 16) (hy : y < 16) (s : List Char) :
    decodeBytes ('%' :: hexDigit x :: hexDigit y :: s) =
      UInt8.ofNat (16 * x + y) :: decodeBytes s := by
  rw [decodeBytes, hexValue?_hexDigit x hx, hexValue?_hexDigit y hy]

theorem decodeBytes_encodeByte_append (b : UInt8) (s : List Char) :
    decodeBytes (encodeByte b ++ s) = b :: decodeBytes s := by
  have hb := b.toNat_lt
  unfold encodeByte
  split
  · next hspace => rw [eq_of_beq hspace, List.singleton_append, decodeBytes]
  · split
    · next hplain => exact decodeBytes_plain hplain s
    · rw [List.cons_append, List.cons_append, List.singleton_append,
        decodeBytes_escape (by omega) (by omega), Nat.div_add_mod, UInt8.ofNat_toNat]

/-- **The bytes behind an encoding are those that were encoded.** -/
theorem decodeBytes_encodeBytes (bs : List UInt8) : decodeBytes (encodeBytes bs) = bs := by
  induction bs with
  | nil => rw [encodeBytes, List.flatMap_nil, decodeBytes]
  | cons b bs ih =>
    rw [encodeBytes, List.flatMap_cons, decodeBytes_encodeByte_append]
    exact congrArg (b :: ·) ih

theorem StandsForItself.toNat_lt {c : Char} (hc : StandsForItself c) : c.toNat < 128 := by
  rcases hc with hc | hc
  · have hranges : (decide (65 ≤ c.val ∧ c.val ≤ 90) ||
        (decide (97 ≤ c.val) && decide (c.val ≤ 122)) ||
        (decide (48 ≤ c.val) && decide (c.val ≤ 57))) = true := hc
    simp only [Bool.or_eq_true, Bool.and_eq_true, decide_eq_true_eq,
      UInt32.le_iff_toNat_le] at hranges
    rcases hranges with (⟨-, hle⟩ | ⟨-, hle⟩) | ⟨-, hle⟩
    all_goals exact Nat.lt_of_le_of_lt hle (by decide)
  · simp only [List.mem_cons, List.not_mem_nil, or_false] at hc
    rcases hc with rfl | rfl | rfl | rfl <;> decide

/-- A character that stands for itself comes from one byte. -/
theorem StandsForItself.exists_byte {c : Char} (hc : StandsForItself c) :
    ∃ b, isPlain b = true ∧ Char.ofNat b.toNat = c := by
  have hascii := hc.toNat_lt
  have htoNat : (UInt8.ofNat c.toNat).toNat = c.toNat := by
    rw [UInt8.toNat_ofNat']
    omega
  have hchar : Char.ofNat (UInt8.ofNat c.toNat).toNat = c := by
    rw [htoNat, Char.ofNat_toNat]
  refine ⟨UInt8.ofNat c.toNat, (isPlain_iff _).2 ?_, hchar⟩
  rwa [hchar]

theorem encodeByte_plain : ∀ b, isPlain b = true → encodeByte b = [Char.ofNat b.toNat] :=
  forall_byte (by decide +kernel)

theorem encodeByte_escape {x y : Nat} (hx : x < 16) (hy : y < 16)
    (hneeded : ¬ StandsForItself (escaped (hexDigit x) (hexDigit y)) ∧
      escaped (hexDigit x) (hexDigit y) ≠ ' ') :
    encodeByte (UInt8.ofNat (16 * x + y)) = ['%', hexDigit x, hexDigit y] := by
  have htoNat : (UInt8.ofNat (16 * x + y)).toNat = 16 * x + y := by
    rw [UInt8.toNat_ofNat']
    omega
  rw [escaped_hexDigit x hx y hy, ← htoNat] at hneeded
  obtain ⟨hself, hspace⟩ := hneeded
  have hhigh : (16 * x + y) / 16 = x := by omega
  have hlow : (16 * x + y) % 16 = y := by omega
  rw [encodeByte, if_neg ((isSpace_iff _).not.2 hspace), if_neg ((isPlain_iff _).not.2 hself),
    htoNat, hhigh, hlow]

/-- Nothing but the encoding of its bytes is form-encoded. -/
theorem IsEncoded.encodeBytes_decodeBytes (h : IsEncoded s) : encodeBytes (decodeBytes s) = s := by
  induction h with
  | nil => rw [decodeBytes, encodeBytes, List.flatMap_nil]
  | plain hc _ ih =>
    obtain ⟨b, hplain, rfl⟩ := hc.exists_byte
    rw [decodeBytes_plain hplain, encodeBytes, List.flatMap_cons, encodeByte_plain b hplain]
    exact congrArg (_ :: ·) ih
  | space _ ih =>
    rw [decodeBytes, encodeBytes, List.flatMap_cons]
    exact congrArg ('+' :: ·) ih
  | escape hhigh hlow hneeded _ ih =>
    obtain ⟨x, hx, rfl⟩ := exists_of_mem_hexDigits hhigh
    obtain ⟨y, hy, rfl⟩ := exists_of_mem_hexDigits hlow
    rw [decodeBytes_escape hx hy, encodeBytes, List.flatMap_cons, encodeByte_escape hx hy hneeded]
    exact congrArg ('%' :: _ :: _ :: ·) ih

/-! ## Reading pairs back -/

/-- The text that an encoded text stands for, if its bytes are the UTF-8 form of one. -/
def decodeText? (s : List Char) : Option String :=
  String.fromUTF8? (decodeBytes s).toByteArray

/-- The name and the value that are cut at the first equals sign; without one the value is empty. -/
def decodePair? (s : List Char) : Option (String × String) :=
  let (name, value) := (cutFirst '=' s).getD (s, [])
  (decodeText? name).bind fun n => (decodeText? value).map fun v => (n, v)

/-- The pairs of a query, which stand between ampersands; nothing at all between two of them is no
pair. -/
def decodeQuery? (query : List Char) : Option (List (String × String)) :=
  ((pieces '&' query).filter (· ≠ [])).mapM decodePair?

theorem decodeText?_encode (s : String) : decodeText? (encode s).toList = some s := by
  have hvalid : s.toUTF8.IsValidUTF8 := s.isValidUTF8
  have hbytes : (bytes s).toByteArray = s.toUTF8 :=
    ByteArray.ext (by rw [List.data_toByteArray, bytes, Array.toArray_toList])
  rw [encode, String.toList_ofList, decodeText?, decodeBytes_encodeBytes, toList_toUTF8, hbytes,
    String.fromUTF8?, dif_pos hvalid]
  rfl

theorem isEncoded_encode (s : String) : IsEncoded (encode s).toList := by
  rw [encode, String.toList_ofList]
  exact isEncoded_encodeBytes _

/-- A text has one encoding only. -/
theorem IsEncoded.eq_encode (h : IsEncoded s) {text : String} (hread : decodeText? s = some text) :
    s = (encode text).toList := by
  have hbytes : text.toUTF8.toList = decodeBytes s := by
    rw [decodeText?, String.fromUTF8?] at hread
    split at hread
    · obtain rfl := Option.some.inj hread
      rw [toList_eq]
      exact congrArg Array.toList List.data_toByteArray
    · exact nomatch hread
  rw [encode, String.toList_ofList, hbytes, h.encodeBytes_decodeBytes]

theorem equals_not_mem_encode (s : String) : '=' ∉ (encode s).toList :=
  (isEncoded_encode s).not_mem (by decide)

theorem ampersand_not_mem_encode (s : String) : '&' ∉ (encode s).toList :=
  (isEncoded_encode s).not_mem (by decide)

/-- **The pair behind an encoding is the pair that was encoded**, and it is the only one. -/
theorem decodeQuery?_encodePair (name value : String) :
    decodeQuery? (encodePair name value).toList = some [(name, value)] := by
  have hequals : "=".toList = ['='] := rfl
  have htext : (encodePair name value).toList =
      (encode name).toList ++ '=' :: (encode value).toList := by
    rw [encodePair, String.toList_append, String.toList_append, hequals, List.append_assoc]
    rfl
  have hampersand : '&' ∉ (encode name).toList ++ '=' :: (encode value).toList := by
    simp [ampersand_not_mem_encode]
  have hpair : decodePair? ((encode name).toList ++ '=' :: (encode value).toList) =
      some (name, value) := by
    rw [decodePair?, cutFirst_append (equals_not_mem_encode name)]
    simp [decodeText?_encode]
  rw [htext, decodeQuery?, pieces_of_not_mem hampersand]
  simp [hpair]

end FormEncoding

end Text

/-! ## Addresses -/

open Text.FormEncoding

variable {o : Objective} {g : DatadogGoal} {m : Metric} {aggregator : String}

theorem encode_aggregator : encode "aggregator" = "aggregator" := by
  have hchars : encodeBytes ("aggregator".toList.flatMap String.utf8EncodeChar) =
      "aggregator".toList := by decide
  rw [encode, Text.toList_toUTF8, Text.bytes_eq, hchars, String.ofList_toList]

/-- A query has an address if there is an aggregator, and the address tells which one. -/
theorem DatadogGoal.url?_eq_some_iff {url : String} :
    g.url? = some url ↔ ∃ aggregator, (g.aggregator = some aggregator ∧ aggregator ≠ "") ∧
      "?aggregator=" ++ encode aggregator = url := by
  have haddress : ∀ a, "?" ++ encodePair "aggregator" a = "?aggregator=" ++ encode a := by
    intro a
    have hmark : "?aggregator=" = "?" ++ "aggregator" ++ "=" := rfl
    rw [encodePair, encode_aggregator, hmark, String.append_assoc, String.append_assoc,
      String.append_assoc]
  simp [url?, haddress]

theorem Objective.mem_datadogMetrics : m ∈ o.datadogMetrics ↔
    o.implemented = false ∧ ∃ g, o.datadog = some g ∧ o.datadogMetric g = m := by
  unfold datadogMetrics
  split
  · next h => simp [h]
  · next h => simp [h]

theorem decodeQuery?_address (aggregator : String) :
    decodeQuery? ("aggregator=" ++ encode aggregator).toList =
      some [("aggregator", aggregator)] := by
  rw [← decodeQuery?_encodePair, encodePair, encode_aggregator]
  rfl

theorem encode_inj {a b : String} (h : encode a = encode b) : a = b := by
  have hread := decodeText?_encode a
  rw [h, decodeText?_encode] at hread
  exact (Option.some.inj hread).symm

/-- **The address of a metric says how values are aggregated, and nothing else.**  For every
aggregator there is, the one metric for the query of an objective has an address whose query is the
name `aggregator` with the encoded aggregator, which is the form-encoded text that is read as this
aggregator, and the only one.  Reading the query gives one pair, which holds the aggregator; and no
metric of an objective has this address unless it has this aggregator. -/
theorem Objective.url_datadogMetrics (hgoal : o.datadog = some g)
    (hmeasured : o.implemented = false) (haggregator : g.aggregator = some aggregator)
    (hne : aggregator ≠ "") :
    ∃ m, o.datadogMetrics = [m] ∧ m.url = some ("?aggregator=" ++ encode aggregator) ∧
      IsEncoded (encode aggregator).toList ∧
      (∀ s, IsEncoded s → decodeText? s = some aggregator → s = (encode aggregator).toList) ∧
      decodeQuery? ("aggregator=" ++ encode aggregator).toList =
        some [("aggregator", aggregator)] ∧
      ∀ (other : Objective), ∀ m' ∈ other.datadogMetrics, m'.url = m.url ↔
        ∃ g', other.datadog = some g' ∧ g'.aggregator = some aggregator := by
  have hurl : g.url? = some ("?aggregator=" ++ encode aggregator) :=
    DatadogGoal.url?_eq_some_iff.2 ⟨aggregator, ⟨haggregator, hne⟩, rfl⟩
  refine ⟨o.datadogMetric g, ?_, hurl, isEncoded_encode aggregator,
    fun s hs hread => hs.eq_encode hread, decodeQuery?_address aggregator, fun other m' hm' => ?_⟩
  · rw [datadogMetrics, hmeasured, hgoal]
    rfl
  · obtain ⟨-, g', hg', rfl⟩ := mem_datadogMetrics.1 hm'
    show g'.url? = g.url? ↔ _
    rw [hurl, DatadogGoal.url?_eq_some_iff]
    constructor
    · rintro ⟨a, ⟨ha, -⟩, heq⟩
      obtain rfl := encode_inj ((String.append_right_inj _).1 heq)
      exact ⟨g', hg', ha⟩
    · rintro ⟨g'', hg'', ha⟩
      obtain rfl : g' = g'' := Option.some.inj (hg'.symm.trans hg'')
      exact ⟨aggregator, ⟨ha, hne⟩, rfl⟩

/-- An aggregator that looks like the end of a pair and another one. -/
theorem Objective.url_datadogMetrics_sample :
    let g : DatadogGoal := { query := "load", aggregator := some "p 95+&é=%" }
    let o : Objective := { name := "latency", datadog := some g }
    ∃ m, o.datadogMetrics = [m] ∧ m.url = some "?aggregator=p+95%2B%26%C3%A9%3D%25" ∧
      decodeQuery? "aggregator=p+95%2B%26%C3%A9%3D%25".toList =
        some [("aggregator", "p 95+&é=%")] := by
  intro g o
  obtain ⟨m, hmetrics, hurl, -, -, hread, -⟩ :=
    url_datadogMetrics (show o.datadog = some g from rfl) rfl rfl (by decide)
  have hencode : encode "p 95+&é=%" = "p+95%2B%26%C3%A9%3D%25" := by decide +kernel
  rw [hencode] at hurl hread
  exact ⟨m, hmetrics, hurl, hread⟩

end ClusterTuning
