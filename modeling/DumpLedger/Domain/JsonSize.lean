import DumpLedger.Domain.JsonPrint
import DumpLedger.Lib.Decimal

/-!
# The size of JSON texts

`Buffer.byteLength(text, "utf8")` of what `JSON.stringify` writes. A code unit of a string costs
six bytes at most: `\uXXXX` for a control or a surrogate without its pair, three bytes for a
character behind U+07FF, two for each half of a pair.

* `textBytes_quotedUnits_le` — a string
* `textBytes_jsonArray_le`, `textBytes_jsonObject_le` — the parts, with a comma for each
* `textBytes_jsonNumber_le` — a number
-/

namespace DumpLedger

open Lib

/-- `Buffer.byteLength(text, "utf8")`. -/
def textBytes (us : Units) : Nat := (toText us).utf8ByteSize

/-! ## Texts -/

theorem textBytes_utf16 (s : String) : textBytes (utf16 s) = s.utf8ByteSize := by
  rw [textBytes, toText_utf16]

theorem IsText.exists_utf16 {us : Units} (h : IsText us) : ∃ s : String, us = utf16 s :=
  ⟨toText us, (utf16_toText h).symm⟩

theorem textBytes_append {us vs : Units} (hu : IsText us) (hv : IsText vs) :
    textBytes (us ++ vs) = textBytes us + textBytes vs := by
  obtain ⟨s, rfl⟩ := hu.exists_utf16
  obtain ⟨t, rfl⟩ := hv.exists_utf16
  rw [← utf16_append, textBytes_utf16, textBytes_utf16, textBytes_utf16,
    String.utf8ByteSize_append]

theorem textBytes_cons {u : CodeUnit} {vs : Units} (hu : IsText [u]) (hv : IsText vs) :
    textBytes (u :: vs) = textBytes [u] + textBytes vs :=
  textBytes_append hu hv

@[simp] theorem textBytes_nil : textBytes [] = 0 := rfl

theorem utf8ByteSize_ofList (cs : List Char) :
    (String.ofList cs).utf8ByteSize = (cs.map Char.utf8Size).sum := by
  induction cs with
  | nil => rfl
  | cons c cs ih =>
    rw [String.ofList_cons, String.utf8ByteSize_append, ih, String.utf8ByteSize_singleton,
      List.map_cons, List.sum_cons]

/-- The bytes of the characters of a text. -/
theorem textBytes_flatMap (cs : List Char) :
    textBytes (cs.flatMap charUnits) = (cs.map Char.utf8Size).sum := by
  have htext : cs.flatMap charUnits = utf16 (String.ofList cs) := by
    rw [utf16, String.toList_ofList]
  rw [htext, textBytes_utf16, utf8ByteSize_ofList]

theorem textBytes_unitOf {c : Char} (h : c.toNat < 128) : textBytes [unitOf c] = 1 := by
  have hunits : [unitOf c] = [c].flatMap charUnits := by
    rw [List.flatMap_singleton, charUnits, if_pos (by omega), unitOf]
  have hval : c.val ≤ 0x7f := by
    rw [UInt32.le_iff_toNat_le]
    show c.toNat ≤ 127
    omega
  rw [hunits, textBytes_flatMap]
  simp [Char.utf8Size, hval]

/-- Characters of ASCII are a byte each. -/
theorem textBytes_ascii {cs : List Char} (h : ∀ c ∈ cs, c.toNat < 128) :
    IsText (cs.map unitOf) ∧ textBytes (cs.map unitOf) = cs.length := by
  induction cs with
  | nil => exact ⟨isText_nil, rfl⟩
  | cons c cs ih =>
    obtain ⟨htext, hbytes⟩ := ih fun d hd => h d (List.mem_cons_of_mem c hd)
    have hc := h c List.mem_cons_self
    have hunit : IsText [unitOf c] := isText_unitOf (by omega)
    refine ⟨hunit.cons htext, ?_⟩
    rw [List.map_cons, textBytes_cons hunit htext, textBytes_unitOf hc, hbytes, List.length_cons,
      Nat.add_comm]

/-! ## Strings -/

/-- An escape is six characters of ASCII at most, and a character has four bytes at most. -/
theorem escapeChar_bytes_le (c : Char) : ((Json.escapeChar c).map Char.utf8Size).sum ≤ 6 := by
  have hdigit : ∀ n, (Json.hexDigit (n % 16)).utf8Size = 1 := by
    intro n
    have hall : ∀ d : Fin 16, (Json.hexDigit d).utf8Size = 1 := by decide
    exact hall ⟨n % 16, Nat.mod_lt n (by decide)⟩
  have hsize := c.utf8Size_le_four
  unfold Json.escapeChar
  split_ifs
  · decide
  · decide
  · decide
  · decide
  · decide
  · decide
  · decide
  · simp only [Json.unicodeEscape, List.map_cons, List.map_nil, hdigit]
    decide
  · rw [List.map_singleton, List.sum_singleton]
    omega

theorem length_charUnits_pos (c : Char) : 1 ≤ (charUnits c).length := by
  unfold charUnits
  split
  · exact Nat.le_refl 1
  · exact Nat.le_succ 1

theorem utf8Size_le_units (c : Char) : c.utf8Size ≤ 3 * (charUnits c).length := by
  have hfour := c.utf8Size_le_four
  unfold charUnits
  split
  · next h =>
    have hval : c.val ≤ 0xffff := by
      rw [UInt32.le_iff_toNat_le]
      show c.toNat ≤ 65535
      omega
    unfold Char.utf8Size
    dsimp only
    split_ifs with _ _ hthree
    · simp
    · simp
    · simp
    · exact absurd hval hthree
  · show c.utf8Size ≤ 6
    omega

/-- **A text costs three bytes for each of its units at most.** -/
theorem utf8ByteSize_le (s : String) : s.utf8ByteSize ≤ 3 * (utf16 s).length := by
  have hsum : s.utf8ByteSize = (s.toList.map Char.utf8Size).sum := by
    rw [← utf8ByteSize_ofList, String.ofList_toList]
  rw [hsum, utf16]
  induction s.toList with
  | nil => exact Nat.zero_le _
  | cons c cs ih =>
    have hc := utf8Size_le_units c
    rw [List.map_cons, List.sum_cons, List.flatMap_cons, List.length_append]
    omega

theorem length_utf8Bytes (s : String) : (utf8Bytes s).length = s.utf8ByteSize := by
  rw [utf8Bytes, Array.length_toList]
  rfl

theorem length_encodeText_le {us : Units} (h : IsText us) :
    (encodeText us).length ≤ 3 * us.length := by
  obtain ⟨s, rfl⟩ := h.exists_utf16
  rw [encodeText, toText_utf16, length_utf8Bytes]
  exact utf8ByteSize_le s

/-- What is written for a character, or for a surrogate without its pair. -/
theorem textBytes_pointItems_le (p : CodePoint) :
    textBytes ((pointItems p).flatMap StringItem.text) ≤ 6 * p.units.length := by
  cases p with
  | char c =>
    have hunits := length_charUnits_pos c
    have hescape := escapeChar_bytes_le c
    rw [pointItems, (charItems_eq c).1, textBytes_flatMap, CodePoint.units]
    omega
  | lone u =>
    have hdigit : ∀ n : Fin 16, (Nat.digitChar n).toNat < 128 := by decide
    have hbytes := @textBytes_ascii ['\\', 'u', Nat.digitChar (u.toNat / 4096 % 16),
      Nat.digitChar (u.toNat / 256 % 16), Nat.digitChar (u.toNat / 16 % 16),
      Nat.digitChar (u.toNat % 16)] ?_
    · exact hbytes.2.le
    · simp only [List.forall_mem_cons]
      exact ⟨by decide, by decide, hdigit ⟨u.toNat / 4096 % 16, Nat.mod_lt _ (by decide)⟩,
        hdigit ⟨u.toNat / 256 % 16, Nat.mod_lt _ (by decide)⟩,
        hdigit ⟨u.toNat / 16 % 16, Nat.mod_lt _ (by decide)⟩,
        hdigit ⟨u.toNat % 16, Nat.mod_lt _ (by decide)⟩, fun c hc => by cases hc⟩

/-- **A string costs six bytes for each of its units, and the quotes.** -/
theorem textBytes_quotedUnits_le (us : Units) :
    textBytes (quotedUnits us).text ≤ 6 * us.length + 2 := by
  have hitems : ∀ ps : List CodePoint,
      IsText ((ps.flatMap pointItems).flatMap StringItem.text) ∧
        textBytes ((ps.flatMap pointItems).flatMap StringItem.text) ≤
          6 * (ps.flatMap CodePoint.units).length := by
    intro ps
    induction ps with
    | nil => exact ⟨isText_nil, Nat.le_refl 0⟩
    | cons p ps ih =>
      have hpoint := textBytes_pointItems_le p
      rw [List.flatMap_cons, List.flatMap_append, List.flatMap_cons, List.length_append,
        textBytes_append (isText_pointItems p) ih.1]
      exact ⟨(isText_pointItems p).append ih.1, by omega⟩
  have hmark : IsText [unitOf '"'] := isText_unitOf (by decide)
  have hmarkBytes : textBytes [unitOf '"'] = 1 := textBytes_unitOf (by decide)
  obtain ⟨htext, hbytes⟩ := hitems (codePoints us)
  rw [flatMap_codePoints] at hbytes
  show textBytes (unitOf '"' :: (((codePoints us).flatMap pointItems).flatMap StringItem.text ++
    [unitOf '"'])) ≤ 6 * us.length + 2
  rw [textBytes_cons hmark (htext.append hmark), textBytes_append htext hmark, hmarkBytes]
  omega

/-- Of a text both spellings are the same. -/
theorem quotedUnits_utf16 (s : String) : quotedUnits (utf16 s) = quoted s := by
  rw [quotedUnits, codePoints_utf16, quoted, List.flatMap_map]
  rfl

/-- **A string without escapes is as long as its characters, and the quotes.** -/
theorem textBytes_quoted_plain {s : String} (h : IsPlainText s) :
    textBytes (quoted s).text = s.toList.length + 2 := by
  have hmark : "\"".utf8ByteSize = 1 := by decide
  rw [← utf16_quote, textBytes_utf16, quote_plain h, String.utf8ByteSize_append,
    String.utf8ByteSize_append, utf8ByteSize_plain h, hmark]
  omega

/-! ## Numbers -/

theorem text_snoc {w : WholePart} {d : Fin 10} (h : w ≠ .zero) :
    (w.snoc d).text = w.text ++ [digit d] := by
  cases w with
  | zero => exact absurd rfl h
  | positive first rest => simp [WholePart.snoc, WholePart.text]

theorem wholeOf_ne_zero {n : Nat} (h : 0 < n) : wholeOf n ≠ .zero := by
  intro hzero
  have hvalue := decimalValue_wholeOf n
  rw [hzero] at hvalue
  change 0 = n at hvalue
  omega

/-- The digits are the ones of `toString`. -/
theorem text_wholeOf (n : Nat) : (wholeOf n).text = (Nat.toDigits 10 n).map unitOf := by
  have hzero : wholeOf 0 = .zero := by
    rw [wholeOf, if_pos rfl]
  induction n using Nat.strong_induction_on with
  | _ n ih =>
    have hmod := Nat.mod_lt n (by decide : 0 < 10)
    have hstep (h : 0 < n) : wholeOf n = (wholeOf (n / 10)).snoc ⟨n % 10, hmod⟩ := by
      rw [wholeOf, if_neg (by omega)]
    by_cases hsmall : n < 10
    · have hfirst : ∀ d : Fin 10, (WholePart.zero.snoc d).text = [unitOf (Nat.digitChar d)] := by
        decide
      have hdigits := Nat.toDigits_of_lt_base hsmall
      rcases Nat.eq_zero_or_pos n with rfl | hpos
      · rw [hzero]
        rfl
      · rw [hstep hpos, Nat.div_eq_of_lt hsmall, hzero, hfirst, hdigits]
        simp only [Nat.mod_eq_of_lt hsmall, List.map_singleton]
    · have hdigit : digit ⟨n % 10, hmod⟩ = unitOf (Nat.digitChar (n % 10)) := by
        have hall : ∀ d : Fin 10, digit d = unitOf (Nat.digitChar d) := by decide
        exact hall ⟨n % 10, hmod⟩
      have hdigits : Nat.toDigits 10 n = Nat.toDigits 10 (n / 10) ++ [Nat.digitChar (n % 10)] :=
        Nat.toDigits_of_base_le (by decide) (by omega)
      rw [hstep (by omega), text_snoc (wholeOf_ne_zero (by omega)), ih (n / 10) (by omega),
        hdigit, hdigits, List.map_append, List.map_singleton]

theorem text_jsonNumber (n : Nat) : (jsonNumber n).text = (Nat.toDigits 10 n).map unitOf := by
  show [] ++ ((wholeOf n).text ++ ([] ++ [])) = _
  rw [List.nil_append, List.append_nil, List.append_nil, text_wholeOf]

/-- **A number costs a byte for each of its digits.** -/
theorem textBytes_jsonNumber_le {n k : Nat} (hk : 0 < k) (h : n < 10 ^ k) :
    textBytes (jsonNumber n).text ≤ k := by
  have hascii : ∀ c ∈ Nat.toDigits 10 n, c.toNat < 128 := by
    intro c hc
    have hdigit := Nat.isDigit_of_mem_toDigits (by decide) (by decide) hc
    exact (digit_bounds hdigit).2.trans_lt (by decide)
  rw [text_jsonNumber, (textBytes_ascii hascii).2]
  exact (Nat.length_toDigits_le_iff (by decide) hk).mpr h

/-! ## Arrays and objects -/

/-- The bytes of the elements, with a comma for each. -/
def elementsBytes (vs : List JsonValue) : Nat := (vs.map fun v => textBytes v.text + 1).sum

theorem textBytes_jsonArray_le {vs : List JsonValue} (h : ∀ v ∈ vs, IsText v.text) :
    textBytes (jsonArray vs).text ≤ elementsBytes vs + 2 := by
  have hopen : IsText [unitOf '['] := isText_unitOf (by decide)
  have hclose : IsText [unitOf ']'] := isText_unitOf (by decide)
  have hcomma : IsText [unitOf ','] := isText_unitOf (by decide)
  have hopenBytes : textBytes [unitOf '['] = 1 := textBytes_unitOf (by decide)
  have hcloseBytes : textBytes [unitOf ']'] = 1 := textBytes_unitOf (by decide)
  have hcommaBytes : textBytes [unitOf ','] = 1 := textBytes_unitOf (by decide)
  have helements : ∀ v vs, (∀ w ∈ v :: vs, IsText w.text) →
      IsText (jsonElements v vs).text ∧
        textBytes (jsonElements v vs).text ≤ elementsBytes (v :: vs) := by
    intro v vs
    induction vs generalizing v with
    | nil =>
      intro hall
      have hv := hall v List.mem_cons_self
      refine ⟨hv.append hclose, ?_⟩
      show textBytes (v.text ++ [unitOf ']']) ≤ textBytes v.text + 1 + 0
      rw [textBytes_append hv hclose, hcloseBytes]
    | cons w ws ih =>
      intro hall
      have hv := hall v List.mem_cons_self
      obtain ⟨hrest, hle⟩ := ih w fun x hx => hall x (List.mem_cons_of_mem v hx)
      refine ⟨hv.append (hcomma.cons hrest), ?_⟩
      show textBytes (v.text ++ (unitOf ',' :: (jsonElements w ws).text)) ≤
        textBytes v.text + 1 + elementsBytes (w :: ws)
      rw [textBytes_append hv (hcomma.cons hrest), textBytes_cons hcomma hrest, hcommaBytes]
      omega
  cases vs with
  | nil =>
    show textBytes (unitOf '[' :: [unitOf ']']) ≤ 0 + 2
    rw [textBytes_cons hopen hclose, hopenBytes, hcloseBytes]
  | cons v vs =>
    obtain ⟨htext, hle⟩ := helements v vs h
    show textBytes (unitOf '[' :: (jsonElements v vs).text) ≤ _
    rw [textBytes_cons hopen htext, hopenBytes]
    omega

/-- The bytes of a member, with its colon and a comma. -/
def memberBytes (member : String × JsonValue) : Nat :=
  textBytes (quoted member.1).text + textBytes member.2.text + 2

def membersBytes (members : List (String × JsonValue)) : Nat := (members.map memberBytes).sum

theorem textBytes_jsonObject_le {members : List (String × JsonValue)}
    (h : ∀ m ∈ members, IsText m.2.text) :
    textBytes (jsonObject members).text ≤ membersBytes members + 2 := by
  have hopen : IsText [unitOf '\x7b'] := isText_unitOf (by decide)
  have hclose : IsText [unitOf '\x7d'] := isText_unitOf (by decide)
  have hcomma : IsText [unitOf ','] := isText_unitOf (by decide)
  have hcolon : IsText [unitOf ':'] := isText_unitOf (by decide)
  have hopenBytes : textBytes [unitOf '\x7b'] = 1 := textBytes_unitOf (by decide)
  have hcloseBytes : textBytes [unitOf '\x7d'] = 1 := textBytes_unitOf (by decide)
  have hcommaBytes : textBytes [unitOf ','] = 1 := textBytes_unitOf (by decide)
  have hcolonBytes : textBytes [unitOf ':'] = 1 := textBytes_unitOf (by decide)
  have hmembers : ∀ m rest, (∀ x ∈ m :: rest, IsText x.2.text) →
      IsText (jsonMembers m rest).text ∧
        textBytes (jsonMembers m rest).text ≤ membersBytes (m :: rest) := by
    intro m rest
    induction rest generalizing m with
    | nil =>
      intro hall
      have hname := isText_quoted m.1
      have hvalue := hall m List.mem_cons_self
      refine ⟨hname.append (hcolon.cons (hvalue.append hclose)), ?_⟩
      show textBytes ((quoted m.1).text ++ (unitOf ':' :: (m.2.text ++ [unitOf '\x7d']))) ≤
        textBytes (quoted m.1).text + textBytes m.2.text + 2 + 0
      rw [textBytes_append hname (hcolon.cons (hvalue.append hclose)),
        textBytes_cons hcolon (hvalue.append hclose), textBytes_append hvalue hclose, hcolonBytes,
        hcloseBytes]
      omega
    | cons next rest ih =>
      intro hall
      have hname := isText_quoted m.1
      have hvalue := hall m List.mem_cons_self
      obtain ⟨hrest, hle⟩ := ih next fun x hx => hall x (List.mem_cons_of_mem m hx)
      have hafter := hcomma.cons hrest
      refine ⟨hname.append (hcolon.cons (hvalue.append hafter)), ?_⟩
      show textBytes ((quoted m.1).text ++ (unitOf ':' :: (m.2.text ++
        (unitOf ',' :: (jsonMembers next rest).text)))) ≤
          textBytes (quoted m.1).text + textBytes m.2.text + 2 + membersBytes (next :: rest)
      rw [textBytes_append hname (hcolon.cons (hvalue.append hafter)),
        textBytes_cons hcolon (hvalue.append hafter), textBytes_append hvalue hafter,
        textBytes_cons hcomma hrest, hcolonBytes, hcommaBytes]
      omega
  cases members with
  | nil =>
    show textBytes (unitOf '\x7b' :: [unitOf '\x7d']) ≤ 0 + 2
    rw [textBytes_cons hopen hclose, hopenBytes, hcloseBytes]
  | cons m rest =>
    obtain ⟨htext, hle⟩ := hmembers m rest h
    show textBytes (unitOf '\x7b' :: (jsonMembers m rest).text) ≤ _
    rw [textBytes_cons hopen htext, hopenBytes]
    omega

@[simp] theorem membersBytes_append (a b : List (String × JsonValue)) :
    membersBytes (a ++ b) = membersBytes a + membersBytes b := by
  simp [membersBytes]

@[simp] theorem membersBytes_cons (m : String × JsonValue) (rest : List (String × JsonValue)) :
    membersBytes (m :: rest) = memberBytes m + membersBytes rest := by
  simp [membersBytes]

@[simp] theorem membersBytes_nil : membersBytes [] = 0 := rfl

end DumpLedger
