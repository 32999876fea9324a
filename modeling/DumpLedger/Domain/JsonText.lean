import DumpLedger.Domain.Ids
import DumpLedger.Domain.Json
import DumpLedger.Domain.Timestamp
import DumpLedger.Lib.JsonParse
import DumpLedger.Lib.Utf16

/-!
# Reading JSON texts

`JSON.parse` reads the code units of a text. `jsonParse` gives the syntax tree; a value of it
that is a string is a text when it has no lone surrogate.

`utf16_quote` says that `JSON.stringify` writes a string as a JSON string of this value, in one
of the spellings that `JSON.parse` reads.
-/

namespace DumpLedger

open Lib

/-- `JSON.parse`. -/
def jsonParse (text : String) : Option JsonValue :=
  (parseDocument (utf16 text)).map JsonDocument.value

/-- The elements of an array. -/
def elementValues : JsonElements → List JsonValue
  | .last _ v _ => [v]
  | .cons _ v _ rest => v :: elementValues rest

/-- `Array.isArray(value)`, with the elements. -/
def arrayElements? : JsonValue → Option (List JsonValue)
  | .emptyArray _ => some []
  | .array es => some (elementValues es)
  | _ => none

/-- `typeof value === "string"`, with the text. -/
def stringText? : JsonValue → Option String
  | .string s => ofUnits? s.value
  | _ => none

/-! ## Quoted strings -/

/-- A hexadecimal digit in lower case. -/
def lowerHexDigit (n : Fin 16) : HexDigit where
  unit := unitOf (Nat.digitChar n)
  valid := by revert n; decide

theorem lowerHexDigit_value : ∀ n : Fin 16, (lowerHexDigit n).value = n := by
  decide

/-- A code unit in a string that needs no escape. -/
def plainItem? (u : CodeUnit) : Option StringItem :=
  if h : isPlain u = true then some (.plain u h) else none

/-- What `escapeChar` writes, as items of a JSON string. -/
def charItems (c : Char) : List StringItem :=
  if c = '"' then [.escape .quote]
  else if c = '\\' then [.escape .backslash]
  else if c = '\x08' then [.escape .backspace]
  else if c = '\x0c' then [.escape .formFeed]
  else if c = '\n' then [.escape .lineFeed]
  else if c = '\r' then [.escape .carriageReturn]
  else if c = '\t' then [.escape .tab]
  else if c.toNat < 0x20 then
    [.unicode (lowerHexDigit 0) (lowerHexDigit 0) (lowerHexDigit ⟨c.toNat / 16 % 16, by omega⟩)
      (lowerHexDigit ⟨c.toNat % 16, by omega⟩)]
  else (charUnits c).filterMap plainItem?

/-- The JSON string that `JSON.stringify` writes. -/
def quoted (s : String) : JsonString := s.toList.flatMap charItems

theorem isPlain_of {u : CodeUnit} (hcontrol : 0x20 ≤ u.toNat) (hquote : u.toNat ≠ 0x22)
    (hslash : u.toNat ≠ 0x5c) : isPlain u = true := by
  refine isPlain_iff.mpr ⟨?_, ?_, ?_⟩
  · intro hlt
    have hnat : u.toNat < 0x20 := hlt
    omega
  · rintro rfl
    exact hquote rfl
  · rintro rfl
    exact hslash rfl

/-- A character that is not escaped has only plain code units. -/
theorem charUnits_plain {c : Char} (hcontrol : ¬ c.toNat < 0x20) (hquote : c ≠ '"')
    (hslash : c ≠ '\\') : ∀ u ∈ charUnits c, isPlain u = true := by
  have hquoteNat : c.toNat ≠ 0x22 := fun h => hquote (Char.toNat_inj.mp h)
  have hslashNat : c.toNat ≠ 0x5c := fun h => hslash (Char.toNat_inj.mp h)
  have hbounds := char_bounds c
  intro u hu
  unfold charUnits at hu
  split at hu
  · next hsmall =>
    obtain rfl := List.mem_singleton.mp hu
    have hnat : (c.toNat.toUInt16).toNat = c.toNat := by
      simp only [Nat.toUInt16_eq, UInt16.toNat_ofNat']
      omega
    exact isPlain_of (by omega) (by omega) (by omega)
  · next hlarge =>
    have hhigh : (highSurrogate c.toNat).toNat = 0xD800 + (c.toNat - 0x10000) / 0x400 := by
      unfold highSurrogate
      simp only [Nat.toUInt16_eq, UInt16.toNat_ofNat']
      omega
    have hlow : (lowSurrogate c.toNat).toNat = 0xDC00 + (c.toNat - 0x10000) % 0x400 := by
      unfold lowSurrogate
      simp only [Nat.toUInt16_eq, UInt16.toNat_ofNat']
      omega
    simp only [List.mem_cons, List.not_mem_nil, or_false] at hu
    rcases hu with rfl | rfl
    · exact isPlain_of (by omega) (by omega) (by omega)
    · exact isPlain_of (by omega) (by omega) (by omega)

theorem plainItems (us : Units) (h : ∀ u ∈ us, isPlain u = true) :
    (us.filterMap plainItem?).flatMap StringItem.text = us ∧
      (us.filterMap plainItem?).map StringItem.unit = us := by
  induction us with
  | nil => exact ⟨rfl, rfl⟩
  | cons u us ih =>
    obtain ⟨htext, hunit⟩ := ih fun v hv => h v (List.mem_cons_of_mem u hv)
    have hu : plainItem? u = some (.plain u (h u List.mem_cons_self)) :=
      dif_pos (h u List.mem_cons_self)
    rw [List.filterMap_cons_some hu, List.flatMap_cons, List.map_cons, htext, hunit]
    exact ⟨rfl, rfl⟩

/-- A control character is escaped by its four digits. -/
theorem controlItems : ∀ n : Fin 32,
    [StringItem.unicode (lowerHexDigit 0) (lowerHexDigit 0)
        (lowerHexDigit ⟨n.val / 16 % 16, by omega⟩)
        (lowerHexDigit ⟨n.val % 16, by omega⟩)].flatMap StringItem.text =
      (Json.unicodeEscape n.val).flatMap charUnits ∧
    [StringItem.unicode (lowerHexDigit 0) (lowerHexDigit 0)
        (lowerHexDigit ⟨n.val / 16 % 16, by omega⟩)
        (lowerHexDigit ⟨n.val % 16, by omega⟩)].map StringItem.unit = [n.val.toUInt16] := by
  decide +kernel

/-- **The items of a character are what `JSON.stringify` writes for it, and stand for it.** -/
theorem charItems_eq (c : Char) :
    (charItems c).flatMap StringItem.text = (Json.escapeChar c).flatMap charUnits ∧
      (charItems c).map StringItem.unit = charUnits c := by
  unfold charItems Json.escapeChar
  by_cases h1 : c = '"'
  · subst h1; decide
  by_cases h2 : c = '\\'
  · subst h2; decide
  by_cases h3 : c = '\x08'
  · subst h3; decide
  by_cases h4 : c = '\x0c'
  · subst h4; decide
  by_cases h5 : c = '\n'
  · subst h5; decide
  by_cases h6 : c = '\r'
  · subst h6; decide
  by_cases h7 : c = '\t'
  · subst h7; decide
  simp only [h1, h2, h3, h4, h5, h6, h7, if_false]
  by_cases hcontrol : c.toNat < 0x20
  · have hunits : charUnits c = [c.toNat.toUInt16] := if_pos (by omega)
    rw [if_pos hcontrol, if_pos hcontrol, hunits]
    exact controlItems ⟨c.toNat, hcontrol⟩
  · rw [if_neg hcontrol, if_neg hcontrol, List.flatMap_singleton]
    exact plainItems _ (charUnits_plain hcontrol h1 h2)

theorem quoted_text (cs : List Char) :
    (cs.flatMap charItems).flatMap StringItem.text =
      (cs.flatMap Json.escapeChar).flatMap charUnits := by
  induction cs with
  | nil => rfl
  | cons c cs ih =>
    rw [List.flatMap_cons, List.flatMap_append, List.flatMap_cons, List.flatMap_append, ih,
      (charItems_eq c).1]

/-- **`JSON.stringify` writes a string as a JSON string.** -/
theorem utf16_quote (s : String) : utf16 (Json.quote s) = (quoted s).text := by
  have hmark : utf16 "\"" = [unitOf '"'] := by decide
  unfold Json.quote quoted JsonString.text
  rw [utf16_append, utf16_append, quoted_text, hmark, List.singleton_append, List.cons_append]
  unfold utf16
  rw [String.toList_ofList]

theorem quoted_value (s : String) : (quoted s).value = utf16 s := by
  unfold quoted JsonString.value utf16
  induction s.toList with
  | nil => rfl
  | cons c cs ih =>
    rw [List.flatMap_cons, List.map_append, ih, List.flatMap_cons, (charItems_eq c).2]

/-- The string is read back. -/
theorem stringText?_quoted (s : String) : stringText? (.string (quoted s)) = some s := by
  show ofUnits? (quoted s).value = some s
  rw [quoted_value]
  exact ofUnits?_utf16 s

/-! ## Plain text -/

/-- ASCII text that needs no escape. -/
def IsPlainText (s : String) : Prop := ∀ c ∈ s.toList, Json.escapeChar c = [c] ∧ c.toNat < 128

theorem escapeChar_of {c : Char} (hcontrol : 0x20 ≤ c.toNat) (hquote : c ≠ '"')
    (hslash : c ≠ '\\') : Json.escapeChar c = [c] := by
  have hne {d : Char} (hd : d.toNat < 0x20) : c ≠ d := by
    rintro rfl
    omega
  unfold Json.escapeChar
  rw [if_neg hquote, if_neg hslash, if_neg (hne (by decide)), if_neg (hne (by decide)),
    if_neg (hne (by decide)), if_neg (hne (by decide)), if_neg (hne (by decide)),
    if_neg (not_lt.mpr hcontrol)]

theorem quote_plain {s : String} (h : IsPlainText s) : Json.quote s = "\"" ++ s ++ "\"" := by
  have hcs : ∀ cs : List Char, (∀ c ∈ cs, Json.escapeChar c = [c]) →
      cs.flatMap Json.escapeChar = cs := by
    intro cs
    induction cs with
    | nil => intro _; rfl
    | cons c cs ih =>
      intro hall
      rw [List.flatMap_cons, hall c List.mem_cons_self,
        ih fun d hd => hall d (List.mem_cons_of_mem c hd)]
      rfl
  unfold Json.quote
  rw [hcs s.toList fun c hc => (h c hc).1, String.ofList_toList]

theorem utf8ByteSize_plain {s : String} (h : IsPlainText s) :
    s.utf8ByteSize = s.toList.length := by
  have hcs : ∀ cs : List Char, (∀ c ∈ cs, c.toNat < 128) →
      (String.ofList cs).utf8ByteSize = cs.length := by
    intro cs
    induction cs with
    | nil => intro _; rfl
    | cons c cs ih =>
      intro hall
      have hc : c.utf8Size = 1 := by
        have hlt : c.toNat < 128 := hall c List.mem_cons_self
        have hval : c.val ≤ 0x7f := by
          rw [UInt32.le_iff_toNat_le]
          show c.toNat ≤ 127
          omega
        unfold Char.utf8Size
        simp [hval]
      rw [String.ofList_cons, String.utf8ByteSize_append,
        ih fun d hd => hall d (List.mem_cons_of_mem c hd), List.length_cons]
      simp [hc, Nat.add_comm]
  have hs := hcs s.toList fun c hc => (h c hc).2
  rwa [String.ofList_toList] at hs

/-- A digit or a capital needs no escape. -/
theorem escapeChar_alphanumeric {c : Char}
    (h : 0x30 ≤ c.toNat ∧ c.toNat ≤ 0x39 ∨ 0x41 ≤ c.toNat ∧ c.toNat ≤ 0x5a) :
    Json.escapeChar c = [c] ∧ c.toNat < 128 := by
  have hne {d : Char} (hd : d.toNat < 0x30 ∨ 0x5a < d.toNat) : c ≠ d := by
    rintro rfl
    omega
  exact ⟨escapeChar_of (by omega) (hne (by decide)) (hne (by decide)), by omega⟩

theorem isPlainText_timestamp (t : IsoTimestamp) : IsPlainText t.text := by
  intro c hc
  have hchar := (isTimestampPart_of_instant t.valid).2 c hc
  simp only [isTimestampChar, Bool.or_eq_true, List.contains_iff_mem, List.mem_cons,
    List.not_mem_nil, or_false] at hchar
  rcases hchar with hdigit | rfl | rfl | rfl | rfl | rfl | rfl
  · exact escapeChar_alphanumeric (Or.inl (Char.isDigit_iff_toNat.mp hdigit))
  all_goals decide

/-- The kind, an underscore and the 26 characters of the body. -/
theorem identifier_text {kind : String} (i : Identifier kind) :
    ∃ body, i.text.toList = kind.toList ++ '_' :: body ∧ body.length = 26 ∧
      ∀ c ∈ body, isIdentifierChar c = true := by
  have hvalid := i.valid
  unfold isIdentifier isIdentifierBody at hvalid
  simp only [Bool.and_eq_true, decide_eq_true_eq, List.all_eq_true] at hvalid
  obtain ⟨hkindText, hlen, hbody⟩ := hvalid
  obtain ⟨body, htext⟩ := List.isPrefixOf_iff_prefix.mp hkindText
  have hkind : (kind ++ "_").toList = kind.toList ++ ['_'] := String.toList_append
  rw [hkind, List.append_assoc, List.singleton_append] at htext
  have hdrop : i.text.toList.drop (kind.toList.length + 1) = body := by
    rw [← htext, List.drop_append]
    simp
  rw [hdrop] at hlen hbody
  exact ⟨body, htext.symm, hlen, hbody⟩

theorem isPlainText_identifier {kind : String} (h : IsPlainText kind) (i : Identifier kind) :
    IsPlainText i.text := by
  obtain ⟨body, htext, -, hbody⟩ := identifier_text i
  intro c hc
  rw [htext, List.mem_append, List.mem_cons] at hc
  rcases hc with hc | rfl | hc
  · exact h c hc
  · decide
  · have hchar := hbody c hc
    simp only [isIdentifierChar, Bool.or_eq_true, Bool.and_eq_true, decide_eq_true_eq,
      Char.le_def, UInt32.le_iff_toNat_le] at hchar
    refine escapeChar_alphanumeric ?_
    rcases hchar with hdigit | ⟨hupper, -⟩
    · exact Or.inl hdigit
    · exact Or.inr hupper

end DumpLedger
