import DumpLedger.Domain.JsonText
import DumpLedger.Lib.CodePoints
import DumpLedger.Lib.JsonNumber

/-!
# Writing JSON texts

`JSON.stringify` writes a value without blanks, each string in its shortest spelling; a surrogate
that belongs to no pair is escaped. The value is built as the syntax tree of the text it is
written as.

* `quotedUnits_value`, `arrayElements?_jsonArray`, `objectEntries?_jsonObject` — what is written is
  read back
* `IsText` — the text of the value is a text: no surrogate is left alone
* `jsonParse_print` — `JSON.parse` of the text is the value
-/

namespace DumpLedger

open Lib

/-! ## Reading objects -/

def memberEntries : JsonMembers → List (Units × JsonValue)
  | .last _ name _ _ v _ => [(name.value, v)]
  | .cons _ name _ _ v _ rest => (name.value, v) :: memberEntries rest

/-- A plain object, with its members as they stand in the text. -/
def objectEntries? : JsonValue → Option (List (Units × JsonValue))
  | .emptyObject _ => some []
  | .object members => some (memberEntries members)
  | _ => none

/-- `value[key]`: of two members of one name, the later one. -/
def entryValue (entries : List (Units × JsonValue)) (key : String) : Option JsonValue :=
  entries.reverse.lookup (utf16 key)

/-- `typeof value === "string"`, with the string. -/
def stringUnits? : JsonValue → Option Units
  | .string s => some s.value
  | _ => none

def isNull : Option JsonValue → Bool
  | some (.literal .null) => true
  | _ => false

/-! ## Names and patterns -/

/-- A name that `Object.keys` puts first, by its number. -/
def arrayIndex? (key : Units) : Option Nat :=
  let digits := key.map fun u => Char.ofNat u.toNat
  if digits = Nat.toDigits 10 (Nat.ofDigitChars 10 digits 0) ∧
      Nat.ofDigitChars 10 digits 0 < 4294967295 then
    some (Nat.ofDigitChars 10 digits 0)
  else none

/-- `Object.keys(value)` of an object with these names: those that are array indices come first,
by their number. -/
def ownKeys (names : List Units) : List Units :=
  let keys := names.eraseDups
  ((keys.filter fun key => (arrayIndex? key).isSome).mergeSort
      fun a b => decide ((arrayIndex? a).getD 0 ≤ (arrayIndex? b).getD 0)) ++
    keys.filter fun key => (arrayIndex? key).isNone

theorem mem_ownKeys {names : List Units} {key : Units} : key ∈ ownKeys names ↔ key ∈ names := by
  rw [ownKeys, List.mem_append, List.mem_mergeSort, List.mem_filter, List.mem_filter,
    List.mem_eraseDups]
  cases arrayIndex? key <;> simp

/-- A pattern that is a class of ASCII characters, repeated. -/
def unitsMatch (isMember : Char → Bool) (text : Units) : Bool :=
  text.all fun u => isMember (Char.ofNat u.toNat)

/-- `DECIMAL_PATTERN`. -/
def decimalPattern (text : Units) : Bool :=
  unitsMatch Char.isDigit text && (decide (text = [unitOf '0']) || text.head? != some (unitOf '0'))

/-- `BigInt(text)`. -/
def decimalUnits (text : Units) : Nat :=
  Nat.ofDigitChars 10 (text.map fun u => Char.ofNat u.toNat) 0

/-! ## Quoted strings -/

def pointItems : CodePoint → List StringItem
  | .char c => charItems c
  | .lone u =>
    [.unicode (lowerHexDigit ⟨u.toNat / 4096 % 16, Nat.mod_lt _ (by decide)⟩)
      (lowerHexDigit ⟨u.toNat / 256 % 16, Nat.mod_lt _ (by decide)⟩)
      (lowerHexDigit ⟨u.toNat / 16 % 16, Nat.mod_lt _ (by decide)⟩)
      (lowerHexDigit ⟨u.toNat % 16, Nat.mod_lt _ (by decide)⟩)]

/-- The JSON string that `JSON.stringify` writes. -/
def quotedUnits (us : Units) : JsonString := (codePoints us).flatMap pointItems

theorem pointItems_unit (p : CodePoint) : (pointItems p).map StringItem.unit = p.units := by
  cases p with
  | char c => exact (charItems_eq c).2
  | lone u =>
    have hlt := u.toNat_lt
    have hvalue : ((u.toNat / 4096 % 16 * 16 + u.toNat / 256 % 16) * 16 + u.toNat / 16 % 16) * 16 +
        u.toNat % 16 = u.toNat := by
      omega
    simp only [pointItems, List.map_cons, List.map_nil, StringItem.unit, lowerHexDigit_value,
      CodePoint.units]
    rw [hvalue, Nat.toUInt16_eq, UInt16.ofNat_toNat]

/-- **The string is read back.** -/
theorem quotedUnits_value (us : Units) : (quotedUnits us).value = us := by
  have hitems : ∀ ps : List CodePoint,
      (ps.flatMap pointItems).map StringItem.unit = ps.flatMap CodePoint.units := by
    intro ps
    induction ps with
    | nil => rfl
    | cons p ps ih =>
      rw [List.flatMap_cons, List.map_append, ih, pointItems_unit, List.flatMap_cons]
  exact (hitems _).trans (flatMap_codePoints us)

/-! ## Texts -/

/-- No surrogate of the string is alone. -/
def IsText (us : Units) : Prop := ∃ cs : List Char, us = cs.flatMap charUnits

theorem IsText.append {us vs : Units} (hu : IsText us) (hv : IsText vs) : IsText (us ++ vs) := by
  obtain ⟨cs, rfl⟩ := hu
  obtain ⟨ds, rfl⟩ := hv
  exact ⟨cs ++ ds, List.flatMap_append.symm⟩

theorem IsText.cons {u : CodeUnit} {vs : Units} (hu : IsText [u]) (hv : IsText vs) :
    IsText (u :: vs) :=
  hu.append hv

theorem isText_nil : IsText [] := ⟨[], rfl⟩

theorem isText_utf16 (s : String) : IsText (utf16 s) := ⟨s.toList, rfl⟩

theorem isText_unitOf {c : Char} (h : c.toNat < 0x10000) : IsText [unitOf c] := by
  refine ⟨[c], ?_⟩
  rw [List.flatMap_singleton, charUnits, if_pos h, unitOf]

theorem isText_digit : ∀ d : Fin 10, IsText [digit d] := by
  intro d
  refine ⟨[Nat.digitChar d], ?_⟩
  revert d
  decide

theorem isText_lowerHexDigit (n : Fin 16) : IsText [(lowerHexDigit n).unit] := by
  refine isText_unitOf ?_
  revert n
  decide

theorem isText_pointItems (p : CodePoint) : IsText ((pointItems p).flatMap StringItem.text) := by
  cases p with
  | char c => exact ⟨_, (charItems_eq c).1⟩
  | lone u =>
    have hslash : IsText [unitOf '\\'] := isText_unitOf (by decide)
    have hletter : IsText [unitOf 'u'] := isText_unitOf (by decide)
    exact hslash.cons (hletter.cons ((isText_lowerHexDigit _).cons ((isText_lowerHexDigit _).cons
      ((isText_lowerHexDigit _).cons (isText_lowerHexDigit _)))))

theorem isText_quotedUnits (us : Units) : IsText (quotedUnits us).text := by
  have hquote : IsText [unitOf '"'] := isText_unitOf (by decide)
  have hitems : ∀ ps : List CodePoint,
      IsText ((ps.flatMap pointItems).flatMap StringItem.text) := by
    intro ps
    induction ps with
    | nil => exact isText_nil
    | cons p ps ih =>
      rw [List.flatMap_cons, List.flatMap_append]
      exact (isText_pointItems p).append ih
  exact hquote.cons ((hitems _).append hquote)

theorem isText_quoted (s : String) : IsText (quoted s).text := by
  rw [← utf16_quote]
  exact isText_utf16 _

/-! ## Values -/

def jsonNull : JsonValue := .literal .null

def jsonNumber (n : Nat) : JsonValue := .literal (.number (numberOf n))

def jsonString (us : Units) : JsonValue := .string (quotedUnits us)

/-- The elements of an array that is not empty. -/
def jsonElements (v : JsonValue) : List JsonValue → JsonElements
  | [] => .last [] v []
  | w :: ws => .cons [] v [] (jsonElements w ws)

def jsonArray : List JsonValue → JsonValue
  | [] => .emptyArray []
  | v :: vs => .array (jsonElements v vs)

/-- The members of an object that is not empty. -/
def jsonMembers (member : String × JsonValue) : List (String × JsonValue) → JsonMembers
  | [] => .last [] (quoted member.1) [] [] member.2 []
  | next :: rest => .cons [] (quoted member.1) [] [] member.2 [] (jsonMembers next rest)

def jsonObject : List (String × JsonValue) → JsonValue
  | [] => .emptyObject []
  | member :: rest => .object (jsonMembers member rest)

theorem elementValues_jsonElements (v : JsonValue) (vs : List JsonValue) :
    elementValues (jsonElements v vs) = v :: vs := by
  induction vs generalizing v with
  | nil => rfl
  | cons w ws ih => rw [jsonElements, elementValues, ih]

/-- **The elements are read back.** -/
theorem arrayElements?_jsonArray (vs : List JsonValue) :
    arrayElements? (jsonArray vs) = some vs := by
  cases vs with
  | nil => rfl
  | cons v vs => exact congrArg some (elementValues_jsonElements v vs)

theorem memberEntries_jsonMembers (member : String × JsonValue)
    (rest : List (String × JsonValue)) :
    memberEntries (jsonMembers member rest) =
      (member :: rest).map fun m => (utf16 m.1, m.2) := by
  induction rest generalizing member with
  | nil => rw [jsonMembers, memberEntries, quoted_value, List.map_singleton]
  | cons next rest ih =>
    rw [jsonMembers, memberEntries, ih, quoted_value]
    rfl

/-- **The members are read back.** -/
theorem objectEntries?_jsonObject (members : List (String × JsonValue)) :
    objectEntries? (jsonObject members) = some (members.map fun m => (utf16 m.1, m.2)) := by
  cases members with
  | nil => rfl
  | cons member rest => exact congrArg some (memberEntries_jsonMembers member rest)

theorem stringUnits?_jsonString (us : Units) : stringUnits? (jsonString us) = some us :=
  congrArg some (quotedUnits_value us)

/-! ### Their texts -/

theorem isText_jsonNull : IsText jsonNull.text := ⟨"null".toList, by decide⟩

theorem isText_digits (ds : List (Fin 10)) : IsText (ds.map digit) := by
  induction ds with
  | nil => exact isText_nil
  | cons d ds ih => exact (isText_digit d).cons ih

theorem isText_jsonNumber (n : Nat) : IsText (jsonNumber n).text := by
  show IsText ([] ++ ((wholeOf n).text ++ ([] ++ [])))
  rw [List.nil_append, List.append_nil, List.append_nil]
  cases wholeOf n with
  | zero => exact isText_unitOf (by decide)
  | positive first rest => exact (isText_digit first.succ).cons (isText_digits rest)

theorem isText_jsonString (us : Units) : IsText (jsonString us).text := isText_quotedUnits us

theorem isText_jsonArray {vs : List JsonValue} (h : ∀ v ∈ vs, IsText v.text) :
    IsText (jsonArray vs).text := by
  have hopen : IsText [unitOf '['] := isText_unitOf (by decide)
  have hclose : IsText [unitOf ']'] := isText_unitOf (by decide)
  have hcomma : IsText [unitOf ','] := isText_unitOf (by decide)
  cases vs with
  | nil => exact hopen.cons hclose
  | cons v vs =>
    refine hopen.cons ?_
    induction vs generalizing v with
    | nil => exact (h v List.mem_cons_self).append hclose
    | cons w ws ih =>
      refine (h v List.mem_cons_self).append (hcomma.cons (ih w fun x hx => ?_))
      exact h x (List.mem_cons_of_mem v hx)

theorem isText_jsonObject {members : List (String × JsonValue)}
    (h : ∀ m ∈ members, IsText m.2.text) : IsText (jsonObject members).text := by
  have hopen : IsText [unitOf '\x7b'] := isText_unitOf (by decide)
  have hclose : IsText [unitOf '\x7d'] := isText_unitOf (by decide)
  have hcomma : IsText [unitOf ','] := isText_unitOf (by decide)
  have hcolon : IsText [unitOf ':'] := isText_unitOf (by decide)
  cases members with
  | nil => exact hopen.cons hclose
  | cons m rest =>
    refine hopen.cons ?_
    induction rest generalizing m with
    | nil =>
      exact (isText_quoted m.1).append (hcolon.cons ((h m List.mem_cons_self).append hclose))
    | cons next rest ih =>
      refine (isText_quoted m.1).append (hcolon.cons ((h m List.mem_cons_self).append
        (hcomma.cons (ih next fun x hx => ?_))))
      exact h x (List.mem_cons_of_mem m hx)

/-! ## Bytes -/

/-- `new TextEncoder().encode(text)`. -/
def encodeText (us : Units) : Bytes := utf8Bytes (toText us)

/-- `JSON.stringify(value)`. -/
def jsonStringify (v : JsonValue) : Units := v.text

theorem utf16_toText {us : Units} (h : IsText us) : utf16 (toText us) = us := by
  obtain ⟨cs, rfl⟩ := h
  have htext := toText_utf16 (String.ofList cs)
  unfold utf16 at htext
  rw [String.toList_ofList] at htext
  rw [htext, utf16, String.toList_ofList]

/-- **`JSON.parse` of what `JSON.stringify` wrote is the value.** -/
theorem jsonParse_print {v : JsonValue} (h : IsText (jsonStringify v)) :
    jsonParse (toText (jsonStringify v)) = some v := by
  have hdocument : (JsonDocument.mk [] v []).text = jsonStringify v := by
    simp [JsonDocument.text, blanks, jsonStringify]
  rw [jsonParse, utf16_toText h, ← hdocument, parseDocument_text]
  rfl

end DumpLedger
