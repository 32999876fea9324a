import Mathlib

/-!
# JSON texts

The grammar of JSON over UTF-16 code units, as syntax trees that keep every blank and every
spelling. A text is valid JSON when it is the text of a tree.

A character of a string can be spelled in more than one way; `StringItem.unit` is what it
stands for. `HasDuplicate` says that an object, at any depth, has two members whose names
are equal once the spellings are resolved.

* `JsonValue.text` — the text of a tree
* `StringItem.unit` — a character of a string, unescaped
* `JsonValue.HasDuplicate` — two members of one name
-/

namespace DumpLedger.Lib

/-! ## Code units -/

abbrev CodeUnit := UInt16

/-- A JavaScript string. -/
abbrev Units := List CodeUnit

instance instLawfulBEqUnits : LawfulBEq Units := inferInstance

/-- The code unit of an ASCII character. -/
def unitOf (c : Char) : CodeUnit := c.toNat.toUInt16

def unitsOf (s : String) : Units := s.toList.map unitOf

/-! ## Blanks, strings and literals -/

inductive Blank
  | space | tab | lineFeed | carriageReturn
  deriving DecidableEq

def Blank.unit : Blank → CodeUnit
  | space => unitOf ' '
  | tab => unitOf '\t'
  | lineFeed => unitOf '\n'
  | carriageReturn => unitOf '\r'

def isBlank (c : CodeUnit) : Bool := [unitOf ' ', unitOf '\t', unitOf '\n', unitOf '\r'].contains c

theorem Blank.isBlank_unit (b : Blank) : isBlank b.unit = true := by
  cases b <;> decide

def blanks (bs : List Blank) : Units := bs.map Blank.unit

/-- The escapes of one letter. -/
inductive Escape
  | quote | backslash | slash | backspace | formFeed | lineFeed | carriageReturn | tab
  deriving DecidableEq

namespace Escape

/-- The letter after the backslash. -/
def letter : Escape → CodeUnit
  | quote => unitOf '"'
  | backslash => unitOf '\\'
  | slash => unitOf '/'
  | backspace => unitOf 'b'
  | formFeed => unitOf 'f'
  | lineFeed => unitOf 'n'
  | carriageReturn => unitOf 'r'
  | tab => unitOf 't'

/-- What the escape stands for. -/
def unit : Escape → CodeUnit
  | quote => unitOf '"'
  | backslash => unitOf '\\'
  | slash => unitOf '/'
  | backspace => 8
  | formFeed => 12
  | lineFeed => unitOf '\n'
  | carriageReturn => unitOf '\r'
  | tab => unitOf '\t'

end Escape

/-- The value of a hexadecimal digit, in either case. -/
def hexValue (c : CodeUnit) : Option Nat :=
  if unitOf '0' ≤ c ∧ c ≤ unitOf '9' then some (c.toNat - 48)
  else if unitOf 'a' ≤ c ∧ c ≤ unitOf 'f' then some (c.toNat - 87)
  else if unitOf 'A' ≤ c ∧ c ≤ unitOf 'F' then some (c.toNat - 55)
  else none

structure HexDigit where
  unit : CodeUnit
  valid : (hexValue unit).isSome = true

def HexDigit.value (h : HexDigit) : Nat := (hexValue h.unit).get h.valid

/-- A code unit that stands for itself in a string. -/
def isPlain (c : CodeUnit) : Bool :=
  !decide (c < 32) && !decide (c = unitOf '"') && !decide (c = unitOf '\\')

theorem isPlain_iff {c : CodeUnit} :
    isPlain c = true ↔ ¬ c < 32 ∧ c ≠ unitOf '"' ∧ c ≠ unitOf '\\' := by
  unfold isPlain
  simp only [Bool.and_eq_true, Bool.not_eq_true', decide_eq_false_iff_not, and_assoc, ne_eq]

/-- A character of a string, as it is spelled. -/
inductive StringItem
  | plain (c : CodeUnit) (h : isPlain c = true)
  | escape (e : Escape)
  | unicode (h₁ h₂ h₃ h₄ : HexDigit)

namespace StringItem

def text : StringItem → Units
  | plain c _ => [c]
  | escape e => [unitOf '\\', e.letter]
  | unicode h₁ h₂ h₃ h₄ => [unitOf '\\', unitOf 'u', h₁.unit, h₂.unit, h₃.unit, h₄.unit]

/-- The character, unescaped. -/
def unit : StringItem → CodeUnit
  | plain c _ => c
  | escape e => e.unit
  | unicode h₁ h₂ h₃ h₄ =>
    (((h₁.value * 16 + h₂.value) * 16 + h₃.value) * 16 + h₄.value).toUInt16

end StringItem

abbrev JsonString := List StringItem

namespace JsonString

def text (s : JsonString) : Units :=
  unitOf '"' :: (s.flatMap StringItem.text ++ [unitOf '"'])

/-- The string, unescaped. -/
def value (s : JsonString) : Units := s.map StringItem.unit

end JsonString

def digit (d : Fin 10) : CodeUnit := (48 + d.val).toUInt16

/-- The digits before the point have no leading zero. -/
inductive WholePart
  | zero
  | positive (first : Fin 9) (rest : List (Fin 10))

def WholePart.text : WholePart → Units
  | zero => [unitOf '0']
  | positive first rest => digit first.succ :: rest.map digit

structure Exponent where
  capital : Bool
  sign : Option Bool
  first : Fin 10
  rest : List (Fin 10)

def Exponent.text (e : Exponent) : Units :=
  (if e.capital then unitOf 'E' else unitOf 'e') ::
    ((e.sign.elim [] fun plus => [if plus then unitOf '+' else unitOf '-']) ++
      digit e.first :: e.rest.map digit)

structure JsonNumber where
  negative : Bool
  whole : WholePart
  fraction : Option (Fin 10 × List (Fin 10))
  exponent : Option Exponent

def JsonNumber.text (n : JsonNumber) : Units :=
  (if n.negative then [unitOf '-'] else []) ++
    (n.whole.text ++
      ((n.fraction.elim [] fun (first, rest) => unitOf '.' :: digit first :: rest.map digit) ++
        n.exponent.elim [] Exponent.text))

inductive JsonLiteral
  | null
  | bool (b : Bool)
  | number (n : JsonNumber)

def JsonLiteral.text : JsonLiteral → Units
  | null => unitsOf "null"
  | bool b => unitsOf (if b then "true" else "false")
  | number n => n.text

/-! ## Values -/

mutual

inductive JsonValue
  | literal (l : JsonLiteral)
  | string (s : JsonString)
  | emptyArray (inside : List Blank)
  | array (elements : JsonElements)
  | emptyObject (inside : List Blank)
  | object (members : JsonMembers)

/-- The elements of an array, each between blanks. -/
inductive JsonElements
  | last (before : List Blank) (v : JsonValue) (after : List Blank)
  | cons (before : List Blank) (v : JsonValue) (after : List Blank) (rest : JsonElements)

/-- The members of an object; blanks may stand around a name and around a value. -/
inductive JsonMembers
  | last (before : List Blank) (name : JsonString) (afterName beforeValue : List Blank)
      (v : JsonValue) (after : List Blank)
  | cons (before : List Blank) (name : JsonString) (afterName beforeValue : List Blank)
      (v : JsonValue) (after : List Blank) (rest : JsonMembers)

end

mutual

def JsonValue.text : JsonValue → Units
  | .literal l => l.text
  | .string s => s.text
  | .emptyArray inside => unitOf '[' :: (blanks inside ++ [unitOf ']'])
  | .array elements => unitOf '[' :: elements.text
  | .emptyObject inside => unitOf '\x7b' :: (blanks inside ++ [unitOf '\x7d'])
  | .object members => unitOf '\x7b' :: members.text

/-- The elements up to the closing bracket. -/
def JsonElements.text : JsonElements → Units
  | .last before v after => blanks before ++ (v.text ++ (blanks after ++ [unitOf ']']))
  | .cons before v after rest =>
    blanks before ++ (v.text ++ (blanks after ++ (unitOf ',' :: rest.text)))

/-- The members up to the closing brace. -/
def JsonMembers.text : JsonMembers → Units
  | .last before name afterName beforeValue v after =>
    blanks before ++ (name.text ++ (blanks afterName ++ (unitOf ':' ::
      (blanks beforeValue ++ (v.text ++ (blanks after ++ [unitOf '\x7d']))))))
  | .cons before name afterName beforeValue v after rest =>
    blanks before ++ (name.text ++ (blanks afterName ++ (unitOf ':' ::
      (blanks beforeValue ++ (v.text ++ (blanks after ++ (unitOf ',' :: rest.text)))))))

end

/-- A JSON text: a value between blanks. -/
structure JsonDocument where
  before : List Blank
  value : JsonValue
  after : List Blank

def JsonDocument.text (d : JsonDocument) : Units :=
  blanks d.before ++ (d.value.text ++ blanks d.after)

/-! ## Members of one name -/

def JsonMembers.names : JsonMembers → List JsonString
  | .last _ name _ _ _ _ => [name]
  | .cons _ name _ _ _ _ rest => name :: rest.names

mutual

/-- Some object has two members whose names are equal once they are unescaped. -/
def JsonValue.HasDuplicate : JsonValue → Prop
  | .literal _ | .string _ | .emptyArray _ | .emptyObject _ => False
  | .array elements => elements.HasDuplicate
  | .object members => ¬ (members.names.map JsonString.value).Nodup ∨ members.HasDuplicate

def JsonElements.HasDuplicate : JsonElements → Prop
  | .last _ v _ => v.HasDuplicate
  | .cons _ v _ rest => v.HasDuplicate ∨ rest.HasDuplicate

def JsonMembers.HasDuplicate : JsonMembers → Prop
  | .last _ _ _ _ v _ => v.HasDuplicate
  | .cons _ _ _ _ v _ rest => v.HasDuplicate ∨ rest.HasDuplicate

end

end DumpLedger.Lib
