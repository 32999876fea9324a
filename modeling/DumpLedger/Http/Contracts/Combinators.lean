import DumpLedger.Domain.JsonPrint
import DumpLedger.Http.Contracts.DuplicateKey

/-!
# Decoders

The combinators that the contracts are built from. A decoder takes a JSON value and the path it
stands at, and returns what it decoded or throws a `DecodeError`.

JavaScript finds a property of an object by its own name or by one that `Object.prototype` has, so
`shape[key]` may be a thing that is no field, and `key in record` may hold of a key that the record
does not own. What the code does then is modelled: it is a `TypeError`, or nothing at all.
-/

namespace DumpLedger.Decode

open Lib

inductive DecodeThrow
  | decodeError (path : Units) (message : String)
  | typeError (message : String)
  deriving DecidableEq

abbrev Decoder (α : Type) := JsonValue → Units → Except DecodeThrow α

section Combinators

variable {α : Type}

def fail (path : Units) (message : String) : Except DecodeThrow α :=
  .error (.decodeError path message)

/-- `childPath(path, index)`. -/
def indexPath (path : Units) (index : Nat) : Units :=
  path ++ unitOf '.' :: utf16 (String.ofList (Nat.toDigits 10 index))

/-! ## Objects of JavaScript -/

/-- The names of the properties of `Object.prototype`. -/
def objectPrototypeNames : List Units :=
  ["constructor", "__defineGetter__", "__defineSetter__", "hasOwnProperty", "__lookupGetter__",
    "__lookupSetter__", "isPrototypeOf", "propertyIsEnumerable", "toString", "valueOf",
    "__proto__", "toLocaleString"].map utf16

def protoName : Units := utf16 "__proto__"

/-- An own property of an object that was parsed: of two members of one name, the later one. -/
def ownValue (entries : List (Units × JsonValue)) (key : Units) : Option JsonValue :=
  entries.reverse.lookup key

/-- What `value[key]` finds. -/
inductive Property (β : Type)
  | own (b : β)
  | inherited
  | absent

def property {β : Type} (own : Option β) (key : Units) : Property β :=
  match own with
  | some b => .own b
  | none => if key ∈ objectPrototypeNames then .inherited else .absent

/-- `output[key] = value`, for a key that is new. An assignment to `__proto__` makes no own
property. -/
def setProperty (output : List (Units × α)) (key : Units) (value : α) : List (Units × α) :=
  if key = protoName then output else output ++ [(key, value)]

/-! ## Values -/

structure TextOptions where
  min : Nat := 1
  max : Nat
  label : String
  pattern : Option (Units → Bool) := none

/-- `/[\u0000-\u001f\u007f]/`. -/
def hasControlUnit (string : Units) : Bool :=
  string.any fun u => decide (u.toNat ≤ 0x1f) || decide (u.toNat = 0x7f)

def text (options : TextOptions) : Decoder Units := fun value path => do
  let string ← orThrow (stringUnits? value)
    (.decodeError path s!"{options.label} must be a string")
  guardThat (options.min ≤ string.length)
    (.decodeError path s!"{options.label} must not be empty")
  guardThat (string.length ≤ options.max)
    (.decodeError path s!"{options.label} exceeds {options.max} characters")
  guardThat (hasControlUnit string = false)
    (.decodeError path s!"{options.label} contains control characters")
  guardThat (options.pattern.all (fun pattern => pattern string) = true)
    (.decodeError path s!"{options.label} is malformed")
  return string

def booleanField : Decoder Bool := fun value path =>
  match value with
  | .literal (.bool b) => .ok b
  | _ => fail path "must be a boolean"

/-- `typeof value === "number"`, with the number: none when it is infinite. -/
def number? : JsonValue → Option (Option ℚ)
  | .literal (.number n) => some (toDouble n.value)
  | _ => none

def numberField (label : String) : Decoder ℚ := fun value path => do
  let number ← orThrow (number? value) (.decodeError path s!"{label} must be a number")
  orThrow number (.decodeError path s!"{label} must be finite")

structure IntegerOptions where
  min : Option Int := none
  max : Option Int := none
  label : String

def integerField (options : IntegerOptions) : Decoder Int := fun value path => do
  let decoded ← numberField options.label value path
  guardThat (decoded.den = 1 ∧ decoded.num.natAbs ≤ 2 ^ 53 - 1)
    (.decodeError path s!"{options.label} must be a safe integer")
  guardThat (options.min.all (fun min => decide (min ≤ decoded.num)) = true)
    (.decodeError path s!"{options.label} is below the minimum of {options.min.getD 0}")
  guardThat (options.max.all (fun max => decide (decoded.num ≤ max)) = true)
    (.decodeError path s!"{options.label} exceeds the maximum of {options.max.getD 0}")
  return decoded.num

def oneOf (values : List Units) (label : String) : Decoder Units := fun value path => do
  let string ← orThrow (stringUnits? value) (.decodeError path s!"{label} is invalid")
  guardThat (string ∈ values) (.decodeError path s!"{label} is invalid")
  return string

/-- `MAX_CANONICAL_DECIMAL_DIGITS`. -/
def maxCanonicalDecimalDigits : Nat := 40

structure DecimalOptions where
  label : String
  positive : Bool := false

def canonicalDecimal (options : DecimalOptions) : Decoder Nat := fun value path => do
  let decoded ← text { max := maxCanonicalDecimalDigits, label := options.label } value path
  guardThat (decimalPattern decoded = true)
    (.decodeError path s!"{options.label} must be a canonical decimal string")
  guardThat (options.positive = true → decoded ≠ [unitOf '0'])
    (.decodeError path s!"{options.label} must be positive")
  return decimalUnits decoded

structure ArrayOptions where
  label : String
  maxLength : Option Nat := none

/-- `value.map((entry, index) => item(entry, childPath(path, index)))`. -/
def decodeItems (item : Decoder α) (path : Units) :
    Nat → List JsonValue → Except DecodeThrow (List α)
  | _, [] => return []
  | index, entry :: rest => do
    let decoded ← item entry (indexPath path index)
    let others ← decodeItems item path (index + 1) rest
    return decoded :: others

def arrayOf (item : Decoder α) (options : ArrayOptions) : Decoder (List α) := fun value path => do
  let elements ← orThrow (arrayElements? value)
    (.decodeError path s!"{options.label} must be an array")
  guardThat (options.maxLength.all (fun max => decide (elements.length ≤ max)) = true)
    (.decodeError path s!"{options.label} exceeds {options.maxLength.getD 0} items")
  decodeItems item path 0 elements

def nullableField (inner : Decoder α) : Decoder (Option α) := fun value path =>
  if isNull (some value) = true then return none else some <$> inner value path

/-! ## Objects -/

structure FieldSpec (α : Type) where
  optional : Bool
  decode : Decoder α

def optional (decoder : Decoder α) : FieldSpec α := ⟨true, decoder⟩

def field (decoder : Decoder α) : FieldSpec α := ⟨false, decoder⟩

/-- The own properties of a shape; their names are distinct. -/
abbrev Shape (α : Type) := List (Units × FieldSpec α)

/-- The loop over the keys of the value. -/
def decodeKeys (shape : Shape α) (entries : List (Units × JsonValue)) (path : Units) :
    List Units → List (Units × α) → Except DecodeThrow (List (Units × α))
  | [], output => return output
  | key :: rest, output =>
    match property (shape.lookup key) key with
    | .absent => fail (childPath path key) "unexpected field"
    -- what `Object.prototype` has under the name is no field, so it has no `decode`
    | .inherited => .error (.typeError "spec.decode is not a function")
    | .own spec =>
      match ownValue entries key with
      | none =>
        if spec.optional = true then decodeKeys shape entries path rest output
        else fail (childPath path key) "field must not be undefined"
      | some value => do
        let decoded ← spec.decode value (childPath path key)
        decodeKeys shape entries path rest (setProperty output key decoded)

/-- The loop over the keys of the shape. -/
def requireKeys (shape : Shape α) (entries : List (Units × JsonValue)) (path : Units) :
    List Units → Except DecodeThrow Unit
  | [] => return ()
  | key :: rest =>
    if (shape.lookup key).all FieldSpec.optional = true then
      requireKeys shape entries path rest
    else if key ∈ entries.map Prod.fst ∨ key ∈ objectPrototypeNames then
      requireKeys shape entries path rest
    else fail (childPath path key) "missing required field"

def object (shape : Shape α) (label : String) : Decoder (List (Units × α)) :=
  fun value path => do
    let entries ← orThrow (objectEntries? value)
      (.decodeError path s!"{label} must be a JSON object")
    let output ← decodeKeys shape entries path (ownKeys (entries.map Prod.fst)) []
    requireKeys shape entries path (ownKeys (shape.map Prod.fst))
    return output

end Combinators

/-! ## Decoders built from them -/

mutual

inductive DecoderExpr
  | text (options : TextOptions)
  | boolean
  | integer (options : IntegerOptions)
  | oneOf (values : List Units) (label : String)
  | canonicalDecimal (options : DecimalOptions)
  | nullable (inner : DecoderExpr)
  | array (item : DecoderExpr) (options : ArrayOptions)
  | object (shape : ShapeExpr) (label : String)

/-- The fields of a shape: a name, whether it is optional, and a decoder. -/
inductive ShapeExpr
  | nil
  | cons (name : Units) (isOptional : Bool) (decoder : DecoderExpr) (rest : ShapeExpr)

end

/-- What a decoder returns. -/
inductive Decoded
  | text (string : Units)
  | boolean (b : Bool)
  | integer (n : Int)
  | decimal (n : Nat)
  | null
  | array (items : List Decoded)
  | object (fields : List (Units × Decoded))

mutual

/-- The decoder that an expression builds. -/
def DecoderExpr.decoder : DecoderExpr → Decoder Decoded
  | .text options => fun value path => Decoded.text <$> text options value path
  | .boolean => fun value path => Decoded.boolean <$> booleanField value path
  | .integer options => fun value path => Decoded.integer <$> integerField options value path
  | .oneOf values label => fun value path => Decoded.text <$> oneOf values label value path
  | .canonicalDecimal options => fun value path =>
    Decoded.decimal <$> canonicalDecimal options value path
  | .nullable inner => fun value path =>
    (fun decoded => decoded.getD Decoded.null) <$> nullableField inner.decoder value path
  | .array item options => fun value path =>
    Decoded.array <$> arrayOf item.decoder options value path
  | .object shape label => fun value path =>
    Decoded.object <$> object shape.shape label value path

def ShapeExpr.shape : ShapeExpr → Shape Decoded
  | .nil => []
  | .cons name isOptional decoder rest =>
    (name, if isOptional then optional decoder.decoder else field decoder.decoder) :: rest.shape

end

end DumpLedger.Decode
