import DumpLedger.Http.Contracts.Combinators

/-!
# Fields of the contracts

Identifiers, counters and timestamps, built from `text` and `integerField`, and what a
contract reads from the object that it has decoded.
-/

namespace DumpLedger.Decode

open Lib

/-! ## Decoders of fields -/

/-- `MAX_TEXT_LENGTH`. -/
def maxTextLength : Nat := 16384

/-- `MAX_IDENTIFIER_LENGTH`. -/
def maxIdentifierLength : Nat := 128

/-- `\s`. -/
def isSpaceUnit (u : CodeUnit) : Bool :=
  (decide (0x09 ≤ u.toNat) && decide (u.toNat ≤ 0x0d)) ||
    (decide (0x2000 ≤ u.toNat) && decide (u.toNat ≤ 0x200a)) ||
    [0x20, 0xa0, 0x1680, 0x2028, 0x2029, 0x202f, 0x205f, 0x3000, 0xfeff].contains u.toNat

/-- `/^\S+$/`. -/
def isUnbroken (string : Units) : Bool :=
  decide (string ≠ []) && string.all fun u => !isSpaceUnit u

def identifierField (label : String) : Decoder Units :=
  text { max := maxIdentifierLength, label, pattern := some isUnbroken }

def counterField (label : String) : Decoder Int := integerField { min := some 0, label }

/-! ### Timestamps -/

/-- The places of a timestamp; `d` is a digit. -/
def timestampTemplate : List Char := "dddd-dd-ddTdd:dd:dd.dddZ".toList

def fitsTemplate (place : Char) (c : Char) : Bool :=
  if place = 'd' then c.isDigit else decide (c = place)

/-- `TIMESTAMP_PATTERN`. -/
def timestampPattern (string : Units) : Bool :=
  decide (string.length = timestampTemplate.length) &&
    (timestampTemplate.zip string).all fun (place, u) => fitsTemplate place (Char.ofNat u.toNat)

/-- What fits the pattern is text of ASCII. -/
def isCanonicalUtc (value : Units) : Bool :=
  timestampPattern value && (instant (toText value)).isSome

def canonicalTimestamp (label : String) : Decoder Units := fun value path => do
  let decoded ← text { max := 40, label } value path
  guardThat (isCanonicalUtc decoded = true)
    (.decodeError path s!"{label} is not a canonical UTC timestamp")
  return decoded

/-! ## Objects of different fields -/

/-- A field that is text. -/
def asText (decoder : Decoder Units) : Decoder Decoded := fun value path =>
  Decoded.text <$> decoder value path

def asInteger (decoder : Decoder Int) : Decoder Decoded := fun value path =>
  Decoded.integer <$> decoder value path

def asNullable (decoder : Decoder Decoded) : Decoder Decoded := fun value path =>
  (fun decoded => decoded.getD .null) <$> nullableField decoder value path

/-- `decoded[name]`. -/
def member (fields : List (Units × Decoded)) (name : String) : Decoded :=
  (fields.lookup (utf16 name)).getD .null

/-- The text of a member that was decoded as text. -/
def Decoded.units : Decoded → Units
  | text string => string
  | _ => []

/-- The number of a member that was decoded as one that is not negative. -/
def Decoded.nat : Decoded → Nat
  | integer n => n.toNat
  | _ => 0

/-- A member that was decoded as nullable. -/
def Decoded.nullable {α : Type} (f : Decoded → α) : Decoded → Option α
  | null => none
  | decoded => some (f decoded)

end DumpLedger.Decode
