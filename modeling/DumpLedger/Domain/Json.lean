import Mathlib

/-!
# JSON values

What `JSON.parse` returns and `JSON.stringify` accepts. An object is the list of its
members in insertion order.

A JavaScript number is `JsNumber`: an integer, or another value (a fraction, an
infinity, NaN), of which the code only ever asks whether it is an integer.

* `stringify` — `JSON.stringify`, compact
* `stable` — members sorted at every depth, so that equal values have equal texts
-/

namespace DumpLedger

inductive JsNumber
  | int (n : Int)
  /-- A number that is no integer, by the text it prints as. -/
  | other (text : String)
  deriving DecidableEq, Repr

namespace JsNumber

/-- `Number.isSafeInteger`. -/
def safeInteger? : JsNumber → Option Int
  | int n => if -9007199254740991 ≤ n ∧ n ≤ 9007199254740991 then some n else none
  | other _ => none

/-- A safe integer between two bounds. -/
def bounded? (value : JsNumber) (minimum maximum : Nat) : Option Nat :=
  match value.safeInteger? with
  | some n => if minimum ≤ n ∧ n ≤ maximum then some n.toNat else none
  | none => none

theorem bounded?_eq_some {value : JsNumber} {lo hi n : Nat} (h : value.bounded? lo hi = some n) :
    lo ≤ n ∧ n ≤ hi := by
  unfold bounded? at h
  split at h
  · split at h
    · next hb =>
      cases h
      omega
    · cases h
  · cases h

theorem bounded?_int {lo hi n : Nat} (hlo : lo ≤ n) (hhi : n ≤ hi) (hs : n ≤ 9007199254740991) :
    (int n).bounded? lo hi = some n := by
  have hsafe : (int (n : Int)).safeInteger? = some (n : Int) := if_pos (by omega)
  have hb : (lo : Int) ≤ n ∧ (n : Int) ≤ hi := by omega
  simp [bounded?, hsafe, hb]

/-- `Number.isFinite`. -/
def isFinite : JsNumber → Bool
  | int _ => true
  | other text => !(["NaN", "Infinity", "-Infinity"].contains text)

def text : JsNumber → String
  | int n => toString n
  | other text => text

end JsNumber

inductive Json
  | null
  | bool (b : Bool)
  | num (n : JsNumber)
  | str (s : String)
  | arr (elements : List Json)
  | obj (members : List (String × Json))

/-- A plain object: the members in insertion order. -/
abbrev JsonObject := List (String × Json)

namespace JsonObject

/-- `value.key`; `none` when the object has no such member. -/
def get? (o : JsonObject) (key : String) : Option Json := List.lookup key o

end JsonObject

namespace Json

/-! ## Text -/

def hexDigit (n : Nat) : Char := Nat.digitChar n

/-- `\uXXXX`. -/
def unicodeEscape (n : Nat) : List Char :=
  ['\\', 'u', hexDigit (n / 4096 % 16), hexDigit (n / 256 % 16), hexDigit (n / 16 % 16),
    hexDigit (n % 16)]

def escapeChar (c : Char) : List Char :=
  if c = '"' then ['\\', '"']
  else if c = '\\' then ['\\', '\\']
  else if c = '\x08' then ['\\', 'b']
  else if c = '\x0c' then ['\\', 'f']
  else if c = '\n' then ['\\', 'n']
  else if c = '\r' then ['\\', 'r']
  else if c = '\t' then ['\\', 't']
  else if c.toNat < 0x20 then unicodeEscape c.toNat
  else [c]

def quote (s : String) : String :=
  "\"" ++ String.ofList (s.toList.flatMap escapeChar) ++ "\""

mutual

/-- `JSON.stringify`. -/
def stringify : Json → String
  | null => "null"
  | bool b => if b then "true" else "false"
  | num n => n.text
  | str s => quote s
  | arr elements => "[" ++ ",".intercalate (stringifyElements elements) ++ "]"
  | obj members => "\x7b" ++ ",".intercalate (stringifyMembers members) ++ "\x7d"

def stringifyElements : List Json → List String
  | [] => []
  | j :: rest => stringify j :: stringifyElements rest

def stringifyMembers : List (String × Json) → List String
  | [] => []
  | (key, j) :: rest => (quote key ++ ":" ++ stringify j) :: stringifyMembers rest

end

/-- `Buffer.byteLength(JSON.stringify(value), "utf8")`. -/
def serializedBytes (j : Json) : Nat := (stringify j).utf8ByteSize

/-! ## Member order -/

mutual

/-- Members sorted by key at every depth. -/
def stable : Json → Json
  | null => null
  | bool b => bool b
  | num n => num n
  | str s => str s
  | arr elements => arr (stableElements elements)
  | obj members => obj ((stableMembers members).mergeSort fun a b => decide (a.1 ≤ b.1))

def stableElements : List Json → List Json
  | [] => []
  | j :: rest => stable j :: stableElements rest

def stableMembers : List (String × Json) → List (String × Json)
  | [] => []
  | (key, j) :: rest => (key, stable j) :: stableMembers rest

end

end Json

end DumpLedger
