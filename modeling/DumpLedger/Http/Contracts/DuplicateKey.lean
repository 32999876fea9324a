import DumpLedger.Lib.Guard
import DumpLedger.Lib.JsonSyntax

/-!
# The scan for duplicate members

`findDuplicateKey` reads a JSON text once before `JSON.parse` does, and stops at the first
name that an object has twice. It follows the text only as far as it can: a value under too
many names, or one nested deeper than the call stack has room for, ends the scan without a
finding.

Names are compared as `readString` reads them: the escape of a code unit stays six
characters, and any other escape loses its backslash.

The position of the scan is the rest of the text. `frames` is the number of values that can be
nested before the engine throws a `RangeError`.
-/

namespace DumpLedger

open Lib

/-- `MAX_JSON_TEXT_LENGTH`. -/
def maxJsonTextLength : Nat := 1048576

/-- `MAX_JSON_DEPTH`. -/
def maxJsonDepth : Nat := 100

structure DuplicateFound where
  key : Units
  path : Units
  deriving DecidableEq

/-- How a scan ends early: without a finding, or with one. -/
inductive ScanStop
  | blocked
  | duplicate (found : DuplicateFound)
  deriving DecidableEq

/-! ## Paths -/

def isNameStart (c : CodeUnit) : Bool :=
  (unitOf 'A' ≤ c && c ≤ unitOf 'Z') || (unitOf 'a' ≤ c && c ≤ unitOf 'z') || c == unitOf '_'

def isNameUnit (c : CodeUnit) : Bool := isNameStart c || (unitOf '0' ≤ c && c ≤ unitOf '9')

def hexUnit (n : Nat) : CodeUnit := unitOf (Nat.digitChar n)

def unicodeEscapeUnits (c : CodeUnit) : Units :=
  [unitOf '\\', unitOf 'u', hexUnit (c.toNat / 4096 % 16), hexUnit (c.toNat / 256 % 16),
    hexUnit (c.toNat / 16 % 16), hexUnit (c.toNat % 16)]

def isHighSurrogate (c : CodeUnit) : Bool := 0xD800 ≤ c && c ≤ 0xDBFF

def isLowSurrogate (c : CodeUnit) : Bool := 0xDC00 ≤ c && c ≤ 0xDFFF

def escapeUnit (c : CodeUnit) : Units :=
  if c = unitOf '"' then [unitOf '\\', unitOf '"']
  else if c = unitOf '\\' then [unitOf '\\', unitOf '\\']
  else if c = 8 then [unitOf '\\', unitOf 'b']
  else if c = 12 then [unitOf '\\', unitOf 'f']
  else if c = unitOf '\n' then [unitOf '\\', unitOf 'n']
  else if c = unitOf '\r' then [unitOf '\\', unitOf 'r']
  else if c = unitOf '\t' then [unitOf '\\', unitOf 't']
  else if c < 32 ∨ isHighSurrogate c = true ∨ isLowSurrogate c = true then unicodeEscapeUnits c
  else [c]

/-- The inside of `JSON.stringify` of a string: a surrogate without its other half is escaped. -/
def escapeUnits : Units → Units
  | [] => []
  | [c] => escapeUnit c
  | c :: d :: rest =>
    if isHighSurrogate c = true ∧ isLowSurrogate d = true then c :: d :: escapeUnits rest
    else escapeUnit c ++ escapeUnits (d :: rest)

def childPath (path key : Units) : Units :=
  if key.head?.any isNameStart && key.all isNameUnit then path ++ unitOf '.' :: key
  else path ++ unitOf '[' :: unitOf '"' :: escapeUnits key ++ [unitOf '"', unitOf ']']

/-- `stack.join(".")`, with `$` in place of the empty text. -/
def stackPath (stack : List Units) : Units :=
  let path := [unitOf '.'].intercalate stack
  if path = [] then [unitOf '$'] else path

/-! ## The scan -/

def skipWhitespace (text : Units) : Units := text.dropWhile isBlank

/-- The inside of a string up to its closing quote, and what comes after it. -/
def readUnits : Units → Option (Units × Units)
  | [] => none
  | c :: rest =>
    if c = unitOf '\\' then
      match rest with
      | [] => none
      | e :: rest =>
        if e = unitOf 'u' then
          match rest with
          | h₁ :: h₂ :: h₃ :: h₄ :: rest =>
            (readUnits rest).map fun (key, rest) => (c :: e :: h₁ :: h₂ :: h₃ :: h₄ :: key, rest)
          | _ => none
        else (readUnits rest).map fun (key, rest) => (e :: key, rest)
    else if c = unitOf '"' then some ([], rest)
    else (readUnits rest).map fun (key, rest) => (c :: key, rest)

def readString : Units → Except ScanStop (Units × Units)
  | c :: rest =>
    if c = unitOf '"' then
      match readUnits rest with
      | some read => .ok read
      | none => .error .blocked
    else .error .blocked
  | [] => .error .blocked

/-- `/\s/`. -/
def isSpaceUnit (c : CodeUnit) : Bool :=
  (9 ≤ c && c ≤ 13) || (0x2000 ≤ c && c ≤ 0x200A) ||
    [0x20, 0xA0, 0x1680, 0x2028, 0x2029, 0x202F, 0x205F, 0x3000, 0xFEFF].contains c

def isScalarUnit (c : CodeUnit) : Bool :=
  !([unitOf ',', unitOf ']', unitOf '\x7d'].contains c) && !isSpaceUnit c

def skipScalar (text : Units) : Units := text.dropWhile isScalarUnit

def expect (c : CodeUnit) : Units → Except ScanStop Units
  | d :: rest => if d = c then .ok rest else .error .blocked
  | [] => .error .blocked

/-- `keys.has(key)`. -/
local instance (key : Units) (keys : List Units) : Decidable (key ∈ keys) :=
  inferInstanceAs (Decidable (key ∈ keys))

section Loops

-- `skipValue` is the scan of a value one level further down.
variable (skipValue : List Units → Units → Except ScanStop Units)

/-- The loop of `parseObject`; every turn takes a name, so the length of the text is enough. -/
def scanMembers (stack : List Units) : Nat → List Units → Units → Except ScanStop Units
  | 0, _, _ => .error .blocked
  | turns + 1, keys, text => do
    let (key, text) ← readString (skipWhitespace text)
    let text ← expect (unitOf ':') (skipWhitespace text)
    if key ∈ keys then throw (.duplicate ⟨key, childPath (stackPath stack) key⟩)
    let text ← skipValue (stack ++ [key]) (skipWhitespace text)
    match skipWhitespace text with
    | c :: text =>
      if c = unitOf ',' then scanMembers stack turns (key :: keys) text
      else if c = unitOf '\x7d' then .ok text
      else .error .blocked
    | [] => .error .blocked

/-- The loop of `parseArray`. -/
def scanElements (stack : List Units) : Nat → Units → Except ScanStop Units
  | 0, _ => .error .blocked
  | turns + 1, text => do
    let text ← skipValue stack (skipWhitespace text)
    match skipWhitespace text with
    | c :: text =>
      if c = unitOf ',' then scanElements stack turns text
      else if c = unitOf ']' then .ok text
      else .error .blocked
    | [] => .error .blocked

def parseObject (stack : List Units) (text : Units) : Except ScanStop Units := do
  if maxJsonDepth ≤ stack.length then throw .blocked
  let text ← expect (unitOf '\x7b') text
  match skipWhitespace text with
  | c :: rest =>
    if c = unitOf '\x7d' then .ok rest
    else scanMembers skipValue stack text.length [] (c :: rest)
  | [] => .error .blocked

def parseArray (stack : List Units) (text : Units) : Except ScanStop Units := do
  if maxJsonDepth ≤ stack.length then throw .blocked
  let text ← expect (unitOf '[') text
  match skipWhitespace text with
  | c :: rest =>
    if c = unitOf ']' then .ok rest
    else scanElements skipValue stack text.length (c :: rest)
  | [] => .error .blocked

variable {skipValue}
variable {stack : List Units} {text rest : Units} {c : CodeUnit}

theorem parseObject_deep (hdepth : maxJsonDepth ≤ stack.length) :
    parseObject skipValue stack text = .error .blocked := by
  rw [parseObject, if_pos hdepth]
  rfl

theorem parseObject_brace (hdepth : ¬maxJsonDepth ≤ stack.length)
    (h : skipWhitespace text = c :: rest) :
    parseObject skipValue stack (unitOf '\x7b' :: text) =
      if c = unitOf '\x7d' then .ok rest
      else scanMembers skipValue stack text.length [] (c :: rest) := by
  have hopen : expect (unitOf '\x7b') (unitOf '\x7b' :: text) = .ok text := by simp [expect]
  simp only [parseObject, if_neg hdepth, hopen, bind_ok, h]

theorem parseArray_deep (hdepth : maxJsonDepth ≤ stack.length) :
    parseArray skipValue stack text = .error .blocked := by
  rw [parseArray, if_pos hdepth]
  rfl

theorem parseArray_bracket (hdepth : ¬maxJsonDepth ≤ stack.length)
    (h : skipWhitespace text = c :: rest) :
    parseArray skipValue stack (unitOf '[' :: text) =
      if c = unitOf ']' then .ok rest
      else scanElements skipValue stack text.length (c :: rest) := by
  have hopen : expect (unitOf '[') (unitOf '[' :: text) = .ok text := by simp [expect]
  simp only [parseArray, if_neg hdepth, hopen, bind_ok, h]

end Loops

def skipValue : Nat → List Units → Units → Except ScanStop Units
  | 0, _, _ => .error .blocked
  | _ + 1, _, [] => .error .blocked
  | frames + 1, stack, c :: rest =>
    if c = unitOf '"' then do
      let (_, text) ← readString (c :: rest)
      return text
    else if c = unitOf '\x7b' then parseObject (skipValue frames) stack (c :: rest)
    else if c = unitOf '[' then parseArray (skipValue frames) stack (c :: rest)
    else .ok (skipScalar (c :: rest))

/-- The duplicate the scan ends with; an end of any other kind finds nothing. -/
def ScanStop.found? : Except ScanStop Units → Option DuplicateFound
  | .error (.duplicate found) => some found
  | .error .blocked | .ok _ => none

def findDuplicateKey (frames : Nat) (text : Units) : Option DuplicateFound :=
  match skipWhitespace text with
  | c :: rest =>
    if c = unitOf '\x7b' then ScanStop.found? (parseObject (skipValue frames) [] (c :: rest))
    else if c = unitOf '[' then ScanStop.found? (parseArray (skipValue frames) [] (c :: rest))
    else none
  | [] => none

example : findDuplicateKey 9 (unitsOf "[ \x7b\"a\" : 1, \"b\": [2], \"a\" : 3\x7d ]") =
    some ⟨unitsOf "a", unitsOf "$.a"⟩ := by
  decide +kernel

end DumpLedger
