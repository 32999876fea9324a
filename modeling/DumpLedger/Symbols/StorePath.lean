import DumpLedger.Domain.Errors
import DumpLedger.Inspection.CodeView
import DumpLedger.Lib.CodePoints

/-!
# Store paths

The grammar of `GET /symbols/<name>/<id>/<file>`: three segments, the names without separators,
`..`, dots at the edges and control characters, the identifier 2 to 64 hexadecimal digits. The
names are those that become path components, so this rule is stricter than the one for the names
found in a dump.

A name comes from a caller and is any JavaScript string.
-/

namespace DumpLedger.Symbols

open Lib

def invalidInput (detail : String) : Thrown := .ledgerError .invalidInput detail

def isControlUnit (u : CodeUnit) : Bool := decide (u.toNat ≤ 0x1f) || decide (u.toNat = 0x7f)

def controlCharacterIndex (value : Units) : Option Nat := value.findIdx? isControlUnit

def storeSegmentProblem (segment : Units) : Option String :=
  if segment = [] then some "it is empty"
  else if segmentMaxLength < (codePoints segment).length then
    some s!"it is longer than {segmentMaxLength} characters"
  else if unitOf '/' ∈ segment ∨ unitOf '\\' ∈ segment then some "it contains a path separator"
  else if [unitOf '.', unitOf '.'] <:+: segment then some "it contains '..'"
  else if segment.head? = some (unitOf '.') ∨ segment.getLast? = some (unitOf '.') then
    some "it starts or ends with '.'"
  else if (controlCharacterIndex segment).isSome = true then
    some "it contains a control character"
  else none

/-- `[0-9A-Fa-f]`. -/
def isHexUnit (u : CodeUnit) : Bool :=
  (decide (0x30 ≤ u.toNat) && decide (u.toNat ≤ 0x39)) ||
    (decide (0x41 ≤ u.toNat) && decide (u.toNat ≤ 0x46)) ||
    (decide (0x61 ≤ u.toNat) && decide (u.toNat ≤ 0x66))

/-- `DEBUG_ID_PATTERN`. -/
def isDebugId (id : Units) : Bool :=
  decide (2 ≤ id.length) && decide (id.length ≤ 64) && id.all isHexUnit

structure StorePathParts where
  debugFile : Units
  debugId : Units
  file : Units
  deriving DecidableEq

def encodeStorePath (debugFile debugId : Units) : Except Thrown Units :=
  match storeSegmentProblem debugFile with
  | some problem =>
    .error (invalidInput s!"debugFile is not a usable store path segment ({problem})")
  | none =>
    if isDebugId debugId = true then
      .ok (debugFile ++ unitOf '/' :: debugId ++ unitOf '/' :: debugFile)
    else .error (invalidInput "debugId must be 2..64 hex characters")

def decodeStorePath (path : Units) : Option StorePathParts :=
  match path.splitOn (unitOf '/') with
  | [debugFile, debugId, file] =>
    if (storeSegmentProblem debugFile).isSome = true then none
    else if (storeSegmentProblem file).isSome = true then none
    else if isDebugId debugId = true then some ⟨debugFile, debugId, file⟩
    else none
  | _ => none

end DumpLedger.Symbols
