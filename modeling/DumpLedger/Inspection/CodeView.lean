import DumpLedger.Domain.Text
import DumpLedger.Lib.ByteWindow

/-!
# CodeView records

The record of a module names its PDB: the signature `RSDS`, a GUID, an age and a path that ends
with a NUL. Reading it is best effort; a record that is of another kind or malformed names
nothing.
-/

namespace DumpLedger

open Lib

/-- The name of a PDB and its identifier on a symbol server. -/
structure PdbIdentity where
  debugFile : String
  debugId : String
  deriving DecidableEq, Repr

/-- `SEGMENT_MAX_LENGTH`. -/
def segmentMaxLength : Nat := 255

/-- `RSDS_HEADER_BYTES`. -/
def rsdsHeaderBytes : Nat := 4 + 16 + 4

def readUint32 (bytes : Bytes) (offset : Nat) : Option Nat :=
  if offset + 4 ≤ bytes.length then some (uintLE bytes offset 4) else none

def matchesAscii (bytes : Bytes) (offset : Nat) (text : String) : Bool :=
  decide (offset + text.length ≤ bytes.length) &&
    window bytes offset text.length == text.toList.map fun c => UInt8.ofNat c.toNat

/-- `new TextDecoder("utf-8", { fatal: true })`, which drops a byte order mark. -/
def decodeUtf8 (bytes : Bytes) : Option String :=
  (String.fromUTF8? ⟨bytes.toArray⟩).map fun text =>
    match text.toList with
    | '\uFEFF' :: rest => String.ofList rest
    | _ => text

/-- The position of the first control character. -/
def controlCharacterIndex (value : String) : Option Nat :=
  value.toList.findIdx? fun c => decide (c.toNat ≤ 0x1f) || decide (c.toNat = 0x7f)

def isPathSeparator (c : Char) : Bool := c == '/' || c == '\\'

/-- The last segment of a path that is not empty. -/
def fileNameFromPath (path : String) : Option String :=
  ((path.toList.splitOnP isPathSeparator).reverse.find? fun segment => !segment.isEmpty).map
    String.ofList

def debugFileNameProblem (name : String) : Option String :=
  if name = "" then some "it is empty"
  else if segmentMaxLength < name.length then
    some s!"it is longer than {segmentMaxLength} characters"
  else if name = "." ∨ name = ".." then some "it is a traversal segment"
  else if name.toList.any isPathSeparator = true then some "it contains a path separator"
  else if (controlCharacterIndex name).isSome = true then
    some "it contains a control character"
  else none

/-- `value.toString(16).toUpperCase().padStart(width, "0")`. -/
def upperHex (width value : Nat) : String :=
  String.ofList (((Nat.toDigits 16 value).map Char.toUpper).leftpad width '0')

/-- The GUID as it is printed, with the age in hexadecimal behind it. -/
def formatSymsrvDebugId (guid : Bytes) (age : Nat) : String :=
  upperHex 8 (uintLE guid 0 4) ++ upperHex 4 (uintLE guid 4 2) ++ upperHex 4 (uintLE guid 6 2) ++
    String.join ((window guid 8 8).map fun byte => upperHex 2 byte.toNat) ++ upperHex 1 age

def parseRsdsCodeViewRecord (bytes : Bytes) : Option PdbIdentity := do
  guard (matchesAscii bytes 0 "RSDS" = true)
  -- the smallest record is the header and a NUL
  guard (rsdsHeaderBytes + 1 ≤ bytes.length)
  let age ← readUint32 bytes 20
  let pathLength ← (bytes.drop rsdsHeaderBytes).idxOf? 0
  let path ← decodeUtf8 (window bytes rsdsHeaderBytes pathLength)
  guard (controlCharacterIndex path = none)
  let debugFile ← fileNameFromPath path
  guard (debugFileNameProblem debugFile = none)
  return { debugFile, debugId := formatSymsrvDebugId (window bytes 4 16) age }

end DumpLedger
