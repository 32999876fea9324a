import DumpLedger.Domain.JsValue
import DumpLedger.Domain.Text

/-!
# Rich reports

The document that an analyzer sends with its report: what was captured, the stack, the symbols and
an assessment of the cause, each with references into the evidence of the document. The document
is checked as a whole, and bound to the analysis that it details by its canonical text, its digest
and its identifier.
-/

namespace DumpLedger.RichReport

open Lib

def maxRichReportBytes : Nat := 512 * 1024

def maxRichFrames : Nat := 128

def maxRichModules : Nat := 64

def maxRichEvidence : Nat := 32

/-- The bound of `richText` and that of `richArray`, where the caller names none. -/
def maxRichText : Nat := 8192

def maxRichElements : Nat := 128

/-- `badRich()`. -/
def invalidRich : Thrown := .typeError "invalid rich report"

/-! ## Texts -/

def codeOf : CodePoint → Nat
  | .char c => c.toNat
  | .lone u => u.toNat

def richUtf8Bytes (value : Units) : Nat :=
  ((codePoints value).map fun p =>
    if codeOf p < 0x80 then 1 else if codeOf p < 0x800 then 2
    else if codeOf p < 0x10000 then 3 else 4).sum

/-- `/^0x[0-9a-f]{1,16}$/`. -/
def hexPattern (text : Units) : Bool :=
  match text with
  | zero :: x :: digits =>
    decide (zero = unitOf '0') && decide (x = unitOf 'x') && decide (1 ≤ digits.length) &&
      decide (digits.length ≤ 16) && unitsMatch isLowerHex digits
  | _ => false

/-- `/^[0-9a-f]{64}$/`. -/
def digestPattern (text : Units) : Bool := decide (text.length = 64) && unitsMatch isLowerHex text

/-- `/^r2_[0-9a-f]{64}$/`. -/
def reportIdPattern (text : Units) : Bool :=
  decide (text.take 3 = [unitOf 'r', unitOf '2', unitOf '_']) && digestPattern (text.drop 3)

/-- `/^[0-9a-f]{8}-[0-9a-f]{4}-[0-9a-f]{4}-[0-9a-f]{4}-[0-9a-f]{12}$/`. -/
def guidPattern (text : Units) : Bool :=
  decide (text.length = 36) && (text.zipIdx).all fun (u, place) =>
    if [8, 13, 18, 23].contains place then decide (u = unitOf '-')
    else isLowerHex (Char.ofNat u.toNat)

/-- `/^[a-zA-Z][a-zA-Z0-9]{0,15}$/`. -/
def registerNamePattern (text : Units) : Bool :=
  decide (text.length ≤ 16) && unitsMatch Char.isAlphanum text &&
    (text.head?.any fun u => (Char.ofNat u.toNat).isAlpha)

/-- `/^(?:[0-9a-fA-F]{2}){1,15}$/`. -/
def bytesPattern (text : Units) : Bool :=
  decide (text.length % 2 = 0) && decide (2 ≤ text.length) && decide (text.length ≤ 30) &&
    unitsMatch (fun c => isLowerHex c || (decide ('A' ≤ c) && decide (c ≤ 'F'))) text

/-- `/^[a-z0-9]+$/`. -/
def operandPattern (text : Units) : Bool :=
  decide (text ≠ []) && unitsMatch (fun c => c.isDigit || c.isLower) text

/-- `\s`. -/
def isSpace (u : CodeUnit) : Bool :=
  (decide (0x09 ≤ u.toNat) && decide (u.toNat ≤ 0x0d)) ||
    (decide (0x2000 ≤ u.toNat) && decide (u.toNat ≤ 0x200a)) ||
    [0x20, 0xa0, 0x1680, 0x2028, 0x2029, 0x202f, 0x205f, 0x3000, 0xfeff].contains u.toNat

/-- `text.trim()`. -/
def trim (text : Units) : Units :=
  ((text.dropWhile isSpace).reverse.dropWhile isSpace).reverse

/-- `text.toLowerCase()`, of the characters whose lower case is ASCII: nothing else is asked of
the text. -/
def toLowerCase (text : Units) : Units :=
  text.flatMap fun u =>
    if u.toNat = 0x212a then [unitOf 'k']
    else if u.toNat = 0x0130 then [unitOf 'i', 0x0307]
    else if 0x41 ≤ u.toNat ∧ u.toNat ≤ 0x5a then [u + 0x20]
    else [u]

/-! ## The groups of the schema -/

/-- `v[key]`, where `undefined` is `none`. -/
def prop (v : JsValue) (key : String) : Option JsValue :=
  match v with
  | .object members => own members (utf16 key)
  | _ => none

/-- `v[key]`, when that is a string. -/
def textProp (v : JsValue) (key : String) : Option Units :=
  match prop v key with
  | some (.string s) => some s
  | _ => none

/-- `v[key]`, when that is an array. -/
def elementsProp (v : JsValue) (key : String) : List JsValue :=
  match prop v key with
  | some (.array elements) => elements
  | _ => []

/-- `v[key]` of a required member. -/
def field (v : JsValue) (key : String) : Except Thrown JsValue := orThrow (prop v key) invalidRich

def richObject (v : JsValue) (keys : List String) : Except Thrown Unit :=
  match v with
  | .object members =>
    guardThat ((ownKeys (members.map Prod.fst)).length = keys.length ∧
      ∀ key ∈ keys, (own members (utf16 key)).isSome = true) invalidRich
  | _ => throw invalidRich

def richText (max : Nat) (v : JsValue) : Except Thrown Units :=
  match v with
  | .string s => do
    guardThat (richUtf8Bytes s ≤ max ∧ 0 ∉ s) invalidRich
    return s
  | _ => throw invalidRich

def richEnum (options : List String) (v : JsValue) : Except Thrown Units := do
  let s ← richText 64 v
  guardThat (s ∈ options.map utf16) invalidRich
  return s

def richArray (max : Nat) (v : JsValue) : Except Thrown (List JsValue) :=
  match v with
  | .array elements => do
    guardThat (elements.length ≤ max) invalidRich
    return elements
  | _ => throw invalidRich

/-- The checks of a loop. -/
def each (check : JsValue → Except Thrown Unit) : List JsValue → Except Thrown Unit
  | [] => .ok ()
  | v :: rest => do
    check v
    each check rest

/-- A check whose value is not used. -/
def checked {α : Type} (check : JsValue → Except Thrown α) (v : JsValue) : Except Thrown Unit := do
  let _ ← check v
  return ()

def richStrings (v : JsValue) : Except Thrown Unit := do
  let elements ← richArray maxRichElements v
  each (checked (richText maxRichText)) elements

def richNullable (check : JsValue → Except Thrown Unit) : JsValue → Except Thrown Unit
  | .null => .ok ()
  | v => check v

def richUint (v : JsValue) : Except Thrown Nat :=
  match v with
  | .number (some q) =>
    if q.den = 1 ∧ 0 ≤ q.num ∧ q.num ≤ 0xffffffff then .ok q.num.toNat else throw invalidRich
  | _ => throw invalidRich

def richBool (v : JsValue) : Except Thrown Unit :=
  match v with
  | .boolean _ => .ok ()
  | _ => throw invalidRich

def richHex (v : JsValue) : Except Thrown Units := do
  let s ← richText 32 v
  guardThat (hexPattern s = true) invalidRich
  return s

structure PdbIdentity where
  guid : Units
  age : Nat
  deriving DecidableEq

def richPdb (v : JsValue) : Except Thrown PdbIdentity := do
  richObject v ["guid", "age"]
  let guid ← richText 36 (← field v "guid")
  guardThat (guidPattern guid = true) invalidRich
  let age ← richUint (← field v "age")
  return { guid, age }

/-- `for (const key of keys) check(v[key])`. -/
def eachField (v : JsValue) (keys : List String) (check : JsValue → Except Thrown Unit) :
    Except Thrown Unit :=
  match keys with
  | [] => .ok ()
  | key :: rest => do
    check (← field v key)
    eachField v rest check

def captureStatuses : List String :=
  ["present", "partial", "absent", "unavailable", "failed", "timedOut", "truncated"]

def symbolQualities : List String :=
  ["matched", "exportsOnly", "missing", "mismatched", "unverified"]

def nullableHex : JsValue → Except Thrown Unit := richNullable (checked richHex)

def nullableText : JsValue → Except Thrown Unit := richNullable (checked (richText maxRichText))

/-! ### Identity and provenance -/

def checkIdentity (v : JsValue) : Except Thrown Unit := do
  richObject v ["dumpId", "inputSha256", "kind", "analyzerName", "analyzerVersion"]
  eachField v ["dumpId", "kind", "analyzerName", "analyzerVersion"] fun x => do
    let s ← richText 256 x
    guardThat (s ≠ []) invalidRich
  let inputSha256 ← richText 64 (← field v "inputSha256")
  guardThat (digestPattern inputSha256 = true) invalidRich

def checkPointerWidth : JsValue → Except Thrown Unit
  | .number (some q) => guardThat (q = 32 ∨ q = 64) invalidRich
  | _ => throw invalidRich

def checkProvenance (v : JsValue) : Except Thrown Unit := do
  richObject v ["provider", "debuggerVersion", "architecture", "pointerWidth", "processId",
    "model", "analysisRevision"]
  eachField v ["provider", "analysisRevision"] (checked (richText maxRichText))
  eachField v ["debuggerVersion", "architecture", "processId", "model"] nullableText
  richNullable checkPointerWidth (← field v "pointerWidth")

/-! ### Evidence -/

/-- An entry, and its identifier. -/
def checkEvidenceEntry (v : JsValue) : Except Thrown Units := do
  richObject v ["id", "command", "status", "text", "truncated", "error"]
  let id ← richText 80 (← field v "id")
  eachField v ["command", "text"] (checked (richText maxRichText))
  let _ ← richEnum captureStatuses (← field v "status")
  richBool (← field v "truncated")
  nullableText (← field v "error")
  return id

/-- The loop over the entries, after those with the identifiers `ids`. -/
def checkEvidence (ids : List Units) : List JsValue → Except Thrown (List Units)
  | [] => .ok ids
  | v :: rest => do
    let id ← checkEvidenceEntry v
    guardThat (id ≠ [] ∧ id ∉ ids) invalidRich
    checkEvidence (ids ++ [id]) rest

/-- A reference is the identifier of an entry. -/
def checkReference (ids : List Units) : JsValue → Except Thrown Unit
  | .string id => guardThat (id ∈ ids) invalidRich
  | _ => throw invalidRich

def checkRefs (ids : List Units) (v : JsValue) : Except Thrown Unit := do
  let elements ← richArray maxRichEvidence v
  each (checkReference ids) elements

/-! ### Exception and context -/

def checkAccess (v : JsValue) : Except Thrown Unit := do
  richObject v ["operation", "address", "underlyingStatus"]
  let _ ← richEnum ["read", "write", "execute", "unknown"] (← field v "operation")
  let _ ← richHex (← field v "address")
  nullableHex (← field v "underlyingStatus")

/-- A present exception has as many parameters as it counts. -/
def checkParameterCount (v : JsValue) : Except Thrown Unit :=
  match prop v "parameterCount" with
  | some (.number n) =>
    guardThat (textProp v "status" = some (utf16 "present") →
      n = some ((elementsProp v "parameters").length : ℚ)) invalidRich
  | _ => .ok ()

def checkException (ids : List Units) (v : JsValue) : Except Thrown Unit := do
  richObject v ["status", "code", "flags", "address", "recordPointer", "parameterCount",
    "parameters", "access", "evidenceRefs"]
  let _ ← richEnum captureStatuses (← field v "status")
  eachField v ["code", "flags", "address", "recordPointer"] nullableHex
  richNullable (checked richUint) (← field v "parameterCount")
  let parameters ← richArray 15 (← field v "parameters")
  each (checked richHex) parameters
  checkRefs ids (← field v "evidenceRefs")
  checkParameterCount v
  richNullable checkAccess (← field v "access")

def checkBytes (v : JsValue) : Except Thrown Unit := do
  let s ← richText 30 v
  guardThat (bytesPattern s = true) invalidRich

def checkInstruction (ids : List Units) (v : JsValue) : Except Thrown Unit := do
  richObject v ["address", "bytes", "disassembly", "effectiveAddress", "evidenceRefs"]
  let _ ← richHex (← field v "address")
  richNullable checkBytes (← field v "bytes")
  let _ ← richText maxRichText (← field v "disassembly")
  nullableHex (← field v "effectiveAddress")
  checkRefs ids (← field v "evidenceRefs")

def checkRegister (entry : Units × JsValue) : Except Thrown Unit := do
  guardThat (registerNamePattern entry.1 = true) invalidRich
  checked richHex entry.2

/-- The loop over `Object.entries(context.registers)`. -/
def eachRegister : List (Units × JsValue) → Except Thrown Unit
  | [] => .ok ()
  | entry :: rest => do
    checkRegister entry
    eachRegister rest

def checkRegisters (v : JsValue) : Except Thrown Unit :=
  match v with
  | .object members => do
    guardThat ((ownKeys (members.map Prod.fst)).length ≤ 64) invalidRich
    eachRegister (ownEntries members)
  | _ => throw invalidRich

def checkContext (ids : List Units) (v : JsValue) : Except Thrown Unit := do
  richObject v ["source", "threadId", "registers", "faultInstruction", "evidenceRefs"]
  let _ ← richEnum ["exception", "initial", "otherThread", "unavailable"] (← field v "source")
  nullableHex (← field v "threadId")
  checkRefs ids (← field v "evidenceRefs")
  checkRegisters (← field v "registers")
  richNullable (checkInstruction ids) (← field v "faultInstruction")

/-! ### Stack -/

/-- A frame, and its index. -/
def checkFrame (ids : List Units) (v : JsValue) : Except Thrown Nat := do
  richObject v ["index", "instructionPointer", "stackPointer", "framePointer", "returnAddress",
    "module", "moduleRva", "function", "displacement", "sourceFile", "sourceLine", "resolution",
    "unwind", "evidenceRefs"]
  let index ← richUint (← field v "index")
  eachField v ["instructionPointer", "stackPointer", "framePointer", "returnAddress",
    "moduleRva", "displacement"] nullableHex
  eachField v ["module", "function", "sourceFile"] nullableText
  richNullable (checked richUint) (← field v "sourceLine")
  let _ ← richEnum symbolQualities (← field v "resolution")
  let _ ← richEnum ["reported", "unreliable", "unknown"] (← field v "unwind")
  checkRefs ids (← field v "evidenceRefs")
  return index

/-- The loop over the frames, after those with the indexes `frameIndexes`. -/
def checkFrames (ids : List Units) (frameIndexes : List Nat) : List JsValue → Except Thrown Unit
  | [] => .ok ()
  | v :: rest => do
    let index ← checkFrame ids v
    guardThat (index ∉ frameIndexes) invalidRich
    checkFrames ids (frameIndexes ++ [index]) rest

def checkStack (ids : List Units) (v : JsValue) : Except Thrown Unit := do
  richObject v ["threadId", "status", "frames", "limitations"]
  nullableHex (← field v "threadId")
  let _ ← richEnum captureStatuses (← field v "status")
  richStrings (← field v "limitations")
  let frames ← richArray maxRichFrames (← field v "frames")
  checkFrames ids [] frames

/-! ### Symbols -/

/-- `expectedPdb` and `loadedPdb` of a matched module. -/
def checkMatchedPdb (v : JsValue) : Except Thrown Unit := do
  let expected ← richPdb (← field v "expectedPdb")
  let loaded ← richPdb (← field v "loadedPdb")
  guardThat (expected = loaded ∧ elementsProp v "evidenceRefs" ≠ []) invalidRich

/-- A module, and its name when it is matched. -/
def checkModule (ids : List Units) (v : JsValue) : Except Thrown (Option Units) := do
  richObject v ["module", "imageBase", "imageSize", "timestamp", "expectedPdb", "loadedPdb",
    "pdbPath", "quality", "evidenceRefs"]
  let name ← richText maxRichText (← field v "module")
  eachField v ["imageBase", "imageSize", "timestamp"] nullableHex
  eachField v ["expectedPdb", "loadedPdb"] (richNullable (checked richPdb))
  nullableText (← field v "pdbPath")
  let quality ← richEnum symbolQualities (← field v "quality")
  checkRefs ids (← field v "evidenceRefs")
  if quality = utf16 "matched" then
    checkMatchedPdb v
    return some name
  else return none

/-- The loop over the modules: `matchedModules`. -/
def checkModules (ids : List Units) : List JsValue → Except Thrown (List Units)
  | [] => .ok []
  | v :: rest => do
    let name ← checkModule ids v
    let names ← checkModules ids rest
    return name.toList ++ names

def checkSymbols (ids : List Units) (v : JsValue) : Except Thrown (List Units) := do
  richObject v ["modules", "limitations"]
  richStrings (← field v "limitations")
  let modules ← richArray maxRichModules (← field v "modules")
  checkModules ids modules

/-- A matched frame is one of a matched module. -/
def checkMatchedFrame (matchedModules : List Units) (v : JsValue) : Except Thrown Unit :=
  guardThat (textProp v "resolution" = some (utf16 "matched") →
    (∃ name ∈ textProp v "module", name ∈ matchedModules) ∧ elementsProp v "evidenceRefs" ≠ [])
    invalidRich

/-! ### The cause -/

def checkMechanism (ids : List Units) (v : JsValue) : Except Thrown Unit := do
  richObject v ["status", "description", "evidenceRefs"]
  let _ ← richEnum ["confirmed", "hypothesis", "unknown"] (← field v "status")
  let _ ← richText maxRichText (← field v "description")
  checkRefs ids (← field v "evidenceRefs")

def checkHypothesis (ids : List Units) (v : JsValue) : Except Thrown Unit := do
  richObject v ["explanation", "evidenceRefs", "missingEvidence", "nextChecks"]
  let _ ← richText maxRichText (← field v "explanation")
  checkRefs ids (← field v "evidenceRefs")
  eachField v ["missingEvidence", "nextChecks"] richStrings
  guardThat (elementsProp v "evidenceRefs" ≠ []) invalidRich

def checkNull : JsValue → Except Thrown Unit
  | .null => .ok ()
  | _ => throw invalidRich

def checkRootCause (ids : List Units) (v : JsValue) : Except Thrown Unit := do
  richObject v ["status", "mechanism", "conclusion", "evidenceRefs", "hypotheses",
    "missingEvidence", "nextChecks", "ruleId"]
  let _ ← richEnum ["hypothesis", "unknown"] (← field v "status")
  let _ ← richText maxRichText (← field v "conclusion")
  checkRefs ids (← field v "evidenceRefs")
  eachField v ["missingEvidence", "nextChecks"] richStrings
  checkNull (← field v "ruleId")
  checkMechanism ids (← field v "mechanism")
  let hypotheses ← richArray 16 (← field v "hypotheses")
  each (checkHypothesis ids) hypotheses
  guardThat (textProp v "status" = some (utf16 "hypothesis") →
    elementsProp v "evidenceRefs" ≠ [] ∧ elementsProp v "missingEvidence" ≠ []) invalidRich

/-! ### A confirmed mechanism -/

/-- The number that a hexadecimal text stands for. -/
def address (v : JsValue) : Except Thrown Nat := do
  let s ← richHex v
  return (s.drop 2).foldl (fun n u => n * 16 + (Lib.hexValue u).getD 0) 0

/-- The register between the brackets of the source operand of a `mov`. -/
def movRegister (disassembly : Units) : Except Thrown Units := do
  let code := toLowerCase disassembly
  let whitespace ← orThrow (code.findIdx? isSpace) invalidRich
  guardThat (code.take whitespace = utf16 "mov") invalidRich
  let operands := code.drop (whitespace + 1)
  let comma ← orThrow (operands.findIdx? fun u => decide (u = unitOf ',')) invalidRich
  guardThat (unitOf '[' ∉ operands.take comma) invalidRich
  let source := operands.drop (comma + 1)
  let start ← orThrow (source.findIdx? fun u => decide (u = unitOf '[')) invalidRich
  let inside := source.drop (start + 1)
  let length ← orThrow (inside.findIdx? fun u => decide (u = unitOf ']')) invalidRich
  let register := trim (inside.take length)
  guardThat (operandPattern register = true) invalidRich
  return register

/-- The strings of an array. -/
def texts (elements : List JsValue) : List Units :=
  elements.filterMap fun
    | .string s => some s
    | _ => none

/-- `[...new Set([...])].sort()`. -/
def sortedUnion (refs : List Units) : List Units :=
  refs.eraseDups.mergeSort fun a b => decide (a ≤ b)

/-- `JSON.stringify` of strings. -/
def stringifyTexts (ss : List Units) : Units := jsonStringify (jsonArray (ss.map jsonString))

def confirmedDescription (register value target : Units) : Units :=
  utf16 "The saved exception instruction reads through " ++ register ++ utf16 " at " ++ value ++
    utf16 ", matching the access-violation target " ++ target ++
    utf16 ". This establishes the immediate faulting read; " ++
    utf16 "the origin of the pointer is not established."

def checkConfirmed (exception context mechanism : JsValue) : Except Thrown Unit := do
  guardThat (textProp exception "code" = some (utf16 "0xc0000005") ∧
    textProp context "source" = some (utf16 "exception")) invalidRich
  let access ← field exception "access"
  let instruction ← field context "faultInstruction"
  guardThat (textProp access "operation" = some (utf16 "read")) invalidRich
  let instructionAddress ← address (← field instruction "address")
  let exceptionAddress ← address (← field exception "address")
  guardThat (instructionAddress = exceptionAddress) invalidRich
  let disassembly ← orThrow (textProp instruction "disassembly") invalidRich
  let register ← movRegister disassembly
  let registers ← field context "registers"
  let value ← orThrow (match registers with
    | .object members => own members register
    | _ => none) invalidRich
  let saved ← address value
  let target ← address (← field access "address")
  guardThat (saved = target) invalidRich
  let exceptionRefs := texts (elementsProp exception "evidenceRefs")
  let instructionRefs := texts (elementsProp instruction "evidenceRefs")
  let contextRefs := texts (elementsProp context "evidenceRefs")
  guardThat (exceptionRefs ≠ [] ∧ instructionRefs ≠ [] ∧ contextRefs ≠ []) invalidRich
  guardThat (stringifyTexts (texts (elementsProp mechanism "evidenceRefs")) =
    stringifyTexts (sortedUnion (exceptionRefs ++ contextRefs ++ instructionRefs))) invalidRich
  let valueText ← richHex value
  let targetText ← richHex (← field access "address")
  guardThat (textProp mechanism "description" =
    some (confirmedDescription register valueText targetText)) invalidRich

/-! ### The document -/

def checkSchema (v : JsValue) : Except Thrown Unit :=
  match prop v "schemaVersion" with
  | some (.number (some q)) => guardThat (q = 2) invalidRich
  | _ => throw invalidRich

def checkCompleteness (v : JsValue) : Except Thrown Unit := do
  richObject v ["omissions", "truncated"]
  richStrings (← field v "omissions")
  richBool (← field v "truncated")

/-- The cause, when its mechanism is said to be confirmed. -/
def checkMechanismStatus (exception context root : JsValue) : Except Thrown Unit := do
  let mechanism ← field root "mechanism"
  if textProp mechanism "status" = some (utf16 "confirmed") then
    checkConfirmed exception context mechanism
  else return ()

def validateRichDocument (doc : JsValue) : Except Thrown Unit := do
  richObject doc ["schemaVersion", "reportId", "identity", "outcome", "summary", "provenance",
    "exception", "context", "stack", "symbols", "rootCause", "evidence", "completeness"]
  checkSchema doc
  let reportId ← richText 67 (← field doc "reportId")
  guardThat (reportIdPattern reportId = true) invalidRich
  checkIdentity (← field doc "identity")
  let _ ← richEnum ["completed", "failed"] (← field doc "outcome")
  let _ ← richText 8000 (← field doc "summary")
  checkProvenance (← field doc "provenance")
  let entries ← richArray maxRichEvidence (← field doc "evidence")
  let ids ← checkEvidence [] entries
  let exception ← field doc "exception"
  checkException ids exception
  let context ← field doc "context"
  checkContext ids context
  let stack ← field doc "stack"
  checkStack ids stack
  let matchedModules ← checkSymbols ids (← field doc "symbols")
  each (checkMatchedFrame matchedModules) (elementsProp stack "frames")
  let root ← field doc "rootCause"
  checkRootCause ids root
  checkMechanismStatus exception context root
  checkCompleteness (← field doc "completeness")

end DumpLedger.RichReport
