import DumpLedger.Domain.JsonPrint
import DumpLedger.Domain.Lifecycle
import DumpLedger.Inspection.CodeView
import DumpLedger.Lib.Decimal

/-!
# The export manifest

The inventory of an export bundle, `dump-ledger.export-manifest/v1`. `serializeExportManifest`
writes it, `parseExportManifest` reads bytes that nobody vouches for: each field is checked, and
then the lists against each other and against their counts.

A text of the manifest is any JavaScript string, so it is kept as its code units.
-/

namespace DumpLedger

open Lib Vocabulary

def exportManifestSchema : String := "dump-ledger.export-manifest/v1"

/-- `MAX_MANIFEST_BYTES`. -/
def maxManifestBytes : Nat := 16 * 1024 * 1024

/-- `MAX_MANIFEST_LIST_ENTRIES`. -/
def maxManifestListEntries : Nat := 1000000

/-- `MAX_ORIGINAL_NAME_LENGTH`. -/
def maxOriginalNameLength : Nat := 1024

/-- `MAX_VERSION_LENGTH`. -/
def maxVersionLength : Nat := 64

/-- `MAX_REASON_LENGTH`. -/
def maxReasonLength : Nat := 200

/-- `MAX_SYMBOL_DEBUG_FILE_LENGTH`. -/
def maxSymbolDebugFileLength : Nat := 255

/-- `MAX_SYMBOL_DEBUG_ID_LENGTH`. -/
def maxSymbolDebugIdLength : Nat := 64

/-- `MAX_SYMBOL_ANNOTATION_LENGTH`. -/
def maxSymbolAnnotationLength : Nat := 200

/-- `MAX_SYMBOL_ARCH_LENGTH`. -/
def maxSymbolArchLength : Nat := 64

/-- `MAX_COUNT`. -/
def maxManifestCount : Nat := 1000000000

/-- `MAX_DECIMAL_DIGITS`. -/
def maxDecimalDigits : Nat := 40

/-! ## The manifest -/

inductive StableDumpPhase
  | available | rejected | deleted
  deriving DecidableEq, Repr

namespace StableDumpPhase

def phase : StableDumpPhase → DumpPhase
  | available => .available
  | rejected => .rejected
  | deleted => .deleted

end StableDumpPhase

/-- `isStablePhase`. -/
def stablePhase? : DumpPhase → Option StableDumpPhase
  | .available => some .available
  | .rejected => some .rejected
  | .deleted => some .deleted
  | _ => none

/-- `UNSTABLE_PHASES`. -/
def unstablePhases : List DumpPhase := [.receiving, .sealed, .quarantined, .deleting]

structure ExportManifestGenerator where
  version : Units
  schemaMigrations : Nat
  deriving DecidableEq

structure ExportManifestCounts where
  customers : Nat
  cases : Nat
  grants : Nat
  dumps : Nat
  auditEvents : Option Nat
  symbols : Option Nat
  deriving DecidableEq

structure ExportManifestSkipped where
  dumpId : DumpId
  phase : DumpPhase
  reason : Units
  deriving DecidableEq

structure ExportManifestDump where
  dumpId : DumpId
  caseId : CaseId
  phase : StableDumpPhase
  originalName : Units
  byteSize : Option Nat
  sha256 : Option Sha256
  entry : Option String
  deriving DecidableEq

/-- A symbol artifact of kind `pdb`; there is no other kind in a bundle. -/
structure ExportManifestSymbol where
  artifactId : SymbolArtifactId
  debugFile : Units
  debugId : Units
  byteSize : Nat
  sha256 : Sha256
  entry : String
  product : Option Units
  version : Option Units
  arch : Option Units
  deriving DecidableEq

structure ExportManifest where
  createdAt : IsoTimestamp
  generator : ExportManifestGenerator
  grantKeyFingerprint : Units
  counts : ExportManifestCounts
  skippedAnalyses : Option Nat
  skipped : List ExportManifestSkipped
  dumps : List ExportManifestDump
  symbols : Option (List ExportManifestSymbol)
  deriving DecidableEq

def dumpEntryName (dumpId : DumpId) : String := s!"vault/{dumpId.text}/original.dmp"

def symbolEntryName (artifactId : SymbolArtifactId) : String := s!"symbols/{artifactId.text}.bin"

/-! ## Fields -/

/-- `fail`. -/
def manifestError (path message : String) : Thrown :=
  invalidInput s!"export manifest {path}: {message}"

/-- `JSON.stringify(text)` in a message. -/
def quotedText (us : Units) : String := toText (quotedUnits us).text

/-- `isRecord(value)`, with the members. -/
def recordField (value : Option JsonValue) (path : String) :
    Except Thrown (List (Units × JsonValue)) :=
  orThrow (value.bind objectEntries?) (manifestError path "must be an object")

/-- `Object.keys(value)`. -/
def objectKeys (entries : List (Units × JsonValue)) : List Units := ownKeys (entries.map Prod.fst)

def exactKeysAllowingOptional (entries : List (Units × JsonValue)) (required optional : List String)
    (path : String) : Except Thrown Unit := do
  match required.find? fun key => (entryValue entries key).isNone with
  | some key => throw (manifestError path s!"missing field {quotedText (utf16 key)}")
  | none =>
    match (objectKeys entries).find? fun key =>
        !((required ++ optional).map utf16).contains key with
    | some key => throw (manifestError path s!"unknown field {quotedText key}")
    | none => return

def exactKeys (entries : List (Units × JsonValue)) (keys : List String) (path : String) :
    Except Thrown Unit :=
  exactKeysAllowingOptional entries keys [] path

def textField (value : Option JsonValue) (path : String) (maxLength : Nat) :
    Except Thrown Units := do
  let text ← orThrow (value.bind stringUnits?) (manifestError path "must be a string")
  guardThat (text ≠ []) (manifestError path "must not be empty")
  guardThat (text.length ≤ maxLength) (manifestError path s!"exceeds {maxLength} characters")
  guardThat (0 ∉ text) (manifestError path "contains a NUL character")
  return text

/-- `textField` with a pattern. -/
def matchingField (value : Option JsonValue) (path : String) (maxLength : Nat)
    (pattern : Units → Bool) : Except Thrown Units := do
  let text ← textField value path maxLength
  guardThat (pattern text = true) (manifestError path "is malformed")
  return text

def optionalTextField (value : Option JsonValue) (path : String) (maxLength : Nat) :
    Except Thrown (Option Units) :=
  forOption value fun v => textField (some v) path maxLength

/-- `SHA256_PATTERN`. -/
def sha256Pattern (text : Units) : Bool :=
  decide (text.length = 64) && unitsMatch isLowerHex text

/-- `[A-Za-z0-9_-]`. -/
def isBase64UrlChar (c : Char) : Bool := c.isAlphanum || c == '_' || c == '-'

/-- `GRANT_KEY_FINGERPRINT_PATTERN`. -/
def grantKeyFingerprintPattern (text : Units) : Bool :=
  decide (text.length = 43) && unitsMatch isBase64UrlChar text

def canonicalTimestampField (value : Option JsonValue) (path : String) :
    Except Thrown IsoTimestamp := do
  let text ← textField value path 40
  orThrow ((ofUnits? text).bind fun text => (assertIsoTimestamp text "createdAt").toOption)
    (manifestError path "must be a canonical ISO timestamp")

/-- `typeof value === "number"`, with the integer that it is. -/
def integerValue? : JsonValue → Option Int
  | .literal (.number n) => n.integer?
  | _ => none

def countField (value : Option JsonValue) (path : String) : Except Thrown Nat := do
  let count ← orThrow (value.bind integerValue?) (manifestError path "must be a safe integer")
  guardThat (-maxSafeInteger ≤ count ∧ count ≤ maxSafeInteger)
    (manifestError path "must be a safe integer")
  guardThat (0 ≤ count ∧ count ≤ maxManifestCount)
    (manifestError path s!"must be between 0 and {maxManifestCount}")
  return count.toNat

def optionalCountField (value : Option JsonValue) (path : String) : Except Thrown (Option Nat) :=
  forOption value fun v => countField (some v) path

def decimalField (value : Option JsonValue) (path : String) : Except Thrown Nat := do
  let text ← matchingField value path maxDecimalDigits decimalPattern
  return decimalUnits text

def nullableDecimalField (value : Option JsonValue) (path : String) :
    Except Thrown (Option Nat) :=
  if isNull value then return none
  else some <$> decimalField value path

/-- The text of a hash that has matched. -/
def sha256Units (text : Units) (path : String) : Except Thrown Sha256 :=
  orThrow ((ofUnits? text).bind fun text => (assertSha256 text).toOption)
    (manifestError path "is malformed")

def sha256Field (value : Option JsonValue) (path : String) : Except Thrown Sha256 := do
  let text ← matchingField value path 64 sha256Pattern
  sha256Units text path

def nullableSha256Field (value : Option JsonValue) (path : String) :
    Except Thrown (Option Sha256) :=
  if isNull value then return none
  else some <$> sha256Field value path

/-- An identifier or a word, read by a parser whose own error is not shown. -/
def parsedField {α : Type} (parse : String → Except Thrown α) (value : Option JsonValue)
    (path message : String) : Except Thrown α :=
  orThrow (((value.bind stringUnits?).bind ofUnits?).bind fun text => (parse text).toOption)
    (manifestError path message)

def boundedList (value : Option JsonValue) (path : String) : Except Thrown (List JsonValue) := do
  let elements ← orThrow (value.bind arrayElements?) (manifestError path "must be an array")
  guardThat (elements.length ≤ maxManifestListEntries)
    (manifestError path s!"exceeds {maxManifestListEntries} entries")
  return elements

/-- `list.map((entry, index) => parse(entry, path[index]))`. -/
def parseEntries {α : Type} (parse : Option JsonValue → String → Except Thrown α) (path : String) :
    Nat → List JsonValue → Except Thrown (List α)
  | _, [] => return []
  | index, v :: vs => do
    let entry ← parse (some v) s!"{path}[{index}]"
    let rest ← parseEntries parse path (index + 1) vs
    return entry :: rest

/-! ## Parsing -/

def parseGenerator (value : Option JsonValue) (path : String) :
    Except Thrown ExportManifestGenerator := do
  let entries ← recordField value path
  exactKeys entries ["version", "schemaMigrations"] path
  let version ← textField (entryValue entries "version") s!"{path}.version" maxVersionLength
  let schemaMigrations ← countField (entryValue entries "schemaMigrations")
    s!"{path}.schemaMigrations"
  return { version, schemaMigrations }

def parseCounts (value : Option JsonValue) (path : String) :
    Except Thrown ExportManifestCounts := do
  let entries ← recordField value path
  exactKeysAllowingOptional entries ["customers", "cases", "grants", "dumps"]
    ["auditEvents", "symbols"] path
  let customers ← countField (entryValue entries "customers") s!"{path}.customers"
  let cases ← countField (entryValue entries "cases") s!"{path}.cases"
  let grants ← countField (entryValue entries "grants") s!"{path}.grants"
  let dumps ← countField (entryValue entries "dumps") s!"{path}.dumps"
  let auditEvents ← optionalCountField (entryValue entries "auditEvents") s!"{path}.auditEvents"
  let symbols ← optionalCountField (entryValue entries "symbols") s!"{path}.symbols"
  return { customers, cases, grants, dumps, auditEvents, symbols }

def parseSkippedEntry (value : Option JsonValue) (path : String) :
    Except Thrown ExportManifestSkipped := do
  let entries ← recordField value path
  exactKeys entries ["dumpId", "phase", "reason"] path
  let dumpId ← parsedField parseDumpId (entryValue entries "dumpId") s!"{path}.dumpId"
    "is not a valid dump identifier"
  let phase ← parsedField (parseMember DumpPhase) (entryValue entries "phase") s!"{path}.phase"
    "is not a valid dump phase"
  guardThat (phase ∈ unstablePhases) (manifestError s!"{path}.phase" "must be a non-stable phase")
  let reason ← textField (entryValue entries "reason") s!"{path}.reason" maxReasonLength
  return { dumpId, phase, reason }

/-- `value.entry !== name`. -/
def entryField (value : Option JsonValue) (path name message : String) : Except Thrown Unit :=
  guardThat (value.bind stringUnits? = some (utf16 name)) (manifestError path message)

def parseSymbolEntry (value : Option JsonValue) (path : String) :
    Except Thrown ExportManifestSymbol := do
  let entries ← recordField value path
  exactKeysAllowingOptional entries
    ["artifactId", "debugFile", "debugId", "kind", "byteSize", "sha256", "entry"]
    ["product", "version", "arch"] path
  let artifactId ← parsedField parseSymbolArtifactId (entryValue entries "artifactId")
    s!"{path}.artifactId" "is not a valid symbol artifact identifier"
  entryField (entryValue entries "kind") s!"{path}.kind" "pdb" "must be exactly \"pdb\""
  let debugFile ← textField (entryValue entries "debugFile") s!"{path}.debugFile"
    maxSymbolDebugFileLength
  let debugId ← textField (entryValue entries "debugId") s!"{path}.debugId" maxSymbolDebugIdLength
  let byteSize ← decimalField (entryValue entries "byteSize") s!"{path}.byteSize"
  guardThat (byteSize ≠ 0) (manifestError s!"{path}.byteSize" "must be positive")
  let sha256 ← sha256Field (entryValue entries "sha256") s!"{path}.sha256"
  let entry ← textField (entryValue entries "entry") s!"{path}.entry" 128
  guardThat (entry = utf16 (symbolEntryName artifactId)) (manifestError s!"{path}.entry"
    s!"must be {quotedText (utf16 (symbolEntryName artifactId))}")
  let product ← optionalTextField (entryValue entries "product") s!"{path}.product"
    maxSymbolAnnotationLength
  let version ← optionalTextField (entryValue entries "version") s!"{path}.version"
    maxSymbolAnnotationLength
  let arch ← optionalTextField (entryValue entries "arch") s!"{path}.arch" maxSymbolArchLength
  return { artifactId, debugFile, debugId, byteSize, sha256,
           entry := symbolEntryName artifactId, product, version, arch }

/-- The fields of a dump entry before its phase decides on them. -/
def parseDumpFields (entries : List (Units × JsonValue)) (path : String) :
    Except Thrown ExportManifestDump := do
  let dumpId ← parsedField parseDumpId (entryValue entries "dumpId") s!"{path}.dumpId"
    "is not a valid dump identifier"
  let caseId ← parsedField parseCaseId (entryValue entries "caseId") s!"{path}.caseId"
    "is not a valid case identifier"
  let phase ← parsedField (parseMember DumpPhase) (entryValue entries "phase") s!"{path}.phase"
    "is not a valid dump phase"
  let phase ← orThrow (stablePhase? phase)
    (manifestError s!"{path}.phase" "must be a stable phase")
  let originalName ← textField (entryValue entries "originalName") s!"{path}.originalName"
    maxOriginalNameLength
  let byteSize ← nullableDecimalField (entryValue entries "byteSize") s!"{path}.byteSize"
  let sha256 ← nullableSha256Field (entryValue entries "sha256") s!"{path}.sha256"
  return { dumpId, caseId, phase, originalName, byteSize, sha256, entry := none }

/-- The `entry` of a dump: the name of its bytes when they are available, or null. -/
def parseDumpEntry (value : Option JsonValue) (path : String) :
    Except Thrown ExportManifestDump := do
  let entries ← recordField value path
  exactKeys entries
    ["dumpId", "caseId", "phase", "originalName", "byteSize", "sha256", "entry"] path
  let dump ← parseDumpFields entries path
  match dump.phase with
  | .available =>
    guardThat (dump.byteSize.isSome = true)
      (manifestError s!"{path}.byteSize" "is required for an available dump")
    guardThat (dump.sha256.isSome = true)
      (manifestError s!"{path}.sha256" "is required for an available dump")
    let name := dumpEntryName dump.dumpId
    entryField (entryValue entries "entry") s!"{path}.entry" name
      s!"must be {quotedText (utf16 name)} for an available dump"
    return { dump with entry := some name }
  | _ =>
    guardThat (isNull (entryValue entries "entry") = true)
      (manifestError s!"{path}.entry" "must be null for a tombstone dump")
    return dump

/-! ### The lists -/

def ExportManifestSymbol.identity (s : ExportManifestSymbol) : Units :=
  s.debugFile ++ 0 :: s.debugId ++ 0 :: utf16 "pdb"

/-- No artifact and no identity is declared twice. -/
def checkSymbols (seenArtifacts : List SymbolArtifactId) (seenIdentities : List Units) :
    List ExportManifestSymbol → Except Thrown Unit
  | [] => return
  | s :: rest => do
    guardThat (s.artifactId ∉ seenArtifacts)
      (manifestError "$.symbols" s!"duplicate symbol artifact {s.artifactId.text}")
    guardThat (s.identity ∉ seenIdentities) (manifestError "$.symbols"
      s!"duplicate symbol identity {toText s.debugFile}/{toText s.debugId}")
    checkSymbols (s.artifactId :: seenArtifacts) (s.identity :: seenIdentities) rest

/-- No dump is declared twice. -/
def checkDumps (seen : List DumpId) : List ExportManifestDump → Except Thrown Unit
  | [] => return
  | d :: rest => do
    guardThat (d.dumpId ∉ seen) (manifestError "$.dumps" s!"duplicate dump {d.dumpId.text}")
    checkDumps (d.dumpId :: seen) rest

/-- No dump is skipped that is declared or was skipped before. -/
def checkSkipped (seen : List DumpId) : List ExportManifestSkipped → Except Thrown Unit
  | [] => return
  | d :: rest => do
    guardThat (d.dumpId ∉ seen) (manifestError "$.skipped"
      s!"dump {d.dumpId.text} appears both as exported and as skipped")
    checkSkipped (d.dumpId :: seen) rest

/-- The symbols list goes with its count. -/
def checkSymbolsList (symbols : Option (List ExportManifestSymbol)) (count : Option Nat) :
    Except Thrown Unit :=
  match symbols with
  | none => guardThat (count = none)
      (manifestError "$.symbols" "is required when counts.symbols is present")
  | some symbols =>
    match count with
    | none => throw (manifestError "$.counts.symbols"
        "is required when the symbols list is present")
    | some count => do
      guardThat (count = symbols.length) (manifestError "$.counts.symbols"
        s!"is {count} but the symbols list has {symbols.length} entries")
      checkSymbols [] [] symbols

def parseSymbolsList (value : Option JsonValue) :
    Except Thrown (Option (List ExportManifestSymbol)) :=
  forOption value fun v => do
    let elements ← boundedList (some v) "$.symbols"
    parseEntries parseSymbolEntry "$.symbols" 0 elements

def checkLists (m : ExportManifest) : Except Thrown Unit := do
  checkSymbolsList m.symbols m.counts.symbols
  checkDumps [] m.dumps
  checkSkipped ((m.dumps.map ExportManifestDump.dumpId).reverse) m.skipped
  guardThat (m.counts.dumps = m.dumps.length) (manifestError "$.counts.dumps"
    s!"is {m.counts.dumps} but the dumps list has {m.dumps.length} entries")

/-- The manifest of the members of the document. -/
def parseManifestEntries (entries : List (Units × JsonValue)) : Except Thrown ExportManifest := do
  exactKeysAllowingOptional entries
    ["schema", "createdAt", "generator", "grantKeyFingerprint", "counts", "skipped", "dumps"]
    ["symbols", "skippedAnalyses"] "$"
  entryField (entryValue entries "schema") "$.schema" exportManifestSchema
    s!"must be exactly {quotedText (utf16 exportManifestSchema)}"
  let createdAt ← canonicalTimestampField (entryValue entries "createdAt") "$.createdAt"
  let generator ← parseGenerator (entryValue entries "generator") "$.generator"
  let grantKeyFingerprint ← matchingField (entryValue entries "grantKeyFingerprint")
    "$.grantKeyFingerprint" 43 grantKeyFingerprintPattern
  let counts ← parseCounts (entryValue entries "counts") "$.counts"
  let skippedAnalyses ← optionalCountField (entryValue entries "skippedAnalyses")
    "$.skippedAnalyses"
  let skippedValues ← boundedList (entryValue entries "skipped") "$.skipped"
  let skipped ← parseEntries parseSkippedEntry "$.skipped" 0 skippedValues
  let dumpValues ← boundedList (entryValue entries "dumps") "$.dumps"
  let dumps ← parseEntries parseDumpEntry "$.dumps" 0 dumpValues
  let symbols ← parseSymbolsList (entryValue entries "symbols")
  let manifest : ExportManifest :=
    { createdAt, generator, grantKeyFingerprint, counts, skippedAnalyses, skipped, dumps, symbols }
  checkLists manifest
  return manifest

def parseExportManifest (bytes : Bytes) : Except Thrown ExportManifest := do
  guardThat (bytes.length ≠ 0) (manifestError "$" "is empty")
  guardThat (bytes.length ≤ maxManifestBytes)
    (manifestError "$" s!"exceeds the {maxManifestBytes} byte manifest bound")
  let text ← orThrow (decodeUtf8 bytes) (manifestError "$" "is not valid UTF-8")
  let value ← orThrow (jsonParse text) (manifestError "$" "is not valid JSON")
  let entries ← recordField (some value) "$"
  parseManifestEntries entries

/-! ## Serializing -/

/-- `undefined` members are left out. -/
def presentMember (name : String) (value : Option JsonValue) : List (String × JsonValue) :=
  (value.map fun v => (name, v)).toList

def jsonText (s : String) : JsonValue := jsonString (utf16 s)

/-- `byteSize.toString()`. -/
def decimalText (n : Nat) : Units := utf16 (String.ofList (Nat.toDigits 10 n))

def ExportManifestGenerator.json (g : ExportManifestGenerator) : JsonValue :=
  jsonObject
    [("version", jsonString g.version), ("schemaMigrations", jsonNumber g.schemaMigrations)]

def ExportManifestCounts.json (c : ExportManifestCounts) : JsonValue :=
  jsonObject (
    [("customers", jsonNumber c.customers), ("cases", jsonNumber c.cases),
      ("grants", jsonNumber c.grants), ("dumps", jsonNumber c.dumps)] ++
    presentMember "auditEvents" (c.auditEvents.map jsonNumber) ++
    presentMember "symbols" (c.symbols.map jsonNumber))

def ExportManifestSkipped.json (s : ExportManifestSkipped) : JsonValue :=
  jsonObject [("dumpId", jsonText s.dumpId.text), ("phase", jsonText (text s.phase)),
    ("reason", jsonString s.reason)]

def ExportManifestDump.json (d : ExportManifestDump) : JsonValue :=
  jsonObject [("dumpId", jsonText d.dumpId.text), ("caseId", jsonText d.caseId.text),
    ("phase", jsonText (text d.phase.phase)), ("originalName", jsonString d.originalName),
    ("byteSize", (d.byteSize.map fun n => jsonString (decimalText n)).getD jsonNull),
    ("sha256", (d.sha256.map fun h => jsonText h.text).getD jsonNull),
    ("entry", (d.entry.map jsonText).getD jsonNull)]

def ExportManifestSymbol.json (s : ExportManifestSymbol) : JsonValue :=
  jsonObject (
    [("artifactId", jsonText s.artifactId.text), ("debugFile", jsonString s.debugFile),
      ("debugId", jsonString s.debugId), ("kind", jsonText "pdb"),
      ("byteSize", jsonString (decimalText s.byteSize)), ("sha256", jsonText s.sha256.text),
      ("entry", jsonText s.entry)] ++
    presentMember "product" (s.product.map jsonString) ++
    presentMember "version" (s.version.map jsonString) ++
    presentMember "arch" (s.arch.map jsonString))

def ExportManifest.json (m : ExportManifest) : JsonValue :=
  jsonObject (
    [("schema", jsonText exportManifestSchema), ("createdAt", jsonText m.createdAt.text),
      ("generator", m.generator.json), ("grantKeyFingerprint", jsonString m.grantKeyFingerprint),
      ("counts", m.counts.json)] ++
    presentMember "skippedAnalyses" (m.skippedAnalyses.map jsonNumber) ++
    [("skipped", jsonArray (m.skipped.map ExportManifestSkipped.json)),
      ("dumps", jsonArray (m.dumps.map ExportManifestDump.json))] ++
    presentMember "symbols" (m.symbols.map fun s => jsonArray (s.map ExportManifestSymbol.json)))

def serializeExportManifest (m : ExportManifest) : Bytes := encodeText (jsonStringify m.json)

end DumpLedger
