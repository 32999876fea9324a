import DumpLedger.Engine.Commands
import DumpLedger.Transfer.Manifest
import DumpLedger.Transfer.Tar

/-!
# The ledger of a bundle

A bundle carries a copy of the ledger: a database that nobody vouches for, whose tables need not
have the constraints of the schema. Each column that is read is checked, and then the rows against
the manifest and against the entries of the archive.

What SQLite answers for the copy is a `BundleDatabase`; a query that throws is an error there.
-/

namespace DumpLedger.ImportSession

open Lib Vocabulary

def invalid (message : String) : Thrown := invalidInput message

def corrupt (message : String) : Thrown := integrityFailure message

/-- The checks of a loop. -/
def checkEach {α : Type} (check : α → Except Thrown Unit) : List α → Except Thrown Unit
  | [] => .ok ()
  | a :: rest => do
    check a
    checkEach check rest

/-- What a generator throws after its values. -/
def throwAfter : Option Thrown → Except Thrown Unit
  | none => .ok ()
  | some e => .error e

/-- What a loop over the rows makes of each. -/
def readEach {α β : Type} (read : α → Except Thrown β) : List α → Except Thrown (List β)
  | [] => .ok []
  | a :: rest => do
    let b ← read a
    let bs ← readEach read rest
    return b :: bs

/-! ## Columns -/

/-- A column, as the driver hands it out. -/
inductive SqlValue
  | null
  | number (n : JsNumber)
  | text (s : String)
  | blob (bytes : Bytes)

abbrev Row := String → SqlValue

/-- What the columns are converted with: `JSON.parse`, and `Number` of any value. -/
structure Conversions where
  parseJson : String → Option Json
  toNumber : SqlValue → JsNumber

section Columns

variable (row : Row) (key : String)

def rowString : Except Thrown String :=
  match row key with
  | .text value => .ok value
  | _ => .error (corrupt s!"bundle ledger column {key} is not a string")

def rowNullableString : Except Thrown (Option String) :=
  match row key with
  | .null => .ok none
  | .text value => .ok (some value)
  | _ => .error (corrupt s!"bundle ledger column {key} is not a string or null")

def checkIso (value : String) : Except Thrown Unit :=
  guardThat (isIsoTimestamp value = true)
    (corrupt s!"bundle ledger column {key} is not a canonical ISO timestamp")

def rowIso : Except Thrown String := do
  let value ← rowString row key
  checkIso key value
  return value

def rowNullableIso : Except Thrown (Option String) := do
  let value ← rowNullableString row key
  forOption value fun value => do
    checkIso key value
    return value

def parseDecimal (value : String) : Except Thrown Nat := do
  guardThat (decimalPattern (utf16 value) = true)
    (corrupt s!"bundle ledger column {key} is not a canonical decimal")
  return decimalUnits (utf16 value)

def rowDecimal : Except Thrown Nat := do
  let value ← rowString row key
  parseDecimal key value

def rowNullableDecimal : Except Thrown (Option Nat) := do
  let value ← rowNullableString row key
  forOption value (parseDecimal key)

def rowSlotCount : Except Thrown Nat :=
  match row key with
  | .number n =>
    orThrow (n.bounded? 0 16) (corrupt s!"bundle ledger column {key} is not a valid slot count")
  | _ => .error (corrupt s!"bundle ledger column {key} is not a valid slot count")

/-- A value that a parser of its own reads, whose error is not shown. -/
def parseAs {α : Type} (parse : String → Except Thrown α) (value what : String) :
    Except Thrown α :=
  orThrow (parse value).toOption (corrupt s!"bundle ledger column {key} is not a valid {what}")

/-- What `rowString` throws is not shown either. -/
def rowId {α : Type} (parse : String → Except Thrown α) : Except Thrown α :=
  match row key with
  | .text value => parseAs key parse value "identifier"
  | _ => .error (corrupt s!"bundle ledger column {key} is not a valid identifier")

def rowNullableId {α : Type} (parse : String → Except Thrown α) : Except Thrown (Option α) := do
  let value ← rowNullableString row key
  forOption value fun value => parseAs key parse value "identifier"

def rowEnum {α : Type} (parse : String → Except Thrown α) : Except Thrown α :=
  match row key with
  | .text value => parseAs key parse value "enum value"
  | _ => .error (corrupt s!"bundle ledger column {key} is not a valid enum value")

def rowNullableCoverage : Except Thrown (Option CoverageKind) :=
  match row key with
  | .null => .ok none
  | .text value => do
    let coverage ← parseAs key (parseMember CoverageKind) value "coverage kind"
    return some coverage
  | _ => .error (corrupt s!"bundle ledger column {key} is not a valid coverage kind")

def rowJsonObject (c : Conversions) : Except Thrown (Option JsonObject) :=
  match row key with
  | .null => .ok none
  | .text value =>
    match c.parseJson value with
    | none => .error (corrupt s!"bundle ledger column {key} is not valid JSON")
    | some (.obj members) => .ok (some members)
    | some _ => .error (corrupt s!"bundle ledger column {key} is not a JSON object")
  | _ => .error (corrupt s!"bundle ledger column {key} is not JSON text")

end Columns

/-! ## Rows -/

structure BundleDumpRow where
  dumpId : DumpId
  caseId : CaseId
  phase : DumpPhase
  originalName : String
  byteSize : Option Nat
  sha256 : Option String
  validation : ValidationState
  coverage : Option CoverageKind
  inspectionError : Option String
  inspectionFacts : Option JsonObject
  receivedAt : String
  availableAt : Option String
  purgeAt : Option String
  purgedAt : Option String

/-- An event of the trail; `dumpId` is what it is filtered by. -/
structure BundleAuditEvent where
  dumpId : Option DumpId
  record : ImportAuditEventRecord

structure BundleRows where
  customers : List ImportCustomerRecord
  cases : List ImportCaseRecord
  grants : List ImportGrantRecord
  dumps : List BundleDumpRow
  auditEvents : List BundleAuditEvent

def readCustomer (c : Conversions) (row : Row) : Except Thrown ImportCustomerRecord := do
  let customerId ← rowId row "customer_id" parseCustomerId
  let displayName ← rowString row "display_name"
  let createdAt ← rowIso row "created_at"
  return { customerId := customerId.text, displayName, createdAt,
           customerNo := some (c.toNumber (row "customer_no")) }

def readCase (row : Row) : Except Thrown ImportCaseRecord := do
  let caseId ← rowId row "case_id" parseCaseId
  let customerId ← rowId row "customer_id" parseCustomerId
  let title ← rowString row "title"
  let status ← rowEnum row "status" parseCaseStatus
  let createdAt ← rowIso row "created_at"
  return { caseId := caseId.text, customerId := customerId.text, title,
           status := text status, createdAt }

def readGrant (row : Row) : Except Thrown ImportGrantRecord := do
  let grantId ← rowId row "grant_id" parseGrantId
  let caseId ← rowId row "case_id" parseCaseId
  let secretDigest ← rowString row "secret_digest"
  let state ← rowEnum row "state" parseTokenState
  let expiresAt ← rowIso row "expires_at"
  let maxBytes ← rowDecimal row "max_bytes"
  let maxUploads ← rowSlotCount row "max_uploads"
  let uploadsUsed ← rowSlotCount row "uploads_used"
  let consumedByDumpId ← rowNullableId row "consumed_by_dump_id" parseDumpId
  let createdAt ← rowIso row "created_at"
  return { grantId := grantId.text, caseId := caseId.text, secretDigest, state := text state,
           expiresAt, maxBytes := maxBytes, maxUploads := some (.int maxUploads),
           uploadsUsed := some (.int uploadsUsed),
           consumedByDumpId := consumedByDumpId.map fun id => id.text, createdAt }

def readDump (c : Conversions) (row : Row) : Except Thrown BundleDumpRow := do
  let dumpId ← rowId row "dump_id" parseDumpId
  let caseId ← rowId row "case_id" parseCaseId
  let phase ← rowEnum row "phase" parseDumpPhase
  let originalName ← rowString row "original_name"
  let byteSize ← rowNullableDecimal row "byte_size"
  let sha256 ← rowNullableString row "sha256"
  let validation ← rowEnum row "validation" parseValidationState
  let coverage ← rowNullableCoverage row "coverage"
  let inspectionError ← rowNullableString row "inspection_error"
  let inspectionFacts ← rowJsonObject row "inspection_facts_json" c
  let receivedAt ← rowIso row "received_at"
  let availableAt ← rowNullableIso row "available_at"
  let purgeAt ← rowNullableIso row "purge_at"
  let purgedAt ← rowNullableIso row "purged_at"
  return { dumpId, caseId, phase, originalName, byteSize, sha256, validation, coverage,
           inspectionError, inspectionFacts, receivedAt, availableAt, purgeAt, purgedAt }

/-- The column of the detail is called `detail` in an error. -/
def readAuditEvent (c : Conversions) (row : Row) : Except Thrown BundleAuditEvent := do
  let eventId ← rowId row "event_id" parseAuditEventId
  let occurredAt ← rowIso row "occurred_at"
  let action ← rowString row "action"
  let customerId ← rowNullableId row "customer_id" parseCustomerId
  let caseId ← rowNullableId row "case_id" parseCaseId
  let dumpId ← rowNullableId row "dump_id" parseDumpId
  let detail ← rowJsonObject (fun _ => row "detail_json") "detail" c
  return {
    dumpId
    record :=
      { eventId := eventId.text, occurredAt, action, customerId := customerId.map fun id => id.text,
        caseId := caseId.map fun id => id.text, dumpId := dumpId.map fun id => id.text,
        detail := detail.getD [] } }

/-! ## The copy -/

def requiredTables : List String :=
  ["schema_migrations", "customers", "cases", "upload_grants", "dumps", "audit_events"]

/-- What the copy answers. -/
structure BundleDatabase where
  /-- The version of the copy, and how it compares with the running one, if it is a number. -/
  version : Except Thrown (String × Option Ordering)
  tables : List String
  /-- Whether `analysis_details` has a row. -/
  hasAnalysisDetails : Except Thrown Bool
  customers : Except Thrown (List Row)
  cases : Except Thrown (List Row)
  grants : Except Thrown (List Row)
  dumps : Except Thrown (List Row)
  auditEvents : Except Thrown (List Row)

/-- The checks of the schema, and the migration of an older copy. -/
def openBundleLedger (applyMigrations : BundleDatabase → Except Thrown BundleDatabase)
    (currentVersion : Nat) (database : BundleDatabase) : Except Thrown BundleDatabase := do
  let (version, order) ← database.version
  checkEach (fun table => guardThat (table ∈ database.tables)
    (corrupt s!"bundle ledger is missing the {table} table")) requiredTables
  guardThat (order ≠ some .gt)
    (invalid s!"bundle schema version {version} is newer than this instance's {currentVersion}")
  if order = some .lt then applyMigrations database else return database

def readBundleRows (c : Conversions) (database : BundleDatabase) : Except Thrown BundleRows := do
  let hasAnalysisDetails ← database.hasAnalysisDetails
  guardThat (hasAnalysisDetails = false)
    (invalid "import format v1 cannot preserve canonical analysis details")
  let customers ← database.customers
  let customers ← readEach (readCustomer c) customers
  let cases ← database.cases
  let cases ← readEach readCase cases
  let grants ← database.grants
  let grants ← readEach readGrant grants
  let dumps ← database.dumps
  let dumps ← readEach (readDump c) dumps
  let auditEvents ← database.auditEvents
  let auditEvents ← readEach (readAuditEvent c) auditEvents
  return { customers, cases, grants, dumps, auditEvents }

/-- `errorMessage`. -/
def errorMessage (e : Thrown) : String :=
  if 2000 < utf16Length e.message then toText ((utf16 e.message).take 1997) ++ "..."
  else e.message

/-- An error that is not the ledger's own is about the copy. -/
def bundleError : Thrown → Thrown
  | .ledgerError code message => .ledgerError code message
  | e =>
    corrupt ("bundle ledger could not be read as a DumpLedger SQLite database: " ++
      errorMessage e)

def readBundleLedger (c : Conversions)
    (applyMigrations : BundleDatabase → Except Thrown BundleDatabase) (currentVersion : Nat)
    (database : Except Thrown BundleDatabase) : Except Thrown BundleRows :=
  (do
    let database ← database
    let database ← openBundleLedger applyMigrations currentVersion database
    readBundleRows c database).mapError bundleError

/-! ## The entries -/

/-- `MAX_BUNDLE_ENTRIES`. -/
def maxBundleEntries : Nat := 1000002

/-- `VAULT_ENTRY_PATTERN`, with the identifier that it captures. -/
def vaultEntryId? (name : String) : Option String :=
  let cs := name.toList
  let id := (cs.drop 6).take 31
  if cs.take 6 = "vault/".toList ∧ cs.drop 37 = "/original.dmp".toList ∧
      id.take 5 = "dump_".toList ∧ id.length = 31 ∧ (id.drop 5).all isIdentifierChar = true then
    some (String.ofList id)
  else none

/-- `[A-Za-z0-9_.-]`. -/
def isSymbolEntryChar (c : Char) : Bool := c.isAlphanum || c == '_' || c == '.' || c == '-'

/-- `SYMBOL_ENTRY_PATTERN`. -/
def isSymbolEntry (name : String) : Bool :=
  let cs := name.toList
  let id := (cs.drop 8).take (cs.length - 12)
  decide (cs.take 8 = "symbols/".toList) && decide (cs.drop (8 + id.length) = ".bin".toList) &&
    decide (1 ≤ id.length) && decide (id.length ≤ 96) && id.all isSymbolEntryChar

def unexpectedEntry (name : String) : Thrown :=
  invalid s!"bundle carries an unexpected tar entry: {quotedText (utf16 name)}"

def checkEntryName (entry : Tar.TarEntry) : Except Thrown Unit :=
  guardThat (entry.name = "manifest.json" ∨ entry.name = "ledger.sqlite" ∨
    (vaultEntryId? entry.name).isSome = true ∨ isSymbolEntry entry.name = true)
    (unexpectedEntry entry.name)

/-- `entries.get`, of entries with different names. -/
def entryNamed (entries : List Tar.TarEntry) (name : String) : Option Tar.TarEntry :=
  entries.find? fun entry => decide (entry.name = name)

structure BundleBounds where
  maxBundleBytes : Int
  maxManifestBytes : Nat
  maxLedgerBytes : Int

/-- The bounds of a bundle that is opened without any. -/
def defaultBounds : BundleBounds :=
  ⟨maxSafeInteger, maxManifestBytes, 8 * 1024 * 1024 * 1024⟩

def collectEntries (source : Bytes) (bounds : BundleBounds) :
    Except Thrown (List Tar.TarEntry) := do
  let yielded ← Tar.readTar source
    { maxEntries := some maxBundleEntries, maxBytes := some bounds.maxBundleBytes,
      maxNameLength := none }
  checkEach checkEntryName yielded.values
  throwAfter yielded.thrown
  let manifest ← orThrow (entryNamed yielded.values "manifest.json")
    (invalid "bundle is missing manifest.json")
  guardThat (manifest.size ≠ 0 ∧ manifest.size ≤ bounds.maxManifestBytes)
    (invalid s!"bundle manifest exceeds the {bounds.maxManifestBytes} byte bound")
  let ledger ← orThrow (entryNamed yielded.values "ledger.sqlite")
    (invalid "bundle is missing ledger.sqlite")
  guardThat (ledger.size ≠ 0 ∧ ledger.size ≤ bounds.maxLedgerBytes)
    (invalid s!"bundle ledger exceeds the {bounds.maxLedgerBytes} byte bound")
  return yielded.values

/-- All chunks of an entry. -/
def readEntryBytes (source : Bytes) (entry : Tar.TarEntry) : Except Thrown Bytes := do
  let chunks := entry.chunks source
  throwAfter chunks.thrown
  guardThat (chunks.values.flatten.length = entry.size)
    (corrupt s!"tar entry {entry.name} delivered fewer bytes than declared")
  return chunks.values.flatten

/-! ## Agreement -/

/-- `new Map(rows.dumps.map(row => [row.dumpId, row])).get(dumpId)`: the last row counts. -/
def rowOf (rows : BundleRows) (dumpId : DumpId) : Option BundleDumpRow :=
  rows.dumps.reverse.find? fun row => decide (row.dumpId = dumpId)

/-- `manifestById.get(dumpId)`. -/
def declaredDump (manifest : ExportManifest) (dumpId : DumpId) : Option ExportManifestDump :=
  manifest.dumps.reverse.find? fun declared => decide (declared.dumpId = dumpId)

def isSkipped (manifest : ExportManifest) (dumpId : DumpId) : Bool :=
  manifest.skipped.any fun skipped => decide (skipped.dumpId = dumpId)

def declaredSymbols (manifest : ExportManifest) : List ExportManifestSymbol :=
  manifest.symbols.getD []

/-- The row of a declared dump agrees with the manifest, and its bytes are there. -/
def checkDeclared (rows : BundleRows) (entries : List Tar.TarEntry)
    (declared : ExportManifestDump) : Except Thrown Unit := do
  let row ← orThrow (rowOf rows declared.dumpId)
    (corrupt s!"manifest dump {declared.dumpId.text} is missing from the bundle ledger")
  guardThat (row.phase = declared.phase.phase) (corrupt
    (s!"bundle ledger phase {text row.phase} disagrees with manifest phase " ++
      s!"{text declared.phase.phase} for {declared.dumpId.text}"))
  guardThat (row.caseId = declared.caseId ∧ utf16 row.originalName = declared.originalName)
    (corrupt s!"bundle ledger row disagrees with the manifest for {declared.dumpId.text}")
  guardThat (row.byteSize = declared.byteSize ∧
      row.sha256 = declared.sha256.map Sha256.text)
    (corrupt s!"bundle ledger size or hash disagrees with the manifest for {declared.dumpId.text}")
  guardThat (declared.phase = .available →
      (entryNamed entries (dumpEntryName declared.dumpId)).isSome = true)
    (corrupt s!"bundle is missing {dumpEntryName declared.dumpId}, which the manifest promises")

/-- A dump of the copy is declared or skipped. -/
def checkListed (manifest : ExportManifest) (row : BundleDumpRow) : Except Thrown Unit :=
  guardThat ((declaredDump manifest row.dumpId).isSome = true ∨
      isSkipped manifest row.dumpId = true)
    (corrupt (s!"bundle ledger dump {row.dumpId.text} ({text row.phase}) appears in neither the " ++
      "manifest nor its skipped list"))

def checkSymbolEntry (entries : List Tar.TarEntry) (symbol : ExportManifestSymbol) :
    Except Thrown Unit :=
  guardThat ((entryNamed entries symbol.entry).isSome = true)
    (corrupt s!"bundle is missing {symbol.entry}, which the manifest promises")

/-- An entry is the manifest, the ledger, or what the manifest declares. -/
def checkEntryDeclared (manifest : ExportManifest) (entry : Tar.TarEntry) : Except Thrown Unit :=
  if entry.name = "manifest.json" ∨ entry.name = "ledger.sqlite" then return
  else if (declaredSymbols manifest).any (fun symbol => decide (symbol.entry = entry.name)) then
    return
  else do
    let idText ← orThrow (vaultEntryId? entry.name) (unexpectedEntry entry.name)
    let dumpId ← parseDumpId idText
    guardThat (∃ declared ∈ declaredDump manifest dumpId, declared.phase = .available)
      (invalid (s!"bundle carries vault bytes for {idText}, which the manifest does not export " ++
        "as available"))

/-- An event of a dump that was left behind is left behind. -/
def isCarried (manifest : ExportManifest) (event : BundleAuditEvent) : Bool :=
  match event.dumpId with
  | none => true
  | some dumpId => (declaredDump manifest dumpId).isSome

def checkCounts (manifest : ExportManifest) (rows : BundleRows) : Except Thrown Unit := do
  guardThat (manifest.counts.customers = rows.customers.length)
    (corrupt "manifest customer count disagrees with the bundle ledger")
  guardThat (manifest.counts.cases = rows.cases.length)
    (corrupt "manifest case count disagrees with the bundle ledger")
  guardThat (manifest.counts.grants = rows.grants.length)
    (corrupt "manifest grant count disagrees with the bundle ledger")
  guardThat (∀ count ∈ manifest.counts.auditEvents,
      count = (rows.auditEvents.filter (isCarried manifest)).length)
    (corrupt "manifest audit event count disagrees with the bundle ledger")

def checkConsistency (manifest : ExportManifest) (rows : BundleRows)
    (entries : List Tar.TarEntry) : Except Thrown Unit := do
  checkEach (checkDeclared rows entries) manifest.dumps
  checkEach (checkListed manifest) rows.dumps
  checkEach (checkSymbolEntry entries) (declaredSymbols manifest)
  checkEach (checkEntryDeclared manifest) entries
  checkCounts manifest rows

end DumpLedger.ImportSession
