import DumpLedger.Lib.Base64Url
import DumpLedger.Lib.Hex
import DumpLedger.Recovery.Completion
import DumpLedger.Symbols.Identity
import DumpLedger.Transfer.BundleLedger
import DumpLedger.Transfer.ExportSelection

/-!
# The import session

An import opens a bundle: every check that the bundle has to pass is made before the first command.
The session that it answers brings in one row at a time, in the order its caller likes, by the
commands of the engine; the bytes of a dump it puts into the vault itself. `importBundle` runs one
session from its start to its end.

The variables of a session are what its closures share: a step that throws keeps what it wrote.
-/

namespace DumpLedger.ImportSession

open Lib Vocabulary

/-! ## Opening -/

inductive FileKind
  | regular | symbolicLink | other
  deriving DecidableEq

/-- What the file system answers for a path. -/
structure BundleFiles where
  resolve : String → String
  lstat : String → Option FileKind
  /-- The descriptor that is opened, by what `fstat` says of it and the bytes behind it. -/
  openRead : String → Except Thrown (FileKind × Bytes)

/-- `MAX_BUNDLE_PATH_LENGTH`. -/
def maxBundlePathLength : Nat := 1024

def checkBundlePath (files : BundleFiles) (raw : String) : Except Thrown String := do
  guardThat (raw ≠ "" ∧ utf16Length raw ≤ maxBundlePathLength) (invalid "bundle path is invalid")
  let path := files.resolve raw
  guardThat (".tar".toList.isSuffixOf path.toList = true)
    (invalid "bundle path must end with .tar")
  let info ← orThrow (files.lstat path) (notFound "bundle path does not exist")
  guardThat (info ≠ .symbolicLink) (invalid "bundle path must not be a symbolic link")
  guardThat (info = .regular) (invalid "bundle path must be a regular file")
  return path

/-- `FileTarSource.open`. -/
def openSource (files : BundleFiles) (path : String) : Except Thrown Bytes := do
  let (info, bytes) ← files.openRead path
  guardThat (info = .regular) (invalid "bundle path must be a regular file")
  return bytes

structure ImportBundleOptions where
  files : BundleFiles
  bundlePath : String
  bounds : BundleBounds
  /-- The working directory, with the copy of the ledger written into it. -/
  writeLedgerCopy : Bytes → Except Thrown Unit
  openLedger : Bytes → Except Thrown BundleDatabase
  applyMigrations : BundleDatabase → Except Thrown BundleDatabase
  conversions : Conversions

/-- What an open session has of its bundle. -/
structure OpenBundle where
  source : Bytes
  manifest : ExportManifest
  manifestDigest : String
  rows : BundleRows
  entries : List Tar.TarEntry

/-- The bytes of a digest. -/
def digestBytes : List Char → Bytes
  | high :: low :: rest =>
    UInt8.ofNat (16 * DumpLedger.hexValue high + DumpLedger.hexValue low) :: digestBytes rest
  | _ => []

/-- `digest("base64url")`. -/
def base64UrlDigest (d : Sha256) : String :=
  String.ofList (Base64Url.encode (digestBytes d.text.toList))

/-- The checks of `openImportSession`. -/
def openBundle (sha256 : Bytes → Sha256) (options : ImportBundleOptions) :
    Except Thrown OpenBundle := do
  let path ← checkBundlePath options.files options.bundlePath
  let source ← openSource options.files path
  let entries ← collectEntries source options.bounds
  let missing := invalid "bundle is missing its manifest or ledger entry"
  let manifestEntry ← orThrow (entryNamed entries "manifest.json") missing
  let ledgerEntry ← orThrow (entryNamed entries "ledger.sqlite") missing
  let manifestBytes ← readEntryBytes source manifestEntry
  let manifest ← parseExportManifest manifestBytes
  guardThat (manifest.generator.schemaMigrations ≤ runningSchemaMigrations)
    (invalid (s!"bundle schema version {manifest.generator.schemaMigrations} is newer than this " ++
      s!"instance's {runningSchemaMigrations}"))
  let ledgerChunks := ledgerEntry.chunks source
  options.writeLedgerCopy ledgerChunks.values.flatten
  throwAfter ledgerChunks.thrown
  let rows ← readBundleLedger options.conversions options.applyMigrations runningSchemaMigrations
    (options.openLedger ledgerChunks.values.flatten)
  checkConsistency manifest rows entries
  return { source, manifest, manifestDigest := base64UrlDigest (sha256 manifestBytes), rows,
           entries }

/-! ## The variables -/

inductive SessionPhase
  | «open» | began | finished | abandoned
  deriving DecidableEq, Repr

namespace SessionPhase

def text : SessionPhase → String
  | «open» => "open"
  | began => "began"
  | finished => "finished"
  | abandoned => "abandoned"

end SessionPhase

/-- What the closures of a session share. -/
structure SessionVariables where
  steppedCustomers : List String := []
  steppedCases : List String := []
  steppedGrants : List String := []
  steppedDumps : List DumpId := []
  symbolsImported : Bool := false
  engineImportId : Option AuditEventId := none
  phase : SessionPhase := .open
  closed : Bool := false

structure Counters where
  verified : Nat := 0
  imported : Nat := 0
  rejected : Nat := 0
  skipped : Nat := 0
  symbols : Nat := 0
  deriving DecidableEq

/-- The machine, and the variables of the import that drives it. -/
structure Importing where
  machine : Machine
  session : SessionVariables := {}
  counters : Counters := {}

abbrev Step := Prog Importing Thrown

/-- `openImportSession`: nothing but the bundle is looked at. -/
def openImportSession (sha256 : Bytes → Sha256) (options : ImportBundleOptions) :
    Step OpenBundle :=
  Prog.lift (openBundle sha256 options)

/-- A part of the import that works on the machine alone. -/
def drive {α : Type} (x : Driver α) : Step α := fun s =>
  let out := x s.machine
  (out.1, { s with machine := out.2 })

def getSession : Step SessionVariables := Prog.gets Importing.session

def setSession (f : SessionVariables → SessionVariables) : Step Unit :=
  Prog.modify fun s => { s with session := f s.session }

def count (f : Counters → Counters) : Step Unit :=
  Prog.modify fun s => { s with counters := f s.counters }

def requirePhase (phase : SessionPhase) : Step Unit := do
  let v ← getSession
  if v.phase = phase then return
  else throw (.ledgerError .invalidTransition s!"import session is {v.phase.text}")

/-- `cleanup`. -/
def cleanup : Step Unit := setSession fun v => { v with closed := true }

/-! ## Records -/

section Records

variable (row : BundleDumpRow)

/-- A row of a dump whose bytes are staged; the inspection of the source does not count. -/
def stagedRecord (byteSize : Nat) (sha256 : String) : ImportDumpRecord where
  dumpId := row.dumpId.text
  caseId := row.caseId.text
  phase := "available"
  originalName := row.originalName
  byteSize := some byteSize
  sha256 := some sha256
  validation := "not-checked"
  coverage := none
  inspectionError := none
  inspectionFacts := none
  receivedAt := row.receivedAt
  availableAt := none
  purgeAt := row.purgeAt
  purgedAt := none

def mismatchTombstone : ImportDumpRecord where
  dumpId := row.dumpId.text
  caseId := row.caseId.text
  phase := "rejected"
  originalName := row.originalName
  byteSize := row.byteSize.map fun n : Nat => (n : Int)
  sha256 := row.sha256
  validation := "transfer-failed"
  coverage := none
  inspectionError := some "import sha256 mismatch"
  inspectionFacts := none
  receivedAt := row.receivedAt
  availableAt := none
  purgeAt := row.purgeAt
  purgedAt := none

def tombstoneRecord (phase : StableDumpPhase) : ImportDumpRecord where
  dumpId := row.dumpId.text
  caseId := row.caseId.text
  phase := text phase.phase
  originalName := row.originalName
  byteSize := row.byteSize.map fun n : Nat => (n : Int)
  sha256 := row.sha256
  validation := text row.validation
  coverage := row.coverage.map text
  inspectionError := row.inspectionError
  inspectionFacts := row.inspectionFacts
  receivedAt := row.receivedAt
  availableAt := row.availableAt
  purgeAt := row.purgeAt
  purgedAt := row.purgedAt

end Records

def toImportCounts (counts : ExportManifestCounts) : RawImportCounts where
  customers := .int counts.customers
  cases := .int counts.cases
  grants := .int counts.grants
  dumps := .int counts.dumps
  auditEvents := counts.auditEvents.map fun n => .int n

/-! ## The steps -/

/-- What `stageDump` did with a dump. -/
inductive ImportDumpDisposition
  | staged
  | mismatch
  | tombstoneRejected
  | tombstoneDeleted
  deriving DecidableEq, Repr

/-- `new Map(rows.map(row => [id(row), row])).get(key)`: the last row of an identifier counts. -/
def lastWithId {α : Type} (id : α → String) (rows : List α) (key : String) : Option α :=
  rows.reverse.find? fun row => decide (id row = key)

section Steps

variable (options : EngineOptions) (hosts : Nat → Host) (bundle : OpenBundle)

/-- `requireOk(engine.execute(command))`, with the receipt. -/
def requireExecuted (command : Command) : Driver TransitionSuccess := do
  let receipt ← engineExecute options hosts command
  match receipt with
  | .success receipt => return receipt
  | .failure _ error => throw (.ledgerError error.code error.message)

/-- An operation on the vault that is not one of the engine's. -/
def vaultCall (run : Int → Vaults → Except Thrown Vaults) : Driver Unit := fun m =>
  let host := hosts m.calls
  let after (v : Vaults) : Machine := ⟨{ m.world with vaults := v }, m.calls + 1⟩
  match host.storageFault, run host.nowMs m.world.vaults with
  | some .before, _ => (.error ioError, after m.world.vaults)
  | _, .error e => (.error e, after m.world.vaults)
  | some .after, .ok v => (.error ioError, after v)
  | none, .ok v => (.ok (), after v)

/-- `entry.chunks()`; the source of a session that was closed cannot be read. -/
def sourceChunks (v : SessionVariables) (entry : Tar.TarEntry) : Tar.Yields Bytes :=
  if v.closed = true ∧ entry.size ≠ 0 then ⟨[], some ioError⟩ else entry.chunks bundle.source

/-- Writes the marker; once per session. -/
def beginStep : Step Unit := do
  requirePhase .open
  let begun ← drive (requireExecuted options hosts
    (.beginImport bundle.manifestDigest (toImportCounts bundle.manifest.counts)))
  match begun.importId with
  | none => throw (corrupt "BeginImport succeeded without an import id")
  | some importId =>
    setSession fun v => { v with engineImportId := some importId, phase := .began }

/-! ### Customers, cases and grants -/

/-- A row of the bundle, by its identifier, that was not brought in yet. -/
def rowStep {α : Type} (kind : String) (row : Option α) (key : String)
    (stepped : SessionVariables → List String) (command : α → Command)
    (add : SessionVariables → SessionVariables) : Step Unit := do
  requirePhase .began
  match row with
  | none => throw (invalid s!"bundle has no {kind} {key}")
  | some record => do
    let v ← getSession
    if key ∈ stepped v then throw (invalid s!"{kind} {key} was already imported")
    else do
      let _ ← drive (requireExecuted options hosts (command record))
      setSession add

def importCustomer (customerId : String) : Step Unit :=
  rowStep options hosts "customer"
    (lastWithId ImportCustomerRecord.customerId bundle.rows.customers customerId) customerId
    SessionVariables.steppedCustomers .importCustomer
    fun v => { v with steppedCustomers := customerId :: v.steppedCustomers }

def importCase (caseId : String) : Step Unit :=
  rowStep options hosts "case" (lastWithId ImportCaseRecord.caseId bundle.rows.cases caseId) caseId
    SessionVariables.steppedCases .importCase
    fun v => { v with steppedCases := caseId :: v.steppedCases }

def fingerprintMismatch : Bool :=
  decide (utf16 options.fingerprint ≠ bundle.manifest.grantKeyFingerprint)

/-- A grant that was issued under another key is revoked. -/
def importGrant (grantId : String) : Step Unit :=
  rowStep options hosts "grant" (lastWithId ImportGrantRecord.grantId bundle.rows.grants grantId)
    grantId SessionVariables.steppedGrants
    (fun record => .importGrant record
      (if fingerprintMismatch options bundle = true then some "revoked" else none))
    fun v => { v with steppedGrants := grantId :: v.steppedGrants }

/-! ### Dumps -/

/-- The bytes of an entry into a new staging file, and their hash. -/
def stageBytes (dumpId : DumpId) (chunks : Tar.Yields Bytes) : Driver String := do
  vaultPerform hosts (.createStaging dumpId)
  tryCatch
    (do
      Prog.forEach (fun chunk => vaultCall hosts fun nowMs v => do
        return { v with dumps := ← v.dumps.append nowMs dumpId chunk }) chunks.values
      Prog.lift (throwAfter chunks.thrown)
      vaultCall hosts fun _ v => do return { v with dumps := ← v.dumps.syncAndClose dumpId }
      return (options.digests.sha256 chunks.values.flatten).text)
    fun e => do
      -- no row exists yet, so the residue is removed
      vaultPerform hosts (.removeStaging dumpId)
      throw e

/-- An available dump whose recorded size and hash are these. -/
def stageAvailable (row : BundleDumpRow) (byteSize : Nat) (sha256 : String) (size : Nat)
    (chunks : Tar.Yields Bytes) : Driver ImportDumpDisposition := do
  let digest ← if size = byteSize then some <$> stageBytes options hosts row.dumpId chunks
    else pure none
  if digest = some sha256 then
    let _ ← requireExecuted options hosts (.importDumpStaged (stagedRecord row byteSize sha256))
    return .staged
  else do
    if digest.isSome = true then vaultPerform hosts (.removeStaging row.dumpId)
    let _ ← requireExecuted options hosts (.importDumpStaged (mismatchTombstone row))
    return .mismatch

/-- What the phase in the manifest asks for. -/
def dispositionDump (v : SessionVariables) (declared : ExportManifestDump) (row : BundleDumpRow) :
    Driver ImportDumpDisposition :=
  match declared.phase with
  | .available =>
    match entryNamed bundle.entries (dumpEntryName row.dumpId), row.byteSize, row.sha256 with
    | some entry, some byteSize, some sha256 =>
      stageAvailable options hosts row byteSize sha256 entry.size (sourceChunks bundle v entry)
    | _, _, _ => throw (corrupt s!"bundle is internally inconsistent for {row.dumpId.text}")
  | phase => do
    let _ ← requireExecuted options hosts (.importDumpStaged (tombstoneRecord row phase))
    return if phase = .rejected then .tombstoneRejected else .tombstoneDeleted

/-- The first row of the dump counts here. -/
def stageDump (dumpId : DumpId) : Step ImportDumpDisposition := do
  requirePhase .began
  match declaredDump bundle.manifest dumpId with
  | none => throw (invalid s!"bundle does not declare dump {dumpId.text}")
  | some declared => do
    let v ← getSession
    if dumpId ∈ v.steppedDumps then throw (invalid s!"dump {dumpId.text} was already staged")
    else
      match bundle.rows.dumps.find? fun row => decide (row.dumpId = dumpId) with
      | none => throw (corrupt s!"bundle ledger is missing declared dump {dumpId.text}")
      | some row => do
        let disposition ← drive (dispositionDump options hosts bundle v declared row)
        setSession fun v => { v with steppedDumps := dumpId :: v.steppedDumps }
        return disposition

/-! ### Symbols -/

def symbolName (symbol : ExportManifestSymbol) : String :=
  s!"symbol {toText symbol.debugFile}/{toText symbol.debugId}"

/-- A chunk of an artifact, after `byteSize` bytes. -/
def receiveSymbolChunk (symbol : ExportManifestSymbol) (artifactId : SymbolArtifactId)
    (byteSize : Nat) (chunk : Bytes) : Driver Nat := do
  let byteSize := byteSize + chunk.length
  if symbol.byteSize < byteSize then
    throw (corrupt s!"{symbolName symbol} exceeds its declared byteSize")
  else do
    vaultCall hosts fun nowMs v => do
      return { v with symbols := ← v.symbols.append nowMs artifactId chunk }
    return byteSize

/-- The artifact into its staging file, with the size and the hash that the manifest declares. -/
def receiveSymbol (symbol : ExportManifestSymbol) (artifactId : SymbolArtifactId)
    (chunks : Tar.Yields Bytes) : Driver Unit := do
  let byteSize ← Prog.foldEach (receiveSymbolChunk hosts symbol artifactId) 0 chunks.values
  Prog.lift (throwAfter chunks.thrown)
  Prog.lift (guardThat (byteSize = symbol.byteSize)
    (corrupt s!"{symbolName symbol} delivered {byteSize} bytes, expected {symbol.byteSize}"))
  Prog.lift (guardThat (options.digests.sha256 chunks.values.flatten = symbol.sha256)
    (corrupt s!"{symbolName symbol} sha256 mismatch"))
  vaultCall hosts fun _ v => do return { v with symbols := ← v.symbols.syncAndClose artifactId }

/-- `openSymbolStagingReader`. -/
def openStagedSymbol (artifactId : SymbolArtifactId) : Driver (Option Bytes) := fun m =>
  let after : Machine := { m with calls := m.calls + 1 }
  if (hosts m.calls).storageFault.isSome = true then (.error ioError, after)
  else (.ok (m.world.vaults.symbols.staged? artifactId), after)

/-- The identity in the staged bytes; whatever goes wrong with it, there is none. -/
def stagedPdbIdentity (symbol : ExportManifestSymbol) (staged : Bytes) :
    Driver (Option Symbols.PdbIdentity) := fun m =>
  let after : Machine := { m with calls := m.calls + 1 }
  if (hosts m.calls).storageFault.isSome = true ∨ maxSafeInteger < staged.length then
    (.ok none, after)
  else
    match ((Symbols.parsePdbIdentityFrom (Symbols.byteReaderOf staged) symbol.debugFile).run
        .start).1 with
    | .ok identity => (.ok identity, after)
    | .error _ => (.ok none, after)

/-- The identity of the bytes is the one that the manifest declares. -/
def checkStagedIdentity (symbol : ExportManifestSymbol) (artifactId : SymbolArtifactId) :
    Driver Unit := do
  let staged ← openStagedSymbol hosts artifactId
  match staged with
  | none =>
    throw (corrupt s!"symbol {symbol.artifactId.text} staging is not readable after sync")
  | some staged => do
    let identity ← stagedPdbIdentity hosts symbol staged
    Prog.lift (guardThat
      (∃ found ∈ identity, found.debugFile = symbol.debugFile ∧
        utf16 found.debugId = symbol.debugId)
      (corrupt s!"symbol {symbol.artifactId.text} carries an unreadable or mismatched identity"))

def importedSymbolFields (symbol : ExportManifestSymbol) (artifactId : SymbolArtifactId) :
    SealSymbolFields where
  artifactId := artifactId.text
  kind := .pdb
  file := toText symbol.debugFile
  id := toText symbol.debugId
  byteSize := symbol.byteSize
  sha256 := symbol.sha256.text
  product := symbol.product.map toText
  version := symbol.version.map toText
  arch := symbol.arch.map toText
  ingestAuth := none

/-- An artifact is ingested like one that an operator sends. -/
def importSymbolEntry (symbol : ExportManifestSymbol) (chunks : Tar.Yields Bytes) :
    Driver Unit := do
  let begun ← requireExecuted options hosts (.ingestSymbol "pdb")
  match begun.artifactId with
  | none => throw (corrupt "IngestSymbol succeeded without an artifact id")
  | some artifactId =>
    tryCatch
      (do
        receiveSymbol options hosts symbol artifactId chunks
        checkStagedIdentity hosts symbol artifactId
        let _ ← requireExecuted options hosts
          (.sealSymbol (importedSymbolFields symbol artifactId)))
      fun e => do
        tryCatch (do let _ ← engineExecute options hosts (.failSymbol artifactId.text))
          fun _ => return
        throw e

def importDeclaredSymbol (v : SessionVariables) (symbol : ExportManifestSymbol) : Driver Unit :=
  match entryNamed bundle.entries symbol.entry with
  | none => throw (corrupt s!"bundle is missing {symbol.entry}")
  | some entry => importSymbolEntry options hosts symbol (sourceChunks bundle v entry)

/-- All artifacts of the bundle; a second run changes nothing, the engine knows them by then. -/
def importSymbols : Step Nat := do
  requirePhase .began
  let declared := declaredSymbols bundle.manifest
  let v ← getSession
  drive (Prog.forEach (importDeclaredSymbol options hosts bundle v) declared)
  setSession fun v =>
    { v with symbolsImported := v.symbolsImported || decide (0 < declared.length) }
  return declared.length

/-! ### The end -/

/-- An event of the source's trail, and how many there were. -/
def replayEvent (replayed : Nat) (event : BundleAuditEvent) : Driver Nat :=
  if isCarried bundle.manifest event = true then do
    let _ ← requireExecuted options hosts (.importAuditEvent event.record)
    return replayed + 1
  else return replayed

def importSummary (auditImported : Nat) : RawImportSummary where
  imported :=
    { customers := .int bundle.rows.customers.length, cases := .int bundle.rows.cases.length,
      grants := .int bundle.rows.grants.length, dumps := .int bundle.manifest.dumps.length,
      auditEvents := some (.int auditImported) }
  skipped := .int bundle.manifest.skipped.length

/-- Every row of the bundle was brought in. -/
def allStepped (v : SessionVariables) : Bool :=
  decide (v.steppedCustomers.length = bundle.rows.customers.length) &&
  decide (v.steppedCases.length = bundle.rows.cases.length) &&
  decide (v.steppedGrants.length = bundle.rows.grants.length) &&
  decide (v.steppedDumps.length =
    (bundle.manifest.dumps.map ExportManifestDump.dumpId).dedup.length)

def finish : Step Unit := do
  requirePhase .began
  let v ← getSession
  if declaredSymbols bundle.manifest ≠ [] ∧ v.symbolsImported = false then
    throw (.ledgerError .invalidTransition
      "import finish requires the carried symbols to have been imported")
  else if allStepped bundle v = false then
    throw (.ledgerError .invalidTransition
      "import finish requires every declared row to have been imported")
  else
    match v.engineImportId with
    | none => throw (corrupt "BeginImport succeeded without an import id")
    | some importId => do
      let replayed ← drive
        (Prog.foldEach (replayEvent options hosts bundle) 0 bundle.rows.auditEvents)
      let _ ← drive (requireExecuted options hosts
        (.finishImport importId.text (importSummary bundle replayed)))
      setSession fun v => { v with phase := .finished }
      cleanup

/-- The session is dropped without the end of the import. -/
def abandon : Step Unit := do
  let v ← getSession
  if v.phase = .finished ∨ v.phase = .abandoned then return
  else do
    setSession fun v => { v with phase := .abandoned }
    cleanup

/-! ### Calls -/

/-- A method of the session, as its caller calls it. -/
inductive SessionCall
  | begin
  | importCustomer (customerId : String)
  | importCase (caseId : String)
  | importGrant (grantId : String)
  | stageDump (dumpId : DumpId)
  | importSymbols
  | finish
  | abandon
  | close

def perform : SessionCall → Step Unit
  | .begin => beginStep options hosts bundle
  | .importCustomer customerId => importCustomer options hosts bundle customerId
  | .importCase caseId => importCase options hosts bundle caseId
  | .importGrant grantId => importGrant options hosts bundle grantId
  | .stageDump dumpId => do
    let _ ← stageDump options hosts bundle dumpId
  | .importSymbols => do
    let _ ← importSymbols options hosts bundle
  | .finish => finish options hosts bundle
  | .abandon => abandon
  | .close => cleanup

/-- Calls one after the other, whether they throw or not. -/
def performAll (s : Importing) (calls : List SessionCall) : Importing :=
  calls.foldl (fun s c => (perform options hosts bundle c s).2) s

end Steps

end DumpLedger.ImportSession
