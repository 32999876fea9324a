import DumpLedger.Transfer.ExportSelection
import DumpLedger.Transfer.ImportSession
import DumpLedger.Transfer.Tar

/-!
# The export session

An export has two phases. Opening a session takes a snapshot of the ledger, then a backup of it,
and selects what the bundle will promise; between the snapshot and the backup other requests are
served. `run` streams the manifest, the backup, and the bytes that are in the vault by then into an
archive, and seals it. It does so once: whatever goes wrong fails the export, and nothing is sealed.

The file of the backup is opaque bytes, `ledgerFile`; the ledger that is in it is the copy.
-/

namespace DumpLedger.ExportSession

open Lib Vocabulary Tar

structure ExportBundleOptions where
  fingerprint : String
  createdAt : IsoTimestamp
  generatorVersion : Units
  includeSymbols : Bool

/-- `readAnalysisCounts`. -/
def readAnalysisCounts (copy : SqliteLedger) (dumpId : DumpId) : Nat :=
  (copy.analyses.rows.filter fun analysis => decide (analysis.identity.dumpId = dumpId)).length

/-- `openPreparedExport`: what is selected of the snapshot, with the backup `copy`. -/
def openPreparedExport (options : ExportBundleOptions) (snapshot copy : SqliteLedger) :
    Except Thrown ExportManifest := do
  guardThat (copy.analysisDetails.isEmpty = true)
    (invalidTransition "export format v1 cannot preserve canonical analysis details")
  selectManifest snapshot options.fingerprint options.createdAt options.generatorVersion
    options.includeSymbols (readStoredFacts copy) (readAnalysisCounts copy)

/-! ## Entries -/

/-- `STREAM_CHUNK_SIZE`. -/
def streamChunkSize : Nat := 1024 * 1024

/-- A file as it is streamed. -/
def streamChunks (bytes : Bytes) : List Bytes :=
  if bytes = [] then []
  else bytes.take streamChunkSize :: streamChunks (bytes.drop streamChunkSize)
  termination_by bytes.length
  decreasing_by
    next hne =>
      have hpos := List.length_pos_of_ne_nil hne
      rw [List.length_drop]
      exact Nat.sub_lt hpos (by decide)

/-- `addEntry`, an `append` for each chunk, and `finish`; the clock of the writer is at zero. -/
def streamEntry (w : TarWriter) (name : String) (size : Nat) (chunks : List Bytes) :
    Except Thrown TarWriter := do
  let added ← w.addEntry name size 0
  let filled ← chunks.foldlM TarWriter.append added
  filled.finishEntry

def writeBytesEntry (w : TarWriter) (name : String) (bytes : Bytes) : Except Thrown TarWriter :=
  streamEntry w name bytes.length [bytes]

def writeFileEntry (w : TarWriter) (name : String) (bytes : Bytes) : Except Thrown TarWriter :=
  streamEntry w name bytes.length (streamChunks bytes)

def raceFailure (id detail : String) : Thrown :=
  .ledgerError .storageUnavailable s!"retryable: vault bytes for {id} {detail}; rerun the export"

/-- Bytes of the vault, which have to be as long as was recorded. -/
def writeVaultEntry (w : TarWriter) (id name : String) (size : Nat) (bytes : Option Bytes) :
    Except Thrown TarWriter := do
  let bytes ← orThrow bytes (raceFailure id "vanished before the export could open them")
  guardThat (bytes.length = size)
    (raceFailure id s!"changed size mid-export (recorded {size}, found {bytes.length})")
  streamEntry w name size (streamChunks bytes)

section Run

variable (vaults : Vaults)

def writeDumpEntry (w : TarWriter) (dump : DumpRow) : Except Thrown TarWriter :=
  match dump.byteSize, dump.sha256 with
  | some byteSize, some _ =>
    writeVaultEntry w dump.dumpId.text (dumpEntryName dump.dumpId) byteSize
      (vaults.dumps.object? dump.dumpId)
  | _, _ =>
    .error (integrityFailure
      s!"available dump {dump.dumpId.text} has no recorded size or hash")

def writeSymbolEntry (w : TarWriter) (symbol : ExportManifestSymbol) : Except Thrown TarWriter :=
  writeVaultEntry w symbol.artifactId.text symbol.entry symbol.byteSize
    (vaults.symbols.object? symbol.artifactId)

/-- The dumps of the snapshot whose bytes are promised, in the order of their identifiers. -/
def availableDumps (snapshot : SqliteLedger) : List DumpRow :=
  (snapshot.dumps.sorted.filter fun d => decide (d.phase = .available)).mergeSort
    fun a b => decide (a.dumpId ≤ b.dumpId)

/-- The archive that `run` seals. -/
def writeBundle (manifest : ExportManifest) (snapshot : SqliteLedger) (ledgerFile : Bytes) :
    Except Thrown Bytes := do
  let w ← createTarWriter 0o644
  let w ← writeBytesEntry w "manifest.json" (serializeExportManifest manifest)
  let w ← writeFileEntry w "ledger.sqlite" ledgerFile
  let w ← (availableDumps snapshot).foldlM (writeDumpEntry vaults) w
  let w ← (manifest.symbols.getD []).foldlM (writeSymbolEntry vaults) w
  let w ← w.finish
  return w.archive

end Run

/-! ## The session -/

structure Session where
  exportId : String
  createdAt : IsoTimestamp
  manifest : ExportManifest
  snapshot : SqliteLedger
  settled : Bool

inductive ExportStatus
  | sealed | failed
  deriving DecidableEq, Repr

structure ExportSummary where
  exportId : String
  status : ExportStatus
  createdAt : IsoTimestamp
  byteSize : Option Nat
  error : Option String

/-- `createExportSession`, up to the directory of the export. -/
def createExportSession (options : ExportBundleOptions) (exportId : String)
    (snapshot copy : SqliteLedger) : Except Thrown Session := do
  let manifest ← openPreparedExport options snapshot copy
  return { exportId, createdAt := options.createdAt, manifest, snapshot, settled := false }

/-- `run`: the summary, and the bundle if one was sealed. `sealFails` is what the file system does
when the bundle is put in its place. -/
def run (session : Session) (ledgerFile : Bytes) (vaults : Vaults) (sealFails : Option Thrown) :
    Except Thrown (ExportSummary × Option Bytes) × Session :=
  if session.settled = true then
    (.error (invalidTransition s!"export {session.exportId} has already settled"), session)
  else
    let written := writeBundle vaults session.manifest session.snapshot ledgerFile
    let after := { session with settled := true }
    let failed (e : Thrown) : ExportSummary × Option Bytes :=
      (⟨session.exportId, .failed, session.createdAt, none, some (ImportSession.errorMessage e)⟩,
        none)
    match written, sealFails with
    | .error e, _ => (.ok (failed e), after)
    | .ok _, some e => (.ok (failed e), after)
    | .ok archive, none =>
      (.ok (⟨session.exportId, .sealed, session.createdAt, some archive.length, none⟩,
        some archive), after)

/-- `discard`. -/
def discard (session : Session) : Session := { session with settled := true }

end DumpLedger.ExportSession
