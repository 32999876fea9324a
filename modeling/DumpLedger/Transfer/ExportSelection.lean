import DumpLedger.Http.SymbolCoverage
import DumpLedger.Transfer.Manifest

/-!
# What an export selects

The manifest of an export is computed from a snapshot of the ledger: a dump in a stable phase is
declared, with its bytes or as a tombstone, and any other dump is skipped. With the symbols, the
artifacts are declared whose identity the facts of a declared dump name; the facts, as the number
of analyses, are read from the backup that the bundle carries.
-/

namespace DumpLedger

open Lib

/-- The version of the last migration, which every opened ledger is at. -/
def runningSchemaMigrations : Nat := 11

/-! ## Symbols -/

/-- `identityKey` of a module that the facts name. -/
def referencedIdentity? (module : Json) : Option String :=
  match module with
  | .obj record =>
    match JsonObject.get? record "debugFile", JsonObject.get? record "debugId" with
    | some (.str debugFile), some (.str debugId) =>
      if debugFile = "" ∨ debugId = "" then none else some (symbolKey debugFile debugId)
    | _, _ => none
  | _ => none

def referencedIdentities (facts : Option JsonObject) : List String :=
  match facts.bind fun o => JsonObject.get? o "modules" with
  | some (.arr modules) => modules.filterMap referencedIdentity?
  | _ => []

/-- The facts that a copy of the ledger has for its dumps. -/
def readStoredFacts (copy : SqliteLedger) (dumpId : DumpId) : Option JsonObject :=
  (copy.dumps.find? dumpId).bind DumpRow.inspectionFacts

def StoredSymbolArtifact.manifestSymbol (a : StoredSymbolArtifact) : ExportManifestSymbol where
  artifactId := a.artifactId
  debugFile := utf16 (a.debugFile.elim "" BoundedText.text)
  debugId := utf16 (a.debugId.elim "" BoundedText.text)
  byteSize := a.byteSize
  sha256 := a.sha256
  entry := symbolEntryName a.artifactId
  product := a.product.map fun t => utf16 t.text
  version := a.version.map fun t => utf16 t.text
  arch := a.arch.map fun t => utf16 t.text

def selectSymbols (artifacts : List StoredSymbolArtifact)
    (factsByDump : DumpId → Option JsonObject) (declared : List DumpId) :
    List ExportManifestSymbol :=
  let referenced := declared.flatMap fun dumpId => referencedIdentities (factsByDump dumpId)
  ((artifacts.filter fun a => decide (a.kind = .pdb) && referenced.contains a.symbolKey).mergeSort
    fun a b => decide (a.artifactId ≤ b.artifactId)).map StoredSymbolArtifact.manifestSymbol

/-! ## Dumps -/

structure ExportSelection where
  dumps : List ExportManifestDump
  skipped : List ExportManifestSkipped

/-- The entry of a dump whose bytes the bundle does not carry. -/
def DumpRow.tombstone (d : DumpRow) (phase : StableDumpPhase) : ExportManifestDump where
  dumpId := d.dumpId
  caseId := d.caseId
  phase := phase
  originalName := utf16 d.originalName.text
  byteSize := d.byteSize
  sha256 := d.sha256
  entry := none

def selectDump (s : ExportSelection) (d : DumpRow) : Except Thrown ExportSelection :=
  match d.phase with
  | .available =>
    if d.byteSize.isNone = true ∨ d.sha256.isNone = true then
      throw (integrityFailure s!"available dump {d.dumpId.text} has no recorded size or hash")
    else
      return { s with
        dumps := s.dumps ++
          [{ d.tombstone .available with entry := some (dumpEntryName d.dumpId) }] }
  | .rejected => return { s with dumps := s.dumps ++ [d.tombstone .rejected] }
  | .deleted => return { s with dumps := s.dumps ++ [d.tombstone .deleted] }
  | phase => return { s with skipped := s.skipped ++ [⟨d.dumpId, phase, utf16 "not-stable"⟩] }

/-- The dumps that a snapshot declares to be stable. -/
def declaredIds (l : SqliteLedger) : List DumpId :=
  (l.dumps.sorted.filter fun d => (stablePhase? d.phase).isSome).map DumpRow.dumpId

/-- An event of a dump that the bundle leaves out is left out. -/
def exportedEvents (l : SqliteLedger) (dumps : List ExportManifestDump) : List AuditEventRow :=
  l.auditEvents.rows.filter fun event =>
    match event.dumpId with
    | none => true
    | some dumpId => (dumps.map ExportManifestDump.dumpId).contains dumpId

/-- `select`, from the snapshot `l`. -/
def selectExport (l : SqliteLedger) (fingerprint : String) (createdAt : IsoTimestamp)
    (generatorVersion : Units) (symbols : Option (List ExportManifestSymbol))
    (analysisCounts : DumpId → Nat) : Except Thrown ExportManifest := do
  let selection ← l.dumps.sorted.foldlM selectDump ⟨[], []⟩
  let dumps := selection.dumps.mergeSort fun a b => decide (a.dumpId ≤ b.dumpId)
  let skipped := selection.skipped.mergeSort fun a b => decide (a.dumpId ≤ b.dumpId)
  return {
    createdAt
    generator := { version := generatorVersion, schemaMigrations := runningSchemaMigrations }
    grantKeyFingerprint := utf16 fingerprint
    counts := {
      customers := l.customers.rows.length
      cases := l.cases.rows.length
      grants := l.grants.rows.length
      dumps := dumps.length
      auditEvents := some (exportedEvents l dumps).length
      symbols := symbols.map List.length }
    skippedAnalyses := some ((dumps.map fun d => analysisCounts d.dumpId).sum)
    skipped
    dumps
    symbols }

/-- `openPreparedExport`: the symbols are selected when they are asked for. -/
def selectManifest (l : SqliteLedger) (fingerprint : String) (createdAt : IsoTimestamp)
    (generatorVersion : Units) (includeSymbols : Bool) (factsByDump : DumpId → Option JsonObject)
    (analysisCounts : DumpId → Nat) : Except Thrown ExportManifest :=
  selectExport l fingerprint createdAt generatorVersion
    (if includeSymbols = true then
      some (selectSymbols l.debugSymbols factsByDump (declaredIds l))
    else none)
    analysisCounts

end DumpLedger
