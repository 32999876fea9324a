import DumpLedger.Transfer.ImportSession

/-!
# One import

`importBundle` runs a session: all rows in the order of the ledger of the bundle, then the symbols,
then each declared dump through its inspection, then the end of the import. Whatever is thrown, it
answers what it has counted.
-/

namespace DumpLedger.ImportSession

open Lib

inductive ImportStatus
  | finished | failed
  deriving DecidableEq, Repr

structure ImportOutcome where
  status : ImportStatus
  counters : Counters
  engineImportId : Option AuditEventId
  error : Option String

section Import

variable (options : EngineOptions) (hosts : Nat → Host)

section Rows

variable (bundle : OpenBundle)

/-- A staged dump goes through its inspection. -/
def completeImported (dumpId : DumpId) : Step Unit := do
  count fun c => { c with verified := c.verified + 1 }
  let phase ← drive (completeStaged options hosts dumpId)
  if phase = .available then count fun c => { c with imported := c.imported + 1 }
  else count fun c => { c with rejected := c.rejected + 1 }

/-- A row of a dump that is not declared was skipped by the export. -/
def importDump (row : BundleDumpRow) : Step Unit :=
  match bundle.manifest.dumps.find? fun declared => decide (declared.dumpId = row.dumpId) with
  | none => return
  | some _ => do
    let disposition ← stageDump options hosts bundle row.dumpId
    match disposition with
    | .staged => completeImported options hosts row.dumpId
    | .tombstoneDeleted => count fun c => { c with imported := c.imported + 1 }
    | .mismatch | .tombstoneRejected => count fun c => { c with rejected := c.rejected + 1 }

/-- The session, from its start to its end. -/
def importRows : Step Unit := do
  count fun c => { c with skipped := bundle.manifest.skipped.length }
  beginStep options hosts bundle
  Prog.forEach (importCustomer options hosts bundle)
    (bundle.rows.customers.map ImportCustomerRecord.customerId)
  Prog.forEach (importCase options hosts bundle) (bundle.rows.cases.map ImportCaseRecord.caseId)
  Prog.forEach (importGrant options hosts bundle)
    (bundle.rows.grants.map ImportGrantRecord.grantId)
  -- a corrupt symbol fails the import before the dumps are there
  let symbols ← importSymbols options hosts bundle
  count fun c => { c with symbols := symbols }
  Prog.forEach (importDump options hosts bundle) bundle.rows.dumps
  finish options hosts bundle

end Rows

/-- What is tried. -/
def runImport (bundleOptions : ImportBundleOptions) : Step Unit := do
  let bundle ← openImportSession options.digests.sha256 bundleOptions
  importRows options hosts bundle

/-- What was counted, and the error if there is one. -/
def outcomeOf (result : Except Thrown Unit) (s : Importing) : ImportOutcome :=
  match result with
  | .ok () => ⟨.finished, s.counters, s.session.engineImportId, none⟩
  | .error e => ⟨.failed, s.counters, s.session.engineImportId, some (errorMessage e)⟩

def importBundle (bundleOptions : ImportBundleOptions) (m : Machine) : ImportOutcome × Machine :=
  let out := runImport options hosts bundleOptions ⟨m, {}, {}⟩
  (outcomeOf out.1 out.2, out.2.machine)

end Import

end DumpLedger.ImportSession
