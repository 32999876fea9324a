import DumpLedger.Ledger.Analyses
import DumpLedger.Ledger.Imports
import DumpLedger.Ledger.Symbols

/-!
# Ledger transactions

`LedgerOp` names a call of one of the ledger's writing methods with its checked
arguments, and `LedgerOp.run` makes the call. Every change the engine makes to the
database is one such run, so an invariant of the ledger is an invariant of `run`.

`noResult_eq_ok` and `withResult_eq_ok` reduce a committed run to the operation's own
`_eq_ok` lemma.
-/

namespace DumpLedger

open Lib

inductive LedgerOp
  | createCustomer (customerId : CustomerId) (displayName : BoundedText 200)
  | createCase (caseId : CaseId) (customerId : CustomerId) (title : BoundedText 500)
  | startInvestigation (caseId : CaseId)
  | waitForCustomer (caseId : CaseId)
  | resumeInvestigation (caseId : CaseId)
  | resolveCase (caseId : CaseId)
  | closeCase (caseId : CaseId)
  | issueGrant (grantId : GrantId) (caseId : CaseId) (secretDigest : BoundedText 128)
      (expiresAt : IsoTimestamp) (maxBytes : ℕ+) (maxUploads : Nat)
      (hmax : 1 ≤ maxUploads ∧ maxUploads ≤ maxGrantUploadSlots)
  | transitionGrant (grantId : GrantId) (next : SqliteLedger.GrantEnd)
  | beginUpload (grantId : GrantId) (dumpId : DumpId) (originalName : BoundedText 1024)
  | sealUpload (dumpId : DumpId) (byteSize : Nat) (sha256 : Sha256)
  | failUpload (dumpId : DumpId)
  | recordPromoted (dumpId : DumpId)
  | markQuarantined (dumpId : DumpId)
  | acceptDump (dumpId : DumpId) (coverage : CoverageKind) (facts : JsonObject)
  | rejectDump (dumpId : DumpId) (reason : String)
  | authorizeDownload (dumpId : DumpId)
  | setRetention (dumpId : DumpId) (purgeAt : IsoTimestamp)
  | beginPurge (dumpId : DumpId)
  | finishPurge (dumpId : DumpId)
  | recordAnalysis (insert : AnalysisInsert) (detail : Option RichAnalysisDetail)
  | sealSymbolArtifact (insert : SymbolArtifactInsert)
  | purgeSymbolArtifact (artifactId : SymbolArtifactId)
  | beginImport (manifestDigest : BoundedText 128) (counts : ImportCounts)
  | importCustomer (record : ImportCustomerInsert)
  | importCase (record : CaseRow)
  | importGrant (record : GrantRow) (forceRevoked : Bool)
  | importDumpStaged (record : ImportDumpStagedInsert)
  | importDumpTombstone (record : ImportDumpTombstoneInsert)
  | importAuditEvent (record : AuditEventRow)
  | finishImport (importId : AuditEventId) (summary : ImportSummary)

/-- What a transaction hands back to the engine. -/
inductive LedgerResult
  | done
  | customerNo (n : Nat)
  | revoked (grantIds : List GrantId)
  | dump (dump : DumpRow)
  | analysis (report : AnalysisRow) (replayed : Bool)
  | artifact (artifact : StoredSymbolArtifact) (deduplicated : Bool)

namespace LedgerOp

/-- A transaction that hands nothing back. -/
def noResult (x : Except Thrown SqliteLedger) : Except Thrown (LedgerResult × SqliteLedger) :=
  (fun l => (.done, l)) <$> x

/-- A transaction that hands a value back. -/
def withResult {α : Type} (f : α → LedgerResult) (x : Except Thrown (α × SqliteLedger)) :
    Except Thrown (LedgerResult × SqliteLedger) :=
  (fun r => (f r.1, r.2)) <$> x

def run (sha256 : Bytes → Sha256) (op : LedgerOp) (event : EventIdentity) (l : SqliteLedger) :
    Except Thrown (LedgerResult × SqliteLedger) :=
  match op with
  | createCustomer customerId displayName =>
    withResult .customerNo (l.createCustomer customerId displayName event)
  | createCase caseId customerId title => noResult (l.createCase caseId customerId title event)
  | startInvestigation caseId => noResult (l.startInvestigation caseId event)
  | waitForCustomer caseId => noResult (l.waitForCustomer caseId event)
  | resumeInvestigation caseId => noResult (l.resumeInvestigation caseId event)
  | resolveCase caseId => noResult (l.resolveCase caseId event)
  | closeCase caseId => withResult .revoked (l.closeCase caseId event)
  | issueGrant grantId caseId secretDigest expiresAt maxBytes maxUploads hmax =>
    noResult (l.issueGrant grantId caseId secretDigest expiresAt maxBytes maxUploads hmax event)
  | transitionGrant grantId next => noResult (l.transitionGrant grantId next event)
  | beginUpload grantId dumpId originalName =>
    noResult (l.beginUpload grantId dumpId originalName event)
  | sealUpload dumpId byteSize sha256 => noResult (l.sealUpload dumpId byteSize sha256 event)
  | failUpload dumpId => noResult (l.failUpload dumpId event)
  | recordPromoted dumpId => noResult (l.recordPromoted dumpId event)
  | markQuarantined dumpId => noResult (l.markQuarantined dumpId event)
  | acceptDump dumpId coverage facts => noResult (l.acceptDump dumpId coverage facts event)
  | rejectDump dumpId reason => noResult (l.rejectDump dumpId reason event)
  | authorizeDownload dumpId => withResult .dump (l.authorizeDownload dumpId event)
  | setRetention dumpId purgeAt => noResult (l.setRetention dumpId purgeAt event)
  | beginPurge dumpId => noResult (l.beginPurge dumpId event)
  | finishPurge dumpId => noResult (l.finishPurge dumpId event)
  | recordAnalysis insert detail =>
    withResult (fun r => .analysis r.1 r.2) (l.recordAnalysis insert event detail)
  | sealSymbolArtifact insert =>
    withResult (fun r => .artifact r.1 r.2) (l.sealSymbolArtifact sha256 insert event)
  | purgeSymbolArtifact artifactId => noResult (l.purgeSymbolArtifact sha256 artifactId event)
  | beginImport manifestDigest counts =>
    noResult (l.beginImport event (beginImportDetail event.eventId manifestDigest counts))
  | importCustomer record => noResult (l.importCustomer record event)
  | importCase record => noResult (l.importCase record event)
  | importGrant record forceRevoked => noResult (l.importGrant record forceRevoked event)
  | importDumpStaged record => noResult (l.importDumpStaged record event)
  | importDumpTombstone record => noResult (l.importDumpTombstone record event)
  | importAuditEvent record => noResult (l.importAuditEvent record)
  | finishImport importId summary =>
    noResult (l.finishImport event importId (finishImportDetail importId summary))

@[simp] theorem noResult_eq_ok {x : Except Thrown SqliteLedger} {r : LedgerResult}
    {l' : SqliteLedger} : noResult x = .ok (r, l') ↔ x = .ok l' ∧ r = .done := by
  simp only [noResult, map_eq_ok, Prod.mk.injEq]
  constructor
  · rintro ⟨_, hx, rfl, rfl⟩
    exact ⟨hx, rfl⟩
  · rintro ⟨hx, rfl⟩
    exact ⟨_, hx, rfl, rfl⟩

@[simp] theorem withResult_eq_ok {α : Type} {f : α → LedgerResult}
    {x : Except Thrown (α × SqliteLedger)} {r : LedgerResult} {l' : SqliteLedger} :
    withResult f x = .ok (r, l') ↔ ∃ a, x = .ok (a, l') ∧ r = f a := by
  simp only [withResult, map_eq_ok, Prod.mk.injEq]
  constructor
  · rintro ⟨⟨a, _⟩, hx, rfl, rfl⟩
    exact ⟨a, hx, rfl⟩
  · rintro ⟨a, hx, rfl⟩
    exact ⟨(a, l'), hx, rfl, rfl⟩

end LedgerOp

end DumpLedger
