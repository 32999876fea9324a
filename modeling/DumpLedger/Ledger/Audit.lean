import DumpLedger.Ledger.Schema

/-!
# The audit trail

Every transaction ends with one row in `audit_events`. `AuditAction` lists the words
the ledger itself writes there; an imported event may carry any other text.

`insertAudit_eq_ok` is what every operation uses: the subjects exist, the event
identifier is new, and the only table that changed is `audit_events`.
-/

namespace DumpLedger

open Lib Vocabulary

/-! ## The actions -/

inductive AuditAction
  | createCustomer | createCase
  | startInvestigation | waitForCustomer | resumeInvestigation | resolveCase | closeCase
  | issueGrant | revokeGrant | expireGrant
  | beginUpload | sealUpload | failUpload | promoteObject | markQuarantined
  | acceptDump | rejectDump | authorizeDownload | setRetention | beginPurge | finishPurge
  | recordAnalysis | attachAnalysisDetail
  | ingestSymbol | purgeSymbol
  | beginImport | importCustomer | importCase | importGrant | importDumpStaged | finishImport
  deriving DecidableEq, Repr

namespace AuditAction

/-- The text of the `action` column. -/
def stored : AuditAction → BoundedText 64
  | createCustomer => ⟨"CreateCustomer", by decide⟩
  | createCase => ⟨"CreateCase", by decide⟩
  | startInvestigation => ⟨"StartInvestigation", by decide⟩
  | waitForCustomer => ⟨"WaitForCustomer", by decide⟩
  | resumeInvestigation => ⟨"ResumeInvestigation", by decide⟩
  | resolveCase => ⟨"ResolveCase", by decide⟩
  | closeCase => ⟨"CloseCase", by decide⟩
  | issueGrant => ⟨"IssueGrant", by decide⟩
  | revokeGrant => ⟨"RevokeGrant", by decide⟩
  | expireGrant => ⟨"ExpireGrant", by decide⟩
  | beginUpload => ⟨"BeginUpload", by decide⟩
  | sealUpload => ⟨"SealUpload", by decide⟩
  | failUpload => ⟨"FailUpload", by decide⟩
  | promoteObject => ⟨"PromoteObject", by decide⟩
  | markQuarantined => ⟨"MarkQuarantined", by decide⟩
  | acceptDump => ⟨"AcceptDump", by decide⟩
  | rejectDump => ⟨"RejectDump", by decide⟩
  | authorizeDownload => ⟨"AuthorizeDownload", by decide⟩
  | setRetention => ⟨"SetRetention", by decide⟩
  | beginPurge => ⟨"BeginPurge", by decide⟩
  | finishPurge => ⟨"FinishPurge", by decide⟩
  | recordAnalysis => ⟨"RecordAnalysis", by decide⟩
  | attachAnalysisDetail => ⟨"AttachAnalysisDetail", by decide⟩
  | ingestSymbol => ⟨"IngestSymbol", by decide⟩
  | purgeSymbol => ⟨"PurgeSymbol", by decide⟩
  | beginImport => ⟨"BeginImport", by decide⟩
  | importCustomer => ⟨"ImportCustomer", by decide⟩
  | importCase => ⟨"ImportCase", by decide⟩
  | importGrant => ⟨"ImportGrant", by decide⟩
  | importDumpStaged => ⟨"ImportDumpStaged", by decide⟩
  | finishImport => ⟨"FinishImport", by decide⟩

def text (a : AuditAction) : String := a.stored.text

/-- An action of the ledger's own that is stored as a BeginImport marker is BeginImport. -/
theorem stored_eq_beginImport {a : AuditAction} : a.stored = beginImport.stored ↔ a = beginImport := by
  cases a <;> decide

theorem stored_eq_finishImport {a : AuditAction} :
    a.stored = finishImport.stored ↔ a = finishImport := by
  cases a <;> decide

end AuditAction

/-! ## Writing an event -/

structure EventIdentity where
  eventId : AuditEventId
  occurredAt : IsoTimestamp
  deriving DecidableEq

/-- The row an operation writes. -/
def auditRow (event : EventIdentity) (action : AuditAction) (customerId : Option CustomerId)
    (caseId : Option CaseId) (dumpId : Option DumpId) (detail : JsonObject) : AuditEventRow where
  eventId := event.eventId
  occurredAt := event.occurredAt
  action := action.stored
  customerId := customerId
  caseId := caseId
  dumpId := dumpId
  detail := detail

namespace SqliteLedger

def insertAudit (l : SqliteLedger) (event : EventIdentity) (action : AuditAction)
    (customerId : Option CustomerId) (caseId : Option CaseId) (dumpId : Option DumpId)
    (detail : JsonObject) : Except Thrown SqliteLedger :=
  l.insertAuditEvent (auditRow event action customerId caseId dumpId detail)

/-- The ledger after one more event. -/
def audited (l : SqliteLedger) (row : AuditEventRow)
    (h : l.auditEvents.find? row.eventId = none) : SqliteLedger :=
  { l with auditEvents := l.auditEvents.insert row h }

section Audited

variable {l : SqliteLedger} {row : AuditEventRow} {h : l.auditEvents.find? row.eventId = none}

@[simp] theorem audited_customers : (l.audited row h).customers = l.customers := rfl
@[simp] theorem audited_cases : (l.audited row h).cases = l.cases := rfl
@[simp] theorem audited_grants : (l.audited row h).grants = l.grants := rfl
@[simp] theorem audited_dumps : (l.audited row h).dumps = l.dumps := rfl
@[simp] theorem audited_modules : (l.audited row h).modules = l.modules := rfl
@[simp] theorem audited_analyses : (l.audited row h).analyses = l.analyses := rfl

@[simp] theorem audited_symbolArtifacts :
    (l.audited row h).symbolArtifacts = l.symbolArtifacts := rfl

@[simp] theorem audited_analysisDetails :
    (l.audited row h).analysisDetails = l.analysisDetails := rfl

@[simp] theorem audited_auditEvents :
    (l.audited row h).auditEvents = l.auditEvents.insert row h := rfl

end Audited

/-- The subjects an event names are rows. -/
structure SubjectsExist (l : SqliteLedger) (customerId : Option CustomerId)
    (caseId : Option CaseId) (dumpId : Option DumpId) : Prop where
  customer : ∀ k ∈ customerId, l.customers.contains k = true
  case : ∀ k ∈ caseId, l.cases.contains k = true
  dump : ∀ k ∈ dumpId, l.dumps.contains k = true

theorem insertAudit_eq_ok {l l' : SqliteLedger} {event : EventIdentity} {action : AuditAction}
    {customerId : Option CustomerId} {caseId : Option CaseId} {dumpId : Option DumpId}
    {detail : JsonObject} :
    l.insertAudit event action customerId caseId dumpId detail = .ok l' ↔
      l.SubjectsExist customerId caseId dumpId ∧
        ∃ h : l.auditEvents.find? event.eventId = none,
          l' = l.audited (auditRow event action customerId caseId dumpId detail) h := by
  rw [insertAudit, insertAuditEvent_eq_ok]
  constructor
  · rintro ⟨hcu, hca, hd, h, rfl⟩
    exact ⟨⟨hcu, hca, hd⟩, h, rfl⟩
  · rintro ⟨⟨hcu, hca, hd⟩, h, rfl⟩
    exact ⟨hcu, hca, hd, h, rfl⟩

end SqliteLedger

end DumpLedger
