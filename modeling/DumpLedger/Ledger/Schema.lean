import DumpLedger.Lib.Table
import DumpLedger.Domain.Ids
import DumpLedger.Domain.Json
import DumpLedger.Domain.Lifecycle
import DumpLedger.Domain.Timestamp

/-!
# The tables

The schema after the last migration, one row type per table. A column the commands
only ever write checked values to has the checked type; the CHECK constraints of
`upload_grants` and `analysis_details` are fields of their rows.

The `INSERT` helpers refuse what the schema refuses: a taken primary key
(`Table.insert?`), a taken UNIQUE value, a foreign key that names no row.
`audit_events` keeps the insertion order, which is its `rowid` order.
-/

namespace DumpLedger

open Lib

/-- `MAX_GRANT_UPLOAD_SLOTS`. -/
def maxGrantUploadSlots : Nat := 128

/-! ## Rows -/

structure CustomerRow where
  customerId : CustomerId
  displayName : BoundedText 200
  createdAt : IsoTimestamp
  customerNo : Nat
  deriving DecidableEq

structure CaseRow where
  caseId : CaseId
  customerId : CustomerId
  title : BoundedText 500
  status : CaseStatus
  createdAt : IsoTimestamp
  deriving DecidableEq

structure GrantRow where
  grantId : GrantId
  caseId : CaseId
  secretDigest : BoundedText 128
  state : TokenState
  expiresAt : IsoTimestamp
  maxBytes : ℕ+
  maxUploads : Nat
  uploadsUsed : Nat
  consumedByDumpId : Option DumpId
  createdAt : IsoTimestamp
  maxUploads_between : 1 ≤ maxUploads ∧ maxUploads ≤ maxGrantUploadSlots
  uploadsUsed_le : uploadsUsed ≤ maxGrantUploadSlots
  deriving DecidableEq

structure DumpRow where
  dumpId : DumpId
  caseId : CaseId
  phase : DumpPhase
  blobState : BlobState
  originalName : BoundedText 1024
  byteSize : Option Nat
  sha256 : Option Sha256
  validation : ValidationState
  coverage : Option CoverageKind
  downloadable : Bool
  inspectionError : Option String
  inspectionFacts : Option JsonObject
  receivedAt : IsoTimestamp
  availableAt : Option IsoTimestamp
  purgeAt : Option IsoTimestamp
  purgedAt : Option IsoTimestamp

structure AuditEventRow where
  eventId : AuditEventId
  occurredAt : IsoTimestamp
  action : BoundedText 64
  customerId : Option CustomerId
  caseId : Option CaseId
  dumpId : Option DumpId
  detail : JsonObject

/-- A module carries a debug identity, a code identity, or both. -/
structure ModuleRow where
  moduleId : String
  debugFile : Option (BoundedText 255)
  debugId : Option (BoundedText 64)
  codeFile : Option (BoundedText 255)
  codeId : Option (BoundedText 64)
  product : Option (BoundedText 200)
  version : Option (BoundedText 200)
  arch : Option (BoundedText 64)
  createdAt : IsoTimestamp
  deriving DecidableEq

structure SymbolArtifactRow where
  artifactId : SymbolArtifactId
  moduleId : String
  kind : SymbolArtifactKind
  byteSize : ℕ+
  sha256 : Sha256
  createdAt : IsoTimestamp
  deriving DecidableEq

/-- The columns a repeated `RecordAnalysis` is recognised by. -/
structure AnalysisIdentity where
  dumpId : DumpId
  analyzerName : String
  analyzerVersion : String
  kind : String
  inputSha256 : Sha256
  deriving DecidableEq

structure AnalysisRow where
  analysisId : AnalysisId
  identity : AnalysisIdentity
  outcome : AnalysisOutcome
  summary : String
  facts : Option JsonObject
  duplicateOf : Option DumpId
  createdAt : IsoTimestamp

/-- A canonical report; the text is at most 512 KiB. -/
structure RichAnalysisDetail where
  reportDigest : Sha256
  reportJson : String
  reportJson_le : reportJson.utf8ByteSize ≤ 524288
  deriving DecidableEq

structure AnalysisDetailRow where
  analysisId : AnalysisId
  detail : RichAnalysisDetail
  deriving DecidableEq

instance : Keyed CustomerRow CustomerId := ⟨CustomerRow.customerId⟩
instance : Keyed CaseRow CaseId := ⟨CaseRow.caseId⟩
instance : Keyed GrantRow GrantId := ⟨GrantRow.grantId⟩
instance : Keyed DumpRow DumpId := ⟨DumpRow.dumpId⟩
instance : Keyed AuditEventRow AuditEventId := ⟨AuditEventRow.eventId⟩
instance : Keyed ModuleRow String := ⟨ModuleRow.moduleId⟩
instance : Keyed SymbolArtifactRow SymbolArtifactId := ⟨SymbolArtifactRow.artifactId⟩
instance : Keyed AnalysisRow AnalysisId := ⟨AnalysisRow.analysisId⟩
instance : Keyed AnalysisDetailRow AnalysisId := ⟨AnalysisDetailRow.analysisId⟩

@[simp] theorem key_customer (r : CustomerRow) : key r = r.customerId := rfl
@[simp] theorem key_case (r : CaseRow) : key r = r.caseId := rfl
@[simp] theorem key_grant (r : GrantRow) : key r = r.grantId := rfl
@[simp] theorem key_dump (r : DumpRow) : key r = r.dumpId := rfl
@[simp] theorem key_auditEvent (r : AuditEventRow) : key r = r.eventId := rfl
@[simp] theorem key_module (r : ModuleRow) : key r = r.moduleId := rfl
@[simp] theorem key_symbolArtifact (r : SymbolArtifactRow) : key r = r.artifactId := rfl
@[simp] theorem key_analysis (r : AnalysisRow) : key r = r.analysisId := rfl
@[simp] theorem key_analysisDetail (r : AnalysisDetailRow) : key r = r.analysisId := rfl

/-! ## The ledger -/

/-- The state of the database: what a transaction reads and writes. -/
structure SqliteLedger where
  customers : Table CustomerRow
  cases : Table CaseRow
  grants : Table GrantRow
  dumps : Table DumpRow
  auditEvents : Table AuditEventRow
  modules : Table ModuleRow
  symbolArtifacts : Table SymbolArtifactRow
  analyses : Table AnalysisRow
  analysisDetails : Table AnalysisDetailRow

namespace SqliteLedger

/-- A freshly migrated database. -/
def fresh : SqliteLedger where
  customers := .empty
  cases := .empty
  grants := .empty
  dumps := .empty
  auditEvents := .empty
  modules := .empty
  symbolArtifacts := .empty
  analyses := .empty
  analysisDetails := .empty

/-! ## `INSERT` -/

/-- A foreign key column: NULL, or the key of a row. -/
def references {ρ κ : Type} [Keyed ρ κ] [DecidableEq κ] (t : Table ρ) (k : Option κ) :
    Except Thrown Unit :=
  guardThat (∀ k' ∈ k, t.contains k' = true) sqliteError

def insertCustomer (l : SqliteLedger) (row : CustomerRow) : Except Thrown SqliteLedger := do
  guardThat (∀ r ∈ l.customers.rows, r.customerNo ≠ row.customerNo) sqliteError
  let customers ← orThrow (l.customers.insert? row) sqliteError
  return { l with customers }

def insertCase (l : SqliteLedger) (row : CaseRow) : Except Thrown SqliteLedger := do
  references l.customers (some row.customerId)
  let cases ← orThrow (l.cases.insert? row) sqliteError
  return { l with cases }

def insertGrant (l : SqliteLedger) (row : GrantRow) : Except Thrown SqliteLedger := do
  references l.cases (some row.caseId)
  guardThat (∀ r ∈ l.grants.rows, r.secretDigest ≠ row.secretDigest) sqliteError
  let grants ← orThrow (l.grants.insert? row) sqliteError
  return { l with grants }

def insertDump (l : SqliteLedger) (row : DumpRow) : Except Thrown SqliteLedger := do
  references l.cases (some row.caseId)
  let dumps ← orThrow (l.dumps.insert? row) sqliteError
  return { l with dumps }

def insertAuditEvent (l : SqliteLedger) (row : AuditEventRow) : Except Thrown SqliteLedger := do
  references l.customers row.customerId
  references l.cases row.caseId
  references l.dumps row.dumpId
  let auditEvents ← orThrow (l.auditEvents.insert? row) sqliteError
  return { l with auditEvents }

def insertSymbolArtifact (l : SqliteLedger) (row : SymbolArtifactRow) :
    Except Thrown SqliteLedger := do
  references l.modules (some row.moduleId)
  guardThat (∀ r ∈ l.symbolArtifacts.rows, r.moduleId = row.moduleId → r.kind ≠ row.kind)
    sqliteError
  let symbolArtifacts ← orThrow (l.symbolArtifacts.insert? row) sqliteError
  return { l with symbolArtifacts }

def insertAnalysis (l : SqliteLedger) (row : AnalysisRow) : Except Thrown SqliteLedger := do
  references l.dumps (some row.identity.dumpId)
  guardThat (∀ r ∈ l.analyses.rows, r.identity ≠ row.identity) sqliteError
  let analyses ← orThrow (l.analyses.insert? row) sqliteError
  return { l with analyses }

def insertAnalysisDetail (l : SqliteLedger) (row : AnalysisDetailRow) :
    Except Thrown SqliteLedger := do
  references l.analyses (some row.analysisId)
  let analysisDetails ← orThrow (l.analysisDetails.insert? row) sqliteError
  return { l with analysisDetails }

/-! ## What an `INSERT` that returned did -/

theorem references_eq_ok {ρ κ : Type} [Keyed ρ κ] [DecidableEq κ] {t : Table ρ} {k : Option κ}
    {u : Unit} : references t k = .ok u ↔ ∀ k' ∈ k, t.contains k' = true :=
  guardThat_eq_ok

variable {l l' : SqliteLedger}

theorem insertCustomer_eq_ok {row : CustomerRow} :
    l.insertCustomer row = .ok l' ↔
      (∀ r ∈ l.customers, r.customerNo ≠ row.customerNo) ∧
        ∃ h : l.customers.find? row.customerId = none,
          l' = { l with customers := l.customers.insert row h } := by
  simp only [insertCustomer, bind_eq_ok, guardThat_eq_ok, orThrow_eq_ok, pure_eq_ok,
    Table.insert?_eq_some]
  constructor
  · rintro ⟨-, hno, _, ⟨h, rfl⟩, rfl⟩
    exact ⟨hno, h, rfl⟩
  · rintro ⟨hno, h, rfl⟩
    exact ⟨(), hno, _, ⟨h, rfl⟩, rfl⟩

theorem insertCase_eq_ok {row : CaseRow} :
    l.insertCase row = .ok l' ↔
      l.customers.contains row.customerId = true ∧
        ∃ h : l.cases.find? row.caseId = none,
          l' = { l with cases := l.cases.insert row h } := by
  simp only [insertCase, bind_eq_ok, references_eq_ok, orThrow_eq_ok, pure_eq_ok,
    Table.insert?_eq_some, Option.mem_def, Option.some.injEq, forall_eq']
  constructor
  · rintro ⟨-, hc, _, ⟨h, rfl⟩, rfl⟩
    exact ⟨hc, h, rfl⟩
  · rintro ⟨hc, h, rfl⟩
    exact ⟨(), hc, _, ⟨h, rfl⟩, rfl⟩

theorem insertGrant_eq_ok {row : GrantRow} :
    l.insertGrant row = .ok l' ↔
      l.cases.contains row.caseId = true ∧
        (∀ r ∈ l.grants, r.secretDigest ≠ row.secretDigest) ∧
          ∃ h : l.grants.find? row.grantId = none,
            l' = { l with grants := l.grants.insert row h } := by
  simp only [insertGrant, bind_eq_ok, references_eq_ok, guardThat_eq_ok, orThrow_eq_ok,
    pure_eq_ok, Table.insert?_eq_some, Option.mem_def, Option.some.injEq, forall_eq']
  constructor
  · rintro ⟨-, hc, -, hd, _, ⟨h, rfl⟩, rfl⟩
    exact ⟨hc, hd, h, rfl⟩
  · rintro ⟨hc, hd, h, rfl⟩
    exact ⟨(), hc, (), hd, _, ⟨h, rfl⟩, rfl⟩

theorem insertDump_eq_ok {row : DumpRow} :
    l.insertDump row = .ok l' ↔
      l.cases.contains row.caseId = true ∧
        ∃ h : l.dumps.find? row.dumpId = none,
          l' = { l with dumps := l.dumps.insert row h } := by
  simp only [insertDump, bind_eq_ok, references_eq_ok, orThrow_eq_ok, pure_eq_ok,
    Table.insert?_eq_some, Option.mem_def, Option.some.injEq, forall_eq']
  constructor
  · rintro ⟨-, hc, _, ⟨h, rfl⟩, rfl⟩
    exact ⟨hc, h, rfl⟩
  · rintro ⟨hc, h, rfl⟩
    exact ⟨(), hc, _, ⟨h, rfl⟩, rfl⟩

theorem insertAuditEvent_eq_ok {row : AuditEventRow} :
    l.insertAuditEvent row = .ok l' ↔
      (∀ k ∈ row.customerId, l.customers.contains k = true) ∧
        (∀ k ∈ row.caseId, l.cases.contains k = true) ∧
          (∀ k ∈ row.dumpId, l.dumps.contains k = true) ∧
            ∃ h : l.auditEvents.find? row.eventId = none,
              l' = { l with auditEvents := l.auditEvents.insert row h } := by
  simp only [insertAuditEvent, bind_eq_ok, references_eq_ok, orThrow_eq_ok, pure_eq_ok,
    Table.insert?_eq_some]
  constructor
  · rintro ⟨-, hcu, -, hca, -, hd, _, ⟨h, rfl⟩, rfl⟩
    exact ⟨hcu, hca, hd, h, rfl⟩
  · rintro ⟨hcu, hca, hd, h, rfl⟩
    exact ⟨(), hcu, (), hca, (), hd, _, ⟨h, rfl⟩, rfl⟩

theorem insertSymbolArtifact_eq_ok {row : SymbolArtifactRow} :
    l.insertSymbolArtifact row = .ok l' ↔
      l.modules.contains row.moduleId = true ∧
        (∀ r ∈ l.symbolArtifacts, r.moduleId = row.moduleId → r.kind ≠ row.kind) ∧
          ∃ h : l.symbolArtifacts.find? row.artifactId = none,
            l' = { l with symbolArtifacts := l.symbolArtifacts.insert row h } := by
  simp only [insertSymbolArtifact, bind_eq_ok, references_eq_ok, guardThat_eq_ok,
    orThrow_eq_ok, pure_eq_ok, Table.insert?_eq_some, Option.mem_def, Option.some.injEq,
    forall_eq']
  constructor
  · rintro ⟨-, hm, -, hk, _, ⟨h, rfl⟩, rfl⟩
    exact ⟨hm, hk, h, rfl⟩
  · rintro ⟨hm, hk, h, rfl⟩
    exact ⟨(), hm, (), hk, _, ⟨h, rfl⟩, rfl⟩

theorem insertAnalysis_eq_ok {row : AnalysisRow} :
    l.insertAnalysis row = .ok l' ↔
      l.dumps.contains row.identity.dumpId = true ∧
        (∀ r ∈ l.analyses, r.identity ≠ row.identity) ∧
          ∃ h : l.analyses.find? row.analysisId = none,
            l' = { l with analyses := l.analyses.insert row h } := by
  simp only [insertAnalysis, bind_eq_ok, references_eq_ok, guardThat_eq_ok, orThrow_eq_ok,
    pure_eq_ok, Table.insert?_eq_some, Option.mem_def, Option.some.injEq, forall_eq']
  constructor
  · rintro ⟨-, hd, -, hi, _, ⟨h, rfl⟩, rfl⟩
    exact ⟨hd, hi, h, rfl⟩
  · rintro ⟨hd, hi, h, rfl⟩
    exact ⟨(), hd, (), hi, _, ⟨h, rfl⟩, rfl⟩

theorem insertAnalysisDetail_eq_ok {row : AnalysisDetailRow} :
    l.insertAnalysisDetail row = .ok l' ↔
      l.analyses.contains row.analysisId = true ∧
        ∃ h : l.analysisDetails.find? row.analysisId = none,
          l' = { l with analysisDetails := l.analysisDetails.insert row h } := by
  simp only [insertAnalysisDetail, bind_eq_ok, references_eq_ok, orThrow_eq_ok, pure_eq_ok,
    Table.insert?_eq_some, Option.mem_def, Option.some.injEq, forall_eq']
  constructor
  · rintro ⟨-, ha, _, ⟨h, rfl⟩, rfl⟩
    exact ⟨ha, h, rfl⟩
  · rintro ⟨ha, h, rfl⟩
    exact ⟨(), ha, _, ⟨h, rfl⟩, rfl⟩

end SqliteLedger

end DumpLedger
