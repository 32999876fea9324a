import DumpLedger.Ledger.Lifecycle

/-!
# The import path of the ledger

An import is open while the trail holds a BeginImport marker that no FinishImport
event names. Nothing else stores it: `unfinishedImportId` reads the trail, and every
`import*` transaction asks it first.

`importAuditEvent` writes a foreign event verbatim into that same trail.
-/

namespace DumpLedger

open Lib Vocabulary

/-! ## Records -/

structure ImportCounts where
  customers : Nat
  cases : Nat
  grants : Nat
  dumps : Nat
  auditEvents : Option Nat
  deriving DecidableEq

namespace ImportCounts

def toJson (c : ImportCounts) : Json :=
  .obj ([("customers", .num (.int c.customers)), ("cases", .num (.int c.cases)),
    ("grants", .num (.int c.grants)), ("dumps", .num (.int c.dumps))] ++
    match c.auditEvents with
    | some n => [("auditEvents", .num (.int n))]
    | none => [])

end ImportCounts

structure ImportSummary where
  imported : ImportCounts
  skipped : Nat
  deriving DecidableEq

structure ImportCustomerInsert where
  customerId : CustomerId
  displayName : BoundedText 200
  createdAt : IsoTimestamp
  customerNo : Option Nat

structure ImportDumpStagedInsert where
  dumpId : DumpId
  caseId : CaseId
  originalName : BoundedText 1024
  byteSize : Nat
  sha256 : Sha256
  receivedAt : IsoTimestamp
  purgeAt : Option IsoTimestamp

namespace ImportDumpStagedInsert

/-- An imported dump starts over at sealed, with its bytes in staging. -/
def row (r : ImportDumpStagedInsert) : DumpRow where
  dumpId := r.dumpId
  caseId := r.caseId
  phase := .sealed
  blobState := .staging
  originalName := r.originalName
  byteSize := some r.byteSize
  sha256 := some r.sha256
  validation := .notChecked
  coverage := none
  downloadable := false
  inspectionError := none
  inspectionFacts := none
  receivedAt := r.receivedAt
  availableAt := none
  purgeAt := r.purgeAt
  purgedAt := none

end ImportDumpStagedInsert

inductive TombstonePhase
  | rejected
  | deleted
  deriving DecidableEq, Repr

def TombstonePhase.phase : TombstonePhase → DumpPhase
  | rejected => .rejected
  | deleted => .deleted

structure ImportDumpTombstoneInsert where
  dumpId : DumpId
  caseId : CaseId
  phase : TombstonePhase
  originalName : BoundedText 1024
  byteSize : Option Nat
  sha256 : Option Sha256
  validation : ValidationState
  coverage : Option CoverageKind
  inspectionError : Option (BoundedText 2000)
  inspectionFacts : Option JsonObject
  receivedAt : IsoTimestamp
  availableAt : Option IsoTimestamp
  purgeAt : Option IsoTimestamp
  purgedAt : Option IsoTimestamp

namespace ImportDumpTombstoneInsert

/-- A tombstone has no bytes. -/
def row (r : ImportDumpTombstoneInsert) : DumpRow where
  dumpId := r.dumpId
  caseId := r.caseId
  phase := r.phase.phase
  blobState := .none
  originalName := r.originalName
  byteSize := r.byteSize
  sha256 := r.sha256
  validation := r.validation
  coverage := r.coverage
  downloadable := false
  inspectionError := r.inspectionError.map BoundedText.text
  inspectionFacts := r.inspectionFacts
  receivedAt := r.receivedAt
  availableAt := r.availableAt
  purgeAt := r.purgeAt
  purgedAt := r.purgedAt

end ImportDumpTombstoneInsert

namespace AuditEventRow

/-- `detail.importId`, when it is a string. -/
def importId? (e : AuditEventRow) : Option String :=
  match JsonObject.get? e.detail "importId" with
  | some (.str id) => some id
  | _ => none

/-- `detail.manifestDigest`, null unless it is a string. -/
def manifestDigest (e : AuditEventRow) : Json :=
  match JsonObject.get? e.detail "manifestDigest" with
  | some (.str digest) => .str digest
  | _ => .null

def isBeginImport (e : AuditEventRow) : Bool := decide (e.action = AuditAction.beginImport.stored)

def isFinishImport (e : AuditEventRow) : Bool :=
  decide (e.action = AuditAction.finishImport.stored)

end AuditEventRow

/-- The detail of a `BeginImport` event. -/
def beginImportDetail (importId : AuditEventId) (manifestDigest : BoundedText 128)
    (counts : ImportCounts) : JsonObject :=
  [("importId", .str importId.text), ("manifestDigest", .str manifestDigest.text),
    ("counts", counts.toJson)]

/-- The detail of a `FinishImport` event, before the digest of the marker is put first. -/
def finishImportDetail (importId : AuditEventId) (summary : ImportSummary) : JsonObject :=
  [("importId", .str importId.text), ("imported", summary.imported.toJson),
    ("skipped", .num (.int summary.skipped))]

namespace SqliteLedger

/-! ## The import window -/

def isEmpty (l : SqliteLedger) : Bool :=
  l.customers.isEmpty && l.cases.isEmpty && l.grants.isEmpty && l.dumps.isEmpty

/-- The imports some FinishImport event names. -/
def finishedImportIds (l : SqliteLedger) : List String :=
  (l.auditEvents.rows.filter AuditEventRow.isFinishImport).filterMap AuditEventRow.importId?

/-- The BeginImport markers, oldest first. -/
def begunImportIds (l : SqliteLedger) : List AuditEventId :=
  (l.auditEvents.rows.filter AuditEventRow.isBeginImport).map AuditEventRow.eventId

def unfinishedImportId (l : SqliteLedger) : Option AuditEventId :=
  l.begunImportIds.find? fun candidate => decide (candidate.text ∉ l.finishedImportIds)

def importIsFinished (l : SqliteLedger) (importId : AuditEventId) : Bool :=
  decide (importId.text ∈ l.finishedImportIds)

def requireImportInProgress (l : SqliteLedger) : Except Thrown Unit :=
  guardThat (l.unfinishedImportId ≠ none) (invalidTransition "no import is in progress")

def beginImport (l : SqliteLedger) (event : EventIdentity) (detail : JsonObject) :
    Except Thrown SqliteLedger := do
  guardThat (l.isEmpty = true) (invalidTransition "import requires an empty ledger")
  guardThat (l.unfinishedImportId = none) (invalidTransition "an import is already in progress")
  l.insertAudit event .beginImport none none none detail

def finishImport (l : SqliteLedger) (event : EventIdentity) (importId : AuditEventId)
    (detail : JsonObject) : Except Thrown SqliteLedger := do
  let marker ← orThrow ((l.auditEvents.find? importId).filter AuditEventRow.isBeginImport)
    (notFound "import was not found")
  guardThat (l.importIsFinished importId = false)
    (invalidTransition "import has already been finished")
  l.insertAudit event .finishImport none none none
    (("manifestDigest", marker.manifestDigest) :: detail)

/-! ## Records -/

def importCustomer (l : SqliteLedger) (record : ImportCustomerInsert) (event : EventIdentity) :
    Except Thrown SqliteLedger := do
  l.requireImportInProgress
  guardThat (l.customers.contains record.customerId = false)
    (invalidInput "import customer already exists")
  let customerNo := record.customerNo.getD l.nextCustomerNo
  let l ← l.insertCustomer
    { customerId := record.customerId, displayName := record.displayName,
      createdAt := record.createdAt, customerNo }
  l.insertAudit event .importCustomer (some record.customerId) none none []

def importCase (l : SqliteLedger) (record : CaseRow) (event : EventIdentity) :
    Except Thrown SqliteLedger := do
  l.requireImportInProgress
  guardThat (l.customers.contains record.customerId = true)
    (notFound "import customer was not found")
  guardThat (l.cases.contains record.caseId = false) (invalidInput "import case already exists")
  let l ← l.insertCase record
  l.insertAudit event .importCase (some record.customerId) (some record.caseId) none
    [("status", .str (text record.status))]

/-- The state an imported grant gets: an issued one is revoked under a foreign key. -/
def importedState (state : TokenState) (forceRevoked : Bool) : TokenState :=
  if state = .issued ∧ forceRevoked = true then .revoked else state

def importGrant (l : SqliteLedger) (record : GrantRow) (forceRevoked : Bool)
    (event : EventIdentity) : Except Thrown SqliteLedger := do
  l.requireImportInProgress
  guardThat (l.cases.contains record.caseId = true) (notFound "import case was not found")
  guardThat (l.grants.contains record.grantId = false) (invalidInput "import grant already exists")
  guardThat (l.findGrantByDigest record.secretDigest = none)
    (invalidInput "import grant secret digest already exists")
  let state := importedState record.state forceRevoked
  let l ← l.insertGrant { record with state }
  let customerId ← l.customerForCase record.caseId
  l.insertAudit event .importGrant (some customerId) (some record.caseId) none
    [("grantId", .str record.grantId.text), ("state", .str (text state)),
      ("forced", .bool (decide (state ≠ record.state)))]

/-- What both forms of ImportDumpStaged share: the guards, the row and its event. -/
def importDump (l : SqliteLedger) (row : DumpRow) (exportedPhase : DumpPhase)
    (disposition : String) (event : EventIdentity) : Except Thrown SqliteLedger := do
  l.requireImportInProgress
  guardThat (l.cases.contains row.caseId = true) (notFound "import case was not found")
  guardThat (l.dumps.contains row.dumpId = false) (invalidInput "import dump already exists")
  let l ← l.insertDump row
  let customerId ← l.customerForCase row.caseId
  l.insertAudit event .importDumpStaged (some customerId) (some row.caseId) (some row.dumpId)
    [("exportedPhase", .str (text exportedPhase)), ("disposition", .str disposition)]

def importDumpStaged (l : SqliteLedger) (record : ImportDumpStagedInsert)
    (event : EventIdentity) : Except Thrown SqliteLedger :=
  l.importDump record.row .available "staged" event

def importDumpTombstone (l : SqliteLedger) (record : ImportDumpTombstoneInsert)
    (event : EventIdentity) : Except Thrown SqliteLedger :=
  l.importDump record.row record.phase.phase "tombstone" event

def importAuditEvent (l : SqliteLedger) (record : AuditEventRow) : Except Thrown SqliteLedger := do
  l.requireImportInProgress
  guardThat (l.auditEvents.contains record.eventId = false)
    (invalidInput "import audit event already exists")
  l.insertAuditEvent record

/-! ## When an operation commits -/

section Committed

variable {l l' : SqliteLedger} {event : EventIdentity}

theorem requireImportInProgress_eq_ok {u : Unit} :
    l.requireImportInProgress = .ok u ↔ l.unfinishedImportId ≠ none :=
  guardThat_eq_ok

theorem isEmpty_eq_true :
    l.isEmpty = true ↔ (∀ r, r ∉ l.customers) ∧ (∀ r, r ∉ l.cases) ∧ (∀ r, r ∉ l.grants) ∧
      ∀ r, r ∉ l.dumps := by
  simp only [isEmpty, Bool.and_eq_true, Table.isEmpty_iff, and_assoc]

theorem findGrantByDigest_eq_none {d : BoundedText 128} :
    l.findGrantByDigest d = none ↔ ∀ g ∈ l.grants, g.secretDigest ≠ d := by
  rw [findGrantByDigest, List.find?_eq_none]
  simp

theorem findGrantByDigest_eq_some {d : BoundedText 128} {g : GrantRow}
    (h : l.findGrantByDigest d = some g) : g ∈ l.grants ∧ g.secretDigest = d :=
  ⟨List.mem_of_find?_eq_some h, by simpa using List.find?_some h⟩

theorem importedState_eq_consumed {state : TokenState} {forceRevoked : Bool} :
    importedState state forceRevoked = .consumed ↔ state = .consumed := by
  cases state <;> cases forceRevoked <;> decide

theorem beginImport_eq_ok {detail : JsonObject} :
    l.beginImport event detail = .ok l' ↔
      l.isEmpty = true ∧ l.unfinishedImportId = none ∧
        ∃ he : l.auditEvents.find? event.eventId = none,
          l' = l.audited (auditRow event .beginImport none none none detail) he := by
  simp only [beginImport, bind_eq_ok, guardThat_eq_ok, insertAudit_eq_ok]
  constructor
  · rintro ⟨-, hempty, -, hopen, -, he, rfl⟩
    exact ⟨hempty, hopen, he, rfl⟩
  · rintro ⟨hempty, hopen, he, rfl⟩
    exact ⟨(), hempty, (), hopen, ⟨by simp, by simp, by simp⟩, he, rfl⟩

theorem finishImport_eq_ok {importId : AuditEventId} {detail : JsonObject} :
    l.finishImport event importId detail = .ok l' ↔
      ∃ marker, l.auditEvents.find? importId = some marker ∧ marker.isBeginImport = true ∧
        l.importIsFinished importId = false ∧
          ∃ he : l.auditEvents.find? event.eventId = none,
            l' = l.audited (auditRow event .finishImport none none none
              (("manifestDigest", marker.manifestDigest) :: detail)) he := by
  simp only [finishImport, bind_eq_ok, orThrow_eq_ok, Option.filter_eq_some_iff, guardThat_eq_ok,
    insertAudit_eq_ok]
  constructor
  · rintro ⟨m, ⟨hm, hb⟩, -, hf, -, he, rfl⟩
    exact ⟨m, hm, hb, hf, he, rfl⟩
  · rintro ⟨m, hm, hb, hf, he, rfl⟩
    exact ⟨m, ⟨hm, hb⟩, (), hf, ⟨by simp, by simp, by simp⟩, he, rfl⟩

theorem importCustomer_eq_ok {record : ImportCustomerInsert} :
    l.importCustomer record event = .ok l' ↔
      l.unfinishedImportId ≠ none ∧
        (∀ r ∈ l.customers, r.customerNo ≠ record.customerNo.getD l.nextCustomerNo) ∧
          ∃ hc : l.customers.find? record.customerId = none,
            ∃ he : l.auditEvents.find? event.eventId = none,
              l' = { l with
                    customers := l.customers.insert
                      ⟨record.customerId, record.displayName, record.createdAt,
                        record.customerNo.getD l.nextCustomerNo⟩ hc }.audited
                      (auditRow event .importCustomer (some record.customerId) none none [])
                      he := by
  simp only [importCustomer, bind_eq_ok, requireImportInProgress_eq_ok, guardThat_eq_ok,
    insertCustomer_eq_ok, insertAudit_eq_ok, Table.contains_eq_false]
  constructor
  · rintro ⟨-, hopen, -, -, _, ⟨hno, hc, rfl⟩, -, he, rfl⟩
    exact ⟨hopen, hno, hc, he, rfl⟩
  · rintro ⟨hopen, hno, hc, he, rfl⟩
    exact ⟨(), hopen, (), hc, _, ⟨hno, hc, rfl⟩, ⟨by simp, by simp, by simp⟩, he, rfl⟩

theorem importCase_eq_ok {record : CaseRow} :
    l.importCase record event = .ok l' ↔
      l.unfinishedImportId ≠ none ∧ l.customers.contains record.customerId = true ∧
        ∃ hc : l.cases.find? record.caseId = none,
          ∃ he : l.auditEvents.find? event.eventId = none,
            l' = { l with cases := l.cases.insert record hc }.audited
                  (auditRow event .importCase (some record.customerId) (some record.caseId) none
                    [("status", .str (text record.status))]) he := by
  simp only [importCase, bind_eq_ok, requireImportInProgress_eq_ok, guardThat_eq_ok,
    insertCase_eq_ok, insertAudit_eq_ok, Table.contains_eq_false]
  constructor
  · rintro ⟨-, hopen, -, hcu, -, -, _, ⟨-, hc, rfl⟩, -, he, rfl⟩
    exact ⟨hopen, hcu, hc, he, rfl⟩
  · rintro ⟨hopen, hcu, hc, he, rfl⟩
    exact ⟨(), hopen, (), hcu, (), hc, _, ⟨hcu, hc, rfl⟩,
      ⟨by simpa using hcu, by simp, by simp⟩, he, rfl⟩

theorem importGrant_eq_ok {record : GrantRow} {forceRevoked : Bool} :
    l.importGrant record forceRevoked event = .ok l' ↔
      l.unfinishedImportId ≠ none ∧
        ∃ c, l.cases.find? record.caseId = some c ∧ l.customers.contains c.customerId = true ∧
          (∀ g ∈ l.grants, g.secretDigest ≠ record.secretDigest) ∧
            ∃ hg : l.grants.find? record.grantId = none,
              ∃ he : l.auditEvents.find? event.eventId = none,
                l' = { l with
                      grants := l.grants.insert
                        { record with state := importedState record.state forceRevoked }
                        hg }.audited
                      (auditRow event .importGrant (some c.customerId) (some record.caseId) none
                        [("grantId", .str record.grantId.text),
                          ("state", .str (text (importedState record.state forceRevoked))),
                          ("forced", .bool
                            (decide (importedState record.state forceRevoked ≠ record.state)))])
                      he := by
  simp only [importGrant, bind_eq_ok, requireImportInProgress_eq_ok, guardThat_eq_ok,
    findGrantByDigest_eq_none, insertGrant_eq_ok, customerForCase_eq_ok, insertAudit_eq_ok,
    Table.contains_eq_false]
  constructor
  · rintro ⟨-, hopen, -, -, -, -, -, hd, _, ⟨-, -, hg, rfl⟩, _, ⟨c, hc, rfl⟩, hs, he, rfl⟩
    exact ⟨hopen, c, hc, by simpa using hs.customer, hd, hg, he, rfl⟩
  · rintro ⟨hopen, c, hc, hcu, hd, hg, he, rfl⟩
    have hcc := Table.contains_of_find? hc
    exact ⟨(), hopen, (), hcc, (), hg, (), hd, _, ⟨hcc, hd, hg, rfl⟩, _, ⟨c, hc, rfl⟩,
      ⟨by simpa using hcu, by simpa using hcc, by simp⟩, he, rfl⟩

theorem importDump_eq_ok {row : DumpRow} {exportedPhase : DumpPhase} {disposition : String} :
    l.importDump row exportedPhase disposition event = .ok l' ↔
      l.unfinishedImportId ≠ none ∧
        ∃ c, l.cases.find? row.caseId = some c ∧ l.customers.contains c.customerId = true ∧
          ∃ hd : l.dumps.find? row.dumpId = none,
            ∃ he : l.auditEvents.find? event.eventId = none,
              l' = { l with dumps := l.dumps.insert row hd }.audited
                    (auditRow event .importDumpStaged (some c.customerId) (some row.caseId)
                      (some row.dumpId)
                      [("exportedPhase", .str (text exportedPhase)),
                        ("disposition", .str disposition)]) he := by
  simp only [importDump, bind_eq_ok, requireImportInProgress_eq_ok, guardThat_eq_ok,
    insertDump_eq_ok, customerForCase_eq_ok, insertAudit_eq_ok, Table.contains_eq_false]
  constructor
  · rintro ⟨-, hopen, -, -, -, -, _, ⟨-, hd, rfl⟩, _, ⟨c, hc, rfl⟩, hs, he, rfl⟩
    exact ⟨hopen, c, hc, by simpa using hs.customer, hd, he, rfl⟩
  · rintro ⟨hopen, c, hc, hcu, hd, he, rfl⟩
    have hcc := Table.contains_of_find? hc
    exact ⟨(), hopen, (), hcc, (), hd, _, ⟨hcc, hd, rfl⟩, _, ⟨c, hc, rfl⟩,
      ⟨by simpa using hcu, by simpa using hcc, by simp⟩, he, rfl⟩

theorem importAuditEvent_eq_ok {record : AuditEventRow} :
    l.importAuditEvent record = .ok l' ↔
      l.unfinishedImportId ≠ none ∧
        l.SubjectsExist record.customerId record.caseId record.dumpId ∧
          ∃ he : l.auditEvents.find? record.eventId = none, l' = l.audited record he := by
  simp only [importAuditEvent, bind_eq_ok, requireImportInProgress_eq_ok, guardThat_eq_ok,
    insertAuditEvent_eq_ok, Table.contains_eq_false]
  constructor
  · rintro ⟨-, hopen, -, -, hcu, hca, hd, he, rfl⟩
    exact ⟨hopen, ⟨hcu, hca, hd⟩, he, rfl⟩
  · rintro ⟨hopen, hs, he, rfl⟩
    exact ⟨(), hopen, (), he, hs.customer, hs.case, hs.dump, he, rfl⟩

end Committed

end SqliteLedger

end DumpLedger
