import DumpLedger.Ledger.Transaction

/-!
# What a transaction changes

The effect of a committed transaction, table by table, said once. The invariants of the
ledger follow from it by cases on the change, without a look at the transaction.

A dump goes through its phases by `DumpMove`: a guard on the row and an assignment. The
seven phases and the nine moves are the lifecycle as a state machine; `run_changes` says
that a transaction makes no change to a dump that is not a move.

* `Changes` — the changes of the customers, cases, grants, dumps and the trail
* `run_changes` — a committed transaction changes the ledger so
* `Linked`, `run_linked` — every foreign key names a row
-/

namespace DumpLedger

open Lib SqliteLedger

/-! ## The moves of a dump -/

inductive DumpMove
  | sealUpload (byteSize : Nat) (sha256 : Sha256)
  | failUpload
  | recordPromoted
  | markQuarantined
  | acceptDump (coverage : CoverageKind) (facts : JsonObject)
  | rejectDump (reason : String)
  | setRetention (purgeAt : IsoTimestamp)
  | beginPurge
  | finishPurge

namespace DumpMove

/-- The phases a move starts from, and what else it asks of the row. -/
def guard : DumpMove → DumpRow → Bool
  | sealUpload _ _, d | failUpload, d => [DumpPhase.receiving].contains d.phase
  | recordPromoted, d => [DumpPhase.sealed].contains d.phase && decide (d.blobState = .staging)
  | markQuarantined, d =>
    [DumpPhase.sealed].contains d.phase && (decide (d.blobState = .vault) && d.sha256.isSome)
  | acceptDump _ _, d =>
    [DumpPhase.quarantined].contains d.phase && (decide (d.blobState = .vault) && d.sha256.isSome)
  | rejectDump _, d => [DumpPhase.quarantined].contains d.phase && decide (d.blobState = .vault)
  | setRetention _, d | beginPurge, d => [DumpPhase.available, .rejected].contains d.phase
  | finishPurge, d => [DumpPhase.deleting].contains d.phase

def apply (now : IsoTimestamp) : DumpMove → DumpRow → DumpRow
  | sealUpload byteSize sha256, d =>
    { d with phase := .sealed, byteSize := some byteSize, sha256 := some sha256 }
  | failUpload, d =>
    { d with
      phase := .rejected, blobState := .none, validation := .transferFailed,
      downloadable := false }
  | recordPromoted, d => { d with blobState := .vault }
  | markQuarantined, d => { d with phase := .quarantined }
  | acceptDump coverage facts, d =>
    { d with
      phase := .available, validation := .valid, coverage := some coverage, downloadable := true,
      inspectionError := none, inspectionFacts := some facts, availableAt := some now }
  | rejectDump reason, d =>
    { d with
      phase := .rejected, validation := .invalid, downloadable := false,
      inspectionError := some reason }
  | setRetention purgeAt, d => { d with purgeAt := some purgeAt }
  | beginPurge, d => { d with phase := .deleting, downloadable := false }
  | finishPurge, d =>
    { d with
      phase := .deleted, blobState := .none, downloadable := false, purgedAt := some now }

@[simp] theorem apply_dumpId (now : IsoTimestamp) (m : DumpMove) (d : DumpRow) :
    (m.apply now d).dumpId = d.dumpId := by
  cases m <;> rfl

@[simp] theorem apply_caseId (now : IsoTimestamp) (m : DumpMove) (d : DumpRow) :
    (m.apply now d).caseId = d.caseId := by
  cases m <;> rfl

end DumpMove

/-- The move a transaction makes, and the dump it makes it with. -/
def LedgerOp.dumpMove? : LedgerOp → Option (DumpId × DumpMove)
  | .sealUpload dumpId byteSize sha256 => some (dumpId, .sealUpload byteSize sha256)
  | .failUpload dumpId => some (dumpId, .failUpload)
  | .recordPromoted dumpId => some (dumpId, .recordPromoted)
  | .markQuarantined dumpId => some (dumpId, .markQuarantined)
  | .acceptDump dumpId coverage facts => some (dumpId, .acceptDump coverage facts)
  | .rejectDump dumpId reason => some (dumpId, .rejectDump reason)
  | .setRetention dumpId purgeAt => some (dumpId, .setRetention purgeAt)
  | .beginPurge dumpId => some (dumpId, .beginPurge)
  | .finishPurge dumpId => some (dumpId, .finishPurge)
  | _ => none

/-! ## The changes -/

section Tables

variable (op : LedgerOp) (event : EventIdentity) (l : SqliteLedger)

inductive CustomersChange : Table CustomerRow → Prop
  | same : CustomersChange l.customers
  | inserted (row : CustomerRow) (h : l.customers.find? row.customerId = none) :
      CustomersChange (l.customers.insert row h)

/-- The cases and the grants; closing a case is the one change of both. -/
inductive GrantsChange : Table CaseRow → Table GrantRow → Prop
  | same : GrantsChange l.cases l.grants
  | caseInserted (row : CaseRow) (h : l.cases.find? row.caseId = none)
      (hcustomer : l.customers.contains row.customerId = true) :
      GrantsChange (l.cases.insert row h) l.grants
  | caseMoved (caseId : CaseId) (next : CaseStatus) (hnext : next ≠ .closed) :
      GrantsChange
        (l.cases.updateKey caseId (fun c => { c with status := next }) (fun _ => rfl)) l.grants
  | caseClosed (caseId : CaseId) :
      GrantsChange
        (l.cases.updateKey caseId (fun c => { c with status := .closed }) (fun _ => rfl))
        (l.grantsRevokedFor caseId)
  | issued (row : GrantRow) (c : CaseRow) (h : l.grants.find? row.grantId = none)
      (hcase : l.cases.find? row.caseId = some c) (hopen : c.status ≠ .closed)
      (hissued : row.state = .issued) (hunused : row.uploadsUsed = 0) :
      GrantsChange l.cases (l.grants.insert row h)
  | imported (record : GrantRow) (forceRevoked : Bool) (c : CaseRow)
      (hop : op = .importGrant record forceRevoked)
      (h : l.grants.find? record.grantId = none) (hcase : l.cases.find? record.caseId = some c) :
      GrantsChange l.cases
        (l.grants.insert { record with state := importedState record.state forceRevoked } h)
  | ended (g : GrantRow) (next : GrantEnd) (hg : l.grants.find? g.grantId = some g)
      (hissued : g.state = .issued) :
      GrantsChange l.cases
        (l.grants.updateKey g.grantId (fun g => { g with state := next.state }) (fun _ => rfl))
  | slotTaken (g : GrantRow) (c : CaseRow) (dumpId : DumpId) (originalName : BoundedText 1024)
      (hop : op = .beginUpload g.grantId dumpId originalName)
      (hg : l.grants.find? g.grantId = some g) (hissued : g.state = .issued)
      (hfree : g.uploadsUsed < g.maxUploads) (hcase : l.cases.find? g.caseId = some c)
      (hopen : c.status ≠ .closed) :
      GrantsChange l.cases
        (l.grants.updateKey g.grantId (GrantRow.takeSlot dumpId) (GrantRow.takeSlot_grantId dumpId))

/-- The rows a dump starts with. -/
inductive NewDump : DumpRow → Prop
  | received {grantId : GrantId} {dumpId : DumpId} {caseId : CaseId}
      {originalName : BoundedText 1024} (hop : op = .beginUpload grantId dumpId originalName) :
      NewDump (.receiving dumpId caseId originalName event.occurredAt)
  | staged {record : ImportDumpStagedInsert} (hop : op = .importDumpStaged record) :
      NewDump record.row
  | tombstone {record : ImportDumpTombstoneInsert} (hop : op = .importDumpTombstone record) :
      NewDump record.row

inductive DumpsChange : Table DumpRow → Prop
  | same : DumpsChange l.dumps
  | inserted (row : DumpRow) (h : l.dumps.find? row.dumpId = none) (hnew : NewDump op event row)
      (hcase : l.cases.contains row.caseId = true) :
      DumpsChange (l.dumps.insert row h)
  | moved (d : DumpRow) (m : DumpMove) (hop : op.dumpMove? = some (d.dumpId, m))
      (hd : l.dumps.find? d.dumpId = some d) (hguard : m.guard d = true) :
      DumpsChange (l.dumps.updateKey d.dumpId (m.apply event.occurredAt)
        (m.apply_dumpId event.occurredAt))

/-- The trail: what the import markers are told from is which event was written. -/
inductive TrailChange : Table AuditEventRow → Prop
  | same : TrailChange l.auditEvents
  | begun (manifestDigest : BoundedText 128) (counts : ImportCounts)
      (hop : op = .beginImport manifestDigest counts)
      (h : l.auditEvents.find? event.eventId = none) :
      TrailChange (l.auditEvents.insert
        (auditRow event .beginImport none none none
          (beginImportDetail event.eventId manifestDigest counts)) h)
  | finished (importId : AuditEventId) (summary : ImportSummary) (marker : AuditEventRow)
      (hop : op = .finishImport importId summary)
      (h : l.auditEvents.find? event.eventId = none) :
      TrailChange (l.auditEvents.insert
        (auditRow event .finishImport none none none
          (("manifestDigest", marker.manifestDigest) :: finishImportDetail importId summary)) h)
  | imported (record : AuditEventRow) (hop : op = .importAuditEvent record)
      (h : l.auditEvents.find? record.eventId = none) :
      TrailChange (l.auditEvents.insert record h)
  | appended (row : AuditEventRow) (h : l.auditEvents.find? row.eventId = none)
      (hid : row.eventId = event.eventId) (hbegin : row.isBeginImport = false)
      (hfinish : row.isFinishImport = false) :
      TrailChange (l.auditEvents.insert row h)

/-- A transaction of the symbol store, or the two tables of it unchanged. -/
inductive SymbolsChange : Table ModuleRow → Table SymbolArtifactRow → Prop
  | same : SymbolsChange l.modules l.symbolArtifacts
  | sealed (insert : SymbolArtifactInsert) (hop : op = .sealSymbolArtifact insert)
      (modules : Table ModuleRow) (artifacts : Table SymbolArtifactRow) :
      SymbolsChange modules artifacts
  | purged (artifactId : SymbolArtifactId) (hop : op = .purgeSymbolArtifact artifactId)
      (modules : Table ModuleRow) (artifacts : Table SymbolArtifactRow) :
      SymbolsChange modules artifacts

structure Changes (l' : SqliteLedger) : Prop where
  customers : CustomersChange l l'.customers
  grants : GrantsChange op l l'.cases l'.grants
  dumps : DumpsChange op event l l'.dumps
  trail : TrailChange op event l l'.auditEvents
  symbols : SymbolsChange op l l'.modules l'.symbolArtifacts

end Tables

/-! ## Every transaction makes such changes -/

section Run

variable {sha256 : Bytes → Sha256} {op : LedgerOp} {event : EventIdentity} {l l' : SqliteLedger}
  {r : LedgerResult}

@[simp] theorem isBeginImport_auditRow {event : EventIdentity} {action : AuditAction}
    {customerId : Option CustomerId} {caseId : Option CaseId} {dumpId : Option DumpId}
    {detail : JsonObject} :
    (auditRow event action customerId caseId dumpId detail).isBeginImport =
      decide (action = .beginImport) :=
  decide_eq_decide.mpr AuditAction.stored_eq_beginImport

@[simp] theorem isFinishImport_auditRow {event : EventIdentity} {action : AuditAction}
    {customerId : Option CustomerId} {caseId : Option CaseId} {dumpId : Option DumpId}
    {detail : JsonObject} :
    (auditRow event action customerId caseId dumpId detail).isFinishImport =
      decide (action = .finishImport) :=
  decide_eq_decide.mpr AuditAction.stored_eq_finishImport

/-- An event of the ledger's own other than the two import markers. -/
theorem TrailChange.own {action : AuditAction} {customerId : Option CustomerId}
    {caseId : Option CaseId} {dumpId : Option DumpId} {detail : JsonObject}
    (h : l.auditEvents.find? event.eventId = none) (hbegin : action ≠ .beginImport)
    (hfinish : action ≠ .finishImport) :
    TrailChange op event l
      (l.auditEvents.insert (auditRow event action customerId caseId dumpId detail) h) :=
  .appended _ h rfl (by simp [hbegin]) (by simp [hfinish])

theorem transitionCase_changes {caseId : CaseId} {expected : List CaseStatus}
    {action : AuditAction} {next : CaseStatus}
    (h : l.transitionCase caseId expected event action next = .ok l') (hnext : next ≠ .closed)
    (hbegin : action ≠ .beginImport) (hfinish : action ≠ .finishImport) :
    Changes op event l l' := by
  obtain ⟨c, -, -, -, he, rfl⟩ := transitionCase_eq_ok.mp h
  exact ⟨.same, .caseMoved caseId next hnext, .same, .own he hbegin hfinish, .same⟩

/-- The transactions on one dump are the moves. -/
theorem transitionDump_changes {dumpId : DumpId} {expected : List DumpPhase}
    {action : AuditAction} {extraPredicate : DumpRow → Bool} {m : DumpMove}
    (h : l.transitionDump dumpId expected event action (m.apply event.occurredAt)
      (m.apply_dumpId event.occurredAt) extraPredicate = .ok l')
    (hop : op.dumpMove? = some (dumpId, m))
    (hguard : ∀ d, expected.contains d.phase = true → extraPredicate d = true →
      m.guard d = true)
    (hbegin : action ≠ .beginImport) (hfinish : action ≠ .finishImport) :
    Changes op event l l' := by
  obtain ⟨d, c, hd, hp, hx, -, -, he, rfl⟩ := transitionDump_eq_ok.mp h
  obtain rfl : d.dumpId = dumpId := Table.key_of_find? hd
  exact ⟨.same, .same, .moved d m hop hd (hguard d hp hx), .own he hbegin hfinish, .same⟩

theorem Changes.of_analysisOnly {action : AuditAction} (h : AnalysisOnly l l' action event)
    (hbegin : action ≠ .beginImport) (hfinish : action ≠ .finishImport) :
    Changes op event l l' := by
  obtain ⟨row, hfree, hid, haction, haudit⟩ := h.audit
  refine ⟨?_, ?_, ?_, ?_, ?_⟩
  · rw [h.customers]
    exact .same
  · rw [h.cases, h.grants]
    exact .same
  · rw [h.dumps]
    exact .same
  · rw [haudit]
    refine .appended row hfree hid ?_ ?_
    · rw [AuditEventRow.isBeginImport, haction, decide_eq_false_iff_not,
        AuditAction.stored_eq_beginImport]
      exact hbegin
    · rw [AuditEventRow.isFinishImport, haction, decide_eq_false_iff_not,
        AuditAction.stored_eq_finishImport]
      exact hfinish
  · rw [h.modules, h.symbolArtifacts]
    exact .same

theorem Changes.refl : Changes op event l l := ⟨.same, .same, .same, .same, .same⟩

theorem sealSymbolArtifact_changes {insert : SymbolArtifactInsert}
    {out : StoredSymbolArtifact × Bool}
    (h : sealSymbolArtifact sha256 l insert event = .ok (out, l')) :
    Changes (.sealSymbolArtifact insert) event l l' := by
  obtain ⟨artifact, deduplicated⟩ := out
  rcases sealSymbolArtifact_ok_cases h with ⟨-, -, rfl⟩ | ⟨-, -, l₁, l₂, h₁, h₂, he, rfl, -, -⟩
  · exact .refl
  · obtain ⟨-, -, _, rfl⟩ := insertSymbolArtifact_eq_ok.mp h₂
    rcases insertModule_eq_ok.mp h₁ with ⟨-, h⟩ | ⟨-, hm, h⟩
    · cases h
      have hnew : l.auditEvents.find? event.eventId = none := he
      exact ⟨.same, .same, .same, .own hnew (by decide) (by decide), .sealed insert rfl _ _⟩
    · cases h
      have hnew : l.auditEvents.find? event.eventId = none := he
      exact ⟨.same, .same, .same, .own hnew (by decide) (by decide), .sealed insert rfl _ _⟩

/-- **A committed transaction makes these changes and no others.** -/
theorem run_changes (h : op.run sha256 event l = .ok (r, l')) : Changes op event l l' := by
  cases op with
  | createCustomer customerId displayName =>
    simp only [LedgerOp.run, LedgerOp.withResult_eq_ok, createCustomer_eq_ok] at h
    obtain ⟨n, ⟨-, -, hc, he, rfl⟩, -⟩ := h
    exact ⟨.inserted _ hc, .same, .same, .own he (by decide) (by decide), .same⟩
  | createCase caseId customerId title =>
    simp only [LedgerOp.run, LedgerOp.noResult_eq_ok, createCase_eq_ok] at h
    obtain ⟨⟨hcu, hc, he, rfl⟩, -⟩ := h
    exact ⟨.same, .caseInserted _ hc hcu, .same, .own he (by decide) (by decide), .same⟩
  | startInvestigation caseId =>
    exact transitionCase_changes (LedgerOp.noResult_eq_ok.mp h).1 (by decide) (by decide)
      (by decide)
  | waitForCustomer caseId =>
    exact transitionCase_changes (LedgerOp.noResult_eq_ok.mp h).1 (by decide) (by decide)
      (by decide)
  | resumeInvestigation caseId =>
    exact transitionCase_changes (LedgerOp.noResult_eq_ok.mp h).1 (by decide) (by decide)
      (by decide)
  | resolveCase caseId =>
    exact transitionCase_changes (LedgerOp.noResult_eq_ok.mp h).1 (by decide) (by decide)
      (by decide)
  | closeCase caseId =>
    simp only [LedgerOp.run, LedgerOp.withResult_eq_ok, closeCase_eq_ok] at h
    obtain ⟨ids, ⟨c, -, -, -, -, he, rfl⟩, -⟩ := h
    exact ⟨.same, .caseClosed caseId, .same, .own he (by decide) (by decide), .same⟩
  | issueGrant grantId caseId secretDigest expiresAt maxBytes maxUploads hmax =>
    simp only [LedgerOp.run, LedgerOp.noResult_eq_ok, issueGrant_eq_ok] at h
    obtain ⟨⟨c, hc, hopen, -, -, hg, he, rfl⟩, -⟩ := h
    exact ⟨.same, .issued _ c hg hc hopen rfl rfl, .same, .own he (by decide) (by decide), .same⟩
  | transitionGrant grantId next =>
    simp only [LedgerOp.run, LedgerOp.noResult_eq_ok, transitionGrant_eq_ok] at h
    obtain ⟨⟨g, c, hg, hissued, -, -, he, rfl⟩, -⟩ := h
    obtain rfl : g.grantId = grantId := Table.key_of_find? hg
    refine ⟨.same, .ended g next hg hissued, .same, .own he ?_ ?_, .same⟩
    · cases next <;> decide
    · cases next <;> decide
  | beginUpload grantId dumpId originalName =>
    simp only [LedgerOp.run, LedgerOp.noResult_eq_ok, beginUpload_eq_ok] at h
    obtain ⟨⟨g, c, hg, hc, hopen, hissued, hfree, -, hd, he, rfl⟩, -⟩ := h
    obtain rfl : g.grantId = grantId := Table.key_of_find? hg
    exact ⟨.same, .slotTaken g c dumpId originalName rfl hg hissued hfree hc hopen,
      .inserted _ hd (.received rfl) (Table.contains_of_find? hc), .own he (by decide) (by decide),
      .same⟩
  | sealUpload dumpId byteSize sha256 =>
    exact transitionDump_changes (m := .sealUpload byteSize sha256) (LedgerOp.noResult_eq_ok.mp h).1 rfl
      (fun d hp _ => hp) (by decide) (by decide)
  | failUpload dumpId =>
    exact transitionDump_changes (m := .failUpload) (LedgerOp.noResult_eq_ok.mp h).1 rfl
      (fun d hp _ => hp) (by decide) (by decide)
  | recordPromoted dumpId =>
    exact transitionDump_changes (m := .recordPromoted) (LedgerOp.noResult_eq_ok.mp h).1 rfl
      (fun d hp hx => Bool.and_eq_true_iff.mpr ⟨hp, hx⟩) (by decide) (by decide)
  | markQuarantined dumpId =>
    exact transitionDump_changes (m := .markQuarantined) (LedgerOp.noResult_eq_ok.mp h).1 rfl
      (fun d hp hx => Bool.and_eq_true_iff.mpr ⟨hp, hx⟩) (by decide) (by decide)
  | acceptDump dumpId coverage facts =>
    exact transitionDump_changes (m := .acceptDump coverage facts) (LedgerOp.noResult_eq_ok.mp h).1 rfl
      (fun d hp hx => Bool.and_eq_true_iff.mpr ⟨hp, hx⟩) (by decide) (by decide)
  | rejectDump dumpId reason =>
    exact transitionDump_changes (m := .rejectDump reason) (LedgerOp.noResult_eq_ok.mp h).1 rfl
      (fun d hp hx => Bool.and_eq_true_iff.mpr ⟨hp, hx⟩) (by decide) (by decide)
  | authorizeDownload dumpId =>
    simp only [LedgerOp.run, LedgerOp.withResult_eq_ok, authorizeDownload_eq_ok] at h
    obtain ⟨d, ⟨c, -, -, -, -, -, he, rfl⟩, -⟩ := h
    exact ⟨.same, .same, .same, .own he (by decide) (by decide), .same⟩
  | setRetention dumpId purgeAt =>
    simp only [LedgerOp.run, LedgerOp.noResult_eq_ok, setRetention_eq_ok] at h
    obtain ⟨⟨d, c, hd, hp, -, -, he, rfl⟩, -⟩ := h
    obtain rfl : d.dumpId = dumpId := Table.key_of_find? hd
    exact ⟨.same, .same, .moved d (.setRetention purgeAt) rfl hd hp, .own he (by decide) (by decide), .same⟩
  | beginPurge dumpId =>
    exact transitionDump_changes (m := .beginPurge) (LedgerOp.noResult_eq_ok.mp h).1 rfl
      (fun d hp _ => hp) (by decide) (by decide)
  | finishPurge dumpId =>
    simp only [LedgerOp.run, LedgerOp.noResult_eq_ok, finishPurge_eq_ok] at h
    obtain ⟨⟨l₁, h₁, rfl⟩, -⟩ := h
    have hch : Changes (.finishPurge dumpId) event l l₁ :=
      transitionDump_changes (m := .finishPurge) h₁ rfl (fun d hp _ => hp) (by decide) (by decide)
    exact ⟨hch.customers, hch.grants, hch.dumps, hch.trail, hch.symbols⟩
  | recordAnalysis insert detail =>
    simp only [LedgerOp.run, LedgerOp.withResult_eq_ok] at h
    obtain ⟨⟨report, deduplicated⟩, h, -⟩ := h
    rcases recordAnalysis_ok_cases h with rfl | ho | ho
    · exact .refl
    · exact .of_analysisOnly ho (by decide) (by decide)
    · exact .of_analysisOnly ho (by decide) (by decide)
  | sealSymbolArtifact insert =>
    simp only [LedgerOp.run, LedgerOp.withResult_eq_ok] at h
    obtain ⟨out, h, -⟩ := h
    exact sealSymbolArtifact_changes h
  | purgeSymbolArtifact artifactId =>
    simp only [LedgerOp.run, LedgerOp.noResult_eq_ok, purgeSymbolArtifact_eq_ok] at h
    obtain ⟨⟨a, i, -, -, he, rfl⟩, -⟩ := h
    exact ⟨.same, .same, .same, .own he (by decide) (by decide), .purged artifactId rfl _ _⟩
  | beginImport manifestDigest counts =>
    simp only [LedgerOp.run, LedgerOp.noResult_eq_ok, beginImport_eq_ok] at h
    obtain ⟨⟨-, -, he, rfl⟩, -⟩ := h
    exact ⟨.same, .same, .same, .begun manifestDigest counts rfl he, .same⟩
  | importCustomer record =>
    simp only [LedgerOp.run, LedgerOp.noResult_eq_ok, importCustomer_eq_ok] at h
    obtain ⟨⟨-, -, hc, he, rfl⟩, -⟩ := h
    exact ⟨.inserted _ hc, .same, .same, .own he (by decide) (by decide), .same⟩
  | importCase record =>
    simp only [LedgerOp.run, LedgerOp.noResult_eq_ok, importCase_eq_ok] at h
    obtain ⟨⟨-, hcu, hc, he, rfl⟩, -⟩ := h
    exact ⟨.same, .caseInserted record hc hcu, .same, .own he (by decide) (by decide), .same⟩
  | importGrant record forceRevoked =>
    simp only [LedgerOp.run, LedgerOp.noResult_eq_ok, importGrant_eq_ok] at h
    obtain ⟨⟨-, c, hc, -, -, hg, he, rfl⟩, -⟩ := h
    exact ⟨.same, .imported record forceRevoked c rfl hg hc, .same, .own he (by decide) (by decide),
      .same⟩
  | importDumpStaged record =>
    simp only [LedgerOp.run, LedgerOp.noResult_eq_ok, importDumpStaged, importDump_eq_ok] at h
    obtain ⟨⟨-, c, hc, -, hd, he, rfl⟩, -⟩ := h
    exact ⟨.same, .same, .inserted _ hd (.staged rfl) (Table.contains_of_find? hc),
      .own he (by decide) (by decide), .same⟩
  | importDumpTombstone record =>
    simp only [LedgerOp.run, LedgerOp.noResult_eq_ok, importDumpTombstone, importDump_eq_ok] at h
    obtain ⟨⟨-, c, hc, -, hd, he, rfl⟩, -⟩ := h
    exact ⟨.same, .same, .inserted _ hd (.tombstone rfl) (Table.contains_of_find? hc),
      .own he (by decide) (by decide), .same⟩
  | importAuditEvent record =>
    simp only [LedgerOp.run, LedgerOp.noResult_eq_ok, importAuditEvent_eq_ok] at h
    obtain ⟨⟨-, -, he, rfl⟩, -⟩ := h
    exact ⟨.same, .same, .same, .imported record rfl he, .same⟩
  | finishImport importId summary =>
    simp only [LedgerOp.run, LedgerOp.noResult_eq_ok, finishImport_eq_ok] at h
    obtain ⟨⟨marker, -, -, -, he, rfl⟩, -⟩ := h
    exact ⟨.same, .same, .same, .finished importId summary marker rfl he, .same⟩

/-! ## Foreign keys -/

theorem CustomersChange.contains {customers : Table CustomerRow} (h : CustomersChange l customers)
    (k : CustomerId) (hk : l.customers.contains k = true) : customers.contains k = true := by
  cases h with
  | same => exact hk
  | inserted row _ => simp [hk]

theorem GrantsChange.contains {cases : Table CaseRow} {grants : Table GrantRow}
    (h : GrantsChange op l cases grants) (k : CaseId) (hk : l.cases.contains k = true) :
    cases.contains k = true := by
  cases h with
  | caseInserted row _ _ => simp [hk]
  | caseMoved _ _ _ => simpa using hk
  | caseClosed _ => simpa using hk
  | same | issued | imported | ended | slotTaken => exact hk

theorem GrantsChange.contains_grant {cases : Table CaseRow} {grants : Table GrantRow}
    (h : GrantsChange op l cases grants) (k : GrantId) (hk : l.grants.contains k = true) :
    grants.contains k = true := by
  cases h with
  | caseClosed _ => simpa [grantsRevokedFor] using hk
  | issued row | imported record => simp [hk]
  | ended | slotTaken => simpa using hk
  | same | caseInserted | caseMoved => exact hk

theorem DumpsChange.contains {dumps : Table DumpRow} (h : DumpsChange op event l dumps)
    (k : DumpId) (hk : l.dumps.contains k = true) : dumps.contains k = true := by
  cases h with
  | same => exact hk
  | inserted row _ _ _ => simp [hk]
  | moved _ _ _ _ _ => simpa using hk

/-- No transaction empties the ledger. -/
theorem isEmpty_of_run (h : op.run sha256 event l = .ok (r, l')) (he : l'.isEmpty = true) :
    l.isEmpty = true := by
  have hch := run_changes h
  rw [isEmpty_eq_true] at he ⊢
  obtain ⟨hcu, hca, hg, hd⟩ := he
  refine ⟨fun x hx => ?_, fun x hx => ?_, fun x hx => ?_, fun x hx => ?_⟩
  · obtain ⟨y, hy, -⟩ := Table.contains_iff.mp
      (hch.customers.contains _ (Table.contains_iff.mpr ⟨x, hx, rfl⟩))
    exact hcu y hy
  · obtain ⟨y, hy, -⟩ := Table.contains_iff.mp
      (hch.grants.contains _ (Table.contains_iff.mpr ⟨x, hx, rfl⟩))
    exact hca y hy
  · obtain ⟨y, hy, -⟩ := Table.contains_iff.mp
      (hch.grants.contains_grant _ (Table.contains_iff.mpr ⟨x, hx, rfl⟩))
    exact hg y hy
  · obtain ⟨y, hy, -⟩ := Table.contains_iff.mp
      (hch.dumps.contains _ (Table.contains_iff.mpr ⟨x, hx, rfl⟩))
    exact hd y hy

/-- The foreign keys of the case, grant and dump tables. -/
structure Linked (l : SqliteLedger) : Prop where
  case_customer : Table.Refers l.cases CaseRow.customerId l.customers
  grant_case : Table.Refers l.grants GrantRow.caseId l.cases
  dump_case : Table.Refers l.dumps DumpRow.caseId l.cases

theorem linked_fresh : Linked .fresh := ⟨.empty, .empty, .empty⟩

/-- **Every reference of a committed ledger names a row.** -/
theorem run_linked (hl : Linked l) (h : op.run sha256 event l = .ok (r, l')) : Linked l' := by
  have hch := run_changes h
  refine ⟨?_, ?_, ?_⟩
  · refine Table.Refers.mono ?_ hch.customers.contains
    have hg := hch.grants
    generalize l'.cases = cs, l'.grants = gs at hg ⊢
    cases hg with
    | caseInserted row _ hcu => exact hl.case_customer.insert hcu
    | caseMoved _ _ _ => exact hl.case_customer.update fun _ => rfl
    | caseClosed _ => exact hl.case_customer.update fun _ => rfl
    | same | issued | imported | ended | slotTaken => exact hl.case_customer
  · refine Table.Refers.mono ?_ hch.grants.contains
    have hg := hch.grants
    generalize l'.cases = cs, l'.grants = gs at hg ⊢
    cases hg with
    | caseClosed _ => exact hl.grant_case.update fun _ => rfl
    | issued row _ _ hc _ _ _ => exact hl.grant_case.insert (Table.contains_of_find? hc)
    | imported record _ _ _ _ hc => exact hl.grant_case.insert (Table.contains_of_find? hc)
    | ended _ _ _ _ => exact hl.grant_case.update fun _ => rfl
    | slotTaken => exact hl.grant_case.update fun _ => GrantRow.takeSlot_caseId _ _
    | same | caseInserted | caseMoved => exact hl.grant_case
  · refine Table.Refers.mono ?_ hch.grants.contains
    have hd := hch.dumps
    generalize l'.dumps = ds at hd ⊢
    cases hd with
    | same => exact hl.dump_case
    | inserted row _ _ hc => exact hl.dump_case.insert hc
    | moved _ _ _ _ _ => exact hl.dump_case.update fun _ => DumpMove.apply_caseId _ _ _

/-! ## Moves that commit -/

/-- Nothing but the dump that moved and the event of the move has changed. -/
structure MovedDump (l l' : SqliteLedger) (event : EventIdentity) (dumpId : DumpId)
    (m : DumpMove) : Prop where
  dumps : l'.dumps = l.dumps.updateKey dumpId (m.apply event.occurredAt)
    (m.apply_dumpId event.occurredAt)
  customers : l'.customers = l.customers
  cases : l'.cases = l.cases
  grants : l'.grants = l.grants
  trail : ∀ k, k ≠ event.eventId → l'.auditEvents.find? k = l.auditEvents.find? k

theorem Linked.case_of_dump (hl : Linked l) {d : DumpRow} (hd : d ∈ l.dumps) :
    ∃ c, l.cases.find? d.caseId = some c ∧ l.customers.contains c.customerId = true := by
  obtain ⟨c, hc, hid⟩ := Table.contains_iff.mp (hl.dump_case d hd)
  exact ⟨c, Table.find?_eq_some.mpr ⟨hc, hid⟩, hl.case_customer c hc⟩

theorem transitionDump_commits (extraPredicate : DumpRow → Bool) (hl : Linked l)
    {dumpId : DumpId} {d : DumpRow} {m : DumpMove} {expected : List DumpPhase}
    (hd : l.dumps.find? dumpId = some d) (hp : expected.contains d.phase = true)
    (hx : extraPredicate d = true) (he : l.auditEvents.find? event.eventId = none)
    (action : AuditAction) :
    ∃ l', l.transitionDump dumpId expected event action (m.apply event.occurredAt)
        (m.apply_dumpId event.occurredAt) extraPredicate = .ok l' ∧
      MovedDump l l' event dumpId m := by
  obtain ⟨c, hc, hcu⟩ := hl.case_of_dump (Table.mem_of_find? hd)
  refine ⟨_, transitionDump_eq_ok.mpr ⟨d, c, hd, hp, hx, hc, hcu, he, rfl⟩, rfl, rfl, rfl, rfl,
    fun k hk => ?_⟩
  exact Table.find?_insert_ne (h := he) (Ne.symm hk)

variable (sha256 event) in
/-- **A move whose guard the dump meets commits.** -/
theorem run_dumpMove (hl : Linked l) {dumpId : DumpId} {d : DumpRow} {m : DumpMove}
    (hop : op.dumpMove? = some (dumpId, m)) (hd : l.dumps.find? dumpId = some d)
    (hguard : m.guard d = true) (he : l.auditEvents.find? event.eventId = none) :
    ∃ l', op.run sha256 event l = .ok (.done, l') ∧ MovedDump l l' event dumpId m := by
  cases op <;> cases hop
  case sealUpload byteSize digest =>
    obtain ⟨l', hrun, hmoved⟩ := transitionDump_commits (m := .sealUpload byteSize digest)
      (fun _ => true) hl hd hguard rfl he .sealUpload
    exact ⟨l', LedgerOp.noResult_eq_ok.mpr ⟨hrun, rfl⟩, hmoved⟩
  case failUpload =>
    obtain ⟨l', hrun, hmoved⟩ := transitionDump_commits (m := .failUpload)
      (fun _ => true) hl hd hguard rfl he .failUpload
    exact ⟨l', LedgerOp.noResult_eq_ok.mpr ⟨hrun, rfl⟩, hmoved⟩
  case recordPromoted =>
    obtain ⟨hp, hx⟩ := (Bool.and_eq_true _ _).mp hguard
    obtain ⟨l', hrun, hmoved⟩ := transitionDump_commits (m := .recordPromoted)
      (fun d => decide (d.blobState = .staging)) hl hd hp hx he .promoteObject
    exact ⟨l', LedgerOp.noResult_eq_ok.mpr ⟨hrun, rfl⟩, hmoved⟩
  case markQuarantined =>
    obtain ⟨hp, hx⟩ := (Bool.and_eq_true _ _).mp hguard
    obtain ⟨l', hrun, hmoved⟩ := transitionDump_commits (m := .markQuarantined)
      (fun d => decide (d.blobState = .vault) && d.sha256.isSome) hl hd hp hx he
      .markQuarantined
    exact ⟨l', LedgerOp.noResult_eq_ok.mpr ⟨hrun, rfl⟩, hmoved⟩
  case acceptDump coverage facts =>
    obtain ⟨hp, hx⟩ := (Bool.and_eq_true _ _).mp hguard
    obtain ⟨l', hrun, hmoved⟩ := transitionDump_commits (m := .acceptDump coverage facts)
      (fun d => decide (d.blobState = .vault) && d.sha256.isSome) hl hd hp hx he
      .acceptDump
    exact ⟨l', LedgerOp.noResult_eq_ok.mpr ⟨hrun, rfl⟩, hmoved⟩
  case rejectDump reason =>
    obtain ⟨hp, hx⟩ := (Bool.and_eq_true _ _).mp hguard
    obtain ⟨l', hrun, hmoved⟩ := transitionDump_commits (m := .rejectDump reason)
      (fun d => decide (d.blobState = .vault)) hl hd hp hx he .rejectDump
    exact ⟨l', LedgerOp.noResult_eq_ok.mpr ⟨hrun, rfl⟩, hmoved⟩
  case setRetention purgeAt =>
    -- the one move whose event carries a detail
    obtain ⟨c, hc, hcu⟩ := hl.case_of_dump (Table.mem_of_find? hd)
    refine ⟨_, LedgerOp.noResult_eq_ok.mpr
      ⟨setRetention_eq_ok.mpr ⟨d, c, hd, hguard, hc, hcu, he, rfl⟩, rfl⟩, rfl, rfl, rfl, rfl,
      fun k hk => ?_⟩
    exact Table.find?_insert_ne (h := he) (Ne.symm hk)
  case beginPurge =>
    obtain ⟨l', hrun, hmoved⟩ := transitionDump_commits (m := .beginPurge)
      (fun _ => true) hl hd hguard rfl he .beginPurge
    exact ⟨l', LedgerOp.noResult_eq_ok.mpr ⟨hrun, rfl⟩, hmoved⟩
  case finishPurge =>
    -- the analyses of the dump go with it
    obtain ⟨l', hrun, hmoved⟩ := transitionDump_commits (m := .finishPurge)
      (fun _ => true) hl hd hguard rfl he .finishPurge
    exact ⟨l'.deleteAnalyses dumpId, LedgerOp.noResult_eq_ok.mpr
      ⟨finishPurge_eq_ok.mpr ⟨l', hrun, rfl⟩, rfl⟩, hmoved.dumps, hmoved.customers, hmoved.cases,
      hmoved.grants, hmoved.trail⟩

end Run

end DumpLedger
