import DumpLedger.Ledger.Changes

/-!
# What a transaction changes of the reports

The two tables of reports and the `RecordAnalysis` events of the trail. Only three
transactions touch a report: the first one of its identity stores it, a later one may attach a
detail, and the end of a purge takes the reports of the dump away.

* `FirstReport`, `AttachedDetail`, `PurgedReports` — the three changes
* `run_reports` — a committed transaction makes one of them, or keeps the reports
-/

namespace DumpLedger

open Lib SqliteLedger

/-! ## The changes -/

section Changes

variable (l l' : SqliteLedger) (event : EventIdentity)

/-- The reports stay as they are, and no `RecordAnalysis` event is written. -/
structure ReportsKept : Prop where
  analyses : l'.analyses = l.analyses
  details : l'.analysisDetails = l.analysisDetails
  trail : l'.auditEvents = l.auditEvents ∨
    ∃ row h, row.action ≠ AuditAction.recordAnalysis.stored ∧
      l'.auditEvents = l.auditEvents.insert row h

/-- The first report of an identity, with its event. -/
structure FirstReport (insert : AnalysisInsert) (detail : Option RichAnalysisDetail) : Prop where
  fresh : ∀ a ∈ l.analyses, a.identity ≠ insert.identity
  analyses : ∃ h, l'.analyses = l.analyses.insert insert.row h
  details : ∀ row, row ∈ l'.analysisDetails ↔ row ∈ l.analysisDetails ∨
    ∃ d, detail = some d ∧ row = ⟨insert.analysisId, d⟩
  dumps : l'.dumps = l.dumps
  trail : ∃ customerId caseId h, l'.auditEvents = l.auditEvents.insert
    (auditRow event .recordAnalysis (some customerId) (some caseId) (some insert.identity.dumpId)
      (recordAnalysisDetail insert caseId)) h

/-- A detail for a report that had none, with its event. -/
structure AttachedDetail (existing : AnalysisRow) (detail : RichAnalysisDetail) : Prop where
  analyses : l'.analyses = l.analyses
  details : ∃ h, l'.analysisDetails = l.analysisDetails.insert ⟨existing.analysisId, detail⟩ h
  dumps : l'.dumps = l.dumps
  trail : ∃ customerId caseId dumpId h, l'.auditEvents = l.auditEvents.insert
    (auditRow event .attachAnalysisDetail (some customerId) (some caseId) (some dumpId)
      [("analysisId", .str existing.analysisId.text),
        ("reportDigest", .str detail.reportDigest.text)]) h

/-- The reports of a dump are gone, with their details, and no others. -/
structure PurgedReports (dumpId : DumpId) : Prop where
  dumps : ∃ row, l.dumps.find? dumpId = some row ∧ row.phase = .deleting ∧
    l'.dumps = l.dumps.updateKey dumpId (DumpMove.finishPurge.apply event.occurredAt)
      (DumpMove.finishPurge.apply_dumpId event.occurredAt)
  analyses : ∀ a, a ∈ l'.analyses ↔ a ∈ l.analyses ∧ a.identity.dumpId ≠ dumpId
  details : ∀ row, row ∈ l'.analysisDetails ↔ row ∈ l.analysisDetails ∧
    ∀ a ∈ l.analyses, a.analysisId = row.analysisId → a.identity.dumpId ≠ dumpId
  trail : ∃ row h, row.action ≠ AuditAction.recordAnalysis.stored ∧
    l'.auditEvents = l.auditEvents.insert row h

end Changes

inductive ReportsChange (op : LedgerOp) (event : EventIdentity) (l l' : SqliteLedger) : Prop
  | kept (hop : ∀ dumpId, op ≠ .finishPurge dumpId) (h : ReportsKept l l')
  | imported (record : AuditEventRow) (hop : op = .importAuditEvent record)
      (hanalyses : l'.analyses = l.analyses) (hdetails : l'.analysisDetails = l.analysisDetails)
  | recorded (insert : AnalysisInsert) (detail : Option RichAnalysisDetail)
      (hop : op = .recordAnalysis insert detail) (h : FirstReport l l' event insert detail)
  | attached (insert : AnalysisInsert) (existing : AnalysisRow) (detail : RichAnalysisDetail)
      (hop : op = .recordAnalysis insert (some detail))
      (hfind : l.findAnalysisByIdentity insert.identity = some existing)
      (h : AttachedDetail l l' event existing detail)
  | purged (dumpId : DumpId) (hop : op = .finishPurge dumpId)
      (h : PurgedReports l l' event dumpId)

/-! ## Recording -/

section Record

variable {l l' : SqliteLedger} {event : EventIdentity} {insert : AnalysisInsert}
  {detail : Option RichAnalysisDetail} {report : AnalysisRow} {deduplicated : Bool}
  {caseId : CaseId}

theorem firstAnalysis_changes
    (h : l.firstAnalysis caseId insert event detail = .ok ((report, deduplicated), l')) :
    report = insert.row ∧ deduplicated = false ∧ FirstReport l l' event insert detail := by
  simp only [firstAnalysis, bind_eq_ok, insertAnalysis_eq_ok, insertAudit_eq_ok, orThrow_eq_ok,
    pure_eq_ok, Prod.mk.injEq] at h
  obtain ⟨_, ⟨-, hfresh, hnew, rfl⟩, l₁, hdetail, customerId, -, _, ⟨-, he, rfl⟩, a, hfind,
    ⟨rfl, rfl⟩, rfl⟩ := h
  -- the detail is in place before the event
  have hl : l₁.analyses = l.analyses.insert insert.row hnew ∧ l₁.dumps = l.dumps ∧
      l₁.auditEvents = l.auditEvents ∧
      ∀ row, row ∈ l₁.analysisDetails ↔ row ∈ l.analysisDetails ∨
        ∃ d, detail = some d ∧ row = ⟨insert.analysisId, d⟩ := by
    cases detail with
    | none =>
      cases hdetail
      exact ⟨rfl, rfl, rfl, fun row => by simp⟩
    | some d =>
      obtain ⟨-, hfree, rfl⟩ := insertAnalysisDetail_eq_ok.mp hdetail
      exact ⟨rfl, rfl, rfl, fun row => by simp [Table.mem_insert]⟩
  obtain ⟨hanalyses, hdumps, haudit, hdetails⟩ := hl
  refine ⟨?_, rfl, hfresh, ⟨hnew, hanalyses⟩, hdetails, hdumps, customerId, caseId, haudit ▸ he, ?_⟩
  · obtain ⟨hmem, hid⟩ := Option.filter_eq_some_iff.mp hfind
    have hrow : insert.row ∈ l₁.analyses := by
      rw [hanalyses]
      exact Table.mem_insert_self hnew
    exact Table.eq_of_key (List.mem_of_find?_eq_some hmem) hrow (of_decide_eq_true hid)
  · obtain ⟨customers, cases, grants, dumps, events, modules, artifacts, analyses, details⟩ := l₁
    cases haudit
    rfl

theorem repeatAnalysis_changes {existing : AnalysisRow}
    (h : l.repeatAnalysis existing caseId insert event detail =
      .ok ((report, deduplicated), l')) :
    report = existing ∧
      ((deduplicated = true ∧ l' = l ∧ ∀ d, detail = some d →
          promotable existing insert d = true ∧ l.analysisDetail existing.analysisId = some d) ∨
        (deduplicated = false ∧ ∃ d, detail = some d ∧ promotable existing insert d = true ∧
          l.analysisDetail existing.analysisId = none ∧
            AttachedDetail l l' event existing d)) := by
  unfold repeatAnalysis at h
  cases detail with
  | none =>
    cases h
    exact ⟨rfl, .inl ⟨rfl, rfl, fun d hd => by cases hd⟩⟩
  | some d =>
    simp only [bind_eq_ok, guardThat_eq_ok] at h
    obtain ⟨-, hpromotable, h⟩ := h
    cases hstored : l.analysisDetail existing.analysisId with
    | some stored =>
      simp only [hstored, bind_eq_ok, guardThat_eq_ok, pure_eq_ok, Prod.mk.injEq] at h
      obtain ⟨-, rfl, ⟨rfl, rfl⟩, rfl⟩ := h
      refine ⟨rfl, .inl ⟨rfl, rfl, fun d' hd => ?_⟩⟩
      cases hd
      exact ⟨hpromotable, rfl⟩
    | none =>
      simp only [hstored, bind_eq_ok, insertAnalysisDetail_eq_ok, insertAudit_eq_ok, pure_eq_ok,
        Prod.mk.injEq] at h
      obtain ⟨_, ⟨-, hfree, rfl⟩, customerId, -, _, ⟨-, he, rfl⟩, ⟨rfl, rfl⟩, rfl⟩ := h
      exact ⟨rfl, .inr ⟨rfl, d, rfl, hpromotable, rfl, rfl, ⟨hfree, rfl⟩, rfl, customerId, caseId,
        insert.identity.dumpId, he, rfl⟩⟩

/-- A recorded report is the stored one of its identity, or the first. -/
theorem recordAnalysis_changes
    (h : l.recordAnalysis insert event detail = .ok ((report, deduplicated), l')) :
    (∃ existing, l.findAnalysisByIdentity insert.identity = some existing ∧ report = existing ∧
        ((deduplicated = true ∧ l' = l ∧ ∀ d, detail = some d →
            promotable existing insert d = true ∧
              l.analysisDetail existing.analysisId = some d) ∨
          (deduplicated = false ∧ ∃ d, detail = some d ∧ promotable existing insert d = true ∧
            l.analysisDetail existing.analysisId = none ∧
              AttachedDetail l l' event existing d))) ∨
      (l.findAnalysisByIdentity insert.identity = none ∧ report = insert.row ∧
        deduplicated = false ∧ FirstReport l l' event insert detail) := by
  simp only [recordAnalysis, bind_eq_ok, orThrow_eq_ok] at h
  obtain ⟨dump, -, h⟩ := h
  cases hfind : l.findAnalysisByIdentity insert.identity with
  | some existing =>
    rw [hfind] at h
    exact .inl ⟨existing, rfl, repeatAnalysis_changes h⟩
  | none =>
    rw [hfind] at h
    obtain ⟨hreport, hdeduplicated, hfirst⟩ := firstAnalysis_changes h
    exact .inr ⟨rfl, hreport, hdeduplicated, hfirst⟩

end Record

/-! ## The other transactions -/

section Run

variable {sha256 : Bytes → Sha256} {op : LedgerOp} {event : EventIdentity} {l l' : SqliteLedger}
  {r : LedgerResult}

theorem AuditAction.stored_ne_recordAnalysis {a : AuditAction} (h : a ≠ .recordAnalysis) :
    a.stored ≠ AuditAction.recordAnalysis.stored := by
  intro hstored
  cases a <;> first | exact h rfl | exact absurd (congrArg BoundedText.text hstored) (by decide)

/-- A transaction that ends in an event of its own, about no report. -/
theorem ReportsKept.own {action : AuditAction} {customerId : Option CustomerId}
    {caseId : Option CaseId} {dumpId : Option DumpId} {detail : JsonObject}
    (hanalyses : l'.analyses = l.analyses) (hdetails : l'.analysisDetails = l.analysisDetails)
    {h : l.auditEvents.find? event.eventId = none}
    (htrail : l'.auditEvents = l.auditEvents.insert
      (auditRow event action customerId caseId dumpId detail) h)
    (haction : action ≠ .recordAnalysis) : ReportsKept l l' :=
  ⟨hanalyses, hdetails, .inr ⟨_, h, AuditAction.stored_ne_recordAnalysis haction, htrail⟩⟩

theorem ReportsKept.refl : ReportsKept l l := ⟨rfl, rfl, .inl rfl⟩

theorem transitionCase_kept {caseId : CaseId} {expected : List CaseStatus} {action : AuditAction}
    {next : CaseStatus} (h : l.transitionCase caseId expected event action next = .ok l')
    (haction : action ≠ .recordAnalysis) : ReportsKept l l' := by
  obtain ⟨c, -, -, -, he, rfl⟩ := transitionCase_eq_ok.mp h
  exact .own rfl rfl (h := he) rfl haction

theorem transitionDump_kept {dumpId : DumpId} {expected : List DumpPhase} {action : AuditAction}
    {f : DumpRow → DumpRow} {hf : ∀ d, (f d).dumpId = d.dumpId} {extraPredicate : DumpRow → Bool}
    (h : l.transitionDump dumpId expected event action f hf extraPredicate = .ok l')
    (haction : action ≠ .recordAnalysis) : ReportsKept l l' := by
  obtain ⟨d, c, -, -, -, -, -, he, rfl⟩ := transitionDump_eq_ok.mp h
  exact .own rfl rfl (h := he) rfl haction

theorem finishPurge_reports {dumpId : DumpId} (h : l.finishPurge dumpId event = .ok l') :
    PurgedReports l l' event dumpId := by
  obtain ⟨l₁, h₁, rfl⟩ := finishPurge_eq_ok.mp h
  obtain ⟨d, c, hd, hp, -, -, -, he, rfl⟩ := transitionDump_eq_ok.mp h₁
  refine ⟨⟨d, hd, by simpa using hp, rfl⟩, fun a => ?_, fun row => ?_, _, he,
    AuditAction.stored_ne_recordAnalysis (a := .finishPurge) (by decide), rfl⟩
  · exact Table.mem_delete.trans (and_congr_right' decide_eq_false_iff_not)
  · refine Table.mem_delete.trans (and_congr_right' ?_)
    show (List.any (List.filter _ l.analyses.rows) _) = false ↔ _
    rw [List.any_eq_false]
    constructor
    · intro hnone a ha hid hdump
      exact hnone a (List.mem_filter.mpr ⟨ha, decide_eq_true hdump⟩) (decide_eq_true hid)
    · intro hall a ha hid
      obtain ⟨ha, hdump⟩ := List.mem_filter.mp ha
      exact hall a ha (of_decide_eq_true hid) (of_decide_eq_true hdump)

/-- **A committed transaction keeps the reports, or makes one of the changes.** -/
theorem run_reports (h : op.run sha256 event l = .ok (r, l')) : ReportsChange op event l l' := by
  cases op with
  | createCustomer customerId displayName =>
    simp only [LedgerOp.run, LedgerOp.withResult_eq_ok, createCustomer_eq_ok] at h
    obtain ⟨n, ⟨-, -, hc, he, rfl⟩, -⟩ := h
    exact .kept (by simp) (.own rfl rfl (h := he) rfl (by decide))
  | createCase caseId customerId title =>
    simp only [LedgerOp.run, LedgerOp.noResult_eq_ok, createCase_eq_ok] at h
    obtain ⟨⟨hcu, hc, he, rfl⟩, -⟩ := h
    exact .kept (by simp) (.own rfl rfl (h := he) rfl (by decide))
  | startInvestigation | waitForCustomer | resumeInvestigation | resolveCase =>
    exact .kept (by simp) (transitionCase_kept (LedgerOp.noResult_eq_ok.mp h).1 (by decide))
  | closeCase caseId =>
    simp only [LedgerOp.run, LedgerOp.withResult_eq_ok, closeCase_eq_ok] at h
    obtain ⟨ids, ⟨c, -, -, -, -, he, rfl⟩, -⟩ := h
    exact .kept (by simp) (.own rfl rfl (h := he) rfl (by decide))
  | issueGrant grantId caseId secretDigest expiresAt maxBytes maxUploads hmax =>
    simp only [LedgerOp.run, LedgerOp.noResult_eq_ok, issueGrant_eq_ok] at h
    obtain ⟨⟨c, hc, hopen, -, -, hg, he, rfl⟩, -⟩ := h
    exact .kept (by simp) (.own rfl rfl (h := he) rfl (by decide))
  | transitionGrant grantId next =>
    simp only [LedgerOp.run, LedgerOp.noResult_eq_ok, transitionGrant_eq_ok] at h
    obtain ⟨⟨g, c, hg, hissued, -, -, he, rfl⟩, -⟩ := h
    refine .kept (by simp) (.own rfl rfl (h := he) rfl ?_)
    cases next <;> decide
  | beginUpload grantId dumpId originalName =>
    simp only [LedgerOp.run, LedgerOp.noResult_eq_ok, beginUpload_eq_ok] at h
    obtain ⟨⟨g, c, hg, hc, hopen, hissued, hfree, -, hd, he, rfl⟩, -⟩ := h
    exact .kept (by simp) (.own rfl rfl (h := he) rfl (by decide))
  | sealUpload | failUpload | recordPromoted | markQuarantined | acceptDump | rejectDump
      | beginPurge =>
    exact .kept (by simp) (transitionDump_kept (LedgerOp.noResult_eq_ok.mp h).1 (by decide))
  | authorizeDownload dumpId =>
    simp only [LedgerOp.run, LedgerOp.withResult_eq_ok, authorizeDownload_eq_ok] at h
    obtain ⟨d, ⟨c, -, -, -, -, -, he, rfl⟩, -⟩ := h
    exact .kept (by simp) (.own rfl rfl (h := he) rfl (by decide))
  | setRetention dumpId purgeAt =>
    simp only [LedgerOp.run, LedgerOp.noResult_eq_ok, setRetention_eq_ok] at h
    obtain ⟨⟨d, c, hd, hp, -, -, he, rfl⟩, -⟩ := h
    exact .kept (by simp) (.own rfl rfl (h := he) rfl (by decide))
  | finishPurge dumpId =>
    exact .purged dumpId rfl (finishPurge_reports (LedgerOp.noResult_eq_ok.mp h).1)
  | recordAnalysis insert detail =>
    simp only [LedgerOp.run, LedgerOp.withResult_eq_ok] at h
    obtain ⟨⟨report, deduplicated⟩, h, -⟩ := h
    rcases recordAnalysis_changes h with ⟨existing, hfind, -, hrepeat⟩ | ⟨-, -, -, hfirst⟩
    · rcases hrepeat with ⟨-, rfl, -⟩ | ⟨-, d, rfl, -, -, hattached⟩
      · exact .kept (by simp) .refl
      · exact .attached insert existing d rfl hfind hattached
    · exact .recorded insert detail rfl hfirst
  | sealSymbolArtifact insert =>
    simp only [LedgerOp.run, LedgerOp.withResult_eq_ok] at h
    obtain ⟨⟨artifact, deduplicated⟩, h, -⟩ := h
    rcases sealSymbolArtifact_ok_cases h with ⟨-, -, rfl⟩ | ⟨-, -, l₁, l₂, h₁, h₂, he, rfl, -, -⟩
    · exact .kept (by simp) .refl
    · obtain ⟨-, -, _, rfl⟩ := insertSymbolArtifact_eq_ok.mp h₂
      rcases insertModule_eq_ok.mp h₁ with ⟨-, h⟩ | ⟨-, hm, h⟩
      · cases h
        have hnew : l.auditEvents.find? event.eventId = none := he
        exact .kept (by simp) (.own rfl rfl (h := hnew) rfl (by decide))
      · cases h
        have hnew : l.auditEvents.find? event.eventId = none := he
        exact .kept (by simp) (.own rfl rfl (h := hnew) rfl (by decide))
  | purgeSymbolArtifact artifactId =>
    simp only [LedgerOp.run, LedgerOp.noResult_eq_ok, purgeSymbolArtifact_eq_ok] at h
    obtain ⟨⟨a, i, -, -, he, rfl⟩, -⟩ := h
    exact .kept (by simp) (.own rfl rfl (h := he) rfl (by decide))
  | beginImport manifestDigest counts =>
    simp only [LedgerOp.run, LedgerOp.noResult_eq_ok, beginImport_eq_ok] at h
    obtain ⟨⟨-, -, he, rfl⟩, -⟩ := h
    exact .kept (by simp) (.own rfl rfl (h := he) rfl (by decide))
  | importCustomer record =>
    simp only [LedgerOp.run, LedgerOp.noResult_eq_ok, importCustomer_eq_ok] at h
    obtain ⟨⟨-, -, hc, he, rfl⟩, -⟩ := h
    exact .kept (by simp) (.own rfl rfl (h := he) rfl (by decide))
  | importCase record =>
    simp only [LedgerOp.run, LedgerOp.noResult_eq_ok, importCase_eq_ok] at h
    obtain ⟨⟨-, hcu, hc, he, rfl⟩, -⟩ := h
    exact .kept (by simp) (.own rfl rfl (h := he) rfl (by decide))
  | importGrant record forceRevoked =>
    simp only [LedgerOp.run, LedgerOp.noResult_eq_ok, importGrant_eq_ok] at h
    obtain ⟨⟨-, c, hc, -, -, hg, he, rfl⟩, -⟩ := h
    exact .kept (by simp) (.own rfl rfl (h := he) rfl (by decide))
  | importDumpStaged record =>
    simp only [LedgerOp.run, LedgerOp.noResult_eq_ok, importDumpStaged, importDump_eq_ok] at h
    obtain ⟨⟨-, c, hc, -, hd, he, rfl⟩, -⟩ := h
    exact .kept (by simp) (.own rfl rfl (h := he) rfl (by decide))
  | importDumpTombstone record =>
    simp only [LedgerOp.run, LedgerOp.noResult_eq_ok, importDumpTombstone, importDump_eq_ok] at h
    obtain ⟨⟨-, c, hc, -, hd, he, rfl⟩, -⟩ := h
    exact .kept (by simp) (.own rfl rfl (h := he) rfl (by decide))
  | importAuditEvent record =>
    simp only [LedgerOp.run, LedgerOp.noResult_eq_ok, importAuditEvent_eq_ok] at h
    obtain ⟨⟨-, -, he, rfl⟩, -⟩ := h
    exact .imported record rfl rfl rfl
  | finishImport importId summary =>
    simp only [LedgerOp.run, LedgerOp.noResult_eq_ok, finishImport_eq_ok] at h
    obtain ⟨⟨marker, -, -, -, he, rfl⟩, -⟩ := h
    exact .kept (by simp) (.own rfl rfl (h := he) rfl (by decide))

end Run

end DumpLedger
