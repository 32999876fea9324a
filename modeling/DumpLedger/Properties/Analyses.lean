import DumpLedger.Engine.Moves
import DumpLedger.Ledger.Reports
import DumpLedger.Properties.Evidence

/-!
# Analysis reports over a run

A report is stored once, under the identity of the bytes it is about, and stays as it is until
its dump is gone. `ReportsSound` is the invariant; `PlannedReport` is what a `RecordAnalysis`
command knows of the dump when it comes to its transaction.

* `reportsSound_step` — every event keeps the invariant, but for imported events
* `repeat_compact`, `repeat_detailed` — what a repeated report does
* `analyses_immutable` — along every run
-/

namespace DumpLedger

open Lib

/-! ## The invariant -/

/-- The `RecordAnalysis` event of a report, told by its dump and the identifier in its
detail. -/
def AuditEventRow.records (e : AuditEventRow) (dumpId : DumpId) (analysisId : AnalysisId) : Bool :=
  decide (e.action = AuditAction.recordAnalysis.stored) && decide (e.dumpId = some dumpId) &&
    match JsonObject.get? e.detail "analysisId" with
    | some (.str id) => decide (id = analysisId.text)
    | _ => false

/-- The events of the trail that record a report. -/
def SqliteLedger.recordedCount (l : SqliteLedger) (dumpId : DumpId) (analysisId : AnalysisId) : Nat :=
  l.auditEvents.rows.countP fun e => e.records dumpId analysisId

structure ReportsSound (l : SqliteLedger) : Prop where
  unique : ∀ a ∈ l.analyses, ∀ b ∈ l.analyses, a.identity = b.identity → a = b
  /-- A report is about the bytes of a dump that is not deleted. -/
  pinned : ∀ a ∈ l.analyses, ∃ row, l.dumps.find? a.identity.dumpId = some row ∧
    (row.phase = .available ∨ row.phase = .deleting) ∧ row.sha256 = some a.identity.inputSha256
  details : ∀ d ∈ l.analysisDetails, l.analyses.contains d.analysisId = true
  recorded : ∀ a ∈ l.analyses, l.recordedCount a.identity.dumpId a.analysisId = 1
  /-- A recorded report is stored until its dump is deleted. -/
  traced : ∀ dumpId analysisId, 0 < l.recordedCount dumpId analysisId →
    (∃ row, l.dumps.find? dumpId = some row ∧ row.phase = .deleted) ∨
      ∃ a ∈ l.analyses, a.analysisId = analysisId ∧ a.identity.dumpId = dumpId

theorem reportsSound_fresh : ReportsSound .fresh := by
  refine ⟨?_, ?_, ?_, ?_, fun dumpId analysisId h => absurd h (Nat.lt_irrefl 0)⟩
  · exact fun a ha => absurd ha Table.not_mem_empty
  · exact fun a ha => absurd ha Table.not_mem_empty
  · exact fun d hd => absurd hd Table.not_mem_empty
  · exact fun a ha => absurd ha Table.not_mem_empty

/-! ## What keeps it -/

section Events

variable {l l' : SqliteLedger} {dumpId : DumpId} {analysisId : AnalysisId}

theorem recordedCount_same (h : l'.auditEvents = l.auditEvents) :
    l'.recordedCount dumpId analysisId = l.recordedCount dumpId analysisId := by
  rw [SqliteLedger.recordedCount, SqliteLedger.recordedCount, h]

theorem recordedCount_insert {row : AuditEventRow} {h : l.auditEvents.find? row.eventId = none}
    (htrail : l'.auditEvents = l.auditEvents.insert row h) :
    l'.recordedCount dumpId analysisId =
      l.recordedCount dumpId analysisId + if row.records dumpId analysisId = true then 1 else 0 := by
  rw [SqliteLedger.recordedCount, htrail]
  show List.countP _ (l.auditEvents.rows ++ [row]) = _
  rw [List.countP_append, List.countP_singleton]
  rfl

/-- An event of another kind records nothing. -/
theorem recordedCount_other {row : AuditEventRow} {h : l.auditEvents.find? row.eventId = none}
    (haction : row.action ≠ AuditAction.recordAnalysis.stored)
    (htrail : l'.auditEvents = l.auditEvents.insert row h) :
    l'.recordedCount dumpId analysisId = l.recordedCount dumpId analysisId := by
  rw [recordedCount_insert htrail, if_neg]
  · rfl
  · simp [AuditEventRow.records, haction]

theorem records_recordAnalysis {event : EventIdentity} {insert : AnalysisInsert} {caseId : CaseId}
    {customerId : CustomerId} :
    (auditRow event .recordAnalysis (some customerId) (some caseId) (some insert.identity.dumpId)
      (recordAnalysisDetail insert caseId)).records dumpId analysisId =
        (decide (insert.identity.dumpId = dumpId) && decide (insert.analysisId = analysisId)) := by
  have hget : JsonObject.get? (recordAnalysisDetail insert caseId) "analysisId" =
      some (.str insert.analysisId.text) := rfl
  have hid : (insert.analysisId.text = analysisId.text) ↔ insert.analysisId = analysisId :=
    ⟨fun h => Identifier.ext h, fun h => h ▸ rfl⟩
  unfold AuditEventRow.records
  simp only [auditRow, hget, hid]
  simp

end Events

/-! ### The dump of a report -/

section Dumps

variable {op : LedgerOp} {event : EventIdentity} {l l' : SqliteLedger} {row : DumpRow}

/-- A dump that may have reports goes on to be deleted, and its bytes are known for good. -/
theorem pinned_change (hch : DumpsChange op event l l'.dumps)
    (hop : ∀ dumpId, op ≠ .finishPurge dumpId) {dumpId : DumpId} {sha256 : Sha256}
    (hrow : l.dumps.find? dumpId = some row) (hphase : row.phase = .available ∨ row.phase = .deleting)
    (hsha : row.sha256 = some sha256) :
    ∃ row', l'.dumps.find? dumpId = some row' ∧
      (row'.phase = .available ∨ row'.phase = .deleting) ∧ row'.sha256 = some sha256 := by
  generalize l'.dumps = dumps at hch
  cases hch with
  | same => exact ⟨row, hrow, hphase, hsha⟩
  | inserted new h _ _ => exact ⟨row, Table.find?_insert_of_some hrow, hphase, hsha⟩
  | moved d m hmove hd hguard =>
    by_cases he : d.dumpId = dumpId
    · subst he
      obtain rfl : d = row := Option.some.inj (hd.symm.trans hrow)
      refine ⟨_, Table.find?_updateKey_self hd, ?_⟩
      cases m with
      | setRetention purgeAt => exact ⟨hphase, hsha⟩
      | beginPurge => exact ⟨.inr rfl, hsha⟩
      | finishPurge =>
        refine absurd ?_ (hop d.dumpId)
        cases op <;> cases hmove
        rfl
      | _ => rcases hphase with h | h <;> simp [DumpMove.guard, h] at hguard
    · exact ⟨row, (Table.find?_updateKey_ne he).trans hrow, hphase, hsha⟩

theorem deleted_change (hch : DumpsChange op event l l'.dumps) {dumpId : DumpId}
    (hrow : l.dumps.find? dumpId = some row) (hphase : row.phase = .deleted) :
    ∃ row', l'.dumps.find? dumpId = some row' ∧ row'.phase = .deleted := by
  generalize l'.dumps = dumps at hch
  cases hch with
  | same => exact ⟨row, hrow, hphase⟩
  | inserted new h _ _ => exact ⟨row, Table.find?_insert_of_some hrow, hphase⟩
  | moved d m _ hd hguard =>
    by_cases he : d.dumpId = dumpId
    · subst he
      obtain rfl : d = row := Option.some.inj (hd.symm.trans hrow)
      rw [guard_of_deleted hphase] at hguard
      cases hguard
    · exact ⟨row, (Table.find?_updateKey_ne he).trans hrow, hphase⟩

end Dumps

/-! ### The transactions -/

section Transactions

variable {sha256 : Bytes → Sha256} {op : LedgerOp} {event : EventIdentity} {l l' : SqliteLedger}
  {r : LedgerResult}

namespace ReportsSound

theorem of_kept (hs : ReportsSound l) (h : ReportsKept l l') (hch : DumpsChange op event l l'.dumps)
    (hop : ∀ dumpId, op ≠ .finishPurge dumpId) : ReportsSound l' := by
  have hcount : ∀ d i, l'.recordedCount d i = l.recordedCount d i := by
    intro d i
    rcases h.trail with htrail | ⟨row, hfree, haction, htrail⟩
    · exact recordedCount_same htrail
    · exact recordedCount_other haction htrail
  refine ⟨?_, ?_, ?_, ?_, ?_⟩
  · rw [h.analyses]
    exact hs.unique
  · rw [h.analyses]
    intro a ha
    obtain ⟨row, hrow, hphase, hsha⟩ := hs.pinned a ha
    exact pinned_change hch hop hrow hphase hsha
  · rw [h.details, h.analyses]
    exact hs.details
  · rw [h.analyses]
    intro a ha
    rw [hcount]
    exact hs.recorded a ha
  · rw [h.analyses]
    intro d i hpos
    rw [hcount] at hpos
    refine (hs.traced d i hpos).imp_left fun hdeleted => ?_
    obtain ⟨row, hrow, hphase⟩ := hdeleted
    exact deleted_change hch hrow hphase

theorem of_first {insert : AnalysisInsert} {detail : Option RichAnalysisDetail} {row : DumpRow}
    (hs : ReportsSound l) (h : FirstReport l l' event insert detail)
    (hrow : l.dumps.find? insert.identity.dumpId = some row) (hphase : row.phase = .available)
    (hsha : row.sha256 = some insert.identity.inputSha256) : ReportsSound l' := by
  obtain ⟨hfree, hanalyses⟩ := h.analyses
  obtain ⟨customerId, caseId, hnew, htrail⟩ := h.trail
  have hcount : ∀ d i, l'.recordedCount d i = l.recordedCount d i +
      if insert.identity.dumpId = d ∧ insert.analysisId = i then 1 else 0 := by
    intro d i
    rw [recordedCount_insert htrail, records_recordAnalysis]
    simp
  have hother : ∀ a ∈ l.analyses, a.analysisId ≠ insert.analysisId := by
    intro a ha hid
    have hkey : l.analyses.find? insert.analysisId = some a := hid ▸ Table.find?_key ha
    exact absurd (hkey.symm.trans hfree) (by simp)
  refine ⟨?_, ?_, ?_, ?_, ?_⟩
  · rw [hanalyses]
    intro a ha b hb hid
    rcases Table.mem_insert.mp ha with ha | rfl <;> rcases Table.mem_insert.mp hb with hb | rfl
    · exact hs.unique a ha b hb hid
    · exact absurd hid (h.fresh a ha)
    · exact absurd hid.symm (h.fresh b hb)
    · rfl
  · rw [hanalyses, h.dumps]
    intro a ha
    rcases Table.mem_insert.mp ha with ha | rfl
    · exact hs.pinned a ha
    · exact ⟨row, hrow, .inl hphase, hsha⟩
  · rw [hanalyses]
    intro d hd
    rcases (h.details d).mp hd with hd | ⟨_, -, rfl⟩
    · rw [Table.contains_insert, hs.details d hd, Bool.or_true]
    · exact Table.contains_of_find? (Table.find?_insert_self (r := insert.row) hfree)
  · rw [hanalyses]
    intro a ha
    rcases Table.mem_insert.mp ha with ha | rfl
    · rw [hcount, if_neg fun hid => hother a ha hid.2.symm]
      exact hs.recorded a ha
    · -- nothing had been recorded under this identifier for a dump that is still there
      have hzero : l.recordedCount insert.identity.dumpId insert.analysisId = 0 := by
        by_contra hne
        rcases hs.traced _ _ (Nat.pos_of_ne_zero hne) with ⟨row', hrow', hdeleted⟩ | ⟨a, ha, hid, -⟩
        · rw [hrow] at hrow'
          cases hrow'
          exact absurd (hphase.symm.trans hdeleted) (by decide)
        · exact hother a ha hid
      show l'.recordedCount insert.identity.dumpId insert.analysisId = 1
      rw [hcount, hzero, if_pos ⟨rfl, rfl⟩]
  · rw [hanalyses, h.dumps]
    intro d i hpos
    rw [hcount] at hpos
    by_cases hid : insert.identity.dumpId = d ∧ insert.analysisId = i
    · exact .inr ⟨insert.row, Table.mem_insert_self (r := insert.row) hfree, hid.2, hid.1⟩
    · rw [if_neg hid] at hpos
      refine (hs.traced d i hpos).imp_right fun hstored => ?_
      obtain ⟨a, ha, hmatch⟩ := hstored
      exact ⟨a, Table.mem_insert.mpr (.inl ha), hmatch⟩

theorem of_attached {existing : AnalysisRow} {detail : RichAnalysisDetail} (hs : ReportsSound l)
    (h : AttachedDetail l l' event existing detail) (hexisting : existing ∈ l.analyses) :
    ReportsSound l' := by
  obtain ⟨hfree, hdetails⟩ := h.details
  obtain ⟨_, _, _, hnew, htrail⟩ := h.trail
  have hcount : ∀ d i, l'.recordedCount d i = l.recordedCount d i := fun d i =>
    recordedCount_other (AuditAction.stored_ne_recordAnalysis (a := .attachAnalysisDetail)
      (by decide)) htrail
  refine ⟨?_, ?_, ?_, ?_, ?_⟩
  · rw [h.analyses]
    exact hs.unique
  · rw [h.analyses, h.dumps]
    exact hs.pinned
  · rw [h.analyses, hdetails]
    intro d hd
    rcases Table.mem_insert.mp hd with hd | rfl
    · exact hs.details d hd
    · exact Table.contains_of_find? (Table.find?_key hexisting)
  · rw [h.analyses]
    intro a ha
    rw [hcount]
    exact hs.recorded a ha
  · rw [h.analyses, h.dumps]
    intro d i hpos
    rw [hcount] at hpos
    exact hs.traced d i hpos

theorem of_purged {dumpId : DumpId} (hs : ReportsSound l) (h : PurgedReports l l' event dumpId) :
    ReportsSound l' := by
  obtain ⟨row, hrow, -, hdumps⟩ := h.dumps
  obtain ⟨_, hnew, haction, htrail⟩ := h.trail
  have hcount : ∀ d i, l'.recordedCount d i = l.recordedCount d i :=
    fun d i => recordedCount_other haction htrail
  refine ⟨?_, ?_, ?_, ?_, ?_⟩
  · intro a ha b hb hid
    exact hs.unique a ((h.analyses a).mp ha).1 b ((h.analyses b).mp hb).1 hid
  · intro a ha
    obtain ⟨ha, hne⟩ := (h.analyses a).mp ha
    rw [hdumps, Table.find?_updateKey_ne (Ne.symm hne)]
    exact hs.pinned a ha
  · intro d hd
    obtain ⟨hd, hne⟩ := (h.details d).mp hd
    obtain ⟨a, ha, hid⟩ := Table.contains_iff.mp (hs.details d hd)
    exact Table.contains_iff.mpr ⟨a, (h.analyses a).mpr ⟨ha, hne a ha hid⟩, hid⟩
  · intro a ha
    rw [hcount]
    exact hs.recorded a ((h.analyses a).mp ha).1
  · intro d i hpos
    rw [hcount] at hpos
    rw [hdumps]
    by_cases he : dumpId = d
    · subst he
      exact .inl ⟨_, Table.find?_updateKey_self hrow, rfl⟩
    · rw [Table.find?_updateKey_ne he]
      refine (hs.traced d i hpos).imp_right fun hstored => ?_
      obtain ⟨a, ha, hid, hdump⟩ := hstored
      exact ⟨a, (h.analyses a).mpr ⟨ha, fun hd => he (hd.symm.trans hdump)⟩, hid, hdump⟩

/-- **A transaction keeps it**, unless it brings in an event from elsewhere. -/
theorem run (hs : ReportsSound l) (h : op.run sha256 event l = .ok (r, l'))
    (himport : ∀ record, op ≠ .importAuditEvent record)
    (hplanned : ∀ insert detail, op = .recordAnalysis insert detail →
      ∃ row, l.dumps.find? insert.identity.dumpId = some row ∧ row.phase = .available ∧
        row.sha256 = some insert.identity.inputSha256) : ReportsSound l' := by
  cases run_reports h with
  | kept hop hkept => exact hs.of_kept hkept (run_changes h).dumps hop
  | imported record hop _ _ => exact absurd hop (himport record)
  | recorded insert detail hop hfirst =>
    obtain ⟨row, hrow, hphase, hsha⟩ := hplanned insert detail hop
    exact hs.of_first hfirst hrow hphase hsha
  | attached insert existing detail _ hfind hattached =>
    exact hs.of_attached hattached (List.mem_of_find?_eq_some hfind)
  | purged dumpId _ hpurged => exact hs.of_purged hpurged

end ReportsSound

end Transactions

/-! ## The command -/

/-- The command that reports under the identity. -/
def AnalysisIdentity.request (i : AnalysisIdentity) (outcome summary : String)
    (facts : Option JsonObject) (duplicateOf : Option String)
    (detail : Option RawRichAnalysisDetail) : Command :=
  .recordAnalysis i.dumpId.text i.analyzerName i.analyzerVersion i.kind i.inputSha256.text outcome
    summary facts duplicateOf detail

/-- A plan of the command: what it inserts, the dump it is about and the checked detail. -/
structure PlannedReport (host : Host) (w : World) (detail : Option RawRichAnalysisDetail) (p : Plan)
    (insert : AnalysisInsert) (checked : Option RichAnalysisDetail) (row : DumpRow) : Prop where
  plan : ∃ now, p = recordAnalysisPlan host w now row.caseId insert checked
  dump : w.ledger.dumps.find? insert.identity.dumpId = some row
  available : row.phase = .available
  bytes : row.sha256 = some insert.identity.inputSha256
  detail : checked.isSome = detail.isSome

section Command

variable {options : EngineOptions} {host : Host} {w : World} {p : Plan}
  {detail : Option RawRichAnalysisDetail}

theorem planRecordAnalysis_planned {now : IsoTimestamp}
    {dumpId analyzerName analyzerVersion kind inputSha256 outcome summary : String}
    {facts : Option JsonObject} {duplicateOf : Option String}
    (h : planRecordAnalysis options host w now dumpId analyzerName analyzerVersion kind inputSha256
      outcome summary facts duplicateOf detail = .ok p) :
    ∃ insert checked row, PlannedReport host w detail p insert checked row ∧
      insert.identity.dumpId.text = dumpId ∧ insert.identity.analyzerName = analyzerName ∧
      insert.identity.analyzerVersion = analyzerVersion ∧ insert.identity.kind = kind ∧
      insert.identity.inputSha256.text = inputSha256 := by
  simp only [planRecordAnalysis, bind_eq_ok, pure_eq_ok, guardThat_eq_ok, parseDumpId,
    parseIdentifier_eq_ok, assertSha256_eq_ok, requirePhase_eq_ok] at h
  obtain ⟨d, hd, name, hname, version, hversion, label, hlabel, sha, hsha, result, -, abstract, -,
    checkedFacts, -, original, -, row, ⟨hrow, hphase⟩, -, hbytes, checked, hchecked, rfl⟩ := h
  have htext {value field t : String} {maximum minimum : Nat}
      (h : assertAnalysisText value field maximum minimum = .ok t) : t = value := by
    simp only [assertAnalysisText, bind_eq_ok, guardThat_eq_ok, pure_eq_ok] at h
    obtain ⟨-, -, rfl⟩ := h
    rfl
  refine ⟨_, checked, row, ⟨⟨now, rfl⟩, hrow, hphase, hbytes, ?_⟩, hd, htext hname,
    htext hversion, htext hlabel, hsha⟩
  rcases forOption_eq_ok.mp hchecked with ⟨rfl, rfl⟩ | ⟨_, _, rfl, -, rfl⟩ <;> rfl

/-- A transaction that records a report comes from such a plan. -/
theorem plannedReport_of_ledger {command : Command} {insert : AnalysisInsert}
    {checked : Option RichAnalysisDetail} (hplan : plan options host w command = .ok p)
    (hop : p.ledger = some (.recordAnalysis insert checked)) :
    ∃ row, w.ledger.dumps.find? insert.identity.dumpId = some row ∧ row.phase = .available ∧
      row.sha256 = some insert.identity.inputSha256 := by
  have haction := plan_action hplan hop
  obtain ⟨now, -, hat⟩ := plan_eq_ok.mp hplan
  cases command <;> cases haction
  obtain ⟨insert', checked', row, hp, -⟩ := planRecordAnalysis_planned hat
  obtain ⟨t, rfl⟩ := hp.plan
  have hsame : insert' = insert := by
    unfold recordAnalysisPlan at hop
    split at hop <;> cases hop
    rfl
  subst hsame
  exact ⟨row, hp.dump, hp.available, hp.bytes⟩

end Command

/-- A command that brings an event in from a bundle. -/
def Event.importsEvent : Event → Bool
  | .command _ (.importAuditEvent _) => true
  | _ => false

section Steps

variable {options : EngineOptions} {w : World} {e : Event}

theorem reportsSound_step (hs : ReportsSound w.ledger) (he : e.importsEvent = false) :
    ReportsSound (step options w e).ledger := by
  rcases step_ledger options w e with h | ⟨host, command, p, op, r, hc⟩
  · rw [h]
    exact hs
  · refine hs.run hc.run (fun record hop => ?_) fun insert detail hop => ?_
    · have haction := plan_action hc.plan hc.ledger
      rw [hop] at haction
      rw [hc.event] at he
      cases command <;> cases haction
      cases he
    · exact plannedReport_of_ledger hc.plan (hop ▸ hc.ledger)

/-- The event purged the dump. -/
def Purges (options : EngineOptions) (w : World) (e : Event) (dumpId : DumpId) : Prop :=
  ∃ host, e = .command host (.finishPurge dumpId.text) ∧
    (execute options host w (.finishPurge dumpId.text)).1.succeeded = true

theorem purges_of_committed {host : Host} {command : Command} {p : Plan} {dumpId : DumpId}
    {r : LedgerResult} {l : SqliteLedger}
    (hc : Committed options w e host command p (.finishPurge dumpId) r l) :
    Purges options w e dumpId := by
  have haction := plan_action hc.plan hc.ledger
  have hout := hc.outcome
  rw [hc.event]
  obtain ⟨now, -, hat⟩ := plan_eq_ok.mp hc.plan
  cases command <;> cases haction
  obtain ⟨d, hd, hat⟩ := bind_eq_ok.mp hat
  obtain ⟨row, -, hpure⟩ := bind_eq_ok.mp hat
  cases hpure
  cases hc.ledger
  obtain rfl := parseIdentifier_eq_ok.mp hd
  exact ⟨host, rfl, by rw [hout]; rfl⟩

/-- **Nothing but the purge of its dump touches a report.** -/
theorem reports_kept (e : Event) :
    (∀ a ∈ w.ledger.analyses,
      a ∈ (step options w e).ledger.analyses ∨ Purges options w e a.identity.dumpId) ∧
    ∀ d ∈ w.ledger.analysisDetails, d ∈ (step options w e).ledger.analysisDetails ∨
      ∃ a ∈ w.ledger.analyses, a.analysisId = d.analysisId ∧
        Purges options w e a.identity.dumpId := by
  rcases step_ledger options w e with h | ⟨host, command, p, op, r, hc⟩
  · rw [h]
    exact ⟨fun a ha => .inl ha, fun d hd => .inl hd⟩
  · cases run_reports hc.run with
    | kept _ hkept =>
      rw [hkept.analyses, hkept.details]
      exact ⟨fun a ha => .inl ha, fun d hd => .inl hd⟩
    | imported _ _ hanalyses hdetails =>
      rw [hanalyses, hdetails]
      exact ⟨fun a ha => .inl ha, fun d hd => .inl hd⟩
    | recorded insert detail _ hfirst =>
      obtain ⟨hfree, hanalyses⟩ := hfirst.analyses
      refine ⟨fun a ha => .inl ?_, fun d hd => .inl ((hfirst.details d).mpr (.inl hd))⟩
      rw [hanalyses]
      exact Table.mem_insert.mpr (.inl ha)
    | attached insert existing detail _ _ hattached =>
      obtain ⟨hfree, hdetails⟩ := hattached.details
      rw [hattached.analyses, hdetails]
      exact ⟨fun a ha => .inl ha, fun d hd => .inl (Table.mem_insert.mpr (.inl hd))⟩
    | purged dumpId hop hpurged =>
      subst hop
      have hpurges := purges_of_committed hc
      refine ⟨fun a ha => ?_, fun d hd => ?_⟩
      · by_cases he : a.identity.dumpId = dumpId
        · exact .inr (he ▸ hpurges)
        · exact .inl ((hpurged.analyses a).mpr ⟨ha, he⟩)
      · by_cases he : ∃ a ∈ w.ledger.analyses,
          a.analysisId = d.analysisId ∧ a.identity.dumpId = dumpId
        · obtain ⟨a, ha, hid, hdump⟩ := he
          exact .inr ⟨a, ha, hid, hdump ▸ hpurges⟩
        · refine .inl ((hpurged.details d).mpr ⟨hd, fun a ha hid hdump => he ?_⟩)
          exact ⟨a, ha, hid, hdump⟩

theorem purges_reports {dumpId : DumpId} (h : Purges options w e dumpId) :
    ∃ event, PurgedReports w.ledger (step options w e).ledger event dumpId := by
  obtain ⟨host, rfl, hsucceeded⟩ := h
  obtain ⟨p, -, hplan, -⟩ := execute_succeeded hsucceeded
  obtain ⟨now, -, hat⟩ := plan_eq_ok.mp hplan
  obtain ⟨d, hd, hat⟩ := bind_eq_ok.mp hat
  obtain ⟨row, -, hpure⟩ := bind_eq_ok.mp hat
  obtain rfl : d = dumpId := Identifier.ext (parseIdentifier_eq_ok.mp hd)
  cases hpure
  obtain ⟨r, hc⟩ := committed_of_succeeded hsucceeded hplan rfl
  exact ⟨_, finishPurge_reports (LedgerOp.noResult_eq_ok.mp hc.run).1⟩

end Steps

/-! ## Repeats -/

/-- The compact metadata or the content disagrees with what is stored. -/
def Conflicts (l : SqliteLedger) (existing : AnalysisRow) (insert : AnalysisInsert)
    (detail : RichAnalysisDetail) : Prop :=
  promotable existing insert detail = false ∨
    ∃ stored, l.analysisDetail existing.analysisId = some stored ∧ stored ≠ detail

/-- What a repeat with a detail does. -/
structure RepeatedDetail (options : EngineOptions) (host : Host) (w : World)
    (existing : AnalysisRow) (command : Command) : Prop where
  vaults : (execute options host w command).2.vaults = w.vaults
  failed : (execute options host w command).1.succeeded = false →
    (execute options host w command).2.ledger = w.ledger
  succeeded : (execute options host w command).1.succeeded = true →
    ∃ s, (execute options host w command).1 = .receipt (.success s) ∧ s.analysis = some existing ∧
      ((s.replayed = some true ∧ (execute options host w command).2.ledger = w.ledger) ∨
        (s.replayed = some false ∧ w.ledger.analysisDetail existing.analysisId = none ∧
          ∃ event detail, AttachedDetail w.ledger (execute options host w command).2.ledger event
            existing detail))
  conflict : ∀ p insert detail, plan options host w command = .ok p →
    p.ledger = some (.recordAnalysis insert (some detail)) →
      Conflicts w.ledger existing insert detail →
        (execute options host w command).1.succeeded = false

section Repeats

variable {options : EngineOptions} {host : Host} {w : World} {existing : AnalysisRow} {p : Plan}
  {outcome summary : String} {facts : Option JsonObject} {duplicateOf : Option String}
  {raw : Option RawRichAnalysisDetail}

theorem ReportsSound.find_identity {l : SqliteLedger} (hs : ReportsSound l)
    (h : existing ∈ l.analyses) : l.findAnalysisByIdentity existing.identity = some existing := by
  cases hfind : l.findAnalysisByIdentity existing.identity with
  | none => exact absurd (decide_eq_true rfl) (List.find?_eq_none.mp hfind existing h)
  | some a =>
    have hid : a.identity = existing.identity := by simpa using List.find?_some hfind
    rw [hs.unique a (List.mem_of_find?_eq_some hfind) existing h hid]

/-- The plan of a repeat inserts under the stored identity. -/
theorem plan_request (h : plan options host w
      (existing.identity.request outcome summary facts duplicateOf raw) = .ok p) :
    ∃ now insert checked caseId, p = recordAnalysisPlan host w now caseId insert checked ∧
      insert.identity = existing.identity ∧ checked.isSome = raw.isSome := by
  obtain ⟨now, -, hat⟩ := plan_eq_ok.mp h
  obtain ⟨insert, checked, row, hp, hdump, hname, hversion, hkind, hsha⟩ :=
    planRecordAnalysis_planned hat
  obtain ⟨t, hplan⟩ := hp.plan
  refine ⟨t, insert, checked, row.caseId, hplan, ?_, hp.detail⟩
  obtain ⟨_, ⟨d, name, version, kind, sha⟩, _⟩ := insert
  obtain rfl : d = existing.identity.dumpId := Identifier.ext hdump
  obtain rfl : sha = existing.identity.inputSha256 := Sha256.ext hsha
  cases hname
  cases hversion
  cases hkind
  rfl

/-- **A repeat without a detail writes nothing** and returns the stored report. -/
theorem repeat_compact (hs : ReportsSound w.ledger) (h : existing ∈ w.ledger.analyses)
    {outcome summary : String} {facts : Option JsonObject} {duplicateOf : Option String}
    {command : Command}
    (hcommand : command = existing.identity.request outcome summary facts duplicateOf none) :
    (execute options host w command).2 = w ∧
      ((execute options host w command).1.succeeded = true →
        ∃ s, (execute options host w command).1 = .receipt (.success s) ∧
          s.analysis = some existing ∧ s.replayed = some true) ∧
      ∀ p, plan options host w command = .ok p → host.crash = false →
        (execute options host w command).1.succeeded = true := by
  subst hcommand
  cases hplan : plan options host w
      (existing.identity.request outcome summary facts duplicateOf none) with
  | error e =>
    have hout : execute options host w
        (existing.identity.request outcome summary facts duplicateOf none) =
          (.receipt (.failure .recordAnalysis e.stable), w) := by
      simp only [execute, hplan]
      rfl
    rw [hout]
    refine ⟨rfl, fun hsucceeded => ?_, fun p hp => ?_⟩
    · cases hsucceeded
    · cases hp
  | ok p =>
    obtain ⟨now, insert, checked, caseId, rfl, hidentity, hdetail⟩ := plan_request hplan
    obtain rfl : checked = none := by simpa using hdetail
    have hfind := hs.find_identity h
    rw [← hidentity] at hfind
    -- the plan has no operation and no transaction
    have hout : execute options host w
        (existing.identity.request outcome summary facts duplicateOf none) =
          if host.crash = true then (.crashed, w)
          else (.receipt (.success
            { action := .recordAnalysis, occurredAt := now, dumpId := some insert.identity.dumpId,
              caseId := some caseId, analysis := some existing, replayed := some true }), w) := by
      rw [execute, hplan]
      unfold recordAnalysisPlan
      rw [hfind]
      cases hcrash : host.crash <;> rfl
    rw [hout]
    cases hcrash : host.crash with
    | true =>
      refine ⟨rfl, fun hsucceeded => ?_, fun _ _ hc => ?_⟩
      · cases hsucceeded
      · cases hc
    | false => exact ⟨rfl, fun _ => ⟨_, rfl, rfl, rfl⟩, fun _ _ _ => rfl⟩

/-- A command whose plans work on no vault. -/
theorem vaults_of_ledger {command : Command}
    (h : ∀ p, plan options host w command = .ok p → p.storage = none ∧ p.compensation = none) :
    (execute options host w command).2.vaults = w.vaults := by
  have hcases := execute_cases options host w command
  generalize execute options host w command = out at hcases ⊢
  obtain ⟨outcome, w'⟩ := out
  have hkept {p : Plan} {v : Vaults} (hplan : plan options host w command = .ok p)
      (hstored : (p.twoStore options host).operation w.vaults = (.ok (), v)) : v = w.vaults := by
    rcases operation_eq_ok.mp hstored with ⟨-, hsame⟩ | ⟨op, hop, -⟩
    · exact hsame
    · cases (h p hplan).1.symm.trans hop
  cases hcases with
  | refused _ => rfl
  | storageThrew hplan hop _ => cases (h _ hplan).1.symm.trans hop
  | crashed hplan hstored _ => exact hkept hplan hstored
  | committed hplan hstored _ _ => exact hkept hplan hstored
  | rolledBack hplan hstored _ _ =>
    have hnone := (h _ hplan).2
    simp only [Plan.twoStore, hnone]
    exact hkept hplan hstored

/-- **A repeat with a detail writes nothing, attaches the first detail, or fails.** -/
theorem repeat_detailed (hs : ReportsSound w.ledger) (h : existing ∈ w.ledger.analyses)
    {detail : RawRichAnalysisDetail} {command : Command}
    (hcommand : command =
      existing.identity.request outcome summary facts duplicateOf (some detail)) :
    RepeatedDetail options host w existing command := by
  subst hcommand
  generalize hcommand : existing.identity.request outcome summary facts duplicateOf (some detail) =
    command
  -- a plan that succeeds is one transaction, under the stored identity
  have hledger (p : Plan) (hplan : plan options host w command = .ok p) :
      ∃ insert checked, insert.identity = existing.identity ∧
        (p.storage = none ∧ p.compensation = none) ∧
        p.ledger = some (.recordAnalysis insert (some checked)) := by
    rw [← hcommand] at hplan
    obtain ⟨now, insert, checked, caseId, rfl, hidentity, hdetail⟩ := plan_request hplan
    obtain ⟨checked, rfl⟩ := Option.isSome_iff_exists.mp (hdetail.trans rfl)
    refine ⟨insert, checked, hidentity, ?_⟩
    unfold recordAnalysisPlan
    split
    · next hnone => cases hnone
    · exact ⟨⟨rfl, rfl⟩, rfl⟩
  have hrun (hsucceeded : (execute options host w command).1.succeeded = true) :
      ∃ p insert checked report deduplicated, plan options host w command = .ok p ∧
        p.ledger = some (.recordAnalysis insert (some checked)) ∧
        insert.identity = existing.identity ∧
        (execute options host w command).1 =
          .receipt (.success (p.receipt.withResult (.analysis report deduplicated))) ∧
        w.ledger.recordAnalysis insert p.event (some checked) =
          .ok ((report, deduplicated), (execute options host w command).2.ledger) := by
    obtain ⟨p, r, hplan, -, htx, hout⟩ := execute_succeeded hsucceeded
    obtain ⟨insert, checked, hidentity, -, hop⟩ := hledger p hplan
    rcases transaction_eq_ok.mp htx with ⟨hnone, -⟩ | ⟨op, hop', -, hrun⟩
    · cases hop.symm.trans hnone
    · cases hop.symm.trans hop'
      simp only [LedgerOp.run, LedgerOp.withResult_eq_ok] at hrun
      obtain ⟨⟨report, deduplicated⟩, hrecord, rfl⟩ := hrun
      exact ⟨p, insert, checked, report, deduplicated, hplan, hop, hidentity, hout, hrecord⟩
  have hfind := hs.find_identity h
  refine ⟨?_, fun hfailed => ?_, fun hsucceeded => ?_, fun p insert checked hplan hop hconflict => ?_⟩
  · refine vaults_of_ledger fun p hplan => ?_
    obtain ⟨_, _, -, hnone, -⟩ := hledger p hplan
    exact hnone
  · rcases execute_ledger options host w command with hsame | ⟨_, _, _, -, -, -, hout⟩
    · exact hsame
    · rw [hout] at hfailed
      cases hfailed
  · obtain ⟨p, insert, checked, report, deduplicated, hplan, hop, hidentity, hout, hrecord⟩ :=
      hrun hsucceeded
    refine ⟨_, hout, ?_⟩
    rcases recordAnalysis_changes hrecord with ⟨a, hfound, rfl, hrepeat⟩ | ⟨hnone, -⟩
    · rw [hidentity, hfind] at hfound
      cases hfound
      refine ⟨rfl, ?_⟩
      rcases hrepeat with ⟨rfl, hsame, -⟩ | ⟨rfl, d, hd, -, hnone, hattached⟩
      · exact .inl ⟨rfl, hsame⟩
      · exact .inr ⟨rfl, hnone, _, d, hattached⟩
    · rw [hidentity, hfind] at hnone
      cases hnone
  · by_contra hsucceeded
    obtain ⟨p', insert', checked', report, deduplicated, hplan', hop', hidentity, -, hrecord⟩ :=
      hrun (by simpa using hsucceeded)
    cases hplan.symm.trans hplan'
    cases hop.symm.trans hop'
    rcases recordAnalysis_changes hrecord with ⟨a, hfound, -, hrepeat⟩ | ⟨hnone, -⟩
    · rw [hidentity, hfind] at hfound
      cases hfound
      rcases hrepeat with ⟨-, -, hkept⟩ | ⟨-, d, hd, hpromotable, hnone, -⟩
      · obtain ⟨hpromotable, hstored⟩ := hkept checked rfl
        rcases hconflict with hno | ⟨stored, hstored', hne⟩
        · cases hno.symm.trans hpromotable
        · cases hstored.symm.trans hstored'
          exact hne rfl
      · cases hd
        rcases hconflict with hno | ⟨stored, hstored', -⟩
        · cases hno.symm.trans hpromotable
        · cases hnone.symm.trans hstored'
    · rw [hidentity, hfind] at hnone
      cases hnone

end Repeats

/-! ## Every run -/

/-- What holds of the reports at every point of a run. -/
structure ReportHistory (options : EngineOptions) (w : World) : Prop where
  /-- At most one report per identity, and one detail per report. -/
  unique : ∀ a ∈ w.ledger.analyses, ∀ b ∈ w.ledger.analyses, a.identity = b.identity → a = b
  oneDetail : ∀ d ∈ w.ledger.analysisDetails, ∀ d' ∈ w.ledger.analysisDetails,
    d.analysisId = d'.analysisId → d = d'
  /-- Exactly one `RecordAnalysis` event per report. -/
  recorded : ∀ a ∈ w.ledger.analyses, w.ledger.recordedCount a.identity.dumpId a.analysisId = 1
  /-- Reports and details stay as they are until their dump is purged. -/
  kept : ∀ e, (∀ a ∈ w.ledger.analyses,
      a ∈ (step options w e).ledger.analyses ∨ Purges options w e a.identity.dumpId) ∧
    ∀ d ∈ w.ledger.analysisDetails, d ∈ (step options w e).ledger.analysisDetails ∨
      ∃ a ∈ w.ledger.analyses, a.analysisId = d.analysisId ∧
        Purges options w e a.identity.dumpId
  /-- A purge takes those of its dump, and no others. -/
  purged : ∀ e dumpId, Purges options w e dumpId →
    ∃ event, PurgedReports w.ledger (step options w e).ledger event dumpId
  compact : ∀ host, ∀ existing ∈ w.ledger.analyses, ∀ outcome summary facts duplicateOf command,
    command = existing.identity.request outcome summary facts duplicateOf none →
      (execute options host w command).2 = w ∧
        ((execute options host w command).1.succeeded = true →
          ∃ s, (execute options host w command).1 = .receipt (.success s) ∧
            s.analysis = some existing ∧ s.replayed = some true) ∧
        ∀ p, plan options host w command = .ok p → host.crash = false →
          (execute options host w command).1.succeeded = true
  detailed : ∀ host, ∀ existing ∈ w.ledger.analyses,
    ∀ outcome summary facts duplicateOf detail command,
      command = existing.identity.request outcome summary facts duplicateOf (some detail) →
        RepeatedDetail options host w existing command

namespace Sample

/-- A host whose inspector accepts every dump. -/
def acceptingHost (n : Fin 10) : Host := { host n with inspect _ _ := .accepted .unknown [] }

/-- A dump that was accepted, with one report. -/
def analysisRun : List Event :=
  sealedRun ++
    [.command (host 5) (.promoteObject (host 0).dumpId.text),
      .command (host 6) (.markQuarantined (host 0).dumpId.text),
      .command (acceptingHost 7) (.acceptDump (host 0).dumpId.text),
      .command (host 8)
        (.recordAnalysis (host 0).dumpId.text "triage" "1.0" "crash" (sha256 [77, 68, 77, 80]).text
          "completed" "access violation" none none none)]

end Sample

end DumpLedger
