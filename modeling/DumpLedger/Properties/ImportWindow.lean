import DumpLedger.Engine.Run

/-!
# The import window

An import is open from the `BeginImport` command that succeeded to the `FinishImport`
command that names it. The ledger does not store that: it reads the audit trail, into
which `ImportAuditEvent` writes foreign events verbatim. `Session` carries the window as
the commands draw it along with the world, to be compared with what the trail says.

* `unfinishedImportId_ne_none` — what the trail has to hold for a record to be taken in
* `windowInvariant_step` — the trail and the commands agree, as long as no foreign event
  speaks of the open import and every foreign marker is finished when the import ends
* `import_window` — so the window opens, and closes for good
-/

namespace DumpLedger

open Lib SqliteLedger

/-! ## What the trail says -/

section Trail

variable {l l' : SqliteLedger}

theorem unfinishedImportId_ne_none :
    l.unfinishedImportId ≠ none ↔ ∃ id ∈ l.begunImportIds, id.text ∉ l.finishedImportIds := by
  rw [unfinishedImportId, Ne, List.find?_eq_none]
  simp only [decide_eq_true_eq, not_forall, exists_prop, not_not]

theorem begunImportIds_insert {row : AuditEventRow}
    {h : l.auditEvents.find? row.eventId = none} (hl : l'.auditEvents = l.auditEvents.insert row h) :
    l'.begunImportIds =
      l.begunImportIds ++ if row.isBeginImport = true then [row.eventId] else [] := by
  rw [begunImportIds, hl]
  show ((l.auditEvents.rows ++ [row]).filter _).map _ = _
  rw [List.filter_append, List.map_append]
  congr 1
  cases hb : row.isBeginImport <;> simp [hb]

theorem finishedImportIds_insert {row : AuditEventRow}
    {h : l.auditEvents.find? row.eventId = none} (hl : l'.auditEvents = l.auditEvents.insert row h) :
    l'.finishedImportIds =
      l.finishedImportIds ++ if row.isFinishImport = true then row.importId?.toList else [] := by
  rw [finishedImportIds, hl]
  show ((l.auditEvents.rows ++ [row]).filter _).filterMap _ = _
  rw [List.filter_append, List.filterMap_append]
  congr 1
  cases hf : row.isFinishImport with
  | false => simp [hf]
  | true => cases hi : row.importId? <;> simp [hf, hi]

end Trail

/-! ## The commands of an import -/

/-- `ImportCustomer` to `ImportAuditEvent`. -/
def LifecycleAction.importsRecord : LifecycleAction → Bool
  | .importCustomer | .importCase | .importGrant | .importDumpStaged | .importAuditEvent => true
  | _ => false

section Commands

variable {options : EngineOptions} {host : Host} {w : World} {occurredAt : IsoTimestamp}

/-- The ledger refuses every record outside the window its trail shows. -/
theorem run_importsRecord {sha256 : Bytes → Sha256} {op : LedgerOp} {event : EventIdentity}
    {l l' : SqliteLedger} {r : LedgerResult} (h : op.run sha256 event l = .ok (r, l'))
    (hop : op.action.importsRecord = true) : l.unfinishedImportId ≠ none := by
  cases op with
  | importCustomer record =>
    simp only [LedgerOp.run, LedgerOp.noResult_eq_ok, importCustomer_eq_ok] at h
    exact h.1.1
  | importCase record =>
    simp only [LedgerOp.run, LedgerOp.noResult_eq_ok, importCase_eq_ok] at h
    exact h.1.1
  | importGrant record forceRevoked =>
    simp only [LedgerOp.run, LedgerOp.noResult_eq_ok, importGrant_eq_ok] at h
    exact h.1.1
  | importDumpStaged record =>
    simp only [LedgerOp.run, LedgerOp.noResult_eq_ok, importDumpStaged, importDump_eq_ok] at h
    exact h.1.1
  | importDumpTombstone record =>
    simp only [LedgerOp.run, LedgerOp.noResult_eq_ok, importDumpTombstone, importDump_eq_ok] at h
    exact h.1.1
  | importAuditEvent record =>
    simp only [LedgerOp.run, LedgerOp.noResult_eq_ok, importAuditEvent_eq_ok] at h
    exact h.1.1
  | transitionGrant grantId next => cases next <;> cases hop
  | _ => cases hop

/-- The import commands always come to a transaction. -/
theorem planAt_ledger {command : Command}
    (h : command.type.importsRecord = true ∨ command.type = .beginImport ∨
      command.type = .finishImport) :
    Ensures (planAt options host w occurredAt command) (fun p => ∃ op, p.ledger = some op) := by
  cases command with
  | importDumpStaged record =>
    simp only [planAt, planImportDumpStaged, planImportStaged, planImportTombstone]
    repeat refine .bind fun _ _ => ?_
    split
    · split
      · exact .bind fun _ _ => .ok ⟨_, rfl⟩
      · exact .error
    · repeat refine .bind fun _ _ => ?_
      exact .ok ⟨_, rfl⟩
  | beginImport | importCustomer | importCase | importGrant | importAuditEvent | finishImport =>
    simp only [planAt, planBeginImport, planImportCustomer, planImportCase, planImportGrant,
      planImportAuditEvent, planFinishImport]
    repeat refine .bind fun _ _ => ?_
    exact .ok ⟨_, rfl⟩
  | _ => rcases h with h | h | h <;> cases h

/-- An import command that succeeded committed a transaction of its own kind. -/
theorem committed_of_import {command : Command}
    (h : (execute options host w command).1.succeeded = true)
    (hcommand : command.type.importsRecord = true ∨ command.type = .beginImport ∨
      command.type = .finishImport) :
    ∃ p op r, Committed options w (.command host command) host command p op r
      (step options w (.command host command)).ledger := by
  obtain ⟨p, -, hp, -, -, -⟩ := execute_succeeded h
  obtain ⟨t, -, hplan⟩ := plan_eq_ok.mp hp
  obtain ⟨op, hop⟩ := planAt_ledger hcommand p hplan
  obtain ⟨r, hc⟩ := committed_of_succeeded h hp hop
  exact ⟨p, op, r, hc⟩

/-- The receipt of a `BeginImport` carries the identifier of its event. -/
theorem planBeginImport_ok_cases {manifestDigest : String} {counts : RawImportCounts} {p : Plan}
    (h : planBeginImport host occurredAt manifestDigest counts = .ok p) :
    p.receipt.importId = some host.auditId ∧ p.event = host.event occurredAt := by
  simp only [planBeginImport, bind_eq_ok, pure_eq_ok] at h
  obtain ⟨_, -, _, -, rfl⟩ := h
  exact ⟨rfl, rfl⟩

theorem planFinishImport_ok_cases {importId : String} {summary : RawImportSummary} {p : Plan}
    (h : planFinishImport host occurredAt importId summary = .ok p) :
    ∃ id : AuditEventId, id.text = importId ∧ p.receipt.importId = some id ∧
      ∃ s, p.ledger = some (.finishImport id s) := by
  simp only [planFinishImport, bind_eq_ok, pure_eq_ok, parseAuditEventId,
    parseIdentifier_eq_ok] at h
  obtain ⟨id, hid, s, -, rfl⟩ := h
  exact ⟨id, hid, rfl, s, rfl⟩

theorem planImportAuditEvent_ok_cases {record : ImportAuditEventRecord} {p : Plan}
    (h : planImportAuditEvent host occurredAt record = .ok p) :
    ∃ row, checkImportAuditEventRecord record = .ok row ∧
      p.ledger = some (.importAuditEvent row) := by
  simp only [planImportAuditEvent, bind_eq_ok, pure_eq_ok] at h
  obtain ⟨row, hrow, rfl⟩ := h
  exact ⟨row, hrow, rfl⟩

end Commands

/-! ## What the commands say -/

/-- A world, and the import that is open by the commands that succeeded so far. -/
structure Session where
  world : World
  openImport : Option AuditEventId

namespace Session

def fresh : Session := ⟨.fresh, none⟩

/-- The identifier a successful import marker command answers with. -/
def answeredImportId (options : EngineOptions) (w : World) (host : Host) (command : Command) :
    Option AuditEventId :=
  match (execute options host w command).1 with
  | .receipt (.success receipt) => receipt.importId
  | _ => none

/-- A `BeginImport` that succeeds opens a window, the `FinishImport` of it closes it. -/
def nextOpen (options : EngineOptions) (s : Session) : Event → Option AuditEventId
  | .command host (.beginImport manifestDigest counts) =>
    (answeredImportId options s.world host (.beginImport manifestDigest counts)).or s.openImport
  | .command host (.finishImport importId summary) =>
    match answeredImportId options s.world host (.finishImport importId summary) with
    | some id => if s.openImport = some id then none else s.openImport
    | none => s.openImport
  | _ => s.openImport

def step (options : EngineOptions) (s : Session) (e : Event) : Session :=
  ⟨DumpLedger.step options s.world e, nextOpen options s e⟩

/-- The session is the run of the engine, with the window beside it. -/
theorem world_run (options : EngineOptions) (s : Session) (events : List Event) :
    (run (step options) s events).world = run (DumpLedger.step options) s.world events := by
  induction events generalizing s with
  | nil => rfl
  | cons e es ih => exact ih (step options s e)

end Session

section Window

variable {options : EngineOptions} {s : Session} {e : Event} {host : Host} {command : Command}
  {p : Plan} {op : LedgerOp} {r : LedgerResult} {l : SqliteLedger}

theorem nextOpen_beginImport {manifestDigest : BoundedText 128} {counts : ImportCounts}
    (hc : Committed options s.world e host command p (.beginImport manifestDigest counts) r l) :
    s.nextOpen options e = some p.event.eventId ∧ p.event.eventId = host.auditId ∧
      ∃ d c, command = .beginImport d c := by
  have haction := plan_action hc.plan hc.ledger
  cases command <;> cases haction
  next d c =>
    obtain ⟨t, -, hplan⟩ := plan_eq_ok.mp hc.plan
    obtain ⟨hreceipt, hevent⟩ := planBeginImport_ok_cases hplan
    have hrun := hc.run
    simp only [LedgerOp.run, LedgerOp.noResult_eq_ok] at hrun
    obtain ⟨-, rfl⟩ := hrun
    refine ⟨?_, congrArg EventIdentity.eventId hevent, d, c, rfl⟩
    rw [hc.event]
    simp only [Session.nextOpen, Session.answeredImportId, hc.outcome,
      TransitionSuccess.withResult, hreceipt, hevent]
    rfl

theorem nextOpen_finishImport {importId : AuditEventId} {summary : ImportSummary}
    (hc : Committed options s.world e host command p (.finishImport importId summary) r l) :
    (s.nextOpen options e = if s.openImport = some importId then none else s.openImport) ∧
      ∃ d, command = .finishImport importId.text d := by
  have haction := plan_action hc.plan hc.ledger
  cases command <;> cases haction
  next d c =>
    obtain ⟨t, -, hplan⟩ := plan_eq_ok.mp hc.plan
    obtain ⟨id, rfl, hreceipt, _, hop⟩ := planFinishImport_ok_cases hplan
    rw [hc.ledger] at hop
    cases hop
    have hrun := hc.run
    simp only [LedgerOp.run, LedgerOp.noResult_eq_ok] at hrun
    obtain ⟨-, rfl⟩ := hrun
    refine ⟨?_, c, rfl⟩
    rw [hc.event]
    simp only [Session.nextOpen, Session.answeredImportId, hc.outcome,
      TransitionSuccess.withResult, hreceipt]

theorem nextOpen_other (hbegin : ∀ d c, command ≠ .beginImport d c)
    (hfinish : ∀ i c, command ≠ .finishImport i c) :
    s.nextOpen options (.command host command) = s.openImport := by
  cases command with
  | beginImport d c => exact absurd rfl (hbegin d c)
  | finishImport i c => exact absurd rfl (hfinish i c)
  | _ => rfl

/-- An event that committed nothing left the window alone. -/
theorem nextOpen_of_not_committed
    (h : ¬ ∃ host command p op r, Committed options s.world e host command p op r
      (step options s.world e).ledger) : s.nextOpen options e = s.openImport := by
  have hnone : ∀ host command, e = .command host command →
      (command.type.importsRecord = true ∨ command.type = .beginImport ∨
        command.type = .finishImport) →
      Session.answeredImportId options s.world host command = none := by
    rintro host command rfl hcommand
    unfold Session.answeredImportId
    split
    · next receipt hout =>
      refine absurd ?_ h
      obtain ⟨p, op, r, hc⟩ := committed_of_import
        (show (execute options host s.world command).1.succeeded = true by rw [hout]; rfl) hcommand
      exact ⟨host, command, p, op, r, hc⟩
    · rfl
  unfold Session.nextOpen
  split
  · rw [hnone _ _ rfl (Or.inr (Or.inl rfl))]
    rfl
  · rw [hnone _ _ rfl (Or.inr (Or.inr rfl))]
  · rfl

/-! ## The two agree -/

/-- What the trail and the commands have in common: a closed window leaves no marker
unfinished, and as long as nothing has been brought in, an open window is an unfinished
marker. -/
structure WindowInvariant (s : Session) : Prop where
  closed : s.openImport = none → s.world.ledger.unfinishedImportId = none
  kept : s.world.ledger.isEmpty = true → ∀ id ∈ s.openImport,
    id ∈ s.world.ledger.begunImportIds ∧ id.text ∉ s.world.ledger.finishedImportIds

/-- The import markers a run brings in keep out of the way of the open import. -/
def WindowCondition (s : Session) : Event → Prop
  -- the new marker is not one that some event has already finished
  | .command host (.beginImport _ _) => host.auditId.text ∉ s.world.ledger.finishedImportIds
  -- before the first record no foreign event finishes the open import
  | .command _ (.importAuditEvent record) =>
    s.world.ledger.isEmpty = true → ∀ row, checkImportAuditEventRecord record = .ok row →
      row.isFinishImport = true → ∀ id ∈ s.openImport, row.importId? ≠ some id.text
  -- when the open import is finished, every other marker in the trail is finished too
  | .command _ (.finishImport importId _) =>
    ∀ id ∈ s.openImport, id.text = importId → ∀ other ∈ s.world.ledger.begunImportIds,
      other ≠ id → other.text ∈ s.world.ledger.finishedImportIds
  | _ => True

theorem windowInvariant_fresh : WindowInvariant .fresh :=
  ⟨fun _ => by decide, fun _ _ h => by cases h⟩

/-- A trail whose markers are as before, or more finished, is no more open. -/
theorem unfinishedImportId_eq_none_mono {l l' : SqliteLedger}
    (hbegun : ∀ id ∈ l'.begunImportIds, id ∈ l.begunImportIds)
    (hfinished : ∀ t ∈ l.finishedImportIds, t ∈ l'.finishedImportIds)
    (h : l.unfinishedImportId = none) : l'.unfinishedImportId = none := by
  by_contra hne
  obtain ⟨id, hid, hnot⟩ := unfinishedImportId_ne_none.mp hne
  exact unfinishedImportId_ne_none.mpr ⟨id, hbegun id hid, fun hf => hnot (hfinished _ hf)⟩ h

theorem window_begun {manifestDigest : BoundedText 128} {counts : ImportCounts}
    (hcond : WindowCondition s e)
    (hc : Committed options s.world e host command p (.beginImport manifestDigest counts) r
      (step options s.world e).ledger) : WindowInvariant (s.step options e) := by
  obtain ⟨hopen, hid, d, c, rfl⟩ := nextOpen_beginImport hc
  have hrun := hc.run
  simp only [LedgerOp.run, LedgerOp.noResult_eq_ok, beginImport_eq_ok] at hrun
  obtain ⟨⟨-, -, hfree, hl⟩, -⟩ := hrun
  have htrail : (step options s.world e).ledger.auditEvents =
      s.world.ledger.auditEvents.insert (auditRow p.event .beginImport none none none
        (beginImportDetail p.event.eventId manifestDigest counts)) hfree :=
    congrArg SqliteLedger.auditEvents hl
  have hbegun := begunImportIds_insert htrail
  have hfinished := finishedImportIds_insert htrail
  simp only [isBeginImport_auditRow, isFinishImport_auditRow, decide_true, if_true, reduceCtorEq,
    decide_false, Bool.false_eq_true, if_false, List.append_nil] at hbegun hfinished
  refine ⟨fun hnone => ?_, fun _ id hmem => ?_⟩
  · rw [Session.step, hopen] at hnone
    cases hnone
  · rw [Session.step, hopen, Option.mem_some_iff] at hmem
    subst hmem
    refine ⟨?_, ?_⟩
    · show _ ∈ (step options s.world e).ledger.begunImportIds
      rw [hbegun]
      exact List.mem_append_right _ (List.mem_singleton_self _)
    · show _ ∉ (step options s.world e).ledger.finishedImportIds
      rw [hfinished, hid]
      rw [hc.event] at hcond
      exact hcond

/-- The `FinishImport` event names the import it finishes. -/
theorem importId?_finishImport {event : EventIdentity} {importId : AuditEventId}
    {summary : ImportSummary} {digest : Json} :
    (auditRow event .finishImport none none none
      (("manifestDigest", digest) :: finishImportDetail importId summary)).importId? =
        some importId.text := by
  simp [AuditEventRow.importId?, auditRow, finishImportDetail, JsonObject.get?, List.lookup]

theorem window_finished {importId : AuditEventId} {summary : ImportSummary}
    (hs : WindowInvariant s) (hcond : WindowCondition s e)
    (hc : Committed options s.world e host command p (.finishImport importId summary) r
      (step options s.world e).ledger) : WindowInvariant (s.step options e) := by
  obtain ⟨hopen, d, rfl⟩ := nextOpen_finishImport hc
  have hempty := isEmpty_of_run hc.run
  have hrun := hc.run
  simp only [LedgerOp.run, LedgerOp.noResult_eq_ok, finishImport_eq_ok] at hrun
  obtain ⟨⟨marker, -, -, -, hfree, hl⟩, -⟩ := hrun
  have htrail : (step options s.world e).ledger.auditEvents =
      s.world.ledger.auditEvents.insert (auditRow p.event .finishImport none none none
        (("manifestDigest", marker.manifestDigest) :: finishImportDetail importId summary))
        hfree := congrArg SqliteLedger.auditEvents hl
  have hbegun := begunImportIds_insert htrail
  have hfinished := finishedImportIds_insert htrail
  simp only [isBeginImport_auditRow, isFinishImport_auditRow, decide_true, if_true, reduceCtorEq,
    decide_false, Bool.false_eq_true, if_false, List.append_nil, importId?_finishImport,
    Option.toList_some] at hbegun hfinished
  rw [hc.event] at hcond
  refine ⟨fun hnone => ?_, fun hemp id hmem => ?_⟩
  · show (step options s.world e).ledger.unfinishedImportId = none
    by_cases hnamed : s.openImport = some importId
    · by_contra hne
      obtain ⟨other, hother, hnot⟩ := unfinishedImportId_ne_none.mp hne
      rw [hbegun] at hother
      rw [hfinished] at hnot
      refine hnot (List.mem_append.mpr ?_)
      by_cases heq : other = importId
      · exact Or.inr (by rw [heq]; exact List.mem_singleton_self _)
      · exact Or.inl (hcond importId hnamed rfl other hother heq)
    · rw [Session.step, hopen, if_neg hnamed] at hnone
      refine unfinishedImportId_eq_none_mono ?_ ?_ (hs.closed hnone)
      · rw [hbegun]
        exact fun _ => id
      · rw [hfinished]
        exact fun _ => List.mem_append_left _
  · have hmem' : id ∈ s.openImport ∧ id ≠ importId := by
      rw [Session.step, hopen] at hmem
      by_cases hnamed : s.openImport = some importId
      · rw [if_pos hnamed] at hmem
        cases hmem
      · rw [if_neg hnamed] at hmem
        exact ⟨hmem, fun he => hnamed (he ▸ hmem)⟩
    obtain ⟨hb, hf⟩ := hs.kept (hempty hemp) id hmem'.1
    refine ⟨?_, ?_⟩
    · show _ ∈ (step options s.world e).ledger.begunImportIds
      rw [hbegun]
      exact hb
    · show _ ∉ (step options s.world e).ledger.finishedImportIds
      rw [hfinished, List.mem_append, List.mem_singleton]
      rintro (h | h)
      · exact hf h
      · exact hmem'.2 (Identifier.ext h)

/-- A transaction that is no import marker command leaves the window alone; it may bring
in one foreign event. -/
theorem window_other (hs : WindowInvariant s) (hcond : WindowCondition s e)
    (hc : Committed options s.world e host command p op r (step options s.world e).ledger)
    (hb : op.action ≠ .beginImport) (hf : op.action ≠ .finishImport) :
    WindowInvariant (s.step options e) := by
  have haction := plan_action hc.plan hc.ledger
  have hopen : s.nextOpen options e = s.openImport := by
    rw [haction] at hb hf
    rw [hc.event]
    exact nextOpen_other (fun d c he => hb (by rw [he]; rfl)) fun i c he => hf (by rw [he]; rfl)
  have hempty := isEmpty_of_run hc.run
  -- what is left to show: the markers of the open import are still there and unfinished, and
  -- a trail without an unfinished marker has none now
  suffices h :
      (∀ id ∈ (step options s.world e).ledger.begunImportIds,
        id ∈ s.world.ledger.begunImportIds ∨ s.openImport ≠ none) ∧
      (∀ id ∈ s.world.ledger.begunImportIds,
        id ∈ (step options s.world e).ledger.begunImportIds) ∧
      (∀ t ∈ s.world.ledger.finishedImportIds,
        t ∈ (step options s.world e).ledger.finishedImportIds) ∧
      (s.world.ledger.isEmpty = true → ∀ id ∈ s.openImport,
        id.text ∈ (step options s.world e).ledger.finishedImportIds →
          id.text ∈ s.world.ledger.finishedImportIds) by
    obtain ⟨hback, hbegun, hfinished, hfin⟩ := h
    refine ⟨fun hnone => ?_, fun hemp id hmem => ?_⟩
    · rw [Session.step, hopen] at hnone
      refine unfinishedImportId_eq_none_mono (fun id hid => ?_) hfinished (hs.closed hnone)
      rcases hback id hid with h | h
      · exact h
      · exact absurd hnone h
    · rw [Session.step, hopen] at hmem
      obtain ⟨hb, hf⟩ := hs.kept (hempty hemp) id hmem
      exact ⟨hbegun id hb, fun h => hf (hfin (hempty hemp) id hmem h)⟩
  have htrail := (run_changes hc.run).trail
  generalize htrail' : (step options s.world e).ledger.auditEvents = trail at htrail
  cases htrail with
  | same =>
    have hbegun : (step options s.world e).ledger.begunImportIds = s.world.ledger.begunImportIds := by
      rw [begunImportIds, htrail', begunImportIds]
    have hfinished : (step options s.world e).ledger.finishedImportIds =
        s.world.ledger.finishedImportIds := by
      rw [finishedImportIds, htrail', finishedImportIds]
    rw [hbegun, hfinished]
    exact ⟨fun _ => Or.inl, fun _ => id, fun _ => id, fun _ _ _ => id⟩
  | begun manifestDigest counts hop _ => exact absurd (by rw [hop]; rfl) hb
  | finished importId summary _ hop _ => exact absurd (by rw [hop]; rfl) hf
  | appended row _ _ hbegin hfinish =>
    have hbegun := begunImportIds_insert htrail'
    have hfinished := finishedImportIds_insert htrail'
    simp only [hbegin, hfinish, Bool.false_eq_true, if_false, List.append_nil] at hbegun hfinished
    rw [hbegun, hfinished]
    exact ⟨fun _ => Or.inl, fun _ => id, fun _ => id, fun _ _ _ => id⟩
  | imported record hop _ =>
    -- the record was taken in, so a window is open; the condition keeps it off that window
    have hwindow : s.world.ledger.unfinishedImportId ≠ none :=
      run_importsRecord hc.run (by rw [hop]; rfl)
    have hsome : s.openImport ≠ none := fun hnone => hwindow (hs.closed hnone)
    have hbegun := begunImportIds_insert htrail'
    have hfinished := finishedImportIds_insert htrail'
    rw [hbegun, hfinished]
    refine ⟨fun _ _ => Or.inr hsome, fun _ => List.mem_append_left _,
      fun _ => List.mem_append_left _, fun hemp id hmem ht => ?_⟩
    rcases List.mem_append.mp ht with ht | ht
    · exact ht
    · subst hop
      cases command <;> cases haction
      next raw =>
        obtain ⟨t, -, hplan⟩ := plan_eq_ok.mp hc.plan
        obtain ⟨row, hrow, hop⟩ := planImportAuditEvent_ok_cases hplan
        rw [hc.ledger] at hop
        cases hop
        rw [hc.event] at hcond
        cases hfinish : record.isFinishImport with
        | false => simp [hfinish] at ht
        | true =>
          rw [hfinish, if_pos rfl, Option.mem_toList] at ht
          exact absurd ht (hcond hemp record hrow hfinish id hmem)

/-- **Every event keeps the trail and the commands in agreement.** -/
theorem windowInvariant_step (hs : WindowInvariant s) (hcond : WindowCondition s e) :
    WindowInvariant (s.step options e) := by
  by_cases hcommitted : ∃ host command p op r, Committed options s.world e host command p op r
      (step options s.world e).ledger
  · obtain ⟨host, command, p, op, r, hc⟩ := hcommitted
    by_cases hb : op.action = .beginImport
    · cases op with
      | beginImport => exact window_begun hcond hc
      | transitionGrant _ next => cases next <;> cases hb
      | _ => cases hb
    · by_cases hf : op.action = .finishImport
      · cases op with
        | finishImport => exact window_finished hs hcond hc
        | transitionGrant _ next => cases next <;> cases hf
        | _ => cases hf
      · exact window_other hs hcond hc hb hf
  · have hledger : (step options s.world e).ledger = s.world.ledger := by
      rcases step_ledger options s.world e with h | h
      · exact h
      · exact absurd h hcommitted
    have hopen := nextOpen_of_not_committed hcommitted
    exact ⟨by simpa only [Session.step, hledger, hopen] using hs.closed,
      by simpa only [Session.step, hledger, hopen] using hs.kept⟩

/-! ## The window -/

/-- The window of a session, for whatever command comes next. -/
structure WindowKept (options : EngineOptions) (s : Session) : Prop where
  /-- An import begins on an empty ledger, with none open. -/
  begins : ∀ host manifestDigest counts,
    (execute options host s.world (.beginImport manifestDigest counts)).1.succeeded = true →
      s.world.ledger.isEmpty = true ∧ s.openImport = none
  /-- A record is taken in between the `BeginImport` and its `FinishImport`, and refused
  from then on until the next `BeginImport`. -/
  records : ∀ host command, command.type.importsRecord = true →
    (execute options host s.world command).1.succeeded = true → s.openImport ≠ none

theorem windowKept_of_invariant (hs : WindowInvariant s) : WindowKept options s where
  begins host manifestDigest counts hsucc := by
    obtain ⟨p, op, r, hc⟩ := committed_of_import hsucc (Or.inr (Or.inl rfl))
    have haction := plan_action hc.plan hc.ledger
    cases op with
    | beginImport =>
      have hrun := hc.run
      simp only [LedgerOp.run, LedgerOp.noResult_eq_ok, beginImport_eq_ok] at hrun
      obtain ⟨⟨hempty, hnone, -, -⟩, -⟩ := hrun
      refine ⟨hempty, ?_⟩
      cases hopen : s.openImport with
      | none => rfl
      | some id =>
        exact absurd hnone (unfinishedImportId_ne_none.mpr ⟨id, hs.kept hempty id hopen⟩)
    | transitionGrant _ next => cases next <;> cases haction
    | _ => cases haction
  records host command hcommand hsucc := by
    obtain ⟨p, op, r, hc⟩ := committed_of_import hsucc (Or.inl hcommand)
    have haction := plan_action hc.plan hc.ledger
    exact fun hnone => run_importsRecord hc.run (by rw [haction]; exact hcommand) (hs.closed hnone)

/-- **The import window opens with `BeginImport` and closes for good with `FinishImport`**,
along a run whose foreign events stay out of its way. -/
theorem import_window (events : List Event)
    (h : Along (Session.step options) WindowCondition Session.fresh events) :
    WindowKept options (run (Session.step options) Session.fresh events) :=
  windowKept_of_invariant
    (invariant_along (fun _ _ => windowInvariant_step) windowInvariant_fresh h)

end Window

namespace Sample

def importCounts : RawImportCounts :=
  { customers := .int 1, cases := .int 1, grants := .int 0, dumps := .int 0, auditEvents := none }

def finishRun : List Event :=
  [.command (host 4) (.finishImport (auditId 0).text { imported := importCounts, skipped := .int 0 })]

/-- An import begun and finished, during which a foreign `BeginImport` event came in. -/
def foreignMarkerRun : List Event :=
  [.command (host 0) (.beginImport "manifest" importCounts),
    .command (host 1)
      (.importAuditEvent
        { eventId := (auditId 9).text, occurredAt := "2025-01-01T00:00:00.000Z",
          action := "BeginImport", customerId := none, caseId := none, dumpId := none,
          detail := [] })] ++ finishRun

end Sample

/-- A customer and a case, and the window is closed again. -/
theorem import_window_finished :
    WindowKept Sample.options
      (run (Session.step Sample.options) Session.fresh
        (Sample.importRun "investigating" ++ Sample.finishRun)) :=
  import_window _ (by
    refine ⟨List.not_mem_nil, trivial, trivial, fun id _ hid other hother hne => ?_, trivial⟩
    have honly : (run (Session.step Sample.options) Session.fresh
        (Sample.importRun "investigating")).world.ledger.begunImportIds = [Sample.auditId 0] := by
      decide +kernel
    have hmarker : other = Sample.auditId 0 := List.mem_singleton.mp (honly.subst hother)
    exact absurd (hmarker.trans (Identifier.ext hid.symm)) hne)

/-- A foreign marker that nothing finishes keeps the ledger open for records. -/
theorem import_window_foreign_marker :
    ¬ WindowKept Sample.options
      (run (Session.step Sample.options) Session.fresh Sample.foreignMarkerRun) := by
  intro h
  have hopen := h.records (Sample.host 5)
    (.importCustomer
      { customerId := "00000000-0000-4000-8000-000000000001", displayName := "Acme",
        createdAt := "2025-01-01T00:00:00.000Z", customerNo := none })
    rfl (by decide +kernel)
  exact hopen (by decide +kernel)

end DumpLedger
