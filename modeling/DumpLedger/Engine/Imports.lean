import DumpLedger.Engine.Execute
import DumpLedger.Ledger.Changes

/-!
# The commands of an import

What it takes for each of them to succeed in an undisturbed host, and the ledger it leaves.
-/

namespace DumpLedger

open Lib

/-- The record that brings a row of the trail in as it is. -/
def AuditEventRow.importRecord (row : AuditEventRow) : ImportAuditEventRecord where
  eventId := row.eventId.text
  occurredAt := row.occurredAt.text
  action := row.action.text
  customerId := row.customerId.map (·.text)
  caseId := row.caseId.map (·.text)
  dumpId := row.dumpId.map (·.text)
  detail := row.detail

/-- A text column that came from a checked value passes the check again. -/
theorem forOption_map_text {α : Type} {text : α → String} {parse : String → Except Thrown α}
    (hparse : ∀ a, parse (text a) = .ok a) (o : Option α) :
    forOption (o.map text) parse = .ok o := by
  cases o with
  | none => rfl
  | some a =>
    show some <$> parse (text a) = _
    rw [hparse a]
    rfl

section Imports

variable {options : EngineOptions} {host : Host} {w : World}

theorem checkImportAuditEventRecord_importRecord {row : AuditEventRow}
    (h : (Json.obj row.detail).serializedBytes ≤ 16 * 1024) :
    checkImportAuditEventRecord row.importRecord = .ok row := by
  have hcustomer : forOption (row.customerId.map (·.text)) parseCustomerId = .ok row.customerId :=
    forOption_map_text parseCustomerId_text _
  have hcase : forOption (row.caseId.map (·.text)) parseCaseId = .ok row.caseId :=
    forOption_map_text (fun _ => parseIdentifier_text _) _
  have hdump : forOption (row.dumpId.map (·.text)) parseDumpId = .ok row.dumpId :=
    forOption_map_text (fun _ => parseIdentifier_text _) _
  unfold checkImportAuditEventRecord AuditEventRow.importRecord
  simp only [parseAuditEventId, parseIdentifier_text, assertText_text, assertIsoTimestamp_text,
    hcustomer, hcase, hdump, assertPlainObject, guardThat_of h, bind_ok]
  rfl

/-- **An event of a foreign trail enters as it is** while the import is in progress. -/
theorem execute_importAuditEvent (options : EngineOptions) {row : AuditEventRow}
    (hu : host.Undisturbed w) (hopen : w.ledger.unfinishedImportId ≠ none)
    (hs : w.ledger.SubjectsExist row.customerId row.caseId row.dumpId)
    (hnew : w.ledger.auditEvents.find? row.eventId = none)
    (hsize : (Json.obj row.detail).serializedBytes ≤ 16 * 1024) :
    ∃ receipt, execute options host w (.importAuditEvent row.importRecord) =
      (.receipt (.success receipt), ⟨w.ledger.audited row hnew, w.vaults⟩) := by
  obtain ⟨t, ht⟩ := hu.clock
  have hplan : plan options host w (.importAuditEvent row.importRecord) =
      .ok (ledgerPlan host t (.importAuditEvent row)
        { action := .importAuditEvent, occurredAt := t }) := by
    refine plan_eq_ok.mpr ⟨t, ht, ?_⟩
    simp only [planAt, planImportAuditEvent, checkImportAuditEventRecord_importRecord hsize,
      bind_ok]
    rfl
  have hrun : (LedgerOp.importAuditEvent row).run options.digests.sha256 (host.event t) w.ledger =
      .ok (.done, w.ledger.audited row hnew) := by
    rw [LedgerOp.run, LedgerOp.noResult_eq_ok]
    exact ⟨SqliteLedger.importAuditEvent_eq_ok.mpr ⟨hopen, hs, hnew, rfl⟩, rfl⟩
  exact ⟨_, execute_ledgerPlan hu hplan hrun⟩

end Imports

end DumpLedger
