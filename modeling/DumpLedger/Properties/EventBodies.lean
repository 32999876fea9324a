import DumpLedger.Engine.Imports
import DumpLedger.Engine.Run
import DumpLedger.Webhooks.Payload

/-!
# The body of a webhook

In every state of a run, the body the dispatcher POSTs for an event is the event the feed
serves exactly when the detail fits the feed. An import brings in details that do not.
-/

namespace DumpLedger

open Lib

/-- **The body of a webhook is the event of the feed when the detail is small enough.** -/
theorem webhook_body (options : EngineOptions) (events : List Event) (entry : AuditFeedEntry)
    (_ : entry ∈ auditTrail (reached options events).ledger.auditEvents) :
    eventPayloadOf entry = encodeEventFeedEntry (eventFeedEntryOf entry) ↔
      (Json.obj entry.detail).serializedBytes ≤ maxEventDetailBytes :=
  eventPayloadOf_eq

namespace Sample

/-- The event a fresh instance writes first. -/
def createdEntry : AuditFeedEntry where
  rowid := 1
  eventId := auditId 0
  occurredAt := ⟨"2026-01-01T00:00:00.000Z", by decide⟩
  action := AuditAction.createCustomer.stored
  customerId := some (host 0).customerId
  caseId := none
  dumpId := none
  detail := []

end Sample

/-- The first event of an upload has no detail. -/
theorem webhook_body_created :
    eventPayloadOf Sample.createdEntry = encodeEventFeedEntry (eventFeedEntryOf Sample.createdEntry) :=
  (webhook_body Sample.options Sample.uploadRun Sample.createdEntry
    (List.mem_of_mem_head? rfl)).mpr (by decide)

/-! ## A detail that is too large -/

namespace Sample

/-- A text of `n` letters. -/
def letters (n : Nat) : String := String.ofList (List.replicate n 'a')

theorem utf8ByteSize_letters (n : Nat) : (letters n).utf8ByteSize = n := by
  unfold letters
  induction n with
  | zero => rfl
  | succ n ih =>
    rw [List.replicate_succ, String.ofList_cons, String.utf8ByteSize_append, ih]
    exact Nat.add_comm 1 n

theorem quote_letters (n : Nat) : Json.quote (letters n) = "\"" ++ letters n ++ "\"" := by
  unfold Json.quote letters
  congr 3
  rw [String.toList_ofList]
  induction n with
  | zero => rfl
  | succ n ih =>
    rw [List.replicate_succ, List.flatMap_cons, ih]
    rfl

def noteDetail (n : Nat) : JsonObject := [("note", .str (letters n))]

theorem serializedBytes_noteDetail (n : Nat) :
    (Json.obj (noteDetail n)).serializedBytes = n + 11 := by
  have hkey : Json.quote "note" = "\"note\"" := by decide
  simp only [Json.serializedBytes, Json.stringify, Json.stringifyMembers, noteDetail, hkey,
    quote_letters, String.intercalate_singleton, String.utf8ByteSize_append, utf8ByteSize_letters]
  show 1 + (6 + 1 + (1 + n + 1)) + 1 = n + 11
  omega

/-- An event of a foreign trail with a note of 4096 letters. -/
def noteRow : AuditEventRow where
  eventId := auditId 9
  occurredAt := ⟨"2025-01-01T00:00:00.000Z", by decide⟩
  action := ⟨"Note", by decide⟩
  customerId := none
  caseId := none
  dumpId := none
  detail := noteDetail 4096

/-- An import in progress. -/
def openImport : List Event :=
  [.command (host 0)
    (.beginImport "manifest"
      { customers := .int 0, cases := .int 0, grants := .int 0, dumps := .int 0,
        auditEvents := none })]

def noteRun : List Event := openImport ++ [.command (host 1) (.importAuditEvent noteRow.importRecord)]

/-- The import brings the event in, detail and all. -/
theorem noteRow_imported :
    ∃ rowid, auditFeedEntryOf rowid noteRow ∈
      auditTrail (reached options noteRun).ledger.auditEvents := by
  have hu : (host 1).Undisturbed (reached options openImport) :=
    ⟨⟨createdEntry.occurredAt, rfl⟩, rfl, rfl, rfl, by decide⟩
  have hopen : (reached options openImport).ledger.unfinishedImportId ≠ none := by decide
  have hnew : (reached options openImport).ledger.auditEvents.find? noteRow.eventId = none := by
    decide
  have hsize : (Json.obj noteRow.detail).serializedBytes ≤ 16 * 1024 := by
    rw [show noteRow.detail = noteDetail 4096 from rfl, serializedBytes_noteDetail]
    decide
  have hsubjects : (reached options openImport).ledger.SubjectsExist noteRow.customerId
      noteRow.caseId noteRow.dumpId :=
    ⟨fun _ hk => absurd hk (by rintro ⟨⟩), fun _ hk => absurd hk (by rintro ⟨⟩),
      fun _ hk => absurd hk (by rintro ⟨⟩)⟩
  obtain ⟨receipt, hexec⟩ :=
    execute_importAuditEvent options hu hopen hsubjects hnew hsize
  rw [noteRun, reached_concat, step, hexec]
  show ∃ rowid, _ ∈ auditTrail ((reached options openImport).ledger.auditEvents.insert noteRow hnew)
  rw [auditTrail_insert]
  exact ⟨_, List.mem_append_right _ (List.mem_singleton_self _)⟩

end Sample

/-- A state of a run with an event whose two renderings differ. -/
theorem webhook_body_cut :
    ∃ entry ∈ auditTrail (reached Sample.options Sample.noteRun).ledger.auditEvents,
      eventPayloadOf entry ≠ encodeEventFeedEntry (eventFeedEntryOf entry) := by
  obtain ⟨rowid, hmem⟩ := Sample.noteRow_imported
  refine ⟨_, hmem, fun h => ?_⟩
  have hle := eventPayloadOf_eq.mp h
  rw [show (auditFeedEntryOf rowid Sample.noteRow).detail = Sample.noteDetail 4096 from rfl,
    Sample.serializedBytes_noteDetail] at hle
  exact absurd hle (by decide)

end DumpLedger
