import DumpLedger.Ledger.AuditFeed

/-!
# The event feed

`GET /api/v1/events`: a page of the audit feed as JSON. Each event carries its `rowid` as a
cursor of sixteen digits, and so does the page, for the next request.

`decodeEventCursor_format` says that a cursor the server wrote is one it reads.
-/

namespace DumpLedger

open Lib

/-! ## The cursor -/

/-- `rowid.toString(10).padStart(16, "0")`. -/
def formatEventCursor (rowid : Nat) : String :=
  String.ofList ((Nat.toDigits 10 rowid).leftpad 16 '0')

/-- `/^\d{1,16}$/`. -/
def isEventCursor (cursor : String) : Bool :=
  decide (1 ≤ cursor.toList.length) && decide (cursor.toList.length ≤ 16) &&
    cursor.toList.all Char.isDigit

def decodeEventCursor (cursor : String) : Except Thrown Nat := do
  guardThat (isEventCursor cursor = true) (invalidInput "cursor is invalid")
  let rowid := Nat.ofDigitChars 10 cursor.toList 0
  guardThat (rowid ≤ maxSafeInteger) (invalidInput "cursor is invalid")
  return rowid

theorem decodeEventCursor_safe {cursor : String} {rowid : Nat}
    (h : decodeEventCursor cursor = .ok rowid) : rowid ≤ maxSafeInteger := by
  simp only [decodeEventCursor, bind_eq_ok, guardThat_eq_ok, pure_eq_ok] at h
  obtain ⟨-, -, -, hsafe, rfl⟩ := h
  exact hsafe

/-- **A cursor the server wrote is one it reads.** -/
theorem decodeEventCursor_format {rowid : Nat} (h : rowid ≤ maxSafeInteger) :
    decodeEventCursor (formatEventCursor rowid) = .ok rowid := by
  have hlen : (Nat.toDigits 10 rowid).length ≤ 16 := by
    rw [Nat.length_toDigits_le_iff (by decide) (by decide)]
    unfold maxSafeInteger at h
    omega
  have htext : (formatEventCursor rowid).toList = (Nat.toDigits 10 rowid).leftpad 16 '0' := by
    rw [formatEventCursor, String.toList_ofList]
  have hvalue : Nat.ofDigitChars 10 ((Nat.toDigits 10 rowid).leftpad 16 '0') 0 = rowid := by
    rw [List.leftpad, Nat.ofDigitChars_append, Nat.ofDigitChars_replicate_zero, Nat.mul_zero,
      Nat.ofDigitChars_ten_toDigits]
  have hcursor : isEventCursor (formatEventCursor rowid) = true := by
    have hpad : ((Nat.toDigits 10 rowid).leftpad 16 '0').length = 16 := by
      rw [List.length_leftpad]
      omega
    simp only [isEventCursor, htext, hpad, Bool.and_eq_true, decide_eq_true_eq, List.all_eq_true]
    refine ⟨⟨by decide, le_rfl⟩, fun c hc => ?_⟩
    rcases List.mem_append.mp hc with hc | hc
    · rw [List.eq_of_mem_replicate hc]
      rfl
    · exact Nat.isDigit_of_mem_toDigits (by decide) (by decide) hc
  simp only [decodeEventCursor, bind_eq_ok, guardThat_eq_ok, pure_eq_ok]
  exact ⟨(), hcursor, (), by rwa [htext, hvalue], by rw [htext, hvalue]⟩

/-! ## The page -/

/-- `MAX_EVENT_DETAIL_BYTES`. -/
def maxEventDetailBytes : Nat := 4096

/-- `MAX_EVENTS_PAGE`. -/
def maxEventsPage : Nat := 500

/-- The query, decoded; an absent `limit` is the largest one. -/
structure EventFeedParams where
  since : Option String
  actions : Option (List String)
  caseId : Option String
  limit : Nat
  limit_between : 1 ≤ limit ∧ limit ≤ maxEventsPage

structure EventFeedEntry where
  cursor : String
  eventId : String
  occurredAt : String
  action : String
  customerId : Option String
  caseId : Option String
  dumpId : Option String
  detail : JsonObject

structure EventFeedResponse where
  events : List EventFeedEntry
  nextCursor : String

/-- A detail too large for the response is served as an empty object. -/
def boundedEventDetail (detail : JsonObject) : JsonObject :=
  if (Json.obj detail).serializedBytes > maxEventDetailBytes then [] else detail

def eventFeedEntryOf (entry : AuditFeedEntry) : EventFeedEntry where
  cursor := formatEventCursor entry.rowid
  eventId := entry.eventId.text
  occurredAt := entry.occurredAt.text
  action := entry.action.text
  customerId := entry.customerId.map (·.text)
  caseId := entry.caseId.map (·.text)
  dumpId := entry.dumpId.map (·.text)
  detail := boundedEventDetail entry.detail

/-- A parser's complaint about a query is `invalid_input`. -/
def catalogIdentifier {α : Type} (parsed : Except Thrown α) (label : String) : Except Thrown α :=
  match parsed with
  | .ok a => .ok a
  | .error _ => .error (invalidInput s!"{label} is invalid")

@[simp] theorem catalogIdentifier_eq_ok {α : Type} {parsed : Except Thrown α} {label : String}
    {a : α} : catalogIdentifier parsed label = .ok a ↔ parsed = .ok a := by
  cases parsed <;> simp [catalogIdentifier]

namespace EventFeedParams

def afterRowid (params : EventFeedParams) : Except Thrown (Option Nat) :=
  forOption params.since decodeEventCursor

def filter (params : EventFeedParams) : Except Thrown AuditFeedFilter := do
  let caseId ← forOption params.caseId fun caseId =>
    catalogIdentifier (parseCaseId caseId) "caseId"
  return { actions := params.actions, caseId }

end EventFeedParams

def eventFeed (t : Table AuditEventRow) (params : EventFeedParams) :
    Except Thrown EventFeedResponse := do
  let afterRowid ← params.afterRowid
  let filter ← params.filter
  let page ← readAuditEvents t afterRowid filter (some params.limit)
  return { events := page.events.map eventFeedEntryOf,
           nextCursor := formatEventCursor page.lastRowid }

theorem eventFeed_eq_ok {t : Table AuditEventRow} {params : EventFeedParams}
    {response : EventFeedResponse} :
    eventFeed t params = .ok response ↔
      ∃ after filter page, params.afterRowid = .ok after ∧ params.filter = .ok filter ∧
        readAuditEvents t after filter (some params.limit) = .ok page ∧
          response = { events := page.events.map eventFeedEntryOf,
                       nextCursor := formatEventCursor page.lastRowid } := by
  simp only [eventFeed, bind_eq_ok, pure_eq_ok]
  constructor
  · rintro ⟨after, hafter, filter, hfilter, page, hpage, rfl⟩
    exact ⟨after, filter, page, hafter, hfilter, hpage, rfl⟩
  · rintro ⟨after, filter, page, hafter, hfilter, hpage, rfl⟩
    exact ⟨after, hafter, filter, hfilter, page, hpage, rfl⟩

/-- A limit the query decoder lets through is the size of the page. -/
theorem auditFeedPageSize_limit (params : EventFeedParams) :
    auditFeedPageSize (some (params.limit : Int)) = params.limit := by
  have h := params.limit_between
  unfold maxEventsPage at h
  show min (max (params.limit : Int).toNat 1) maxAuditFeedPage = params.limit
  unfold maxAuditFeedPage
  omega

end DumpLedger
