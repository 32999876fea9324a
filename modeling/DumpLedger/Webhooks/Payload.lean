import DumpLedger.Http.EventFeed

/-!
# The two renderings of an event

The event feed serves an event through `encodeEventFeedEntry`; the dispatcher POSTs what
`eventPayloadOf` makes of it. Both take the same entry of the audit feed.

`eventPayloadOf_eq` says when they agree: the feed serves a large detail as an empty object,
the dispatcher does not.
-/

namespace DumpLedger

def nullableText : Option String → Json
  | none => .null
  | some s => .str s

def encodeEventFeedEntry (entry : EventFeedEntry) : JsonObject :=
  [("cursor", .str entry.cursor), ("eventId", .str entry.eventId),
    ("occurredAt", .str entry.occurredAt), ("action", .str entry.action),
    ("customerId", nullableText entry.customerId), ("caseId", nullableText entry.caseId),
    ("dumpId", nullableText entry.dumpId), ("detail", .obj entry.detail)]

def eventPayloadOf (entry : AuditFeedEntry) : JsonObject :=
  [("cursor", .str (formatEventCursor entry.rowid)), ("eventId", .str entry.eventId.text),
    ("occurredAt", .str entry.occurredAt.text), ("action", .str entry.action.text),
    ("customerId", nullableText (entry.customerId.map (·.text))),
    ("caseId", nullableText (entry.caseId.map (·.text))),
    ("dumpId", nullableText (entry.dumpId.map (·.text))), ("detail", .obj entry.detail)]

theorem boundedEventDetail_eq_self {detail : JsonObject} :
    boundedEventDetail detail = detail ↔
      (Json.obj detail).serializedBytes ≤ maxEventDetailBytes := by
  unfold boundedEventDetail
  by_cases h : (Json.obj detail).serializedBytes > maxEventDetailBytes
  · rw [if_pos h]
    refine ⟨fun hempty => ?_, fun hle => absurd h (not_lt.mpr hle)⟩
    -- the empty object is two bytes long, so it is never the one that was cut
    subst hempty
    decide
  · rw [if_neg h]
    exact ⟨fun _ => not_lt.mp h, fun _ => rfl⟩

/-- The renderings agree unless the feed cut the detail. -/
theorem eventPayloadOf_eq {entry : AuditFeedEntry} :
    eventPayloadOf entry = encodeEventFeedEntry (eventFeedEntryOf entry) ↔
      (Json.obj entry.detail).serializedBytes ≤ maxEventDetailBytes := by
  rw [← boundedEventDetail_eq_self]
  simp only [eventPayloadOf, encodeEventFeedEntry, eventFeedEntryOf, List.cons.injEq,
    Prod.mk.injEq, true_and, and_true, Json.obj.injEq]
  exact eq_comm

end DumpLedger
