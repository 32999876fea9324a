import DumpLedger.Engine.Run
import DumpLedger.Http.EventFeed

/-!
# A consumer of the event feed

A consumer polls the feed while the engine works. It keeps the cursor of its last page and
passes it on with the next poll.

* `trail_run` — no event of the engine moves or changes a row of the trail
* `Follows` — what the consumer holds at any time, in terms of the trail
* `event_feed` — the pages are a prefix of the matching events, in their order
-/

namespace DumpLedger

open Lib

/-! ## The trail of a run -/

theorem TrailChange.grows {op : LedgerOp} {event : EventIdentity} {l : SqliteLedger}
    {t : Table AuditEventRow} (h : TrailChange op event l t) : TrailGrows l.auditEvents t := by
  cases h with
  | same => exact TrailGrows.refl _
  | begun _ _ _ h | finished _ _ _ _ h | imported _ _ h | appended _ h _ _ _ =>
    exact trailGrows_insert h

theorem trail_step (options : EngineOptions) (w : World) (e : Event) :
    TrailGrows w.ledger.auditEvents (step options w e).ledger.auditEvents := by
  rcases step_ledger options w e with h | ⟨host, command, p, op, r, hc⟩
  · rw [h]
    exact TrailGrows.refl _
  · exact (run_changes hc.run).trail.grows

/-- **No command changes an event of the trail or its place.** -/
theorem trail_run (options : EngineOptions) (w : World) (events : List Event) :
    TrailGrows w.ledger.auditEvents (run (step options) w events).ledger.auditEvents :=
  invariant_run (I := fun w' : World => TrailGrows w.ledger.auditEvents w'.ledger.auditEvents)
    (fun w' e h => h.trans (trail_step options w' e)) (TrailGrows.refl _)

/-! ## The consumer -/

/-- The part of a query that a consumer repeats with every poll. -/
structure FeedQuery where
  actions : Option (List String)
  caseId : Option String

/-- A limit the API accepts. -/
structure FeedLimit where
  limit : Nat
  limit_between : 1 ≤ limit ∧ limit ≤ maxEventsPage

namespace FeedQuery

def params (q : FeedQuery) (since : Option String) (limit : FeedLimit) : EventFeedParams where
  since := since
  actions := q.actions
  caseId := q.caseId
  limit := limit.limit
  limit_between := limit.limit_between

/-- The query names a case by an identifier. -/
def Reads (q : FeedQuery) (filter : AuditFeedFilter) : Prop :=
  ∀ since limit, (q.params since limit).filter = .ok filter

end FeedQuery

inductive FeedEvent
  | engine (e : Event)
  | poll (limit : FeedLimit)

/-- The consumer's cursor and what it was given so far. -/
structure FeedState where
  world : World
  since : Option String
  delivered : List EventFeedEntry

namespace FeedState

def page (q : FeedQuery) (s : FeedState) (limit : FeedLimit) : Except Thrown EventFeedResponse :=
  eventFeed s.world.ledger.auditEvents (q.params s.since limit)

/-- A poll that fails leaves the consumer where it was. -/
def step (options : EngineOptions) (q : FeedQuery) (s : FeedState) : FeedEvent → FeedState
  | .engine e => { s with world := DumpLedger.step options s.world e }
  | .poll limit =>
    match s.page q limit with
    | .ok page =>
      { s with since := some page.nextCursor, delivered := s.delivered ++ page.events }
    | .error _ => s

end FeedState

/-- Between any two points of a run the trail only grows. -/
theorem trail_consumer (options : EngineOptions) (q : FeedQuery) (s : FeedState)
    (events : List FeedEvent) :
    TrailGrows s.world.ledger.auditEvents
      (Lib.run (FeedState.step options q) s events).world.ledger.auditEvents := by
  refine invariant_run (I := fun s' : FeedState =>
    TrailGrows s.world.ledger.auditEvents s'.world.ledger.auditEvents) (fun s' e h => ?_)
    (TrailGrows.refl _)
  cases e with
  | engine e => exact h.trans (trail_step options s'.world e)
  | poll limit =>
    rw [FeedState.step]
    cases s'.page q limit with
    | ok page => exact h
    | error error => exact h

/-- The consumer holds the events `p`, a prefix of those owed, and its cursor stands after
the last of them. The first row has the `rowid` one, so no cursor and the cursor zero are
the same place. -/
structure Follows (filter : AuditFeedFilter) (after : Option Nat) (s : FeedState)
    (p : List AuditFeedEntry) : Prop where
  owed : p <+: owedEvents s.world.ledger.auditEvents filter after
  delivered : s.delivered = p.map eventFeedEntryOf
  since : ∃ c, forOption s.since decodeEventCursor = .ok c ∧
    c.getD 0 = (cursorAfter AuditFeedEntry.rowid after p).getD 0

theorem owedEvents_getD (t : Table AuditEventRow) (filter : AuditFeedFilter)
    (after : Option Nat) :
    owedEvents t filter after = owedEvents t filter (some (after.getD 0)) := by
  cases after with
  | some n => rfl
  | none =>
    unfold owedEvents above
    refine List.filter_congr fun e he => ?_
    have hpos : 0 < e.rowid := rowid_pos (List.mem_filter.mp he).1
    simp [isAbove_none, hpos]

/-- Two cursors at one place are owed the same events. -/
theorem owedEvents_congr {t : Table AuditEventRow} {filter : AuditFeedFilter}
    {c after : Option Nat} (h : c.getD 0 = after.getD 0) :
    owedEvents t filter c = owedEvents t filter after := by
  rw [owedEvents_getD t filter c, owedEvents_getD t filter after, h]

theorem cursorAfter_getD {c after : Option Nat} {p : List AuditFeedEntry}
    (h : c.getD 0 = after.getD 0) :
    (cursorAfter AuditFeedEntry.rowid c p).getD 0 =
      (cursorAfter AuditFeedEntry.rowid after p).getD 0 := by
  rcases List.eq_nil_or_concat p with rfl | ⟨p', e, rfl⟩
  · exact h
  · rw [List.concat_eq_append, cursorAfter_concat, cursorAfter_concat]

section Consumer

variable {options : EngineOptions} {q : FeedQuery} {filter : AuditFeedFilter}
  {after : Option Nat} {s : FeedState} {p : List AuditFeedEntry}

/-- What is left for the consumer lies above its cursor. -/
theorem Follows.rest (h : Follows filter after s p) {c : Option Nat}
    (hc : c.getD 0 = (cursorAfter AuditFeedEntry.rowid after p).getD 0) :
    owedEvents s.world.ledger.auditEvents filter after =
      p ++ owedEvents s.world.ledger.auditEvents filter c := by
  rw [owedEvents_congr hc]
  exact above_of_prefix (rowid_ascending _ filter) h.owed

/-- The events of a page, and the cursor it goes on from. -/
theorem Follows.page (h : Follows filter after s p) (hq : q.Reads filter) {limit : FeedLimit}
    {response : EventFeedResponse} (hpage : s.page q limit = .ok response) :
    ∃ c events,
      c.getD 0 = (cursorAfter AuditFeedEntry.rowid after p).getD 0 ∧
        events = keysetPage AuditFeedEntry.rowid c limit.limit
            (matchingTrail s.world.ledger.auditEvents filter) ∧
          response.events = events.map eventFeedEntryOf ∧
            decodeEventCursor response.nextCursor =
              .ok ((cursorAfter AuditFeedEntry.rowid c events).getD 0) := by
  obtain ⟨c, f, page, hc, hf, hread, rfl⟩ := eventFeed_eq_ok.mp hpage
  obtain ⟨c', hc', hplace⟩ := h.since
  obtain rfl : c' = c := Except.ok.inj (hc'.symm.trans hc)
  obtain rfl : filter = f := Except.ok.inj ((hq _ _).symm.trans hf)
  obtain ⟨hevents, hsafe, hlast⟩ := readAuditEvents_eq_ok.mp hread
  rw [auditFeedPageSize_limit] at hevents
  refine ⟨c', page.events, hplace, hevents, rfl, ?_⟩
  rw [hlast]
  refine decodeEventCursor_format ?_
  rcases List.eq_nil_or_concat page.events with hnil | ⟨front, e, hcat⟩
  · -- an empty page echoes a cursor that was decoded before
    rw [hnil, cursorAfter_nil]
    rcases forOption_eq_ok.mp hc with ⟨-, rfl⟩ | ⟨cursor, rowid, -, hdecode, rfl⟩
    · exact Nat.zero_le _
    · exact decodeEventCursor_safe hdecode
  · rw [List.concat_eq_append] at hcat
    rw [hcat, cursorAfter_concat]
    exact hsafe e (by rw [hcat]; simp)

/-- **One step: a poll takes the next events, an event of the engine leaves the rest in
place.** -/
theorem Follows.step (h : Follows filter after s p) (hq : q.Reads filter) (e : FeedEvent) :
    ∃ p', Follows filter after (s.step options q e) p' := by
  cases e with
  | engine e =>
    refine ⟨p, ?_, h.delivered, h.since⟩
    exact h.owed.trans ((trail_step options s.world e).owed filter after)
  | poll limit =>
    cases hpage : s.page q limit with
    | error error =>
      refine ⟨p, ?_⟩
      rw [FeedState.step, hpage]
      exact h
    | ok response =>
      obtain ⟨c, events, hplace, hevents, hwire, hdecode⟩ := h.page hq hpage
      refine ⟨p ++ events, ?_⟩
      rw [FeedState.step, hpage]
      refine ⟨?_, ?_, some ((cursorAfter AuditFeedEntry.rowid c events).getD 0), ?_, ?_⟩
      · show p ++ events <+: owedEvents s.world.ledger.auditEvents filter after
        rw [h.rest hplace, hevents]
        exact (List.prefix_append_right_inj p).mpr keysetPage_initial
      · rw [List.map_append, ← h.delivered, ← hwire]
      · show some <$> decodeEventCursor response.nextCursor = _
        rw [hdecode]
        rfl
      · rw [Option.getD_some, cursorAfter_append]
        exact cursorAfter_getD hplace

theorem Follows.run (h : Follows filter after s p) (hq : q.Reads filter)
    (events : List FeedEvent) :
    ∃ p', Follows filter after (Lib.run (FeedState.step options q) s events) p' :=
  invariant_run (I := fun s => ∃ p, Follows filter after s p)
    (fun _ e ⟨_, h⟩ => h.step hq e) ⟨p, h⟩

/-- The events of a prefix of the trail are pairwise different. -/
theorem Follows.nodup (h : Follows filter after s p) :
    (s.delivered.map EventFeedEntry.eventId).Nodup := by
  have hids : ((auditTrail s.world.ledger.auditEvents).map
      (Identifier.text ∘ AuditFeedEntry.eventId)).Nodup := by
    rw [← List.map_map, auditTrail_eventIds]
    exact List.Nodup.map Identifier.text_injective s.world.ledger.auditEvents.keys_nodup
  have hsub : p.Sublist (auditTrail s.world.ledger.auditEvents) :=
    h.owed.sublist.trans (List.filter_sublist.trans List.filter_sublist)
  rw [h.delivered, List.map_map]
  exact (hsub.map _).nodup hids

/-- A page shorter than its limit is all that was left. -/
theorem Follows.exhausted (h : Follows filter after s p) (hq : q.Reads filter)
    {limit : FeedLimit} {response : EventFeedResponse} (hpage : s.page q limit = .ok response)
    (hshort : response.events.length < limit.limit) :
    s.delivered ++ response.events =
      (owedEvents s.world.ledger.auditEvents filter after).map eventFeedEntryOf := by
  obtain ⟨c, events, hplace, hevents, hwire, -⟩ := h.page hq hpage
  have hall : events = owedEvents s.world.ledger.auditEvents filter c := by
    rw [hevents]
    refine keysetPage_exhausted ?_
    rwa [← hevents, ← List.length_map (f := eventFeedEntryOf), ← hwire]
  rw [h.rest hplace, List.map_append, ← h.delivered, hwire, hall]

/-- A poll fails only when the trail has outgrown the safe integers. -/
theorem Follows.served (h : Follows filter after s p) (hq : q.Reads filter) (limit : FeedLimit)
    (hsize : s.world.ledger.auditEvents.rows.length ≤ maxSafeInteger) :
    ∃ response, s.page q limit = .ok response := by
  obtain ⟨c, hc, -⟩ := h.since
  obtain ⟨page, hpage⟩ := readAuditEvents_served c filter (some (limit.limit : Int)) hsize
  exact ⟨_, eventFeed_eq_ok.mpr ⟨c, filter, page, hc, hq _ _, hpage, rfl⟩⟩

/-- **A consumer that follows the cursor is given every matching event once, in the order of
the trail.** At every time what it holds is a prefix of the events owed to it; a page shorter
than its limit brings it to the end; a poll is served as long as every `rowid` is a safe
integer; and the engine changes no event that is there. -/
theorem event_feed (options : EngineOptions) (q : FeedQuery) (filter : AuditFeedFilter)
    (hq : q.Reads filter) (since : Option String) (after : Option Nat)
    (hsince : forOption since decodeEventCursor = .ok after) (before : List Event)
    (events : List FeedEvent) :
    let first : FeedState := ⟨reached options before, since, []⟩
    let last := Lib.run (FeedState.step options q) first events
    let owed := (owedEvents last.world.ledger.auditEvents filter after).map eventFeedEntryOf
    last.delivered <+: owed ∧
      (last.delivered.map EventFeedEntry.eventId).Nodup ∧
      (∀ limit response, last.page q limit = .ok response →
        response.events.length < limit.limit → last.delivered ++ response.events = owed) ∧
      (last.world.ledger.auditEvents.rows.length ≤ maxSafeInteger →
        ∀ limit, ∃ response, last.page q limit = .ok response) ∧
      TrailGrows first.world.ledger.auditEvents last.world.ledger.auditEvents := by
  intro first last owed
  have hfirst : Follows filter after first [] := ⟨List.nil_prefix, rfl, after, hsince, rfl⟩
  obtain ⟨p, h⟩ : ∃ p, Follows filter after last p := hfirst.run hq events
  refine ⟨?_, h.nodup, fun limit response => h.exhausted hq,
    fun hsize limit => h.served hq limit hsize, trail_consumer options q first events⟩
  show last.delivered <+: owed
  rw [h.delivered]
  exact h.owed.map eventFeedEntryOf

/-- A consumer of the grant events that has seen the first event, and polls after a run that
issued a grant. -/
theorem event_feed_grants :
    let q : FeedQuery := ⟨some ["IssueGrant"], none⟩
    let last := Lib.run (FeedState.step Sample.options q) ⟨reached Sample.options [], some "1", []⟩
      (Sample.uploadRun.map .engine ++ [.poll ⟨2, by decide⟩])
    last.delivered <+: (owedEvents last.world.ledger.auditEvents ⟨some ["IssueGrant"], none⟩
      (some 1)).map eventFeedEntryOf :=
  (event_feed Sample.options ⟨some ["IssueGrant"], none⟩ ⟨some ["IssueGrant"], none⟩
    (fun _ _ => rfl) (some "1") (some 1) rfl [] _).1

end Consumer

end DumpLedger
