import DumpLedger.Ledger.Audit
import DumpLedger.Lib.Keyset

/-!
# The audit feed

`audit_events` read page by page in `rowid` order. The table is only ever appended to, so
the `rowid` SQLite gives a row is its place in the table, counted from one.

`readAuditEvents` is a keyset page of the events that pass the filter; `rowid_ascending`
is what the page lemmas ask for. `TrailGrows` says that a trail goes on from another one,
and `trail_grows` that the entries do so too.
-/

namespace DumpLedger

open Lib

/-- `MAX_AUDIT_FEED_PAGE`. -/
def maxAuditFeedPage : Nat := 500

structure AuditFeedEntry where
  rowid : Nat
  eventId : AuditEventId
  occurredAt : IsoTimestamp
  action : BoundedText 64
  customerId : Option CustomerId
  caseId : Option CaseId
  dumpId : Option DumpId
  detail : JsonObject

structure AuditFeedFilter where
  actions : Option (List String)
  caseId : Option CaseId

structure AuditFeedPage where
  events : List AuditFeedEntry
  lastRowid : Nat

/-- The `WHERE` clauses other than the cursor. An empty list of actions matches no event. -/
def AuditFeedFilter.matches (filter : AuditFeedFilter) (e : AuditFeedEntry) : Bool :=
  (match filter.actions with
    | none => true
    | some actions => actions.contains e.action.text) &&
  match filter.caseId with
    | none => true
    | some caseId => decide (e.caseId = some caseId)

/-- Both callers hand over whole numbers, so `Math.floor` and the test for a number that is
not finite have nothing to do. -/
def auditFeedPageSize : Option Int → Nat
  | none => maxAuditFeedPage
  | some size => min (max size.toNat 1) maxAuditFeedPage

def auditFeedEntryOf (rowid : Nat) (row : AuditEventRow) : AuditFeedEntry where
  rowid := rowid
  eventId := row.eventId
  occurredAt := row.occurredAt
  action := row.action
  customerId := row.customerId
  caseId := row.caseId
  dumpId := row.dumpId
  detail := row.detail

/-- `SELECT rowid, ... FROM audit_events ORDER BY rowid`. -/
def auditTrail (t : Table AuditEventRow) : List AuditFeedEntry :=
  (t.rows.zipIdx 1).map fun (row, rowid) => auditFeedEntryOf rowid row

/-- The events a filter lets through. -/
def matchingTrail (t : Table AuditEventRow) (filter : AuditFeedFilter) : List AuditFeedEntry :=
  (auditTrail t).filter filter.matches

/-- The events the feed owes a consumer that starts after `after`. -/
def owedEvents (t : Table AuditEventRow) (filter : AuditFeedFilter) (after : Option Nat) :
    List AuditFeedEntry :=
  above AuditFeedEntry.rowid after (matchingTrail t filter)

/-- A row whose `rowid` is no safe integer fails the whole page. -/
def readAuditEvents (t : Table AuditEventRow) (afterRowid : Option Nat)
    (filter : AuditFeedFilter) (limit : Option Int) : Except Thrown AuditFeedPage := do
  let events := keysetPage AuditFeedEntry.rowid afterRowid (auditFeedPageSize limit)
    (matchingTrail t filter)
  guardThat (∀ e ∈ events, e.rowid ≤ maxSafeInteger) (integrityFailure "invalid database rowid")
  return { events, lastRowid := (cursorAfter AuditFeedEntry.rowid afterRowid events).getD 0 }

/-! ## The order of the trail -/

theorem rowid_ascending (t : Table AuditEventRow) (filter : AuditFeedFilter) :
    Ascending AuditFeedEntry.rowid (matchingTrail t filter) := by
  refine List.Pairwise.filter _ ?_
  unfold auditTrail
  rw [List.pairwise_map]
  have h : ((t.rows.zipIdx 1).map Prod.snd).Pairwise (· < ·) := by
    rw [List.zipIdx_map_snd]
    exact List.pairwise_lt_range'
  exact List.pairwise_map.mp h

theorem rowid_pos {t : Table AuditEventRow} {e : AuditFeedEntry} (h : e ∈ auditTrail t) :
    0 < e.rowid := by
  obtain ⟨⟨row, n⟩, hn, rfl⟩ := List.mem_map.mp h
  exact List.le_snd_of_mem_zipIdx hn

theorem rowid_le {t : Table AuditEventRow} {e : AuditFeedEntry} (h : e ∈ auditTrail t) :
    e.rowid ≤ t.rows.length := by
  obtain ⟨⟨row, n⟩, hn, rfl⟩ := List.mem_map.mp h
  have := List.snd_lt_add_of_mem_zipIdx hn
  show n ≤ _
  omega

/-- The trail holds the rows of the table in their order. -/
theorem auditTrail_eventIds (t : Table AuditEventRow) :
    (auditTrail t).map AuditFeedEntry.eventId = t.rows.map key := by
  unfold auditTrail
  rw [List.map_map]
  show (t.rows.zipIdx 1).map (key ∘ Prod.fst) = _
  rw [← List.map_map, List.zipIdx_map_fst]

/-- A trail with room for one more safe `rowid` is served. -/
theorem readAuditEvents_served {t : Table AuditEventRow} (afterRowid : Option Nat)
    (filter : AuditFeedFilter) (limit : Option Int) (h : t.rows.length ≤ maxSafeInteger) :
    ∃ page, readAuditEvents t afterRowid filter limit = .ok page := by
  simp only [readAuditEvents, bind_eq_ok, guardThat_eq_ok, pure_eq_ok]
  refine ⟨_, (), fun e he => ?_, rfl⟩
  have hmem := (mem_of_mem_keysetPage he).1
  exact (rowid_le (List.mem_filter.mp hmem).1).trans h

theorem auditFeedPageSize_pos (limit : Option Int) : 0 < auditFeedPageSize limit := by
  cases limit with
  | none => decide
  | some size =>
    show 0 < min (max size.toNat 1) maxAuditFeedPage
    unfold maxAuditFeedPage
    omega

/-- What a page that was served holds. -/
theorem readAuditEvents_eq_ok {t : Table AuditEventRow} {afterRowid : Option Nat}
    {filter : AuditFeedFilter} {limit : Option Int} {page : AuditFeedPage} :
    readAuditEvents t afterRowid filter limit = .ok page ↔
      page.events = keysetPage AuditFeedEntry.rowid afterRowid (auditFeedPageSize limit)
          (matchingTrail t filter) ∧
        (∀ e ∈ page.events, e.rowid ≤ maxSafeInteger) ∧
          page.lastRowid = (cursorAfter AuditFeedEntry.rowid afterRowid page.events).getD 0 := by
  simp only [readAuditEvents, bind_eq_ok, guardThat_eq_ok, pure_eq_ok]
  constructor
  · rintro ⟨-, hsafe, rfl⟩
    exact ⟨rfl, hsafe, rfl⟩
  · obtain ⟨events, lastRowid⟩ := page
    rintro ⟨hevents, hsafe, hlast⟩
    dsimp only at hevents hsafe hlast
    subst hevents hlast
    exact ⟨(), hsafe, rfl⟩

/-! ## A growing trail -/

/-- Every event of `t` is an event of `t'`, in the same place. -/
def TrailGrows (t t' : Table AuditEventRow) : Prop := t.rows <+: t'.rows

theorem TrailGrows.refl (t : Table AuditEventRow) : TrailGrows t t := List.prefix_refl _

theorem TrailGrows.trans {t t' t'' : Table AuditEventRow} (h : TrailGrows t t')
    (h' : TrailGrows t' t'') : TrailGrows t t'' :=
  List.IsPrefix.trans h h'

theorem trailGrows_insert {t : Table AuditEventRow} {row : AuditEventRow}
    (h : t.find? row.eventId = none) : TrailGrows t (t.insert row h) :=
  List.prefix_append _ _

/-- The new row is the last event. -/
theorem auditTrail_insert {t : Table AuditEventRow} {row : AuditEventRow}
    {h : t.find? row.eventId = none} :
    auditTrail (t.insert row h) = auditTrail t ++ [auditFeedEntryOf (t.rows.length + 1) row] := by
  show ((t.rows ++ [row]).zipIdx 1).map _ = _
  rw [List.zipIdx_append, List.map_append, Nat.add_comm]
  rfl

/-- The first of the events owed, and what is owed after it. -/
theorem owedEvents_cons {t : Table AuditEventRow} {filter : AuditFeedFilter} {after : Option Nat}
    {e : AuditFeedEntry} {events : List AuditFeedEntry}
    (h : e :: events <+: owedEvents t filter after) :
    owedEvents t filter after = e :: owedEvents t filter (some e.rowid) ∧
      events <+: owedEvents t filter (some e.rowid) := by
  have hfirst : [e] <+: owedEvents t filter after :=
    List.IsPrefix.trans (List.prefix_append [e] events) h
  have hrest : owedEvents t filter after = e :: owedEvents t filter (some e.rowid) :=
    above_of_prefix (rowid_ascending t filter) hfirst
  refine ⟨hrest, ?_⟩
  rw [hrest] at h
  exact (List.cons_prefix_cons.mp h).2

theorem mem_owedEvents {t : Table AuditEventRow} {filter : AuditFeedFilter} {n : Nat}
    {e : AuditFeedEntry} :
    e ∈ owedEvents t filter (some n) ↔ e ∈ matchingTrail t filter ∧ n < e.rowid := by
  unfold owedEvents
  rw [mem_above, isAbove_some]

variable {t t' : Table AuditEventRow}

/-- What was read once is read again, under the same `rowid`. -/
theorem TrailGrows.trail (h : TrailGrows t t') : auditTrail t <+: auditTrail t' := by
  obtain ⟨rest, hrest⟩ := h
  unfold auditTrail
  rw [← hrest, List.zipIdx_append, List.map_append]
  exact List.prefix_append _ _

theorem TrailGrows.matching (h : TrailGrows t t') (filter : AuditFeedFilter) :
    matchingTrail t filter <+: matchingTrail t' filter := by
  obtain ⟨rest, hrest⟩ := h.trail
  unfold matchingTrail
  rw [← hrest, List.filter_append]
  exact List.prefix_append _ _

theorem TrailGrows.length_le (h : TrailGrows t t') : t.rows.length ≤ t'.rows.length :=
  List.IsPrefix.length_le h

/-- An event of the longer trail with an old `rowid` is an old event. -/
theorem TrailGrows.mem_of_le (h : TrailGrows t t') {filter : AuditFeedFilter} {e : AuditFeedEntry}
    (he : e ∈ matchingTrail t' filter) (hle : e.rowid ≤ t.rows.length) :
    e ∈ matchingTrail t filter := by
  obtain ⟨rest, hrest⟩ := h
  obtain ⟨hmem, hmatch⟩ := List.mem_filter.mp he
  refine List.mem_filter.mpr ⟨?_, hmatch⟩
  unfold auditTrail at hmem
  rw [← hrest, List.zipIdx_append, List.map_append, List.mem_append] at hmem
  rcases hmem with hmem | hmem
  · exact hmem
  · obtain ⟨⟨row, n⟩, hn, rfl⟩ := List.mem_map.mp hmem
    have hlt : 1 + t.rows.length ≤ n := List.le_snd_of_mem_zipIdx hn
    have : n ≤ t.rows.length := hle
    omega

theorem TrailGrows.owed (h : TrailGrows t t') (filter : AuditFeedFilter) (after : Option Nat) :
    owedEvents t filter after <+: owedEvents t' filter after := by
  obtain ⟨rest, hrest⟩ := h.matching filter
  unfold owedEvents
  rw [← hrest, above_append]
  exact List.prefix_append _ _

end DumpLedger
