import DumpLedger.Engine.Run
import DumpLedger.Http.Catalog

/-!
# A client of the catalog

A client reads the catalog page by page while the engine works. It sends the cursor of a page
with its next request and stops at the first page without one.

* `dumps_step` — an event of the engine leaves every dump in its place of the catalog
* `Paged` — what the client holds lies at or before its cursor
* `catalog_pages` — no dump comes twice, and a dump that matches throughout comes once
-/

namespace DumpLedger

open Lib

/-! ## Dumps keep their place -/

/-- The rows of `t` are in `t'`, with the time they were received. -/
def DumpsKept (t t' : Table DumpRow) : Prop :=
  ∀ d ∈ t, ∃ d' ∈ t', d'.dumpId = d.dumpId ∧ d'.receivedAt = d.receivedAt

theorem DumpsKept.refl (t : Table DumpRow) : DumpsKept t t := fun d hd => ⟨d, hd, rfl, rfl⟩

theorem DumpMove.apply_receivedAt (now : IsoTimestamp) (m : DumpMove) (d : DumpRow) :
    (m.apply now d).receivedAt = d.receivedAt := by
  cases m <;> rfl

theorem DumpsChange.kept {op : LedgerOp} {event : EventIdentity} {l : SqliteLedger}
    {t : Table DumpRow} (h : DumpsChange op event l t) : DumpsKept l.dumps t := by
  cases h with
  | same => exact DumpsKept.refl _
  | inserted row hfree hnew hcase =>
    intro d hd
    exact ⟨d, (Table.mem_insert (h := hfree)).mpr (Or.inl hd), rfl, rfl⟩
  | moved d₀ m hop hd₀ hguard =>
    intro d hd
    by_cases hid : d.dumpId = d₀.dumpId
    · obtain rfl : d = d₀ := Table.eq_of_key hd (Table.mem_of_find? hd₀) hid
      exact ⟨m.apply event.occurredAt d, (Table.mem_updateKey hd₀).mpr (Or.inl rfl), by simp,
        m.apply_receivedAt _ _⟩
    · exact ⟨d, (Table.mem_updateKey hd₀).mpr (Or.inr ⟨hd, hid⟩), rfl, rfl⟩

theorem dumps_step (options : EngineOptions) (w : World) (e : Event) :
    DumpsKept w.ledger.dumps (step options w e).ledger.dumps := by
  rcases step_ledger options w e with h | ⟨host, command, p, op, r, hc⟩
  · rw [h]
    exact DumpsKept.refl _
  · exact (run_changes hc.run).dumps.kept

/-! ## The client -/

/-- Where the client stands. -/
inductive CatalogPlace
  | start
  | after (cursor : String)
  | finished
  deriving DecidableEq

def CatalogPlace.cursor? : CatalogPlace → Option String
  | after cursor => some cursor
  | start | finished => none

def CatalogPlace.next : Option String → CatalogPlace
  | some cursor => after cursor
  | none => finished

inductive CatalogEvent
  | engine (e : Event)
  | poll

structure CatalogState where
  world : World
  place : CatalogPlace
  delivered : List DumpCatalogEntry

section Client

variable (options : EngineOptions) (sqlText : Json → Option String) (params : DumpCatalogParams)

namespace CatalogState

def page (s : CatalogState) : Except Thrown DumpCatalogResponse :=
  searchDumps s.world.ledger sqlText { params with cursor := s.place.cursor? }

/-- A client that has come to the end asks no more; a poll that fails leaves it where it was. -/
def step (s : CatalogState) : CatalogEvent → CatalogState
  | .engine e => { s with world := DumpLedger.step options s.world e }
  | .poll =>
    match s.place, s.page sqlText params with
    | .finished, _ | _, .error _ => s
    | _, .ok response =>
      { s with
        place := CatalogPlace.next response.nextCursor
        delivered := s.delivered ++ response.dumps }

end CatalogState

/-- The rows the query matches. -/
def matchingNow (l : SqliteLedger) : List JoinedDump :=
  match catalogFilterOf params with
  | .ok filter =>
    match filter.code with
    | .ok code => l.matchingDumps sqlText filter code
    | .error _ => []
  | .error _ => []

end Client

theorem matchingNow_eq {sqlText : Json → Option String} {params : DumpCatalogParams}
    {filter : DumpCatalogFilter} {code : Option Nat} (hfilter : catalogFilterOf params = .ok filter)
    (hcode : filter.code = .ok code) (l : SqliteLedger) :
    matchingNow sqlText params l = l.matchingDumps sqlText filter code := by
  unfold matchingNow
  rw [hfilter]
  dsimp only
  rw [hcode]

theorem matchingNow_ascending (sqlText : Json → Option String) (params : DumpCatalogParams)
    (l : SqliteLedger) : Ascending JoinedDump.catalogKey (matchingNow sqlText params l) := by
  unfold matchingNow
  split
  · split
    · exact matchingDumps_ascending ..
    · exact List.Pairwise.nil
  · exact List.Pairwise.nil

theorem mem_matchingNow {sqlText : Json → Option String} {params : DumpCatalogParams}
    {l : SqliteLedger} {j : JoinedDump} (h : j ∈ matchingNow sqlText params l) :
    j.dump ∈ l.dumps ∧ l.cases.find? j.dump.caseId = some j.supportCase := by
  unfold matchingNow at h
  split at h
  · split at h
    · exact (mem_matchingDumps.mp h).1
    · cases h
  · cases h

def DumpCatalogEntry.catalogKey (e : DumpCatalogEntry) : Lex (IsoTimestamp × DumpId) :=
  toLex (e.receivedAt, e.dumpId)

/-! ## A page -/

/-- The page of the rows above a position, and the position behind it. -/
structure PageOf (rows : List JoinedDump) (after : Option (Lex (IsoTimestamp × DumpId)))
    (response : DumpCatalogResponse) : Prop where
  keys : response.dumps.map DumpCatalogEntry.catalogKey =
    (keysetPage JoinedDump.catalogKey after maxCatalogPage rows).map JoinedDump.catalogKey
  last : response.nextCursor = none →
    keysetPage JoinedDump.catalogKey after maxCatalogPage rows =
      above JoinedDump.catalogKey after rows
  next : ∀ cursor, response.nextCursor = some cursor →
    ∃ next : DumpCatalogAfter, decodeCatalogCursor cursor = .ok next ∧
      (∃ j ∈ keysetPage JoinedDump.catalogKey after maxCatalogPage rows,
        j.catalogKey = next.key) ∧
      cursorAfter JoinedDump.catalogKey after
          (keysetPage JoinedDump.catalogKey after maxCatalogPage rows) = some next.key ∧
        ∃ r ∈ rows, next.key < r.catalogKey

theorem pageOf_response {rows : List JoinedDump} {after : Option (Lex (IsoTimestamp × DumpId))}
    {l : SqliteLedger} (hasc : Ascending JoinedDump.catalogKey rows)
    {page : DumpCatalogPage} (hpage : page = DumpCatalogPage.ofRows
      (keysetPage JoinedDump.catalogKey after (maxCatalogPage + 1) rows)) :
    PageOf rows after (catalogResponseOf page.rows page.nextAfter l) := by
  subst hpage
  refine ⟨?_, ?_, ?_⟩
  · show ((DumpCatalogPage.ofRows _).rows.map _).map _ = _
    rw [page_rows, List.map_map, List.map_map]
    rfl
  · intro hnone
    exact page_last (Option.map_eq_none_iff.mp hnone)
  · intro cursor hcursor
    obtain ⟨next, hnext, rfl⟩ := Option.map_eq_some_iff.mp hcursor
    exact ⟨next, decodeCatalogCursor_encode next, page_next hnext hasc⟩

theorem searchDumps_eq_ok {l : SqliteLedger} {sqlText : Json → Option String}
    {params : DumpCatalogParams} {response : DumpCatalogResponse} :
    searchDumps l sqlText params = .ok response ↔
      ∃ after filter code, forOption params.cursor decodeCatalogCursor = .ok after ∧
        catalogFilterOf params = .ok filter ∧ filter.code = .ok code ∧
          ∃ page, page = DumpCatalogPage.ofRows
              (keysetPage JoinedDump.catalogKey (after.map DumpCatalogAfter.key)
                (maxCatalogPage + 1) (l.matchingDumps sqlText filter code)) ∧
            response = catalogResponseOf page.rows page.nextAfter l := by
  simp only [searchDumps, SqliteLedger.searchDumps, bind_eq_ok, pure_eq_ok]
  constructor
  · rintro ⟨after, hafter, filter, hfilter, page, ⟨code, hcode, rfl⟩, rfl⟩
    exact ⟨after, filter, code, hafter, hfilter, hcode, _, rfl, rfl⟩
  · rintro ⟨after, filter, code, hafter, hfilter, hcode, page, rfl, rfl⟩
    exact ⟨after, hafter, filter, hfilter, _, ⟨code, hcode, rfl⟩, rfl⟩

/-! ## What the client holds -/

/-- The position of the client's cursor. -/
def CatalogPlace.position (place : CatalogPlace) : Option (Lex (IsoTimestamp × DumpId)) :=
  place.cursor?.bind fun cursor =>
    match decodeCatalogCursor cursor with
    | .ok a => some a.key
    | .error _ => none

/-- The server reads the query. -/
def Answerable (params : DumpCatalogParams) : Prop :=
  ∃ filter code, catalogFilterOf params = .ok filter ∧ filter.code = .ok code

/-- What was delivered lies at or before the cursor, and the cursor is one the server reads. -/
def CatalogPlace.Behind (params : DumpCatalogParams) (delivered : List DumpCatalogEntry) :
    CatalogPlace → Prop
  | .start => delivered = []
  | .after cursor => Answerable params ∧ ∃ next, decodeCatalogCursor cursor = .ok next ∧
      ∀ e ∈ delivered, e.catalogKey ≤ next.key
  | .finished => True

structure Paged (params : DumpCatalogParams) (s : CatalogState) : Prop where
  ascending : Ascending DumpCatalogEntry.catalogKey s.delivered
  recorded : ∀ e ∈ s.delivered, ∃ d ∈ s.world.ledger.dumps,
    d.dumpId = e.dumpId ∧ d.receivedAt = e.receivedAt
  place : s.place.Behind params s.delivered

/-- A dump is delivered, or it still lies ahead of the cursor. -/
def Pending (dumpId : DumpId) (s : CatalogState) : Prop :=
  match s.place with
  | .start => True
  | .after _ => ∃ d ∈ s.world.ledger.dumps, d.dumpId = dumpId ∧
      (IsAbove s.place.position (toLex (d.receivedAt, d.dumpId)) ∨
        dumpId ∈ s.delivered.map DumpCatalogEntry.dumpId)
  | .finished => dumpId ∈ s.delivered.map DumpCatalogEntry.dumpId

section Client

variable {options : EngineOptions} {sqlText : Json → Option String} {params : DumpCatalogParams}
  {s : CatalogState} {response : DumpCatalogResponse}

/-- The rows the query matches at this time. -/
abbrev CatalogState.rows (sqlText : Json → Option String) (params : DumpCatalogParams)
    (s : CatalogState) : List JoinedDump :=
  matchingNow sqlText params s.world.ledger

theorem page_spec (h : s.page sqlText params = .ok response) :
    Answerable params ∧ PageOf (s.rows sqlText params) s.place.position response := by
  obtain ⟨after, filter, code, hafter, hfilter, hcode, page, hpage, rfl⟩ :=
    searchDumps_eq_ok.mp h
  have hposition : s.place.position = after.map DumpCatalogAfter.key := by
    unfold CatalogPlace.position
    rcases forOption_eq_ok.mp hafter with ⟨hcursor, rfl⟩ | ⟨cursor, next, hcursor, hnext, rfl⟩
    · have hnone : s.place.cursor? = none := hcursor
      rw [hnone]
      rfl
    · have hsome : s.place.cursor? = some cursor := hcursor
      rw [hsome, Option.bind_some, hnext]
      rfl
  have hrows : s.rows sqlText params =
      s.world.ledger.matchingDumps sqlText filter code := matchingNow_eq hfilter hcode _
  refine ⟨⟨filter, code, hfilter, hcode⟩, ?_⟩
  rw [hposition, hrows]
  exact pageOf_response (matchingDumps_ascending ..) hpage

/-- **A cursor of the server is never refused.** -/
theorem page_served (h : Paged params s) {cursor : String} (hplace : s.place = .after cursor) :
    ∃ response, s.page sqlText params = .ok response := by
  have hbehind := h.place
  rw [hplace] at hbehind
  obtain ⟨⟨filter, code, hfilter, hcode⟩, next, hnext, -⟩ := hbehind
  have hcursor : forOption s.place.cursor? decodeCatalogCursor = .ok (some next) := by
    rw [hplace]
    show some <$> decodeCatalogCursor cursor = _
    rw [hnext]
    rfl
  exact ⟨_, searchDumps_eq_ok.mpr ⟨some next, filter, code, hcursor, hfilter, hcode, _, rfl, rfl⟩⟩

/-- What a poll that is answered does. -/
theorem step_poll (h : s.page sqlText params = .ok response) (hplace : s.place ≠ .finished) :
    s.step options sqlText params .poll =
      { s with
        place := CatalogPlace.next response.nextCursor
        delivered := s.delivered ++ response.dumps } := by
  unfold CatalogState.step
  rw [h]
  cases hp : s.place with
  | start => rfl
  | after cursor => rfl
  | finished => exact absurd hp hplace

/-- A poll is answered, or it changes nothing. -/
theorem poll_cases (options : EngineOptions) (sqlText : Json → Option String)
    (params : DumpCatalogParams) (s : CatalogState) :
    s.step options sqlText params .poll = s ∨
      ∃ response, s.page sqlText params = .ok response ∧ s.place ≠ .finished := by
  cases hpage : s.page sqlText params with
  | error e =>
    refine Or.inl ?_
    unfold CatalogState.step
    rw [hpage]
    cases s.place <;> rfl
  | ok response =>
    by_cases hplace : s.place = .finished
    · refine Or.inl ?_
      unfold CatalogState.step
      rw [hplace]
    · exact Or.inr ⟨response, rfl, hplace⟩

/-! ## Every step keeps what the client holds -/

/-- The entries of a page are rows the query matches. -/
theorem PageOf.row {rows : List JoinedDump} {after : Option (Lex (IsoTimestamp × DumpId))}
    (h : PageOf rows after response) {e : DumpCatalogEntry} (he : e ∈ response.dumps) :
    ∃ j ∈ keysetPage JoinedDump.catalogKey after maxCatalogPage rows,
      j.catalogKey = e.catalogKey := by
  have hkey : e.catalogKey ∈ response.dumps.map DumpCatalogEntry.catalogKey :=
    List.mem_map_of_mem he
  rw [h.keys] at hkey
  exact List.mem_map.mp hkey

/-- A row of the page is among its entries. -/
theorem PageOf.entry {rows : List JoinedDump} {after : Option (Lex (IsoTimestamp × DumpId))}
    (h : PageOf rows after response) {j : JoinedDump}
    (hj : j ∈ keysetPage JoinedDump.catalogKey after maxCatalogPage rows) :
    ∃ e ∈ response.dumps, e.catalogKey = j.catalogKey := by
  have hkey : j.catalogKey ∈ (keysetPage JoinedDump.catalogKey after maxCatalogPage rows).map
      JoinedDump.catalogKey := List.mem_map_of_mem hj
  rw [← h.keys] at hkey
  exact List.mem_map.mp hkey

theorem paged_engine (h : Paged params s) (e : Event) :
    Paged params (s.step options sqlText params (.engine e)) := by
  refine ⟨h.ascending, ?_, h.place⟩
  intro entry hentry
  obtain ⟨d, hd, hid, htime⟩ := h.recorded entry hentry
  obtain ⟨d', hd', hid', htime'⟩ := dumps_step options s.world e d hd
  exact ⟨d', hd', hid'.trans hid, htime'.trans htime⟩

/-- Everything delivered lies before the rows above the cursor. -/
theorem Paged.before (h : Paged params s) (hplace : s.place ≠ .finished) {e : DumpCatalogEntry}
    (he : e ∈ s.delivered) {key : Lex (IsoTimestamp × DumpId)} (hkey : IsAbove s.place.position key) :
    e.catalogKey < key := by
  have hbehind := h.place
  cases hp : s.place with
  | start =>
    rw [hp] at hbehind
    rw [hbehind] at he
    cases he
  | after cursor =>
    rw [hp] at hbehind hkey
    obtain ⟨-, next, hnext, hle⟩ := hbehind
    refine lt_of_le_of_lt (hle e he) (hkey _ ?_)
    show (match decodeCatalogCursor cursor with
      | .ok a => some a.key
      | .error _ => none) = some next.key
    rw [hnext]
  | finished => exact absurd hp hplace

theorem paged_poll (h : Paged params s) (hpage : s.page sqlText params = .ok response)
    (hplace : s.place ≠ .finished) :
    Paged params (s.step options sqlText params .poll) := by
  obtain ⟨hanswer, hspec⟩ := page_spec hpage
  have hrows : Ascending JoinedDump.catalogKey (s.rows sqlText params) :=
    matchingNow_ascending ..
  have hascPage : Ascending DumpCatalogEntry.catalogKey response.dumps := by
    have hkeys : Ascending JoinedDump.catalogKey (keysetPage JoinedDump.catalogKey
      s.place.position maxCatalogPage (s.rows sqlText params)) := hrows.keysetPage
    have hpair := List.pairwise_map.mpr hkeys
    rw [← hspec.keys] at hpair
    exact List.pairwise_map.mp hpair
  have habove : ∀ e ∈ response.dumps, IsAbove s.place.position e.catalogKey := by
    intro e he
    obtain ⟨j, hj, hkey⟩ := hspec.row he
    rw [← hkey]
    exact (mem_of_mem_keysetPage hj).2
  rw [step_poll hpage hplace]
  refine ⟨?_, ?_, ?_⟩
  · refine List.pairwise_append.mpr ⟨h.ascending, hascPage, ?_⟩
    intro e he e' he'
    exact h.before hplace he (habove e' he')
  · intro e he
    rcases List.mem_append.mp he with he | he
    · exact h.recorded e he
    · obtain ⟨j, hj, hkey⟩ := hspec.row he
      have hpair := toLex.injective hkey
      exact ⟨j.dump, (mem_matchingNow (mem_of_mem_keysetPage hj).1).1,
        (congrArg Prod.snd hpair), (congrArg Prod.fst hpair)⟩
  · cases hcursor : response.nextCursor with
    | none => trivial
    | some cursor =>
      obtain ⟨next, hnext, ⟨last, hlast, hkey⟩, hafter, -⟩ := hspec.next cursor hcursor
      refine ⟨hanswer, next, hnext, ?_⟩
      intro e he
      rcases List.mem_append.mp he with he | he
      · -- the cursor has moved to a row above the old one
        rw [← hkey]
        exact le_of_lt (h.before hplace he (mem_of_mem_keysetPage hlast).2)
      · obtain ⟨j, hj, hkey⟩ := hspec.row he
        have hnot := not_isAbove_of_mem_keysetPage hrows hj
        rw [hafter, isAbove_some, not_lt] at hnot
        rw [← hkey]
        exact hnot

theorem paged_step (h : Paged params s) (e : CatalogEvent) :
    Paged params (s.step options sqlText params e) := by
  cases e with
  | engine e => exact paged_engine h e
  | poll =>
    rcases poll_cases options sqlText params s with hsame | ⟨response, hpage, hplace⟩
    · rw [hsame]
      exact h
    · exact paged_poll h hpage hplace

/-! ## A dump that matches throughout -/

/-- The query matches the dump at this time. -/
def MatchesNow (sqlText : Json → Option String) (params : DumpCatalogParams) (dumpId : DumpId)
    (s : CatalogState) : Prop :=
  ∃ j ∈ s.rows sqlText params, j.dump.dumpId = dumpId

variable {dumpId : DumpId}

theorem pending_engine (h : Pending dumpId s) (e : Event) :
    Pending dumpId (s.step options sqlText params (.engine e)) := by
  obtain ⟨world, place, delivered⟩ := s
  cases place with
  | start => trivial
  | after cursor =>
    obtain ⟨d, hd, hid, hahead⟩ := h
    obtain ⟨d', hd', hid', htime⟩ := dumps_step options world e d hd
    refine ⟨d', hd', hid'.trans hid, ?_⟩
    rw [hid', htime]
    exact hahead
  | finished => exact h

/-- What a client still waits for lies above its cursor. -/
theorem Pending.ahead (h : Pending dumpId s) (hplace : s.place ≠ .finished) {j : JoinedDump}
    (hj : j ∈ s.rows sqlText params) (hid : j.dump.dumpId = dumpId) :
    IsAbove s.place.position j.catalogKey ∨
      dumpId ∈ s.delivered.map DumpCatalogEntry.dumpId := by
  unfold Pending at h
  cases hp : s.place with
  | start => exact Or.inl isAbove_none
  | after cursor =>
    rw [hp] at h
    obtain ⟨d, hd, hdid, hahead⟩ := h
    obtain rfl : d = j.dump := Table.eq_of_key hd (mem_matchingNow hj).1 (hdid.trans hid.symm)
    exact hahead
  | finished => exact absurd hp hplace

theorem pending_poll (h : Pending dumpId s) (hmatch : MatchesNow sqlText params dumpId s)
    (hpage : s.page sqlText params = .ok response) (hplace : s.place ≠ .finished) :
    Pending dumpId (s.step options sqlText params .poll) := by
  obtain ⟨-, hspec⟩ := page_spec hpage
  obtain ⟨j, hj, hid⟩ := hmatch
  have hrows : Ascending JoinedDump.catalogKey (s.rows sqlText params) :=
    matchingNow_ascending ..
  -- a row of the page is delivered
  have hdelivered : j ∈ keysetPage JoinedDump.catalogKey s.place.position maxCatalogPage
      (s.rows sqlText params) →
        dumpId ∈ (s.delivered ++ response.dumps).map DumpCatalogEntry.dumpId := by
    intro hmem
    obtain ⟨e, he, hkey⟩ := hspec.entry hmem
    rw [List.map_append, List.mem_append]
    have heid : e.dumpId = dumpId := (congrArg Prod.snd (toLex.injective hkey)).trans hid
    exact Or.inr (heid ▸ List.mem_map_of_mem he)
  rw [step_poll hpage hplace]
  rcases h.ahead hplace hj hid with habove | halready
  · cases hcursor : response.nextCursor with
    | none =>
      refine hdelivered ?_
      rw [hspec.last hcursor]
      exact mem_above.mpr ⟨hj, habove⟩
    | some cursor =>
      obtain ⟨next, hnext, -, hafter, -⟩ := hspec.next cursor hcursor
      refine ⟨j.dump, (mem_matchingNow hj).1, hid, ?_⟩
      have hposition : (CatalogPlace.next (some cursor)).position = some next.key := by
        show (match decodeCatalogCursor cursor with
          | .ok a => some a.key
          | .error _ => none) = some next.key
        rw [hnext]
      rw [hposition, ← hafter]
      by_cases hpast : IsAbove (cursorAfter JoinedDump.catalogKey s.place.position
          (keysetPage JoinedDump.catalogKey s.place.position maxCatalogPage
            (s.rows sqlText params))) j.catalogKey
      · exact Or.inl hpast
      · exact Or.inr (hdelivered (mem_keysetPage hrows hj habove hpast))
  · have hstill : dumpId ∈ (s.delivered ++ response.dumps).map DumpCatalogEntry.dumpId := by
      rw [List.map_append, List.mem_append]
      exact Or.inl halready
    cases hcursor : response.nextCursor with
    | none => exact hstill
    | some cursor => exact ⟨j.dump, (mem_matchingNow hj).1, hid, Or.inr hstill⟩

/-- The dump matches at every poll of a client that has not come to the end. -/
def MatchesWhenPolled (sqlText : Json → Option String) (params : DumpCatalogParams)
    (dumpId : DumpId) (s : CatalogState) (e : CatalogEvent) : Prop :=
  e = .poll → s.place ≠ .finished → MatchesNow sqlText params dumpId s

theorem pending_step (h : Pending dumpId s) (e : CatalogEvent)
    (hmatch : MatchesWhenPolled sqlText params dumpId s e) :
    Pending dumpId (s.step options sqlText params e) := by
  cases e with
  | engine e => exact pending_engine h e
  | poll =>
    rcases poll_cases options sqlText params s with hsame | ⟨response, hpage, hplace⟩
    · rw [hsame]
      exact h
    · exact pending_poll h (hmatch rfl hplace) hpage hplace

/-! ## The client's reading -/

/-- A page names a cursor when a row that matches lies behind it. -/
theorem nextCursor_iff (hpage : s.page sqlText params = .ok response) :
    response.nextCursor.isSome = true ↔ ∃ j ∈ s.rows sqlText params,
      IsAbove s.place.position j.catalogKey ∧
        j.dump.dumpId ∉ response.dumps.map DumpCatalogEntry.dumpId := by
  obtain ⟨-, hspec⟩ := page_spec hpage
  have hrows : Ascending JoinedDump.catalogKey (s.rows sqlText params) :=
    matchingNow_ascending ..
  constructor
  · intro hsome
    obtain ⟨cursor, hcursor⟩ := Option.isSome_iff_exists.mp hsome
    obtain ⟨next, -, -, hafter, j, hj, hlt⟩ := hspec.next cursor hcursor
    have hpast : IsAbove (cursorAfter JoinedDump.catalogKey s.place.position
        (keysetPage JoinedDump.catalogKey s.place.position maxCatalogPage
          (s.rows sqlText params))) j.catalogKey := by
      rw [hafter, isAbove_some]
      exact hlt
    refine ⟨j, hj, isAbove_of_cursorAfter hpast, ?_⟩
    intro hmem
    obtain ⟨e, he, hid⟩ := List.mem_map.mp hmem
    obtain ⟨j', hj', hkey⟩ := hspec.row he
    have hsame : j'.dump = j.dump := Table.eq_of_key
      (mem_matchingNow (mem_of_mem_keysetPage hj').1).1 (mem_matchingNow hj).1
      ((congrArg Prod.snd (toLex.injective hkey)).trans hid)
    have hkeys : j'.catalogKey = j.catalogKey := by
      unfold JoinedDump.catalogKey
      rw [hsame]
    refine not_isAbove_of_mem_keysetPage hrows hj' ?_
    rwa [hkeys]
  · rintro ⟨j, hj, habove, hnot⟩
    by_contra hnone
    have hlast := hspec.last (Option.not_isSome_iff_eq_none.mp hnone)
    have hmem : j ∈ keysetPage JoinedDump.catalogKey s.place.position maxCatalogPage
        (s.rows sqlText params) := by
      rw [hlast]
      exact mem_above.mpr ⟨hj, habove⟩
    obtain ⟨e, he, hkey⟩ := hspec.entry hmem
    have hid : e.dumpId = j.dump.dumpId := congrArg Prod.snd (toLex.injective hkey)
    exact hnot (hid ▸ List.mem_map_of_mem he)

/-- Two entries of one dump have one key, so entries in ascending order are of different dumps. -/
theorem Paged.nodup (h : Paged params s) :
    (s.delivered.map DumpCatalogEntry.dumpId).Nodup := by
  rw [List.Nodup, List.pairwise_map]
  refine List.Pairwise.imp_of_mem ?_ h.ascending
  intro e e' he he' hlt hid
  obtain ⟨d, hd, hdid, htime⟩ := h.recorded e he
  obtain ⟨d', hd', hdid', htime'⟩ := h.recorded e' he'
  obtain rfl : d = d' := Table.eq_of_key hd hd' (hdid.trans (hid.trans hdid'.symm))
  refine lt_irrefl e.catalogKey ?_
  have hkey : e'.catalogKey = e.catalogKey := by
    unfold DumpCatalogEntry.catalogKey
    rw [← htime, ← htime', hid]
  rwa [hkey] at hlt

end Client

/-- **A client that follows the cursors of the catalog reads it once from end to end.** It is
given rows in strictly ascending order and no dump twice; the server reads every cursor it
wrote; a page names a cursor exactly when a row that matches lies behind it; and a dump that
matches at every poll is given once. -/
theorem catalog_pages (options : EngineOptions) (sqlText : Json → Option String)
    (params : DumpCatalogParams) (before : List Event) (events : List CatalogEvent) :
    let first : CatalogState := ⟨reached options before, .start, []⟩
    let last := Lib.run (CatalogState.step options sqlText params) first events
    Ascending DumpCatalogEntry.catalogKey last.delivered ∧
      (last.delivered.map DumpCatalogEntry.dumpId).Nodup ∧
      (∀ cursor, last.place = .after cursor →
        ∃ response, last.page sqlText params = .ok response) ∧
      (∀ response, last.page sqlText params = .ok response →
        (response.nextCursor.isSome = true ↔ ∃ j ∈ last.rows sqlText params,
          IsAbove last.place.position j.catalogKey ∧
            j.dump.dumpId ∉ response.dumps.map DumpCatalogEntry.dumpId)) ∧
      ∀ dumpId, Along (CatalogState.step options sqlText params)
          (MatchesWhenPolled sqlText params dumpId) first events →
        last.place = .finished →
          (last.delivered.map DumpCatalogEntry.dumpId).count dumpId = 1 := by
  intro first last
  have hfirst : Paged params first := ⟨List.Pairwise.nil, by simp [first], rfl⟩
  have hlast : Paged params last := invariant_run (fun _ e h => paged_step h e) hfirst
  refine ⟨hlast.ascending, hlast.nodup, fun cursor => page_served hlast,
    fun response => nextCursor_iff, ?_⟩
  intro dumpId halong hfinished
  have hpending : Pending dumpId last :=
    invariant_along (fun _ e h hmatch => pending_step h e hmatch) trivial halong
  unfold Pending at hpending
  rw [hfinished] at hpending
  exact List.count_eq_one_of_mem hlast.nodup hpending

namespace Sample

/-- A query that every dump matches. -/
def anyDump : DumpCatalogParams :=
  ⟨none, none, none, none, none, none, none, none, none, none⟩

end Sample

/-- A client that reads the catalog after an upload. -/
theorem catalog_pages_upload :
    let last := Lib.run (CatalogState.step Sample.options (fun _ => none) Sample.anyDump)
      ⟨reached Sample.options Sample.uploadRun, .start, []⟩ [.poll]
    last.place = .finished ∧
      (last.delivered.map DumpCatalogEntry.dumpId).count (Sample.host 0).dumpId = 1 := by
  have hplace : (Lib.run (CatalogState.step Sample.options (fun _ => none) Sample.anyDump)
      ⟨reached Sample.options Sample.uploadRun, .start, []⟩ [.poll]).place = .finished := by
    decide +kernel
  have hdump : (Sample.host 0).dumpId ∈
      (matchingNow (fun _ => none) Sample.anyDump
        (reached Sample.options Sample.uploadRun).ledger).map fun j => j.dump.dumpId := by
    decide +kernel
  obtain ⟨-, -, -, -, hcount⟩ := catalog_pages Sample.options (fun _ => none) Sample.anyDump
    Sample.uploadRun [.poll]
  refine ⟨hplace, hcount _ ⟨?_, trivial⟩ hplace⟩
  intro _ _
  obtain ⟨j, hj, hid⟩ := List.mem_map.mp hdump
  exact ⟨j, hj, hid⟩

end DumpLedger
