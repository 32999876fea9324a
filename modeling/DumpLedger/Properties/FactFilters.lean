import DumpLedger.Http.Contracts.Decode
import DumpLedger.Inspection.VaultInspectionPort
import DumpLedger.Lib.Decimal
import DumpLedger.Properties.Catalog

/-!
# Filtering by facts

The catalog filters by a fact in SQL, which turns the stored value into text, and shows a fact
as its own reader reads it, which takes nothing but text. The two agree about every fact that
is stored as text. A tombstone that is imported brings facts of any type, and a number that
prints as the filter asks for is found but not shown.

* `Listed` — the entries a client reads, page after page
* `agrees_iff` — a filter and the facts shown agree unless a fact is no text but reads so
* `factFilters_agree` — so they agree in every run that imports facts as text only
-/

namespace DumpLedger

open Lib Vocabulary

/-! ## What a query lists -/

/-- The pages a client reads when it follows the cursors. -/
inductive ReadPage (l : SqliteLedger) (sqlText : Json → Option String)
    (params : DumpCatalogParams) : DumpCatalogResponse → Prop
  | first {response : DumpCatalogResponse}
      (h : searchDumps l sqlText { params with cursor := none } = .ok response) :
      ReadPage l sqlText params response
  | next {response following : DumpCatalogResponse} {cursor : String}
      (hread : ReadPage l sqlText params response) (hcursor : response.nextCursor = some cursor)
      (h : searchDumps l sqlText { params with cursor := some cursor } = .ok following) :
      ReadPage l sqlText params following

/-- The entry is on one of the pages. -/
def Listed (l : SqliteLedger) (sqlText : Json → Option String) (params : DumpCatalogParams)
    (entry : DumpCatalogEntry) : Prop :=
  ∃ response, ReadPage l sqlText params response ∧ entry ∈ response.dumps

def JoinedDump.entry (l : SqliteLedger) (j : JoinedDump) : DumpCatalogEntry :=
  catalogEntryOf (catalogRowFromRow j) (l.dumps.find? j.dump.dumpId) l.debugSymbols

section Listing

variable {l : SqliteLedger} {sqlText : Json → Option String} {params : DumpCatalogParams}
  {filter : DumpCatalogFilter} {code : Option Nat}

/-- The page behind a position. -/
def pageAt (l : SqliteLedger) (rows : List JoinedDump) (after : Option DumpCatalogAfter) :
    DumpCatalogResponse :=
  let page := DumpCatalogPage.ofRows (keysetPage JoinedDump.catalogKey
    (after.map DumpCatalogAfter.key) (maxCatalogPage + 1) rows)
  catalogResponseOf page.rows page.nextAfter l

theorem pageAt_dumps (rows : List JoinedDump) (after : Option DumpCatalogAfter) :
    (pageAt l rows after).dumps = (keysetPage JoinedDump.catalogKey
      (after.map DumpCatalogAfter.key) maxCatalogPage rows).map (JoinedDump.entry l) := by
  show (DumpCatalogPage.ofRows _).rows.map _ = _
  rw [page_rows, List.map_map]
  rfl

theorem searchDumps_pageAt (hfilter : catalogFilterOf params = .ok filter)
    (hcode : filter.code = .ok code) {cursor : Option String} {after : Option DumpCatalogAfter}
    (hafter : forOption cursor decodeCatalogCursor = .ok after) :
    searchDumps l sqlText { params with cursor } =
      .ok (pageAt l (l.matchingDumps sqlText filter code) after) :=
  searchDumps_eq_ok.mpr ⟨after, filter, code, hafter, hfilter, hcode, _, rfl, rfl⟩

/-- Every page is the page behind some position. -/
theorem ReadPage.pageAt (hfilter : catalogFilterOf params = .ok filter)
    (hcode : filter.code = .ok code) {response : DumpCatalogResponse}
    (h : ReadPage l sqlText params response) :
    ∃ after, response = pageAt l (l.matchingDumps sqlText filter code) after := by
  have hpage : ∀ {cursor : Option String},
      searchDumps l sqlText { params with cursor } = .ok response →
        ∃ after, response = DumpLedger.pageAt l (l.matchingDumps sqlText filter code) after := by
    intro cursor h
    obtain ⟨after, filter', code', hafter, hfilter', hcode', -⟩ := searchDumps_eq_ok.mp h
    rw [searchDumps_pageAt hfilter hcode hafter] at h
    cases h
    exact ⟨after, rfl⟩
  cases h with
  | first h => exact hpage h
  | next _ _ h => exact hpage h

/-- **A row that lies behind a page that was read is on that page or on a later one.** -/
theorem listed_of_above (hfilter : catalogFilterOf params = .ok filter)
    (hcode : filter.code = .ok code) {j : JoinedDump}
    (hj : j ∈ l.matchingDumps sqlText filter code) (n : Nat) :
    ∀ after : Option DumpCatalogAfter,
      ReadPage l sqlText params (pageAt l (l.matchingDumps sqlText filter code) after) →
      IsAbove (after.map DumpCatalogAfter.key) j.catalogKey →
      (above JoinedDump.catalogKey (after.map DumpCatalogAfter.key)
        (l.matchingDumps sqlText filter code)).length = n →
        Listed l sqlText params (j.entry l) := by
  have hasc : Ascending JoinedDump.catalogKey (l.matchingDumps sqlText filter code) :=
    matchingDumps_ascending ..
  induction n using Nat.strong_induction_on with
  | _ n ih =>
    intro after hread habove hn
    have honPage (hmem : j ∈ keysetPage JoinedDump.catalogKey (after.map DumpCatalogAfter.key)
        maxCatalogPage (l.matchingDumps sqlText filter code)) :
        Listed l sqlText params (j.entry l) := by
      refine ⟨_, hread, ?_⟩
      rw [pageAt_dumps]
      exact List.mem_map_of_mem hmem
    cases hnext : (DumpCatalogPage.ofRows (keysetPage JoinedDump.catalogKey
        (after.map DumpCatalogAfter.key) (maxCatalogPage + 1)
        (l.matchingDumps sqlText filter code))).nextAfter with
    | none =>
      refine honPage ?_
      rw [page_last hnext]
      exact mem_above.mpr ⟨hj, habove⟩
    | some next =>
      obtain ⟨⟨first, hfirst, -⟩, hcursor, -⟩ := page_next hnext hasc
      by_cases hpast : IsAbove (some next.key) j.catalogKey
      · -- the rows behind the next position are fewer, as the page is not empty
        have hsplit : above JoinedDump.catalogKey (after.map DumpCatalogAfter.key)
            (l.matchingDumps sqlText filter code) = _ ++ _ :=
          above_keysetPage (n := maxCatalogPage) hasc
        rw [hcursor] at hsplit
        have hlength := congrArg List.length hsplit
        rw [List.length_append, hn] at hlength
        have hpos := List.length_pos_of_mem hfirst
        refine ih (above JoinedDump.catalogKey (some next.key)
          (l.matchingDumps sqlText filter code)).length (by omega) (some next) ?_ hpast rfl
        refine .next hread (congrArg (Option.map encodeCatalogCursor) hnext) ?_
        refine searchDumps_pageAt hfilter hcode ?_
        show some <$> decodeCatalogCursor (encodeCatalogCursor next) = _
        rw [decodeCatalogCursor_encode]
        rfl
      · refine honPage (mem_keysetPage hasc hj habove ?_)
        rwa [hcursor]

/-- **A query lists the rows it matches.** -/
theorem listed_iff (hfilter : catalogFilterOf params = .ok filter)
    (hcode : filter.code = .ok code) {entry : DumpCatalogEntry} :
    Listed l sqlText params entry ↔
      ∃ j ∈ l.matchingDumps sqlText filter code, entry = j.entry l := by
  constructor
  · rintro ⟨response, hread, hentry⟩
    obtain ⟨after, rfl⟩ := hread.pageAt hfilter hcode
    rw [pageAt_dumps] at hentry
    obtain ⟨j, hj, rfl⟩ := List.mem_map.mp hentry
    exact ⟨j, (mem_of_mem_keysetPage hj).1, rfl⟩
  · rintro ⟨j, hj, rfl⟩
    refine listed_of_above hfilter hcode hj _ none ?_ isAbove_none rfl
    exact .first (searchDumps_pageAt hfilter hcode rfl)

end Listing

/-! ## A filter and what is shown -/

/-- A query without filters. -/
def unfiltered : DumpCatalogParams where
  caseId := none
  customerId := none
  phase := none
  validation := none
  receivedAfter := none
  receivedBefore := none
  architecture := none
  exceptionCode := none
  sha256 := none
  cursor := none

def withExceptionCode (code : Nat) : DumpCatalogParams :=
  { unfiltered with exceptionCode := some (.int code) }

def withArchitecture (architecture : String) : DumpCatalogParams :=
  { unfiltered with architecture := some architecture }

/-- The filters of a query without filters. -/
def noFilter : DumpCatalogFilter where
  caseId := none
  customerId := none
  phase := none
  validation := none
  receivedAfter := none
  receivedBefore := none
  architecture := none
  exceptionCode := none
  sha256 := none

/-- A dump is listed by the query exactly when it is shown, without filters, as `shown` says. -/
def Agrees (l : SqliteLedger) (sqlText : Json → Option String) (params : DumpCatalogParams)
    (shown : DumpCatalogEntry → Prop) : Prop :=
  ∀ dumpId, (∃ entry, Listed l sqlText params entry ∧ entry.dumpId = dumpId) ↔
    ∃ entry, Listed l sqlText unfiltered entry ∧ entry.dumpId = dumpId ∧ shown entry

/-- What SQL reads as the text is stored as the text. -/
def StoredAsText (l : SqliteLedger) (sqlText : Json → Option String) (name text : String) :
    Prop :=
  ∀ j ∈ l.joinedDumps, ∀ value, j.fact name = some value → sqlText value = some text →
    value = .str text

section Agreement

variable {l : SqliteLedger} {sqlText : Json → Option String}

theorem mem_unfiltered {j : JoinedDump} :
    j ∈ l.matchingDumps sqlText noFilter none ↔ j ∈ l.joinedDumps := by
  unfold SqliteLedger.matchingDumps
  rw [List.mem_mergeSort, List.mem_filter]
  simp [DumpCatalogFilter.matches, noFilter]

theorem joinedDump_unique {j j' : JoinedDump} (hj : j ∈ l.joinedDumps) (hj' : j' ∈ l.joinedDumps)
    (hid : j.dump.dumpId = j'.dump.dumpId) : j = j' := by
  obtain ⟨hd, hc⟩ := mem_joinedDumps.mp hj
  obtain ⟨hd', hc'⟩ := mem_joinedDumps.mp hj'
  obtain ⟨dump, supportCase⟩ := j
  obtain ⟨dump', supportCase'⟩ := j'
  obtain rfl : dump = dump' := Table.eq_of_key hd hd' hid
  obtain rfl : supportCase = supportCase' := Option.some.inj (hc.symm.trans hc')
  rfl

/-- **A filter agrees with what is shown exactly when no fact is read as its text without being
it.** -/
theorem agrees_iff (hstring : ∀ s, sqlText (.str s) = some s) {params : DumpCatalogParams}
    {filter : DumpCatalogFilter} {code : Option Nat} {name text : String}
    {shown : DumpCatalogEntry → Prop} (hfilter : catalogFilterOf params = .ok filter)
    (hcode : filter.code = .ok code)
    (hmatch : ∀ j, j ∈ l.matchingDumps sqlText filter code ↔
      j ∈ l.joinedDumps ∧ (j.fact name).bind sqlText = some text)
    (hshown : ∀ j : JoinedDump, shown (j.entry l) ↔ j.fact name = some (.str text)) :
    Agrees l sqlText params shown ↔ StoredAsText l sqlText name text := by
  have hall {entry : DumpCatalogEntry} : Listed l sqlText unfiltered entry ↔
      ∃ j ∈ l.joinedDumps, entry = j.entry l := by
    have hnone : catalogFilterOf unfiltered = .ok noFilter := rfl
    have hnoCode : noFilter.code = .ok none := rfl
    rw [listed_iff hnone hnoCode]
    simp only [mem_unfiltered]
  constructor
  · intro hagrees j hj value hvalue htext
    have hlisted : Listed l sqlText params (j.entry l) := by
      refine (listed_iff hfilter hcode).mpr ⟨j, (hmatch j).mpr ⟨hj, ?_⟩, rfl⟩
      rw [hvalue]
      exact htext
    obtain ⟨entry, hentry, hid, hs⟩ := (hagrees j.dump.dumpId).mp ⟨_, hlisted, rfl⟩
    obtain ⟨j', hj', rfl⟩ := hall.mp hentry
    obtain rfl := joinedDump_unique hj' hj hid
    exact Option.some.inj (hvalue.symm.trans ((hshown _).mp hs))
  · intro hstored dumpId
    constructor
    · rintro ⟨entry, hentry, hid⟩
      obtain ⟨j, hj, rfl⟩ := (listed_iff hfilter hcode).mp hentry
      obtain ⟨hmem, hbind⟩ := (hmatch j).mp hj
      obtain ⟨value, hvalue, htext⟩ := Option.bind_eq_some_iff.mp hbind
      obtain rfl := hstored j hmem value hvalue htext
      exact ⟨_, hall.mpr ⟨j, hmem, rfl⟩, hid, (hshown j).mpr hvalue⟩
    · rintro ⟨entry, hentry, hid, hs⟩
      obtain ⟨j, hj, rfl⟩ := hall.mp hentry
      have hvalue := (hshown j).mp hs
      refine ⟨_, (listed_iff hfilter hcode).mpr ⟨j, (hmatch j).mpr ⟨hj, ?_⟩, rfl⟩, hid⟩
      rw [hvalue]
      exact hstring text

/-! ### The two facts -/

theorem isCanonicalUnsigned_iff {s : String} :
    isCanonicalUnsigned s = true ↔ IsCanonical s.toList := by
  unfold isCanonicalUnsigned IsCanonical
  split
  · next h => simp [h]
  · next h => simp [h, show ('0' : Char).isDigit = true from by decide]
  · next c rest hne h =>
    rw [h]
    simp only [Bool.and_eq_true, decide_eq_true_eq, List.all_eq_true, List.mem_cons,
      forall_eq_or_imp, List.cons.injEq]
    constructor
    · rintro ⟨⟨hc, hzero⟩, hrest⟩
      exact ⟨⟨hc, hrest⟩, Or.inr ⟨c, rest, ⟨rfl, rfl⟩, hzero⟩⟩
    · rintro ⟨⟨hc, hrest⟩, ⟨rfl, rfl⟩ | ⟨c', rest', ⟨rfl, rfl⟩, hzero⟩⟩
      · exact (hne rfl rfl).elim
      · exact ⟨⟨hc, hzero⟩, hrest⟩

/-- A code is shown when it is stored as its decimal. -/
theorem factUint32_eq_some {value : Option Json} {code : Nat} (hcode : code ≤ 0xffffffff) :
    factUint32 value = some code ↔ value = some (.str (toString code)) := by
  have hprint : (toString code).toList = Nat.toDigits 10 code := by simp
  constructor
  · intro h
    obtain ⟨h, -⟩ := Option.filter_eq_some_iff.mp h
    unfold factUnsigned at h
    split at h
    · next s =>
      split at h
      · next hcanonical =>
        have hvalue := Option.some.inj h
        have htext := toDigits_ofDigitChars (isCanonicalUnsigned_iff.mp hcanonical)
        rw [hvalue, ← hprint] at htext
        rw [String.toList_inj.mp htext]
      · cases h
    · cases h
  · rintro rfl
    have hcanonical : isCanonicalUnsigned (toString code) = true := by
      rw [isCanonicalUnsigned_iff, hprint]
      exact isCanonical_toDigits code
    refine Option.filter_eq_some_iff.mpr ⟨?_, by simpa using hcode⟩
    unfold factUnsigned
    dsimp only
    rw [if_pos hcanonical, hprint, Nat.ofDigitChars_ten_toDigits]

theorem factArchitecture_eq_some {value : Option Json} {architecture : String}
    (hne : architecture ≠ "") (hmax : utf16Length architecture ≤ maxCatalogArchitectureLength)
    (hcontrol : hasControl architecture = false) :
    factArchitecture value = some architecture ↔ value = some (.str architecture) := by
  constructor
  · intro h
    unfold factArchitecture factText at h
    split at h
    · next s =>
      split at h
      · cases h
      · split at h
        · cases h
        · rw [Option.some.inj h]
    · cases h
  · rintro rfl
    unfold factArchitecture factText
    dsimp only
    rw [if_neg (by simp [hne, hmax]), if_neg (by simp [hcontrol])]

/-- **The filter by code.** -/
theorem exceptionCode_agrees (hstring : ∀ s, sqlText (.str s) = some s) {value path : String}
    {code : Nat} (h : decodeExceptionCodeParam value path = .ok code) :
    Agrees l sqlText (withExceptionCode code) (fun entry => entry.exceptionCode = some code) ↔
      StoredAsText l sqlText "exceptionCode" (toString code) := by
  have hle := decodeExceptionCodeParam_le h
  have hnumber : JsNumber.bounded? (.int code) 0 0xffffffff = some code :=
    JsNumber.bounded?_int (Nat.zero_le _) hle (by omega)
  have hfilter : catalogFilterOf (withExceptionCode code) =
      .ok { noFilter with exceptionCode := some (.int code) } := rfl
  have hcode : DumpCatalogFilter.code { noFilter with exceptionCode := some (.int code) } =
      .ok (some code) := by
    show some <$> orThrow (JsNumber.bounded? (.int code) 0 0xffffffff) _ = _
    rw [hnumber]
    rfl
  refine agrees_iff hstring hfilter hcode ?_ ?_
  · intro j
    unfold SqliteLedger.matchingDumps
    rw [List.mem_mergeSort, List.mem_filter]
    simp [DumpCatalogFilter.matches, noFilter]
  · intro j
    exact factUint32_eq_some hle

/-- **The filter by architecture.** -/
theorem architecture_agrees (hstring : ∀ s, sqlText (.str s) = some s)
    {value path architecture : String}
    (h : decodeArchitectureParam value path = .ok architecture) :
    Agrees l sqlText (withArchitecture architecture)
        (fun entry => entry.architecture = some architecture) ↔
      StoredAsText l sqlText "architecture" architecture := by
  obtain ⟨hne, hmax, hcontrol⟩ := decodeArchitectureParam_eq_ok h
  have hfilter : catalogFilterOf (withArchitecture architecture) =
      .ok { noFilter with architecture := some architecture } := rfl
  have hcode : DumpCatalogFilter.code { noFilter with architecture := some architecture } =
      .ok none := rfl
  refine agrees_iff hstring hfilter hcode ?_ ?_
  · intro j
    unfold SqliteLedger.matchingDumps
    rw [List.mem_mergeSort, List.mem_filter]
    simp [DumpCatalogFilter.matches, noFilter]
  · intro j
    exact factArchitecture_eq_some hne hmax hcontrol

end Agreement

/-! ## Facts that are stored as text -/

/-- The fact is absent, null or text. -/
def TextFact (value : Option Json) : Prop :=
  value = none ∨ value = some .null ∨ ∃ s, value = some (.str s)

structure TextFacts (facts : JsonObject) : Prop where
  architecture : TextFact (facts.get? "architecture")
  exceptionCode : TextFact (facts.get? "exceptionCode")

/-- The facts of an inspection that succeeded are text. -/
def DumpRow.FactsAreText (d : DumpRow) : Prop :=
  d.inspectionError = none → ∀ facts, d.inspectionFacts = some facts → TextFacts facts

/-- What a transaction stores are facts that are text. -/
structure LedgerOp.StoresTextFacts (op : LedgerOp) : Prop where
  accepted : ∀ dumpId coverage facts, op = .acceptDump dumpId coverage facts → TextFacts facts
  tombstone : ∀ insert, op = .importDumpTombstone insert → insert.row.FactsAreText

theorem DumpMove.factsAreText {m : DumpMove} {d : DumpRow} {now : IsoTimestamp}
    (hd : d.FactsAreText) (haccept : ∀ coverage facts, m = .acceptDump coverage facts →
      TextFacts facts) : (m.apply now d).FactsAreText := by
  cases m with
  | acceptDump coverage facts =>
    intro _ facts' hfacts
    cases hfacts
    exact haccept coverage facts rfl
  | rejectDump reason =>
    intro herror
    cases herror
  | _ => exact hd

theorem DumpsChange.factsAreText {op : LedgerOp} {event : EventIdentity} {l : SqliteLedger}
    {t : Table DumpRow} (h : DumpsChange op event l t) (hl : ∀ d ∈ l.dumps, d.FactsAreText)
    (hop : op.StoresTextFacts) : ∀ d ∈ t, d.FactsAreText := by
  intro d hd
  cases h with
  | same => exact hl d hd
  | inserted row hfree hnew hcase =>
    rcases (Table.mem_insert (h := hfree)).mp hd with hd | rfl
    · exact hl d hd
    · cases hnew with
      | received _ =>
        intro _ facts hfacts
        cases hfacts
      | staged _ =>
        intro _ facts hfacts
        cases hfacts
      | tombstone hrecord => exact hop.tombstone _ hrecord
  | moved d₀ m hmove hd₀ hguard =>
    rcases (Table.mem_updateKey hd₀).mp hd with rfl | ⟨hd, -⟩
    · refine DumpMove.factsAreText (hl d₀ (Table.mem_of_find? hd₀)) ?_
      rintro coverage facts rfl
      cases op <;> cases hmove
      exact hop.accepted _ _ _ rfl
    · exact hl d hd

/-- What the inspector writes is text. -/
theorem textFacts_serializeFacts (facts : Minidump.MinidumpFacts) :
    TextFacts (serializeFacts facts) := by
  constructor
  · rw [serializeFacts_architecture]
    cases facts.architecture with
    | none => exact Or.inl rfl
    | some a => exact Or.inr (Or.inr ⟨a, rfl⟩)
  · rw [serializeFacts_exceptionCode]
    cases facts.exceptionCode with
    | none => exact Or.inl rfl
    | some code => exact Or.inr (Or.inr ⟨toString code, rfl⟩)

theorem textFacts_inspectVaultObject {object : Option Bytes} {coverage : CoverageKind}
    {facts : JsonObject} (h : inspectVaultObject object = .accepted coverage facts) :
    TextFacts facts := by
  unfold inspectVaultObject at h
  cases object with
  | none => cases h
  | some bytes =>
    dsimp only at h
    split at h
    · cases h
      exact textFacts_serializeFacts _
    · cases h

/-- The engine inspects with the minidump inspector, and a tombstone it imports without an
inspection error has its facts as text. -/
def Event.StoresTextFacts : Event → Prop
  | .command host c =>
    (∀ dumpId object, host.inspect dumpId object = inspectVaultObject object) ∧
      ∀ record, c = .importDumpStaged record → record.phase ≠ text DumpPhase.available →
        record.inspectionError = none → ∀ facts, record.inspectionFacts = some facts →
          TextFacts facts
  | _ => True

section Runs

variable {options : EngineOptions} {host : Host} {w : World} {command : Command} {p : Plan}

theorem plan_acceptDump {dumpId : DumpId} {coverage : CoverageKind} {facts : JsonObject}
    (hplan : plan options host w command = .ok p)
    (hop : p.ledger = some (.acceptDump dumpId coverage facts)) :
    inspection host w dumpId = .accepted coverage facts := by
  have haction := plan_action hplan hop
  cases command <;> cases haction
  obtain ⟨occurredAt, -, h⟩ := plan_eq_ok.mp hplan
  obtain ⟨d, -, h⟩ := bind_eq_ok.mp h
  obtain ⟨_, -, h⟩ := bind_eq_ok.mp h
  split at h
  · cases h
  · next hinspect =>
    cases h
    cases hop
    exact hinspect

/-- A tombstone brings the facts of its record. -/
theorem plan_tombstone {insert : ImportDumpTombstoneInsert}
    (hplan : plan options host w command = .ok p)
    (hop : p.ledger = some (.importDumpTombstone insert)) :
    ∃ record, command = .importDumpStaged record ∧ record.phase ≠ text DumpPhase.available ∧
      record.inspectionFacts = insert.inspectionFacts ∧
        (insert.inspectionError = none → record.inspectionError = none) := by
  have haction := plan_action hplan hop
  cases command <;> cases haction
  next record =>
    obtain ⟨occurredAt, -, h⟩ := plan_eq_ok.mp hplan
    simp only [planAt, planImportDumpStaged, bind_eq_ok] at h
    obtain ⟨_, -, _, -, phase, hphase, _, -, _, -, _, -, _, -, _, -, _, -, h⟩ := h
    split at h
    · -- bytes that are staged come without facts
      unfold planImportStaged at h
      split at h
      · obtain ⟨_, -, h⟩ := bind_eq_ok.mp h
        cases h
        cases hop
      · cases h
    · next havailable =>
      simp only [planImportTombstone, bind_eq_ok, pure_eq_ok] at h
      obtain ⟨_, -, _, -, _, -, _, herror, _, -, rfl⟩ := h
      cases hop
      refine ⟨record, rfl, ?_, rfl, ?_⟩
      · intro htext
        rw [parseDumpPhase, parseMember_eq_ok] at hphase
        exact havailable (text_injective (hphase.trans htext))
      · rintro rfl
        rcases forOption_eq_ok.mp herror with ⟨hnone, -⟩ | ⟨_, _, -, -, hsome⟩
        · exact hnone
        · cases hsome

theorem storesTextFacts_of_event {e : Event} {op : LedgerOp} {r : LedgerResult}
    {l : SqliteLedger} (hc : Committed options w e host command p op r l)
    (he : e.StoresTextFacts) : op.StoresTextFacts := by
  rw [hc.event] at he
  obtain ⟨hinspector, hrecord⟩ := he
  constructor
  · rintro dumpId coverage facts rfl
    have hinspect := plan_acceptDump hc.plan hc.ledger
    unfold inspection at hinspect
    rw [hinspector] at hinspect
    exact textFacts_inspectVaultObject hinspect
  · rintro insert rfl
    obtain ⟨record, hcommand, hphase, hsame, hnone⟩ := plan_tombstone hc.plan hc.ledger
    intro herror facts hfacts
    refine hrecord record hcommand hphase (hnone ?_) facts (hsame.trans hfacts)
    exact Option.map_eq_none_iff.mp herror

theorem factsAreText_step {e : Event} (h : ∀ d ∈ w.ledger.dumps, d.FactsAreText)
    (he : e.StoresTextFacts) : ∀ d ∈ (step options w e).ledger.dumps, d.FactsAreText := by
  rcases step_ledger options w e with hsame | ⟨host, command, p, op, r, hc⟩
  · rwa [hsame]
  · exact (run_changes hc.run).dumps.factsAreText h (storesTextFacts_of_event hc he)

/-- Facts that are text are stored as what they are read as. -/
theorem storedAsText_of_textFact {l : SqliteLedger} {sqlText : Json → Option String}
    (hstring : ∀ s, sqlText (.str s) = some s) (hnull : sqlText .null = none) {name : String}
    (h : ∀ j ∈ l.joinedDumps, TextFact (j.fact name)) (shown : String) :
    StoredAsText l sqlText name shown := by
  intro j hj value hvalue htext
  rcases h j hj with hnone | hnull' | ⟨s, hs⟩
  · rw [hvalue] at hnone
    cases hnone
  · rw [hvalue] at hnull'
    cases hnull'
    rw [hnull] at htext
    cases htext
  · rw [hvalue] at hs
    cases hs
    rw [hstring] at htext
    rw [Option.some.inj htext]

/-- The facts of a row that is joined. -/
theorem textFact_of_row {j : JoinedDump} (h : j.dump.FactsAreText) :
    TextFact (j.fact "architecture") ∧ TextFact (j.fact "exceptionCode") := by
  unfold JoinedDump.fact JoinedDump.facts
  split
  · next herror =>
    cases hfacts : j.dump.inspectionFacts with
    | none => exact ⟨Or.inl rfl, Or.inl rfl⟩
    | some facts =>
      have htext := h herror facts hfacts
      exact ⟨htext.architecture, htext.exceptionCode⟩
  · exact ⟨Or.inl rfl, Or.inl rfl⟩

end Runs

/-- **A fact filter lists what is shown with the fact, as far as facts are text.** In any state
that a run reaches, the filter by a code, or by an architecture, that the query decoder lets
through agrees with the facts shown exactly when no stored fact of another type is read as the
same text; and it always agrees in a run that inspects with the minidump inspector and imports
the facts of tombstones as text. -/
theorem factFilters_agree (options : EngineOptions) (sqlText : Json → Option String)
    (hstring : ∀ s, sqlText (.str s) = some s) (hnull : sqlText .null = none)
    (events : List Event) :
    let l := (reached options events).ledger
    (∀ value path code, decodeExceptionCodeParam value path = .ok code →
      (Agrees l sqlText (withExceptionCode code) (fun e => e.exceptionCode = some code) ↔
          StoredAsText l sqlText "exceptionCode" (toString code)) ∧
        ((∀ e ∈ events, e.StoresTextFacts) →
          Agrees l sqlText (withExceptionCode code) fun e => e.exceptionCode = some code)) ∧
    (∀ value path architecture, decodeArchitectureParam value path = .ok architecture →
      (Agrees l sqlText (withArchitecture architecture)
          (fun e => e.architecture = some architecture) ↔
          StoredAsText l sqlText "architecture" architecture) ∧
        ((∀ e ∈ events, e.StoresTextFacts) →
          Agrees l sqlText (withArchitecture architecture)
            fun e => e.architecture = some architecture)) := by
  intro l
  have hrows (htext : ∀ e ∈ events, e.StoresTextFacts) :
      ∀ j ∈ l.joinedDumps, j.dump.FactsAreText := by
    have hfresh : ∀ d ∈ World.fresh.ledger.dumps, d.FactsAreText :=
      fun _ h => absurd h Table.not_mem_empty
    have hinvariant : ∀ d ∈ (reached options events).ledger.dumps, d.FactsAreText :=
      invariant_along (C := fun _ (e : Event) => e.StoresTextFacts)
        (I := fun w : World => ∀ d ∈ w.ledger.dumps, d.FactsAreText)
        (fun _ _ hw he => factsAreText_step hw he) hfresh (along_of_all htext)
    intro j hj
    exact hinvariant j.dump (mem_joinedDumps.mp hj).1
  constructor
  · intro value path code hdecode
    refine ⟨exceptionCode_agrees hstring hdecode, fun htext => ?_⟩
    refine (exceptionCode_agrees hstring hdecode).mpr (storedAsText_of_textFact hstring hnull ?_ _)
    intro j hj
    exact (textFact_of_row (hrows htext j hj)).2
  · intro value path architecture hdecode
    refine ⟨architecture_agrees hstring hdecode, fun htext => ?_⟩
    refine (architecture_agrees hstring hdecode).mpr
      (storedAsText_of_textFact hstring hnull ?_ _)
    intro j hj
    exact (textFact_of_row (hrows htext j hj)).1

namespace Sample

/-- `CAST(json_extract(...) AS TEXT)` of a value. -/
def sqlText : Json → Option String
  | .null => none
  | .bool b => some (if b then "1" else "0")
  | .num n => some n.text
  | .str s => some s
  | value => some value.stringify

/-- A dump that was deleted, with the facts of its inspection. -/
def tombstone (facts : JsonObject) : ImportDumpRecord where
  dumpId := "dump_00000000000000000000000001"
  caseId := "case_00000000000000000000000001"
  phase := "deleted"
  originalName := "crash.dmp"
  byteSize := none
  sha256 := none
  validation := "valid"
  coverage := none
  inspectionError := none
  inspectionFacts := some facts
  receivedAt := "2025-01-01T00:00:00.000Z"
  availableAt := none
  purgeAt := none
  purgedAt := none

/-- The event in an engine that inspects with the minidump inspector. -/
def inspecting : Event → Event
  | .command host c => .command { host with inspect := fun _ => inspectVaultObject } c
  | e => e

/-- An import of the tombstone. -/
def tombstoneRun (facts : JsonObject) : List Event :=
  (importRun "closed" ++
    [Event.command (host 3) (.importDumpStaged (tombstone facts))]).map inspecting

/-- The integer a fact is stored as. -/
def integerFact (j : JoinedDump) : Option Int :=
  match j.fact "exceptionCode" with
  | some (.num (.int n)) => some n
  | _ => none

end Sample

/-- A code that was imported as text is found by the filter and shown. -/
theorem factFilters_agree_tombstone :
    Agrees (reached Sample.options (Sample.tombstoneRun [("exceptionCode", .str "5")])).ledger
      Sample.sqlText (withExceptionCode 5) fun e => e.exceptionCode = some 5 := by
  have hcode : decodeExceptionCodeParam "5" "$.exceptionCode" = .ok 5 := by decide +kernel
  refine ((factFilters_agree Sample.options Sample.sqlText (fun _ => rfl) rfl
    (Sample.tombstoneRun [("exceptionCode", .str "5")])).1 "5" "$.exceptionCode" 5 hcode).2 ?_
  intro e he
  simp only [Sample.tombstoneRun, Sample.importRun, List.cons_append, List.nil_append,
    List.map_cons, List.map_nil, List.mem_cons, List.not_mem_nil, or_false] at he
  rcases he with rfl | rfl | rfl | rfl
  · exact ⟨fun _ _ => rfl, fun _ h => by cases h⟩
  · exact ⟨fun _ _ => rfl, fun _ h => by cases h⟩
  · exact ⟨fun _ _ => rfl, fun _ h => by cases h⟩
  · refine ⟨fun _ _ => rfl, ?_⟩
    rintro record hrecord - - facts hfacts
    cases hrecord
    cases hfacts
    exact ⟨Or.inl rfl, Or.inr (Or.inr ⟨"5", rfl⟩)⟩

/-- A code that was imported as a number is found by the filter and not shown. -/
theorem numberFact_found :
    ¬Agrees (reached Sample.options (Sample.tombstoneRun [("exceptionCode", .num (.int 5))])).ledger
      Sample.sqlText (withExceptionCode 5) fun e => e.exceptionCode = some 5 := by
  have hcode : decodeExceptionCodeParam "5" "$.exceptionCode" = .ok 5 := by decide +kernel
  rw [exceptionCode_agrees (fun _ => rfl) hcode]
  intro hstored
  have hfact : (5 : Int) ∈ (reached Sample.options
      (Sample.tombstoneRun [("exceptionCode", .num (.int 5))])).ledger.joinedDumps.filterMap
        Sample.integerFact := by
    decide +kernel
  obtain ⟨j, hj, hn⟩ := List.mem_filterMap.mp hfact
  unfold Sample.integerFact at hn
  split at hn
  · next n hvalue =>
    cases hn
    cases hstored j hj _ hvalue rfl
  · cases hn

end DumpLedger
