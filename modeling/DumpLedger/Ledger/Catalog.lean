import DumpLedger.Ledger.Symbols
import DumpLedger.Lib.Keyset

/-!
# The dump catalog

A catalog read joins each dump with its case, keeps what the filter asks for and orders it by
`(received_at, dump_id)`. A page reads one row more than it returns, to see whether another
page follows.

The columns of text are compared as text. A fact filter compares what
`CAST(json_extract(...) AS TEXT)` makes of the stored fact; that is the parameter `sqlText`.
-/

namespace DumpLedger

open Lib

/-- `MAX_CATALOG_PAGE`. -/
def maxCatalogPage : Nat := 200

/-! ## Facts of an inspection -/

/-- `/[\u0000-\u001f\u007f]/`. -/
def hasControl (s : String) : Bool :=
  s.toList.any fun c => decide (c.toNat < 0x20) || decide (c.toNat = 0x7f)

/-- Text of at most `max` UTF-16 units without control characters; anything else is absent. -/
def factText (value : Option Json) (max : Nat) : Option String :=
  match value with
  | some (.str s) =>
    if s = "" ∨ max < utf16Length s then none else if hasControl s then none else some s
  | _ => none

/-- `/^(0|[1-9][0-9]*)$/`. -/
def isCanonicalUnsigned (s : String) : Bool :=
  match s.toList with
  | [] => false
  | ['0'] => true
  | c :: rest => c.isDigit && decide (c ≠ '0') && rest.all Char.isDigit

def factUnsigned (value : Option Json) : Option Nat :=
  match value with
  | some (.str s) =>
    if isCanonicalUnsigned s then some (Nat.ofDigitChars 10 s.toList 0) else none
  | _ => none

def factUint32 (value : Option Json) : Option Nat :=
  (factUnsigned value).filter fun n => decide (n ≤ 0xffffffff)

def factUint64 (value : Option Json) : Option Nat :=
  (factUnsigned value).filter fun n => decide (n ≤ 0xffffffffffffffff)

/-- `MAX_CATALOG_ARCHITECTURE_LENGTH`. -/
def maxCatalogArchitectureLength : Nat := 64

def factArchitecture (value : Option Json) : Option String :=
  factText value maxCatalogArchitectureLength

/-! ## Rows -/

structure DumpCatalogRow where
  dumpId : DumpId
  caseId : CaseId
  customerId : CustomerId
  phase : DumpPhase
  validation : ValidationState
  originalName : BoundedText 1024
  byteSize : Option Nat
  sha256 : Option Sha256
  receivedAt : IsoTimestamp
  availableAt : Option IsoTimestamp
  purgeAt : Option IsoTimestamp
  architecture : Option String
  exceptionCode : Option Nat
  exceptionAddress : Option Nat

/-- A dump with its case. -/
structure JoinedDump where
  dump : DumpRow
  supportCase : CaseRow

namespace JoinedDump

/-- The facts of an inspection that succeeded. -/
def facts (j : JoinedDump) : Option JsonObject :=
  if j.dump.inspectionError = none then j.dump.inspectionFacts else none

def fact (j : JoinedDump) (name : String) : Option Json :=
  j.facts.bind fun facts => facts.get? name

/-- `(received_at, dump_id)`. -/
def catalogKey (j : JoinedDump) : Lex (IsoTimestamp × DumpId) :=
  toLex (j.dump.receivedAt, j.dump.dumpId)

end JoinedDump

def catalogRowFromRow (j : JoinedDump) : DumpCatalogRow where
  dumpId := j.dump.dumpId
  caseId := j.dump.caseId
  customerId := j.supportCase.customerId
  phase := j.dump.phase
  validation := j.dump.validation
  originalName := j.dump.originalName
  byteSize := j.dump.byteSize
  sha256 := j.dump.sha256
  receivedAt := j.dump.receivedAt
  availableAt := j.dump.availableAt
  purgeAt := j.dump.purgeAt
  architecture := factArchitecture (j.fact "architecture")
  exceptionCode := factUint32 (j.fact "exceptionCode")
  exceptionAddress := factUint64 (j.fact "exceptionAddress")

/-! ## Filters -/

structure DumpCatalogFilter where
  caseId : Option CaseId
  customerId : Option CustomerId
  phase : Option DumpPhase
  validation : Option ValidationState
  receivedAfter : Option String
  receivedBefore : Option String
  architecture : Option String
  exceptionCode : Option JsNumber
  sha256 : Option String

/-- The exception code, an unsigned 32-bit integer. -/
def DumpCatalogFilter.code (filter : DumpCatalogFilter) : Except Thrown (Option Nat) :=
  forOption filter.exceptionCode fun value =>
    orThrow (value.bounded? 0 0xffffffff)
      (invalidInput "exceptionCode must be an unsigned 32-bit integer")

/-- `catalogWhere`, without the cursor: the clauses of the fields that are set. -/
def DumpCatalogFilter.matches (filter : DumpCatalogFilter) (sqlText : Json → Option String)
    (code : Option Nat) (j : JoinedDump) : Bool :=
  decide ((∀ caseId ∈ filter.caseId, j.dump.caseId = caseId) ∧
    (∀ customerId ∈ filter.customerId, j.supportCase.customerId = customerId) ∧
    (∀ phase ∈ filter.phase, j.dump.phase = phase) ∧
    (∀ validation ∈ filter.validation, j.dump.validation = validation) ∧
    (∀ text ∈ filter.receivedAfter, text ≤ j.dump.receivedAt.text) ∧
    (∀ text ∈ filter.receivedBefore, j.dump.receivedAt.text ≤ text) ∧
    (∀ text ∈ filter.architecture, (j.fact "architecture").bind sqlText = some text) ∧
    (∀ n ∈ code, (j.fact "exceptionCode").bind sqlText = some (toString n)) ∧
    ∀ text ∈ filter.sha256, j.dump.sha256.map Sha256.text = some text)

/-! ## Pages -/

/-- The keyset position after a row. -/
structure DumpCatalogAfter where
  receivedAt : IsoTimestamp
  dumpId : DumpId
  deriving DecidableEq

def DumpCatalogAfter.key (after : DumpCatalogAfter) : Lex (IsoTimestamp × DumpId) :=
  toLex (after.receivedAt, after.dumpId)

structure DumpCatalogPage where
  rows : List DumpCatalogRow
  nextAfter : Option DumpCatalogAfter

/-- The first `MAX_CATALOG_PAGE` of the rows that were read; one more row means another page. -/
def DumpCatalogPage.ofRows (rows : List JoinedDump) : DumpCatalogPage :=
  let page := (rows.take maxCatalogPage).map catalogRowFromRow
  { rows := page
    nextAfter :=
      if maxCatalogPage < rows.length then
        page[maxCatalogPage - 1]?.map fun last => ⟨last.receivedAt, last.dumpId⟩
      else none }

namespace SqliteLedger

/-- `dumps d JOIN cases c ON c.case_id = d.case_id`. -/
def joinedDumps (l : SqliteLedger) : List JoinedDump :=
  l.dumps.rows.filterMap fun d => (l.cases.find? d.caseId).map fun c => ⟨d, c⟩

/-- The rows a filter matches, in catalog order. -/
def matchingDumps (l : SqliteLedger) (sqlText : Json → Option String) (filter : DumpCatalogFilter)
    (code : Option Nat) : List JoinedDump :=
  (l.joinedDumps.filter (filter.matches sqlText code)).mergeSort
    fun a b => decide (a.catalogKey ≤ b.catalogKey)

/-- One keyset page of the catalog. -/
def searchDumps (l : SqliteLedger) (sqlText : Json → Option String) (filter : DumpCatalogFilter)
    (after : Option DumpCatalogAfter) : Except Thrown DumpCatalogPage := do
  let code ← filter.code
  let rows := keysetPage JoinedDump.catalogKey (after.map DumpCatalogAfter.key)
    (maxCatalogPage + 1) (l.matchingDumps sqlText filter code)
  return DumpCatalogPage.ofRows rows

/-- The artifacts with their modules, ordered by the name and the identifier of either pair. -/
def listSymbolArtifacts (l : SqliteLedger) : List StoredSymbolArtifact :=
  (l.symbolArtifacts.rows.filterMap l.joined).mergeSort fun a b =>
    decide (toLex (((a.debugFile <|> a.codeFile).elim "" BoundedText.text),
        ((a.debugId <|> a.codeId).elim "" BoundedText.text)) ≤
      toLex (((b.debugFile <|> b.codeFile).elim "" BoundedText.text),
        ((b.debugId <|> b.codeId).elim "" BoundedText.text)))

end SqliteLedger

/-! ## What a page holds -/

section Pages

variable {l : SqliteLedger} {sqlText : Json → Option String} {filter : DumpCatalogFilter}
  {code : Option Nat}

theorem mem_joinedDumps {j : JoinedDump} :
    j ∈ l.joinedDumps ↔ j.dump ∈ l.dumps ∧ l.cases.find? j.dump.caseId = some j.supportCase := by
  simp only [SqliteLedger.joinedDumps, List.mem_filterMap, Option.map_eq_some_iff]
  constructor
  · rintro ⟨d, hd, c, hc, rfl⟩
    exact ⟨hd, hc⟩
  · rintro ⟨hd, hc⟩
    exact ⟨j.dump, hd, j.supportCase, hc, rfl⟩

theorem mem_matchingDumps {j : JoinedDump} :
    j ∈ l.matchingDumps sqlText filter code ↔
      (j.dump ∈ l.dumps ∧ l.cases.find? j.dump.caseId = some j.supportCase) ∧
        filter.matches sqlText code j = true := by
  unfold SqliteLedger.matchingDumps
  rw [List.mem_mergeSort, List.mem_filter, mem_joinedDumps]

theorem joinedDumps_dumpIds (l : SqliteLedger) :
    (l.joinedDumps.map fun j => j.dump.dumpId).Sublist (l.dumps.rows.map DumpRow.dumpId) := by
  unfold SqliteLedger.joinedDumps
  induction l.dumps.rows with
  | nil => exact List.Sublist.refl _
  | cons d rows ih =>
    cases hc : l.cases.find? d.caseId with
    | none =>
      rw [List.filterMap_cons_none (by rw [hc]; rfl)]
      exact ih.cons _
    | some c =>
      rw [List.filterMap_cons_some (by rw [hc]; rfl)]
      exact ih.cons_cons _

theorem joinedDumps_nodup (l : SqliteLedger) :
    (l.joinedDumps.map JoinedDump.catalogKey).Nodup := by
  have hids : (l.joinedDumps.map fun j => j.dump.dumpId).Nodup :=
    (joinedDumps_dumpIds l).nodup l.dumps.keys_nodup
  have hsnd : l.joinedDumps.map (fun j => j.dump.dumpId) =
      (l.joinedDumps.map JoinedDump.catalogKey).map fun k => (ofLex k).2 := by
    rw [List.map_map]
    rfl
  rw [hsnd] at hids
  exact List.Nodup.of_map _ hids

/-- The catalog is in strictly ascending order. -/
theorem matchingDumps_ascending (l : SqliteLedger) (sqlText : Json → Option String)
    (filter : DumpCatalogFilter) (code : Option Nat) :
    Ascending JoinedDump.catalogKey (l.matchingDumps sqlText filter code) := by
  refine ascending_mergeSort ?_
  exact (List.filter_sublist.map _).nodup (joinedDumps_nodup l)

variable {rows : List JoinedDump} {after : Option (Lex (IsoTimestamp × DumpId))}

/-- The rows of a page are the next rows, at most `MAX_CATALOG_PAGE`. -/
theorem page_rows :
    (DumpCatalogPage.ofRows
        (keysetPage JoinedDump.catalogKey after (maxCatalogPage + 1) rows)).rows =
      (keysetPage JoinedDump.catalogKey after maxCatalogPage rows).map catalogRowFromRow := by
  show (List.take maxCatalogPage (List.take _ _)).map _ = _
  rw [List.take_take, min_eq_left (Nat.le_succ _)]
  rfl

/-- A page without a position behind it holds all the rows that were left. -/
theorem page_last
    (h : (DumpCatalogPage.ofRows
      (keysetPage JoinedDump.catalogKey after (maxCatalogPage + 1) rows)).nextAfter = none) :
    keysetPage JoinedDump.catalogKey after maxCatalogPage rows =
      above JoinedDump.catalogKey after rows := by
  refine keysetPage_of_no_more fun hmore => ?_
  have hnext : (DumpCatalogPage.ofRows
      (keysetPage JoinedDump.catalogKey after (maxCatalogPage + 1) rows)).nextAfter ≠ none := by
    unfold DumpCatalogPage.ofRows
    dsimp only
    rw [if_pos hmore]
    rw [ne_eq, Option.map_eq_none_iff, List.getElem?_eq_none_iff, List.length_map,
      List.length_take]
    unfold maxCatalogPage at hmore ⊢
    omega
  exact hnext h

/-- A page with a position behind it ends there, and another row follows. -/
theorem page_next {next : DumpCatalogAfter}
    (h : (DumpCatalogPage.ofRows
      (keysetPage JoinedDump.catalogKey after (maxCatalogPage + 1) rows)).nextAfter = some next)
    (hasc : Ascending JoinedDump.catalogKey rows) :
    (∃ j ∈ keysetPage JoinedDump.catalogKey after maxCatalogPage rows, j.catalogKey = next.key) ∧
      cursorAfter JoinedDump.catalogKey after
          (keysetPage JoinedDump.catalogKey after maxCatalogPage rows) = some next.key ∧
        ∃ r ∈ rows, next.key < r.catalogKey := by
  have hmore : maxCatalogPage <
      (keysetPage JoinedDump.catalogKey after (maxCatalogPage + 1) rows).length := by
    by_contra hnot
    unfold DumpCatalogPage.ofRows at h
    dsimp only at h
    rw [if_neg hnot] at h
    cases h
  obtain ⟨hfull, r, hr, habove⟩ := keysetPage_more hmore hasc
  obtain ⟨j, hj, rfl⟩ : ∃ j, (keysetPage JoinedDump.catalogKey after maxCatalogPage rows).getLast? =
      some j ∧ next = ⟨j.dump.receivedAt, j.dump.dumpId⟩ := by
    have hlast : (DumpCatalogPage.ofRows (keysetPage JoinedDump.catalogKey after
        (maxCatalogPage + 1) rows)).nextAfter =
        (keysetPage JoinedDump.catalogKey after maxCatalogPage rows).getLast?.map
          fun j => ⟨j.dump.receivedAt, j.dump.dumpId⟩ := by
      have hrows : (DumpCatalogPage.ofRows
          (keysetPage JoinedDump.catalogKey after (maxCatalogPage + 1) rows)).rows =
            (keysetPage JoinedDump.catalogKey after maxCatalogPage rows).map catalogRowFromRow :=
        page_rows
      unfold DumpCatalogPage.ofRows at hrows ⊢
      dsimp only at hrows ⊢
      rw [if_pos hmore, hrows, List.getElem?_map, List.getLast?_eq_getElem?, hfull, Option.map_map]
      rfl
    rw [hlast] at h
    obtain ⟨j, hj, hnext⟩ := Option.map_eq_some_iff.mp h
    exact ⟨j, hj, hnext.symm⟩
  have hcursor : cursorAfter JoinedDump.catalogKey after
      (keysetPage JoinedDump.catalogKey after maxCatalogPage rows) = some j.catalogKey := by
    unfold cursorAfter
    rw [hj]
  rw [hcursor, isAbove_some] at habove
  exact ⟨⟨j, List.mem_of_getLast? hj, rfl⟩, hcursor, r, hr, habove⟩

end Pages

end DumpLedger
