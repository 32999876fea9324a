import DumpLedger.Ledger.Lifecycle

/-!
# Analysis reports

A report is recognised by its identity tuple. `recordAnalysis` stores the first report
of a tuple; a repeat stores nothing, except that a repeat with a canonical detail may
attach it to a report whose compact metadata agrees.
-/

namespace DumpLedger

open Lib Vocabulary

structure AnalysisInsert where
  analysisId : AnalysisId
  identity : AnalysisIdentity
  outcome : AnalysisOutcome
  summary : String
  facts : Option JsonObject
  duplicateOf : Option DumpId
  createdAt : IsoTimestamp

namespace AnalysisInsert

def row (i : AnalysisInsert) : AnalysisRow where
  analysisId := i.analysisId
  identity := i.identity
  outcome := i.outcome
  summary := i.summary
  facts := i.facts
  duplicateOf := i.duplicateOf
  createdAt := i.createdAt

end AnalysisInsert

/-- `equalJson`: the same value up to the order of members. -/
def equalJson (a b : Option JsonObject) : Bool :=
  let stringify (o : Option JsonObject) : String :=
    match o with
    | none => Json.null.stringify
    | some o => (Json.obj o).stable.stringify
  decide (stringify a = stringify b)

/-- A compact report a canonical detail may be attached to: the metadata of the repeat,
and facts that name the detail's digest and a report. -/
def promotable (existing : AnalysisRow) (insert : AnalysisInsert) (detail : RichAnalysisDetail) :
    Bool :=
  decide (existing.outcome = insert.outcome) && decide (existing.summary = insert.summary) &&
    decide (existing.duplicateOf = insert.duplicateOf) && equalJson existing.facts insert.facts &&
    (match existing.facts with
      | none => false
      | some facts =>
        (match JsonObject.get? facts "schemaVersion" with
          | some (.num n) => decide (n = .int 2)
          | _ => false) &&
        (match JsonObject.get? facts "reportDigest" with
          | some (.str d) => decide (d = detail.reportDigest.text)
          | _ => false) &&
        (match JsonObject.get? facts "reportId" with
          | some (.str _) => true
          | _ => false))

/-- The detail of a `RecordAnalysis` event. -/
def recordAnalysisDetail (insert : AnalysisInsert) (caseId : CaseId) : JsonObject :=
  [("analysisId", .str insert.analysisId.text), ("dumpId", .str insert.identity.dumpId.text),
    ("caseId", .str caseId.text), ("analyzerName", .str insert.identity.analyzerName),
    ("analyzerVersion", .str insert.identity.analyzerVersion),
    ("kind", .str insert.identity.kind), ("outcome", .str (text insert.outcome))]

namespace SqliteLedger

def findAnalysisByIdentity (l : SqliteLedger) (identity : AnalysisIdentity) : Option AnalysisRow :=
  l.analyses.rows.find? fun a => decide (a.identity = identity)

def analysisDetail (l : SqliteLedger) (analysisId : AnalysisId) : Option RichAnalysisDetail :=
  (l.analysisDetails.find? analysisId).map AnalysisDetailRow.detail

/-- A repeat of a stored identity. -/
def repeatAnalysis (l : SqliteLedger) (existing : AnalysisRow) (caseId : CaseId)
    (insert : AnalysisInsert) (event : EventIdentity) (detail : Option RichAnalysisDetail) :
    Except Thrown ((AnalysisRow × Bool) × SqliteLedger) :=
  match detail with
  | none => .ok ((existing, true), l)
  | some detail => do
    guardThat (promotable existing insert detail = true)
      (invalidTransition "analysis identity has conflicting compact metadata")
    match l.analysisDetail existing.analysisId with
    | some stored => do
      guardThat (stored = detail)
        (invalidTransition "analysis identity has conflicting canonical content")
      return ((existing, true), l)
    | none => do
      let l ← l.insertAnalysisDetail ⟨existing.analysisId, detail⟩
      let customerId ← l.customerForCase caseId
      let l ← l.insertAudit event .attachAnalysisDetail (some customerId) (some caseId)
        (some insert.identity.dumpId)
        [("analysisId", .str existing.analysisId.text),
          ("reportDigest", .str detail.reportDigest.text)]
      return ((existing, false), l)

/-- The detail of a new report, when there is one. -/
def insertDetail (l : SqliteLedger) (analysisId : AnalysisId) :
    Option RichAnalysisDetail → Except Thrown SqliteLedger
  | none => .ok l
  | some detail => l.insertAnalysisDetail ⟨analysisId, detail⟩

/-- The first report of an identity. -/
def firstAnalysis (l : SqliteLedger) (caseId : CaseId) (insert : AnalysisInsert)
    (event : EventIdentity) (detail : Option RichAnalysisDetail) :
    Except Thrown ((AnalysisRow × Bool) × SqliteLedger) := do
  let l ← l.insertAnalysis insert.row
  let l ← l.insertDetail insert.analysisId detail
  let customerId ← l.customerForCase caseId
  let l ← l.insertAudit event .recordAnalysis (some customerId) (some caseId)
    (some insert.identity.dumpId) (recordAnalysisDetail insert caseId)
  let report ← orThrow
    ((l.findAnalysisByIdentity insert.identity).filter
      fun a => decide (a.analysisId = insert.analysisId))
    (integrityFailure "recorded analysis report was not found after insert")
  return ((report, false), l)

def recordAnalysis (l : SqliteLedger) (insert : AnalysisInsert) (event : EventIdentity)
    (detail : Option RichAnalysisDetail) :
    Except Thrown ((AnalysisRow × Bool) × SqliteLedger) := do
  let dump ← orThrow (l.getDump insert.identity.dumpId) (notFound "dump was not found")
  match l.findAnalysisByIdentity insert.identity with
  | some existing => l.repeatAnalysis existing dump.caseId insert event detail
  | none => l.firstAnalysis dump.caseId insert event detail

/-! ## What a committed record changes -/

section Committed

variable {l l' : SqliteLedger} {event : EventIdentity} {insert : AnalysisInsert}
  {detail : Option RichAnalysisDetail} {report : AnalysisRow} {deduplicated : Bool}

/-- The tables a report is not stored in, and the trail grown by one event of the kind
`action`. -/
structure AnalysisOnly (l l' : SqliteLedger) (action : AuditAction) (event : EventIdentity) :
    Prop where
  customers : l'.customers = l.customers
  cases : l'.cases = l.cases
  grants : l'.grants = l.grants
  dumps : l'.dumps = l.dumps
  modules : l'.modules = l.modules
  symbolArtifacts : l'.symbolArtifacts = l.symbolArtifacts
  audit : ∃ row h, row.eventId = event.eventId ∧ row.action = action.stored ∧
    l'.auditEvents = l.auditEvents.insert row h

theorem repeatAnalysis_ok_cases {existing : AnalysisRow} {caseId : CaseId}
    (h : l.repeatAnalysis existing caseId insert event detail =
      .ok ((report, deduplicated), l')) :
    l' = l ∨ AnalysisOnly l l' .attachAnalysisDetail event := by
  unfold repeatAnalysis at h
  cases detail with
  | none =>
    cases h
    exact Or.inl rfl
  | some d =>
    simp only [bind_eq_ok, guardThat_eq_ok] at h
    obtain ⟨-, -, h⟩ := h
    cases hs : l.analysisDetail existing.analysisId with
    | some stored =>
      simp only [hs, bind_eq_ok, guardThat_eq_ok, pure_eq_ok, Prod.mk.injEq] at h
      obtain ⟨-, -, -, rfl⟩ := h
      exact Or.inl rfl
    | none =>
      simp only [hs, bind_eq_ok, insertAnalysisDetail_eq_ok, insertAudit_eq_ok, pure_eq_ok,
        Prod.mk.injEq] at h
      obtain ⟨_, ⟨-, -, rfl⟩, _, -, _, ⟨-, he, rfl⟩, -, rfl⟩ := h
      exact Or.inr ⟨rfl, rfl, rfl, rfl, rfl, rfl, _, he, rfl, rfl, rfl⟩

theorem firstAnalysis_ok_cases {caseId : CaseId}
    (h : l.firstAnalysis caseId insert event detail = .ok ((report, deduplicated), l')) :
    AnalysisOnly l l' .recordAnalysis event := by
  simp only [firstAnalysis, bind_eq_ok, insertAnalysis_eq_ok, insertAudit_eq_ok, orThrow_eq_ok,
    pure_eq_ok, Prod.mk.injEq] at h
  obtain ⟨_, ⟨-, -, _, rfl⟩, l₁, hd, _, -, _, ⟨-, he, rfl⟩, _, -, -, rfl⟩ := h
  cases detail with
  | none =>
    cases hd
    exact ⟨rfl, rfl, rfl, rfl, rfl, rfl, _, he, rfl, rfl, rfl⟩
  | some d =>
    obtain ⟨-, -, rfl⟩ := insertAnalysisDetail_eq_ok.mp hd
    exact ⟨rfl, rfl, rfl, rfl, rfl, rfl, _, he, rfl, rfl, rfl⟩

/-- **A recorded analysis touches no other table.** -/
theorem recordAnalysis_ok_cases
    (h : l.recordAnalysis insert event detail = .ok ((report, deduplicated), l')) :
    l' = l ∨ AnalysisOnly l l' .attachAnalysisDetail event ∨
      AnalysisOnly l l' .recordAnalysis event := by
  simp only [recordAnalysis, bind_eq_ok, orThrow_eq_ok] at h
  obtain ⟨dump, -, h⟩ := h
  cases hf : l.findAnalysisByIdentity insert.identity with
  | some existing =>
    rw [hf] at h
    exact (repeatAnalysis_ok_cases h).imp_right Or.inl
  | none =>
    rw [hf] at h
    exact Or.inr (Or.inr (firstAnalysis_ok_cases h))

end Committed

end SqliteLedger

end DumpLedger
