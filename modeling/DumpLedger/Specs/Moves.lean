import DumpLedger.Properties.Evidence
import DumpLedger.Specs.Observation

/-!
# Moves of a dump as actions

Every move of the lifecycle but one is an action of the specification, and a transaction that
moves a dump is seen as the step of that action. What the action asks for and the `WHERE` clause
does not check follows from the evidence in the row.

* `observe_dumpMove` — a move that committed was the action's step
* `observe_firstAnalysis` — so was a first report on a dump
-/

namespace DumpLedger

open Lib Function

/-! ## The variables of a dump -/

section Variables

variable {l : SqliteLedger} {d : DumpId} {row : DumpRow}

theorem observe_row (hd : l.dumps.find? d = some row) :
    l.observe.dumpPhase d = some row.phase ∧ l.observe.dumpCase d = some row.caseId ∧
      l.observe.blobState d = row.blobState ∧
      (d ∈ l.observe.digestRecorded ↔ row.sha256.isSome = true) ∧
      l.observe.validation d = row.validation ∧ l.observe.coverage d = row.coverage ∧
      (d ∈ l.observe.downloadable ↔ row.downloadable = true) := by
  refine ⟨?_, ?_, ?_, ?_, ?_, ?_, ?_⟩ <;> simp [SqliteLedger.observe, hd]

theorem dumpPhase_eq_some {phase : DumpPhase} :
    l.observe.dumpPhase d = some phase ↔ ∃ row, l.dumps.find? d = some row ∧ row.phase = phase :=
  Option.map_eq_some_iff

theorem setOf_same {S : Set DumpId} {P : Prop} (h : P ↔ d ∈ S) :
    {d' | if d' = d then P else d' ∈ S} = S := by
  ext d'
  by_cases he : d' = d
  · simpa [he] using h
  · simp [he]

theorem setOf_insert {S : Set DumpId} : {d' | ¬d' = d → d' ∈ S} = insert d S := by
  ext d'
  by_cases he : d' = d <;> simp [he]

theorem setOf_erase {S : Set DumpId} : {d' | ¬d' = d ∧ d' ∈ S} = S \ {d} := by
  ext d'
  by_cases he : d' = d <;> simp [he]

end Variables

/-! ## The moves -/

section Moves

variable {l l' : SqliteLedger} {d : DumpId} {row : DumpRow} {m : DumpMove}


/-- The action a move is. Setting a purge date is none. -/
def DumpMove.action? (d : DumpId) : DumpMove → Option Spec.Action
  | sealUpload _ _ => some (.sealUpload d)
  | failUpload => some (.failUpload d)
  | recordPromoted => some (.promoteObject d)
  | markQuarantined => some (.markQuarantined d)
  | acceptDump coverage _ => some (.acceptDump d coverage)
  | rejectDump _ => some (.rejectDump d)
  | setRetention _ => none
  | beginPurge => some (.beginPurge d)
  | finishPurge => some (.finishPurge d)

/-- What is seen of a ledger after a move. -/
def DumpMove.seen (now : IsoTimestamp) (m : DumpMove) (s : Spec.State) (row : DumpRow) : Spec.State :=
  match m with
  | finishPurge =>
    { s.withDump row.dumpId (m.apply now row) with
      analysisRecorded := s.analysisRecorded \ {row.dumpId} }
  | _ => s.withDump row.dumpId (m.apply now row)

/-- The columns a move leaves alone are not seen to change. -/
structure Untouched (s : Spec.State) (row : DumpRow) : Prop where
  dumpCase : update s.dumpCase row.dumpId (some row.caseId) = s.dumpCase
  blobState : update s.blobState row.dumpId row.blobState = s.blobState
  digestRecorded :
    {d | if d = row.dumpId then row.sha256.isSome = true else d ∈ s.digestRecorded} =
      s.digestRecorded
  validation : update s.validation row.dumpId row.validation = s.validation
  coverage : update s.coverage row.dumpId row.coverage = s.coverage
  downloadable :
    {d | if d = row.dumpId then row.downloadable = true else d ∈ s.downloadable} = s.downloadable

theorem untouched (hd : l.dumps.find? row.dumpId = some row) : Untouched l.observe row := by
  obtain ⟨-, hcase, hblob, hsha, hval, hcov, hdl⟩ := observe_row hd
  exact ⟨by simp [hcase], by simp [hblob], setOf_same hsha.symm, by simp [hval], by simp [hcov],
    setOf_same hdl.symm⟩

theorem seen_eq_next {now : IsoTimestamp} {action : Spec.Action} (htracked : Tracked row)
    (hd : l.dumps.find? row.dumpId = some row) (hguard : m.guard row = true)
    (haction : m.action? row.dumpId = some action) :
    action.enabled l.observe ∧ m.seen now l.observe row = action.next l.observe := by
  obtain ⟨hphase, -, hblob, hsha, -, -, hdl⟩ := observe_row hd
  have hkept := untouched hd
  -- a dump that is not available is not offered for download
  have hoffered (hp : row.phase ≠ .available) : row.downloadable = false := by
    simpa [hp] using htracked.downloadable
  cases m <;> cases haction
  case sealUpload byteSize sha256 =>
    have hp : row.phase = .receiving := by simpa [DumpMove.guard] using hguard
    refine ⟨⟨by rw [hphase, hp], by rw [hblob, htracked.receiving hp]⟩, ?_⟩
    simp [DumpMove.seen, DumpMove.apply, Spec.State.withDump, Spec.Action.next, hkept.dumpCase,
      hkept.blobState, hkept.validation, hkept.coverage, hkept.downloadable, setOf_insert]
  case failUpload =>
    have hp : row.phase = .receiving := by simpa [DumpMove.guard] using hguard
    have hdl' : row.dumpId ∉ l.observe.downloadable := by simp [hdl, hoffered, hp]
    refine ⟨by rw [Spec.Action.enabled, hphase, hp], ?_⟩
    simp [DumpMove.seen, DumpMove.apply, Spec.State.withDump, Spec.Action.next, hkept.dumpCase,
      hkept.digestRecorded, hkept.coverage, setOf_erase,
      Set.sdiff_singleton_eq_self hdl']
  case recordPromoted =>
    obtain ⟨hp, hb⟩ : row.phase = .sealed ∧ row.blobState = .staging := by
      simpa [DumpMove.guard] using hguard
    refine ⟨⟨by rw [hphase, hp], by rw [hblob, hb]⟩, ?_⟩
    simp [DumpMove.seen, DumpMove.apply, Spec.State.withDump, Spec.Action.next, hkept.dumpCase,
      hkept.digestRecorded, hkept.validation, hkept.coverage, hkept.downloadable, hphase]
  case markQuarantined =>
    obtain ⟨hp, hb, hs⟩ :
        row.phase = .sealed ∧ row.blobState = .vault ∧ row.sha256.isSome = true := by
      simpa [DumpMove.guard] using hguard
    refine ⟨⟨by rw [hphase, hp], by rw [hblob, hb], hsha.mpr hs⟩, ?_⟩
    simp [DumpMove.seen, DumpMove.apply, Spec.State.withDump, Spec.Action.next, hkept.dumpCase,
      hkept.blobState, hkept.digestRecorded, hkept.validation, hkept.coverage, hkept.downloadable]
  case acceptDump coverage facts =>
    obtain ⟨hp, hb, hs⟩ :
        row.phase = .quarantined ∧ row.blobState = .vault ∧ row.sha256.isSome = true := by
      simpa [DumpMove.guard] using hguard
    refine ⟨⟨by rw [hphase, hp], by rw [hblob, hb], hsha.mpr hs⟩, ?_⟩
    simp [DumpMove.seen, DumpMove.apply, Spec.State.withDump, Spec.Action.next, hkept.dumpCase,
      hkept.blobState, hkept.digestRecorded, setOf_insert]
  case rejectDump error =>
    obtain ⟨hp, hb⟩ : row.phase = .quarantined ∧ row.blobState = .vault := by
      simpa [DumpMove.guard] using hguard
    have hdl' : row.dumpId ∉ l.observe.downloadable := by simp [hdl, hoffered, hp]
    refine ⟨⟨by rw [hphase, hp], by rw [hblob, hb]⟩, ?_⟩
    simp [DumpMove.seen, DumpMove.apply, Spec.State.withDump, Spec.Action.next, hkept.dumpCase,
      hkept.blobState, hkept.digestRecorded, hkept.coverage, setOf_erase,
      Set.sdiff_singleton_eq_self hdl']
  case beginPurge =>
    have hp : row.phase = .available ∨ row.phase = .rejected := by
      simpa [DumpMove.guard] using hguard
    refine ⟨by simpa [Spec.Action.enabled, hphase] using hp, ?_⟩
    simp [DumpMove.seen, DumpMove.apply, Spec.State.withDump, Spec.Action.next, hkept.dumpCase,
      hkept.blobState, hkept.digestRecorded, hkept.validation, hkept.coverage, setOf_erase]
  case finishPurge =>
    have hp : row.phase = .deleting := by simpa [DumpMove.guard] using hguard
    have hdl' : row.dumpId ∉ l.observe.downloadable := by simp [hdl, hoffered, hp]
    refine ⟨by rw [Spec.Action.enabled, hphase, hp], ?_⟩
    simp [DumpMove.seen, DumpMove.apply, Spec.State.withDump, Spec.Action.next, hkept.dumpCase,
      hkept.digestRecorded, hkept.validation, hkept.coverage, setOf_erase,
      Set.sdiff_singleton_eq_self hdl']

theorem SqliteLedger.observe_deleteAnalyses (l : SqliteLedger) (d : DumpId) :
    (l.deleteAnalyses d).observe =
      { l.observe with analysisRecorded := l.observe.analysisRecorded \ {d} } := by
  refine Spec.State.ext rfl rfl rfl rfl rfl rfl rfl rfl rfl rfl ?_ rfl rfl rfl
  ext d'
  constructor
  · rintro ⟨a, ha, rfl⟩
    obtain ⟨ha, hne⟩ := Table.mem_delete.mp ha
    exact ⟨⟨a, ha, rfl⟩, by simpa using hne⟩
  · rintro ⟨⟨a, ha, rfl⟩, hne⟩
    exact ⟨a, Table.mem_delete.mpr ⟨ha, by simpa using hne⟩, rfl⟩

/-- The identity of a report that is stored already. -/
theorem SqliteLedger.mem_of_findAnalysis {identity : AnalysisIdentity} {a : AnalysisRow}
    (h : l.findAnalysisByIdentity identity = some a) :
    identity.dumpId ∈ l.observe.analysisRecorded := by
  have hid : a.identity = identity := by simpa using List.find?_some h
  exact ⟨a, List.mem_of_find?_eq_some h, by rw [hid]⟩

/-- A first report is seen under its dump. -/
theorem SqliteLedger.observe_firstAnalysis {caseId : CaseId} {insert : AnalysisInsert}
    {event : EventIdentity} {report : AnalysisRow} {deduplicated : Bool}
    (h : l.firstAnalysis caseId insert event none = .ok ((report, deduplicated), l')) :
    l'.observe =
      { l.observe with
        analysisRecorded := l.observe.analysisRecorded ∪ {insert.identity.dumpId} } := by
  simp only [firstAnalysis, insertDetail, bind_eq_ok, insertAnalysis_eq_ok, insertAudit_eq_ok,
    orThrow_eq_ok, pure_eq_ok, Prod.mk.injEq, Except.ok.injEq, exists_eq_left'] at h
  obtain ⟨_, ⟨-, -, hnew, rfl⟩, _, -, _, ⟨-, he, rfl⟩, _, -, -, rfl⟩ := h
  refine (observe_audited he (by decide)).trans ?_
  refine Spec.State.ext rfl rfl rfl rfl rfl rfl rfl rfl rfl rfl ?_ rfl rfl rfl
  ext d'
  constructor
  · rintro ⟨a, ha, rfl⟩
    rcases (Table.mem_insert (h := hnew)).mp ha with ha | rfl
    · exact Or.inl ⟨a, ha, rfl⟩
    · exact Or.inr rfl
  · rintro (⟨a, ha, rfl⟩ | rfl)
    · exact ⟨a, (Table.mem_insert (h := hnew)).mpr (Or.inl ha), rfl⟩
    · exact ⟨_, (Table.mem_insert (h := hnew)).mpr (Or.inr rfl), rfl⟩

/-- **A move that committed was the action's step.** -/
theorem observe_dumpMove {sha256 : Bytes → Sha256} {op : LedgerOp} {event : EventIdentity}
    {r : LedgerResult} {action : Spec.Action} (htracked : ∀ row ∈ l.dumps, Tracked row)
    (hop : op.dumpMove? = some (d, m)) (haction : m.action? d = some action)
    (h : op.run sha256 event l = .ok (r, l')) :
    action.enabled l.observe ∧ l'.observe = action.next l.observe := by
  suffices hrow : ∃ row, l.dumps.find? d = some row ∧ m.guard row = true ∧
      l'.observe = m.seen event.occurredAt l.observe row by
    obtain ⟨row, hd, hguard, hseen⟩ := hrow
    obtain rfl : row.dumpId = d := Table.key_of_find? hd
    rw [hseen]
    exact seen_eq_next (htracked row (Table.mem_of_find? hd)) hd hguard haction
  cases op <;> cases hop
  case setRetention purgeAt => cases haction
  case finishPurge =>
    obtain ⟨l₁, h₁, rfl⟩ := SqliteLedger.finishPurge_eq_ok.mp (LedgerOp.noResult_eq_ok.mp h).1
    obtain ⟨row, hd, hp, -, hseen⟩ := SqliteLedger.observe_transitionDump h₁ (by decide)
    obtain rfl : row.dumpId = d := Table.key_of_find? hd
    refine ⟨row, hd, hp, (SqliteLedger.observe_deleteAnalyses ..).trans ?_⟩
    rw [hseen]
    rfl
  all_goals
    obtain ⟨row, hd, hp, hx, hseen⟩ := SqliteLedger.observe_transitionDump
      (LedgerOp.noResult_eq_ok.mp h).1 (by decide)
    refine ⟨row, hd, ?_, ?_⟩
    · simp_all [DumpMove.guard]
    · obtain rfl : row.dumpId = d := Table.key_of_find? hd
      exact hseen
end Moves

end DumpLedger
