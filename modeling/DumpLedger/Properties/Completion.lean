import DumpLedger.Properties.FactFilters
import DumpLedger.Properties.Recovery

/-!
# Dumps on their way

The upload post-processor, startup recovery and an import complete a dump with the same four
commands. `Stage` says how far a dump has come, and that its one object has the bytes it had;
the last stage is the row that the inspection of these bytes asks for.

* `DriverCall` — one call of a driver that completes the dump, in a host that may fail or die
* `DriverCall.stage` — whichever way a call ends, the dump is still on its way
-/

namespace DumpLedger

open Lib

/-! ## How far a dump has come -/

/-- The columns of a row that completing a dump is about. -/
structure DumpResult where
  phase : DumpPhase
  blobState : BlobState
  validation : ValidationState
  coverage : Option CoverageKind
  inspectionFacts : Option JsonObject
  inspectionError : Option String

def DumpRow.result (d : DumpRow) : DumpResult :=
  ⟨d.phase, d.blobState, d.validation, d.coverage, d.inspectionFacts, d.inspectionError⟩

/-- What the dump `d` is completed to. -/
def completed (d : DumpRow) : InspectionOutcome → DumpResult
  | .accepted coverage facts => ⟨.available, .vault, .valid, some coverage, some facts, none⟩
  | .rejected error =>
    ⟨.rejected, .vault, .invalid, d.coverage, d.inspectionFacts, some error⟩

/-- The bytes are in the vault only. -/
def InVault (s : ObjectStore DumpId) (dumpId : DumpId) (bytes : Bytes) : Prop :=
  s.staging.find? dumpId = none ∧ s.object? dumpId = some bytes

/-- The bytes are in a closed staging file only. -/
def InStaging (s : ObjectStore DumpId) (dumpId : DumpId) (bytes : Bytes) : Prop :=
  (∃ f, s.staging.find? dumpId = some f ∧ f.isOpen = false ∧ f.bytes = bytes) ∧
    s.objects.find? dumpId = none

/-- The row `r` on the way of the dump `d`, with the object it has then. -/
inductive Stage (outcome : InspectionOutcome) (bytes : Bytes) (d r : DumpRow)
    (s : ObjectStore DumpId) : Prop
  | sealed (hphase : r.phase = .sealed) (hblob : r.blobState = .staging)
      (hsha : r.sha256.isSome = true) (hcoverage : r.coverage = d.coverage)
      (hfacts : r.inspectionFacts = d.inspectionFacts)
      (hobject : InStaging s d.dumpId bytes ∨ InVault s d.dumpId bytes)
  | promoted (hphase : r.phase = .sealed) (hblob : r.blobState = .vault)
      (hsha : r.sha256.isSome = true) (hcoverage : r.coverage = d.coverage)
      (hfacts : r.inspectionFacts = d.inspectionFacts) (hobject : InVault s d.dumpId bytes)
  | quarantined (hphase : r.phase = .quarantined) (hblob : r.blobState = .vault)
      (hsha : r.sha256.isSome = true) (hcoverage : r.coverage = d.coverage)
      (hfacts : r.inspectionFacts = d.inspectionFacts) (hobject : InVault s d.dumpId bytes)
  | finished (hresult : r.result = completed d outcome) (hobject : InVault s d.dumpId bytes)

section Stages

variable {outcome : InspectionOutcome} {bytes : Bytes} {d r : DumpRow}
  {s s' : ObjectStore DumpId} {w w' : World}

theorem InVault.congr (h : InVault s d.dumpId bytes)
    (hs : ObjectStore.SameObjects s s' d.dumpId) : InVault s' d.dumpId bytes := by
  refine ⟨hs.1.trans h.1, ?_⟩
  unfold ObjectStore.object?
  rw [hs.2]
  exact h.2

theorem InStaging.congr (h : InStaging s d.dumpId bytes)
    (hs : ObjectStore.SameObjects s s' d.dumpId) : InStaging s' d.dumpId bytes := by
  obtain ⟨⟨f, hf, hfile⟩, hobject⟩ := h
  exact ⟨⟨f, hs.1.trans hf, hfile⟩, hs.2.trans hobject⟩

/-- What a stage needs of the vault. -/
theorem Stage.vault (h : Stage outcome bytes d r s)
    (hvault : InVault s d.dumpId bytes → InVault s' d.dumpId bytes)
    (hstaging : InStaging s d.dumpId bytes →
      InStaging s' d.dumpId bytes ∨ InVault s' d.dumpId bytes) : Stage outcome bytes d r s' := by
  cases h with
  | «sealed» hphase hblob hsha hcoverage hfacts hobject =>
    refine .sealed hphase hblob hsha hcoverage hfacts ?_
    rcases hobject with hobject | hobject
    · exact hstaging hobject
    · exact Or.inr (hvault hobject)
  | promoted hphase hblob hsha hcoverage hfacts hobject =>
    exact .promoted hphase hblob hsha hcoverage hfacts (hvault hobject)
  | quarantined hphase hblob hsha hcoverage hfacts hobject =>
    exact .quarantined hphase hblob hsha hcoverage hfacts (hvault hobject)
  | finished hresult hobject => exact .finished hresult (hvault hobject)

theorem phase_of_completed (h : r.result = completed d outcome) :
    r.phase = .available ∨ r.phase = .rejected := by
  have hphase : r.phase = (completed d outcome).phase := congrArg DumpResult.phase h
  cases outcome with
  | accepted => exact Or.inl hphase
  | rejected => exact Or.inr hphase

/-- What a quarantined row on its way comes with. -/
structure Quarantined (bytes : Bytes) (d r : DumpRow) (s : ObjectStore DumpId) : Prop where
  blobState : r.blobState = .vault
  sha256 : r.sha256.isSome = true
  coverage : r.coverage = d.coverage
  facts : r.inspectionFacts = d.inspectionFacts
  inVault : InVault s d.dumpId bytes

theorem Stage.of_quarantined (h : Stage outcome bytes d r s) (hphase : r.phase = .quarantined) :
    Quarantined bytes d r s := by
  cases h with
  | «sealed» hp | promoted hp =>
    rw [hphase] at hp
    cases hp
  | quarantined _ hblob hsha hcoverage hfacts hobject =>
    exact ⟨hblob, hsha, hcoverage, hfacts, hobject⟩
  | finished hresult =>
    rcases phase_of_completed hresult with hp | hp <;> rw [hphase] at hp <;> cases hp

theorem Stage.of_sealed (h : Stage outcome bytes d r s) (hphase : r.phase = .sealed) :
    r.sha256.isSome = true ∧ r.coverage = d.coverage ∧
      r.inspectionFacts = d.inspectionFacts ∧
        ((r.blobState = .staging ∧ (InStaging s d.dumpId bytes ∨ InVault s d.dumpId bytes)) ∨
          (r.blobState = .vault ∧ InVault s d.dumpId bytes)) := by
  cases h with
  | «sealed» _ hblob hsha hcoverage hfacts hobject =>
    exact ⟨hsha, hcoverage, hfacts, Or.inl ⟨hblob, hobject⟩⟩
  | promoted _ hblob hsha hcoverage hfacts hobject =>
    exact ⟨hsha, hcoverage, hfacts, Or.inr ⟨hblob, hobject⟩⟩
  | quarantined hp =>
    rw [hphase] at hp
    cases hp
  | finished hresult =>
    rcases phase_of_completed hresult with hp | hp <;> rw [hphase] at hp <;> cases hp

theorem result_acceptDump {coverage : CoverageKind} {facts : JsonObject} {t : IsoTimestamp}
    (hblob : r.blobState = .vault) :
    ((DumpMove.acceptDump coverage facts).apply t r).result =
      completed d (.accepted coverage facts) := by
  simp [DumpRow.result, DumpMove.apply, completed, hblob]

theorem result_rejectDump {error : String} {t : IsoTimestamp} (hblob : r.blobState = .vault)
    (hcoverage : r.coverage = d.coverage) (hfacts : r.inspectionFacts = d.inspectionFacts) :
    ((DumpMove.rejectDump error).apply t r).result = completed d (.rejected error) := by
  simp [DumpRow.result, DumpMove.apply, completed, hblob, hcoverage, hfacts]

theorem Stage.congr (h : Stage outcome bytes d r s)
    (hs : ObjectStore.SameObjects s s' d.dumpId) : Stage outcome bytes d r s' :=
  h.vault (fun hv => hv.congr hs) fun hv => Or.inl (hv.congr hs)

/-- A promotion puts the bytes into the vault, wherever they are. -/
theorem inVault_promote (hobject : InStaging s d.dumpId bytes ∨ InVault s d.dumpId bytes)
    (h : s.promote d.dumpId = .ok s') : InVault s' d.dumpId bytes := by
  rcases ObjectStore.promote_eq_ok.mp h with ⟨hnone, -, rfl⟩ | ⟨f, hf, -, hfree, rfl⟩
  · rcases hobject with ⟨⟨f, hf, -⟩, -⟩ | hobject
    · rw [hnone] at hf
      cases hf
    · exact hobject
  · rcases hobject with ⟨⟨f', hf', -, hbytes⟩, -⟩ | ⟨hnone, -⟩
    · rw [hf] at hf'
      cases hf'
      refine ⟨ObjectStore.find?_removeStaging.trans (if_pos rfl), ?_⟩
      unfold ObjectStore.object?
      rw [Table.find?_insert]
      simp [hbytes]
    · rw [hf] at hnone
      cases hnone

theorem Stage.promote (h : Stage outcome bytes d r s) (hpromote : s.promote d.dumpId = .ok s') :
    Stage outcome bytes d r s' :=
  h.vault (fun hv => inVault_promote (Or.inr hv) hpromote)
    fun hv => Or.inr (inVault_promote (Or.inl hv) hpromote)

/-- Closing a process keeps every stage: the staging file is closed already. -/
theorem Stage.reopen (h : Stage outcome bytes d r s) : Stage outcome bytes d r s.reopen := by
  refine h.vault (fun hv => ⟨?_, hv.2⟩) fun hv => Or.inl ⟨?_, hv.2⟩
  · rw [ObjectStore.find?_reopen, hv.1]
    rfl
  · obtain ⟨f, hf, -, hbytes⟩ := hv.1
    refine ⟨{ f with isOpen := false }, ?_, rfl, hbytes⟩
    rw [ObjectStore.find?_reopen, hf]
    rfl

end Stages


/-! ## The calls of a driver -/

/-- The commands with which a driver goes on with the dump `id`, and those it has for others. -/
inductive DriverCommand (id : DumpId) : Command → Prop
  | promoteObject (dumpId : String) : DriverCommand id (.promoteObject dumpId)
  | markQuarantined (dumpId : String) : DriverCommand id (.markQuarantined dumpId)
  | acceptDump (dumpId : String) : DriverCommand id (.acceptDump dumpId)
  | rejectDump (dumpId : String) : DriverCommand id (.rejectDump dumpId)
  | failUpload (dumpId : String) (h : dumpId ≠ id.text) : DriverCommand id (.failUpload dumpId)
  | beginPurge (dumpId : String) (h : dumpId ≠ id.text) : DriverCommand id (.beginPurge dumpId)
  | finishPurge (dumpId : String) (h : dumpId ≠ id.text) : DriverCommand id (.finishPurge dumpId)

/-- The storage operations that a driver performs itself: none on the dump `id`. -/
inductive DriverRemoval (id : DumpId) : StorageOp → Prop
  | removeStaging (dumpId : DumpId) (h : dumpId ≠ id) : DriverRemoval id (.removeStaging dumpId)
  | remove (dumpId : DumpId) (h : dumpId ≠ id) : DriverRemoval id (.remove dumpId)

/-- One call of a driver, in any host whose inspector is `inspector`. -/
inductive DriverCall (options : EngineOptions) (inspector : Option Bytes → InspectionOutcome)
    (id : DumpId) (w : World) : World → Prop
  | executed (host : Host) (command : Command) (hcommand : DriverCommand id command)
      (hinspect : host.inspect = fun _ bytes => inspector bytes) :
      DriverCall options inspector id w (execute options host w command).2
  | performed (op : StorageOp) (fault : Option StorageFault) (nowMs : Int)
      (hop : DriverRemoval id op) :
      DriverCall options inspector id w
        { w with vaults := (op.perform fault nowMs w.vaults).2 }

section Plans

variable {options : EngineOptions} {host : Host} {w : World} {command : Command} {p : Plan}
  {dumpId : DumpId}

/-- A promotion is recorded after the object was promoted. -/
theorem plan_recordPromoted (hplan : plan options host w command = .ok p)
    (hop : p.ledger = some (.recordPromoted dumpId)) : p.storage = some (.promote dumpId) := by
  have haction := plan_action hplan hop
  cases command <;> cases haction
  obtain ⟨occurredAt, -, h⟩ := plan_eq_ok.mp hplan
  obtain ⟨id, -, h⟩ := bind_eq_ok.mp h
  obtain ⟨_, -, h⟩ := bind_eq_ok.mp h
  cases h
  cases hop
  rfl

theorem plan_rejectDump {error : String} (hplan : plan options host w command = .ok p)
    (hop : p.ledger = some (.rejectDump dumpId error)) :
    inspection host w dumpId = .rejected error := by
  have haction := plan_action hplan hop
  cases command <;> cases haction
  obtain ⟨occurredAt, -, h⟩ := plan_eq_ok.mp hplan
  obtain ⟨id, -, h⟩ := bind_eq_ok.mp h
  obtain ⟨_, -, h⟩ := bind_eq_ok.mp h
  split at h
  · cases h
  · next hinspect =>
    cases h
    cases hop
    exact hinspect

/-- The moves that a driver's command makes with the dump `id`. -/
theorem plan_driverMove {m : DumpMove} {op : LedgerOp} (hcommand : DriverCommand dumpId command)
    (hplan : plan options host w command = .ok p) (hledger : p.ledger = some op)
    (hop : op.dumpMove? = some (dumpId, m)) :
    (m = .recordPromoted ∧ p.storage = some (.promote dumpId)) ∨ m = .markQuarantined ∨
      (∃ coverage facts, m = .acceptDump coverage facts ∧
        inspection host w dumpId = .accepted coverage facts) ∨
      ∃ error, m = .rejectDump error ∧ inspection host w dumpId = .rejected error := by
  have haction := plan_action hplan hledger
  cases hcommand with
  | promoteObject =>
    cases op <;> cases hop <;> cases haction
    exact Or.inl ⟨rfl, plan_recordPromoted hplan hledger⟩
  | markQuarantined =>
    cases op <;> cases hop <;> cases haction
    exact Or.inr (Or.inl rfl)
  | acceptDump =>
    cases op <;> cases hop <;> cases haction
    exact Or.inr (Or.inr (Or.inl ⟨_, _, rfl, plan_acceptDump hplan hledger⟩))
  | rejectDump =>
    cases op <;> cases hop <;> cases haction
    exact Or.inr (Or.inr (Or.inr ⟨_, rfl, plan_rejectDump hplan hledger⟩))
  | failUpload text hne | beginPurge text hne | finishPurge text hne =>
    -- these name another dump
    obtain ⟨occurredAt, -, h⟩ := plan_eq_ok.mp hplan
    obtain ⟨id, hid, h⟩ := bind_eq_ok.mp h
    obtain ⟨_, -, h⟩ := bind_eq_ok.mp h
    cases h
    cases hledger
    cases hop
    exact absurd (parseIdentifier_eq_ok.mp hid).symm hne

/-- A driver moves a dump that is not completed. -/
theorem driverMove_phase {m : DumpMove} {op : LedgerOp} {r : DumpRow}
    (hcommand : DriverCommand dumpId command) (hplan : plan options host w command = .ok p)
    (hledger : p.ledger = some op) (hop : op.dumpMove? = some (dumpId, m))
    (hguard : m.guard r = true) : r.phase = .sealed ∨ r.phase = .quarantined := by
  rcases plan_driverMove hcommand hplan hledger hop with
    ⟨rfl, -⟩ | rfl | ⟨_, _, rfl, -⟩ | ⟨_, rfl, -⟩ <;>
      simp only [DumpMove.guard, Bool.and_eq_true, List.contains_cons, List.contains_nil,
        Bool.or_false, beq_iff_eq] at hguard
  · exact Or.inl hguard.1
  · exact Or.inl hguard.1
  · exact Or.inr hguard.1
  · exact Or.inr hguard.1

/-- What a driver's command does to the objects of the dump `id`. -/
theorem plan_driverStorage {op : StorageOp} (hcommand : DriverCommand dumpId command)
    (hplan : plan options host w command = .ok p) (hstorage : p.storage = some op) :
    op = .promote dumpId ∨ op.dumpId? ≠ some dumpId := by
  have hstores := (plan_stores hplan).storage op hstorage
  cases hcommand with
  | promoteObject =>
    cases hstores with
    | promoteObject k =>
      by_cases hk : k = dumpId
      · exact Or.inl (by rw [hk])
      · refine Or.inr fun h => hk ?_
        exact Option.some.inj h
  | markQuarantined => cases hstores
  | acceptDump => cases hstores
  | rejectDump => cases hstores
  | beginPurge => cases hstores
  | failUpload text hne =>
    cases hstores with
    | failUpload k =>
      refine Or.inr fun h => hne ?_
      rw [Option.some.inj h]
  | finishPurge text hne =>
    cases hstores with
    | finishPurge k =>
      refine Or.inr fun h => hne ?_
      rw [Option.some.inj h]

theorem plan_driverUndo (hcommand : DriverCommand dumpId command)
    (hplan : plan options host w command = .ok p) : p.compensation = none := by
  cases hc : p.compensation with
  | none => rfl
  | some d =>
    have hundoes := (plan_stores hplan).compensation d hc
    cases hcommand <;> cases hundoes

end Plans

/-! ### What a call keeps -/

section Calls

variable {options : EngineOptions} {inspector : Option Bytes → InspectionOutcome} {host : Host}
  {w w' : World} {command : Command} {p : Plan} {bytes : Bytes} {d r : DumpRow} {v : Vaults}
  {outcome : InspectionOutcome} {op : LedgerOp}

theorem Stage.stored (h : Stage outcome bytes d r w.vaults.dumps)
    (hcommand : DriverCommand d.dumpId command) (hplan : plan options host w command = .ok p)
    (hstored : Stored p host w.vaults v) : Stage outcome bytes d r v.dumps := by
  cases hstored with
  | kept => exact h
  | done hop hrun =>
    rcases plan_driverStorage hcommand hplan hop with rfl | hne
    · obtain ⟨s, hpromote, hv⟩ := bind_eq_ok.mp hrun
      cases hv
      exact h.promote hpromote
    · exact h.congr (StorageOp.run_same_dumps hrun hne)

/-- A dump that is inspected has its bytes in the vault. -/
theorem inspection_of_stage (hinspect : host.inspect = fun _ bytes => inspector bytes)
    (hobject : InVault w.vaults.dumps d.dumpId bytes) :
    inspection host w d.dumpId = inspector (some bytes) := by
  rw [inspection, hinspect, hobject.2]

/-- **A move of a driver is a step on the way.** -/
theorem Stage.moved {m : DumpMove} {t : IsoTimestamp}
    (h : Stage (inspector (some bytes)) bytes d r w.vaults.dumps)
    (hcommand : DriverCommand d.dumpId command)
    (hinspect : host.inspect = fun _ bytes => inspector bytes)
    (hplan : plan options host w command = .ok p)
    (hstored : (p.twoStore options host).operation w.vaults = (.ok (), v))
    (hledger : p.ledger = some op) (hop : op.dumpMove? = some (d.dumpId, m))
    (hguard : m.guard r = true) :
    Stage (inspector (some bytes)) bytes d (m.apply t r) v.dumps := by
  have hafter := h.stored hcommand hplan (stored_of_operation hstored)
  rcases plan_driverMove hcommand hplan hledger hop with
    ⟨rfl, hstorage⟩ | rfl | ⟨coverage, facts, rfl, haccepted⟩ | ⟨error, rfl, hrejected⟩
  · -- the object was promoted in the same command
    obtain ⟨hphase, hblob⟩ : r.phase = .sealed ∧ r.blobState = .staging := by
      simpa [DumpMove.guard] using hguard
    obtain ⟨hsha, hcoverage, hfacts, hplace⟩ := h.of_sealed hphase
    have hobject : InStaging w.vaults.dumps d.dumpId bytes ∨ InVault w.vaults.dumps d.dumpId bytes := by
      rcases hplace with ⟨-, hobject⟩ | ⟨-, hobject⟩
      · exact hobject
      · exact Or.inr hobject
    rcases operation_eq_ok.mp hstored with ⟨hnone, -⟩ | ⟨op', hop', -, hrun⟩
    · rw [hstorage] at hnone
      cases hnone
    · rw [hstorage] at hop'
      cases hop'
      obtain ⟨s, hpromote, hv⟩ := bind_eq_ok.mp hrun
      cases hv
      exact .promoted hphase rfl hsha hcoverage hfacts (inVault_promote hobject hpromote)
  · obtain ⟨hphase, hblob, -⟩ :
        r.phase = .sealed ∧ r.blobState = .vault ∧ r.sha256.isSome = true := by
      simpa [DumpMove.guard] using hguard
    obtain ⟨hsha, hcoverage, hfacts, ⟨hstaging, -⟩ | ⟨-, hobject⟩⟩ := hafter.of_sealed hphase
    · rw [hblob] at hstaging
      cases hstaging
    · exact .quarantined rfl hblob hsha hcoverage hfacts hobject
  · -- only a quarantined dump is accepted, and its bytes are the ones inspected
    obtain ⟨hphase, hblob, -⟩ :
        r.phase = .quarantined ∧ r.blobState = .vault ∧ r.sha256.isSome = true := by
      simpa [DumpMove.guard] using hguard
    rw [inspection_of_stage hinspect (h.of_quarantined hphase).inVault] at haccepted
    refine .finished ?_ (hafter.of_quarantined hphase).inVault
    rw [haccepted]
    exact result_acceptDump hblob
  · obtain ⟨hphase, hblob⟩ : r.phase = .quarantined ∧ r.blobState = .vault := by
      simpa [DumpMove.guard] using hguard
    have hq := hafter.of_quarantined hphase
    rw [inspection_of_stage hinspect (h.of_quarantined hphase).inVault] at hrejected
    refine .finished ?_ hq.inVault
    rw [hrejected]
    exact result_rejectDump hblob hq.coverage hq.facts

/-- **Every call of a driver keeps the dump on its way**, and a completed dump completed. -/
theorem DriverCall.stage (hcall : DriverCall options inspector d.dumpId w w')
    (hr : w.ledger.dumps.find? d.dumpId = some r)
    (h : Stage (inspector (some bytes)) bytes d r w.vaults.dumps) :
    ∃ r', w'.ledger.dumps.find? d.dumpId = some r' ∧
      Stage (inspector (some bytes)) bytes d r' w'.vaults.dumps ∧
        (r.result = completed d (inspector (some bytes)) → r' = r) := by
  have hsame {v : Vaults} (h : Stage (inspector (some bytes)) bytes d r v.dumps) :
      ∃ r', w.ledger.dumps.find? d.dumpId = some r' ∧
        Stage (inspector (some bytes)) bytes d r' v.dumps ∧
          (r.result = completed d (inspector (some bytes)) → r' = r) :=
    ⟨r, hr, h, fun _ => rfl⟩
  cases hcall with
  | performed op fault nowMs hop =>
    have hne : op.dumpId? ≠ some d.dumpId := by
      cases hop with
      | removeStaging k hk | remove k hk => exact fun h => hk (Option.some.inj h)
    refine hsame ?_
    generalize hout : op.perform fault nowMs w.vaults = out
    obtain ⟨result, v⟩ := out
    rcases StorageOp.perform_cases hout with hrun | ⟨rfl, -⟩
    · exact h.congr (StorageOp.run_same_dumps hrun hne)
    · exact h
  | executed host command hcommand hinspect =>
    have hc := execute_cases options host w command
    generalize execute options host w command = out at hc
    obtain ⟨outcome, w'⟩ := out
    cases hc with
    | refused _ => exact hsame h
    | storageThrew hplan hop hperform =>
      exact hsame (h.stored hcommand hplan (stored_of_perform hop hperform))
    | crashed hplan hstored _ =>
      exact hsame (h.stored hcommand hplan (stored_of_operation hstored))
    | @rolledBack p v e hplan hstored _ _ =>
      have hundo : (p.twoStore options host).undo v = v := by
        simp only [Plan.twoStore, plan_driverUndo hcommand hplan]
      dsimp only
      rw [hundo]
      exact hsame (h.stored hcommand hplan (stored_of_operation hstored))
    | @committed p v result l hplan hstored _ htx =>
      have hafter := h.stored hcommand hplan (stored_of_operation hstored)
      rcases transaction_eq_ok.mp htx with ⟨-, -, rfl⟩ | ⟨op, hledger, -, hrun⟩
      · exact hsame hafter
      · have hch := (run_changes hrun).dumps
        dsimp only
        generalize l.dumps = dumps at hch
        cases hch with
        | same => exact hsame hafter
        | inserted row hnew _ _ =>
          have hne : row.dumpId ≠ d.dumpId := by
            intro he
            rw [he, hr] at hnew
            cases hnew
          refine ⟨r, ?_, hafter, fun _ => rfl⟩
          rw [Table.find?_insert_ne hne]
          exact hr
        | moved d₀ m hop hd₀ hguard =>
          by_cases hid : d₀.dumpId = d.dumpId
          · rw [hid] at hop hd₀
            rw [hr] at hd₀
            cases hd₀
            refine ⟨m.apply p.event.occurredAt r, ?_,
              h.moved hcommand hinspect hplan hstored hledger hop hguard, fun hresult => ?_⟩
            · have hfind : w.ledger.dumps.find? r.dumpId = some r := by
                rw [hid]
                exact hr
              rw [← hid, Table.find?_updateKey_self hfind]
            · have hmoving := driverMove_phase hcommand hplan hledger hop hguard
              rcases phase_of_completed hresult with hphase | hphase <;>
                simp [hphase] at hmoving
          · refine ⟨r, ?_, hafter, fun _ => rfl⟩
            rw [Table.find?_updateKey_ne hid]
            exact hr

end Calls
end DumpLedger
