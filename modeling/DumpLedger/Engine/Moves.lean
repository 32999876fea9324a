import DumpLedger.Engine.Execute
import DumpLedger.Ledger.Changes

/-!
# The commands that move a dump

What it takes for each of them to succeed in an undisturbed host, and the world it leaves:
the dump has moved, its object is where the move puts it, and nothing else has changed.
Drivers cite these and never look into a plan.
-/

namespace DumpLedger

open Lib

section Phases

variable {w : World} {dumpId : DumpId} {d : DumpRow}

theorem requireOneOfPhases_eq_ok {phases : List DumpPhase} :
    requireOneOfPhases w dumpId phases = .ok d ↔
      w.ledger.dumps.find? dumpId = some d ∧ phases.contains d.phase = true := by
  simp only [requireOneOfPhases, bind_eq_ok, orThrow_eq_ok, guardThat_eq_ok, pure_eq_ok,
    SqliteLedger.getDump]
  constructor
  · rintro ⟨d', hd, -, hp, rfl⟩
    exact ⟨hd, hp⟩
  · rintro ⟨hd, hp⟩
    exact ⟨d, hd, (), hp, rfl⟩

theorem requirePhase_eq_ok {phase : DumpPhase} :
    requirePhase w dumpId phase = .ok d ↔
      w.ledger.dumps.find? dumpId = some d ∧ d.phase = phase := by
  rw [requirePhase, requireOneOfPhases_eq_ok]
  simp

end Phases

/-- A command that succeeded and moved a dump. -/
structure ExecutedMove (options : EngineOptions) (host : Host) (w : World) (command : Command)
    (dumpId : DumpId) (m : DumpMove) (w' : World) : Prop where
  executes : ∃ receipt, execute options host w command = (.receipt (.success receipt), w')
  moved : ∃ occurredAt, MovedDump w.ledger w'.ledger ⟨host.auditId, occurredAt⟩ dumpId m
  linked : Linked w'.ledger

section Moves

variable {options : EngineOptions} {host : Host} {w : World} {command : Command} {d : DumpRow}
  {m : DumpMove} {op : LedgerOp} {receipt : IsoTimestamp → TransitionSuccess}

/-- A command that comes to one transaction, a move the dump is ready for. -/
theorem executedMove_ledger (hu : host.Undisturbed w) (hl : Linked w.ledger)
    (hplan : ∀ occurredAt, planAt options host w occurredAt command =
      .ok (ledgerPlan host occurredAt op (receipt occurredAt)))
    (hop : op.dumpMove? = some (d.dumpId, m)) (hd : w.ledger.dumps.find? d.dumpId = some d)
    (hguard : m.guard d = true) :
    ∃ l', ExecutedMove options host w command d.dumpId m ⟨l', w.vaults⟩ := by
  obtain ⟨t, ht⟩ := hu.clock
  obtain ⟨l', hrun, hmoved⟩ := run_dumpMove options.digests.sha256
    (host.event t) hl hop hd hguard hu.event
  exact ⟨l', ⟨_, execute_ledgerPlan hu (plan_eq_ok.mpr ⟨t, ht, hplan t⟩) hrun⟩, ⟨t, hmoved⟩,
    run_linked hl hrun⟩

/-- A command that works on the dump's object first. -/
theorem executedMove_storage (hu : host.Undisturbed w) (hl : Linked w.ledger) {storage : StorageOp}
    {v : Vaults}
    (hplan : ∀ occurredAt, planAt options host w occurredAt command =
      .ok (storagePlan host occurredAt storage op (receipt occurredAt)))
    (hstored : storage.run host.nowMs w.vaults = .ok v)
    (hop : op.dumpMove? = some (d.dumpId, m)) (hd : w.ledger.dumps.find? d.dumpId = some d)
    (hguard : m.guard d = true) :
    ∃ l', ExecutedMove options host w command d.dumpId m ⟨l', v⟩ := by
  obtain ⟨t, ht⟩ := hu.clock
  obtain ⟨l', hrun, hmoved⟩ := run_dumpMove options.digests.sha256
    (host.event t) hl hop hd hguard hu.event
  exact ⟨l', ⟨_, execute_storagePlan hu (plan_eq_ok.mpr ⟨t, ht, hplan t⟩) hstored hrun⟩,
    ⟨t, hmoved⟩, run_linked hl hrun⟩

theorem execute_failUpload (options : EngineOptions) (hu : host.Undisturbed w) (hl : Linked w.ledger)
    (hd : w.ledger.dumps.find? d.dumpId = some d) (hphase : d.phase = .receiving) :
    ∃ l', ExecutedMove options host w (.failUpload d.dumpId.text) d.dumpId .failUpload
      ⟨l', { w.vaults with dumps := w.vaults.dumps.removeStaging d.dumpId }⟩ :=
  executedMove_storage hu hl
    (fun _ => bind_eq_ok.mpr ⟨_, parseIdentifier_eq_ok.mpr rfl, bind_eq_ok.mpr
      ⟨_, requirePhase_eq_ok.mpr ⟨hd, hphase⟩, rfl⟩⟩) rfl rfl hd (by simp [DumpMove.guard, hphase])

theorem execute_promoteObject (options : EngineOptions) (hu : host.Undisturbed w) (hl : Linked w.ledger)
    (hd : w.ledger.dumps.find? d.dumpId = some d) (hphase : d.phase = .sealed)
    (hblob : d.blobState = .staging) {s : ObjectStore DumpId}
    (hpromote : w.vaults.dumps.promote d.dumpId = .ok s) :
    ∃ l', ExecutedMove options host w (.promoteObject d.dumpId.text) d.dumpId .recordPromoted
      ⟨l', { w.vaults with dumps := s }⟩ :=
  executedMove_storage hu hl
    (fun _ => bind_eq_ok.mpr ⟨_, parseIdentifier_eq_ok.mpr rfl, bind_eq_ok.mpr
      ⟨_, requirePhase_eq_ok.mpr ⟨hd, hphase⟩, rfl⟩⟩) (bind_eq_ok.mpr ⟨s, hpromote, rfl⟩) rfl hd
    (by simp [DumpMove.guard, hphase, hblob])

theorem execute_markQuarantined (options : EngineOptions) (hu : host.Undisturbed w) (hl : Linked w.ledger)
    (hd : w.ledger.dumps.find? d.dumpId = some d) (hphase : d.phase = .sealed)
    (hblob : d.blobState = .vault) (hsha : d.sha256.isSome = true)
    (hobject : w.vaults.dumps.objects.contains d.dumpId = true)
    (hstaging : w.vaults.dumps.staging.contains d.dumpId = false) :
    ∃ l', ExecutedMove options host w (.markQuarantined d.dumpId.text) d.dumpId .markQuarantined
      ⟨l', w.vaults⟩ :=
  executedMove_ledger hu hl
    (fun _ => bind_eq_ok.mpr ⟨_, parseIdentifier_eq_ok.mpr rfl, bind_eq_ok.mpr
      ⟨_, requirePhase_eq_ok.mpr ⟨hd, hphase⟩, bind_eq_ok.mpr
        ⟨(), guardThat_eq_ok.mpr ⟨hobject, hstaging⟩, rfl⟩⟩⟩) rfl hd
    (by simp [DumpMove.guard, hphase, hblob, hsha])

theorem execute_acceptDump (options : EngineOptions) (hu : host.Undisturbed w) (hl : Linked w.ledger)
    (hd : w.ledger.dumps.find? d.dumpId = some d) (hphase : d.phase = .quarantined)
    (hblob : d.blobState = .vault) (hsha : d.sha256.isSome = true) {coverage : CoverageKind}
    {facts : JsonObject} (hinspect : inspection host w d.dumpId = .accepted coverage facts) :
    ∃ l', ExecutedMove options host w (.acceptDump d.dumpId.text) d.dumpId
      (.acceptDump coverage facts) ⟨l', w.vaults⟩ := by
  have hplan : ∀ t, planAt options host w t (.acceptDump d.dumpId.text) =
      .ok (ledgerPlan host t (.acceptDump d.dumpId coverage facts)
        { action := .acceptDump, occurredAt := t, dumpId := some d.dumpId,
          phase := some .available }) := by
    refine fun t => bind_eq_ok.mpr ⟨_, parseIdentifier_eq_ok.mpr rfl, bind_eq_ok.mpr
      ⟨_, requirePhase_eq_ok.mpr ⟨hd, hphase⟩, ?_⟩⟩
    rw [hinspect]
    rfl
  exact executedMove_ledger hu hl hplan rfl hd (by simp [DumpMove.guard, hphase, hblob, hsha])

theorem execute_rejectDump (options : EngineOptions) (hu : host.Undisturbed w) (hl : Linked w.ledger)
    (hd : w.ledger.dumps.find? d.dumpId = some d) (hphase : d.phase = .quarantined)
    (hblob : d.blobState = .vault) {error : String}
    (hinspect : inspection host w d.dumpId = .rejected error) :
    ∃ l', ExecutedMove options host w (.rejectDump d.dumpId.text) d.dumpId (.rejectDump error)
      ⟨l', w.vaults⟩ := by
  have hplan : ∀ t, planAt options host w t (.rejectDump d.dumpId.text) =
      .ok (ledgerPlan host t (.rejectDump d.dumpId error)
        { action := .rejectDump, occurredAt := t, dumpId := some d.dumpId,
          phase := some .rejected }) := by
    refine fun t => bind_eq_ok.mpr ⟨_, parseIdentifier_eq_ok.mpr rfl, bind_eq_ok.mpr
      ⟨_, requirePhase_eq_ok.mpr ⟨hd, hphase⟩, ?_⟩⟩
    rw [hinspect]
    rfl
  exact executedMove_ledger hu hl hplan rfl hd (by simp [DumpMove.guard, hphase, hblob])

/-- A dump the inspector rejects is not accepted, and nothing has happened. -/
theorem execute_acceptDump_rejected (options : EngineOptions) (hu : host.Undisturbed w)
    (hd : w.ledger.dumps.find? d.dumpId = some d) (hphase : d.phase = .quarantined) {error : String}
    (hinspect : inspection host w d.dumpId = .rejected error) :
    ∃ message, execute options host w (.acceptDump d.dumpId.text) =
      (.receipt (.failure .acceptDump ⟨.inspectionOutcomeMismatch, message⟩), w) := by
  obtain ⟨t, ht⟩ := hu.clock
  have hrow : requirePhase w d.dumpId .quarantined = .ok d :=
    requirePhase_eq_ok.mpr ⟨hd, hphase⟩
  have hid : parseDumpId d.dumpId.text = .ok d.dumpId := parseIdentifier_eq_ok.mpr rfl
  have hclock : assertIsoTimestamp host.now "clock" = .ok t := assertIsoTimestamp_eq_ok.mpr ht
  have hplan : plan options host w (.acceptDump d.dumpId.text) =
      .error (.ledgerError .inspectionOutcomeMismatch "inspection rejected the dump") := by
    simp only [plan, hclock, bind_ok, planAt, planAcceptDump, hid, hrow, hinspect]
    rfl
  exact ⟨_, by simp only [execute, hplan]; rfl⟩

theorem execute_beginPurge (options : EngineOptions) (hu : host.Undisturbed w) (hl : Linked w.ledger)
    (hd : w.ledger.dumps.find? d.dumpId = some d)
    (hphase : d.phase = .available ∨ d.phase = .rejected) :
    ∃ l', ExecutedMove options host w (.beginPurge d.dumpId.text) d.dumpId .beginPurge
      ⟨l', w.vaults⟩ := by
  have hguard : DumpMove.beginPurge.guard d = true := by
    rcases hphase with h | h <;> simp [DumpMove.guard, h]
  exact executedMove_ledger hu hl
    (fun _ => bind_eq_ok.mpr ⟨_, parseIdentifier_eq_ok.mpr rfl, bind_eq_ok.mpr
      ⟨d, requireOneOfPhases_eq_ok.mpr ⟨hd, hguard⟩, rfl⟩⟩) rfl hd hguard

theorem execute_finishPurge (options : EngineOptions) (hu : host.Undisturbed w) (hl : Linked w.ledger)
    (hd : w.ledger.dumps.find? d.dumpId = some d) (hphase : d.phase = .deleting) :
    ∃ l', ExecutedMove options host w (.finishPurge d.dumpId.text) d.dumpId .finishPurge
      ⟨l', { w.vaults with dumps := w.vaults.dumps.remove d.dumpId }⟩ :=
  executedMove_storage hu hl
    (fun _ => bind_eq_ok.mpr ⟨_, parseIdentifier_eq_ok.mpr rfl, bind_eq_ok.mpr
      ⟨_, requirePhase_eq_ok.mpr ⟨hd, hphase⟩, rfl⟩⟩) rfl rfl hd (by simp [DumpMove.guard, hphase])

end Moves

end DumpLedger
