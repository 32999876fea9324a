import DumpLedger.Engine.Moves
import DumpLedger.Engine.Storage
import DumpLedger.Properties.Evidence
import DumpLedger.Recovery.Reconcile

/-!
# Recovery converges

Whatever a crash left between the two stores, one pass of `reconcile` brings every dump to
an end or reports it, and a second pass finds nothing to do.

* `sealedOff_step` — what a run keeps for it: a quarantined dump has no staging file
* `reconcileDump_wp` — what a pass does to one dump, phase by phase, and to no other
* `reconcile_converges` — the two passes
-/

namespace DumpLedger

open Lib

/-! ## Before the crash -/

/-- A quarantined dump is in the vault only. -/
def SealedOff (w : World) : Prop :=
  ∀ d ∈ w.ledger.dumps, d.phase = .quarantined →
    w.vaults.dumps.staging.contains d.dumpId = false

/-- An upload begins under an identifier that no dump has. -/
def DrawsNewDumps (w : World) : Event → Prop
  | .command host (.beginUpload _ _) => w.ledger.dumps.contains host.dumpId = false
  | _ => True

section Before

variable {options : EngineOptions} {host : Host} {w : World} {command : Command} {e : Event}

theorem staging_of_run {op : StorageOp} {nowMs : Int} {v v' : Vaults} {id : DumpId}
    (h : op.run nowMs v = .ok v') (hid : v'.dumps.staging.contains id = true) :
    v.dumps.staging.contains id = true ∨ op = .createStaging id := by
  by_cases hop : op.dumpId? = some id
  · cases op <;> cases hop
    · exact Or.inr rfl
    · cases h
      simp [ObjectStore.contains_removeStaging] at hid
    · simp only [StorageOp.run, bind_eq_ok, pure_eq_ok] at h
      obtain ⟨s, hs, rfl⟩ := h
      rcases ObjectStore.promote_eq_ok.mp hs with ⟨-, -, rfl⟩ | ⟨f, -, -, _, rfl⟩
      · exact Or.inl hid
      · simp [ObjectStore.contains_removeStaging] at hid
    · cases h
      simp [ObjectStore.contains_removeStaging] at hid
  · have hsame := (StorageOp.run_same_dumps h hop).1
    rw [Table.contains, hsame] at hid
    exact Or.inl hid

theorem staging_of_stored {p : Plan} {v : Vaults} {id : DumpId}
    (hplan : plan options host w command = .ok p) (h : Stored p host w.vaults v)
    (hid : v.dumps.staging.contains id = true) :
    w.vaults.dumps.staging.contains id = true ∨
      (id = host.dumpId ∧ ∃ secret name, command = .beginUpload secret name) := by
  cases h with
  | kept => exact Or.inl hid
  | done hop hrun =>
    rcases staging_of_run hrun hid with h | rfl
    · exact Or.inl h
    · cases (plan_stores hplan).storage _ hop
      exact Or.inr ⟨rfl, _, _, rfl⟩

variable (options host) in
theorem staging_of_undo {p : Plan} {v : Vaults} {id : DumpId}
    (h : ((p.twoStore options host).undo v).dumps.staging.contains id = true) :
    v.dumps.staging.contains id = true := by
  cases hc : p.compensation with
  | none => simpa only [Plan.twoStore, hc] using h
  | some d =>
    simp only [Plan.twoStore, hc, ObjectStore.contains_removeStaging, Bool.and_eq_true] at h
    exact h.2

/-- A command creates no staging file but that of a new upload. -/
theorem staging_of_execute {id : DumpId}
    (h : (execute options host w command).2.vaults.dumps.staging.contains id = true) :
    w.vaults.dumps.staging.contains id = true ∨
      (id = host.dumpId ∧ ∃ secret name, command = .beginUpload secret name) := by
  have hc := execute_cases options host w command
  generalize execute options host w command = out at h hc
  obtain ⟨outcome, w'⟩ := out
  cases hc with
  | refused _ => exact Or.inl h
  | storageThrew hplan hop hperform =>
    exact staging_of_stored hplan (stored_of_perform hop hperform) h
  | crashed hplan hstored _ => exact staging_of_stored hplan (stored_of_operation hstored) h
  | committed hplan hstored _ _ => exact staging_of_stored hplan (stored_of_operation hstored) h
  | rolledBack hplan hstored _ _ =>
    exact staging_of_stored hplan (stored_of_operation hstored)
      (staging_of_undo options host h)

/-- No event creates a staging file under the identifier of a dump that has a row. -/
theorem staging_of_step (hcond : DrawsNewDumps w e) {id : DumpId}
    (hrow : w.ledger.dumps.contains id = true)
    (h : (step options w e).vaults.dumps.staging.contains id = true) :
    w.vaults.dumps.staging.contains id = true := by
  cases e with
  | command host command =>
    have hexec : (execute options host w command).2.vaults.dumps.staging.contains id = true := by
      generalize hout : execute options host w command = out at h
      obtain ⟨outcome, w'⟩ := out
      simp only [step, hout] at h
      cases outcome with
      | receipt _ => exact h
      | crashed => exact ObjectStore.contains_reopen.symm.trans h
    rcases staging_of_execute hexec with h | ⟨rfl, secret, name, rfl⟩
    · exact h
    · exact absurd (hcond.symm.trans hrow) Bool.false_ne_true
  | append nowMs dumpId bytes =>
    simp only [step] at h
    cases happ : w.vaults.dumps.append nowMs dumpId bytes with
    | error e => simpa only [happ, World.onDumps] using h
    | ok s =>
      obtain ⟨f, -, -, rfl⟩ := ObjectStore.append_eq_ok.mp happ
      simpa only [happ, World.onDumps, Table.contains_updateKey] using h
  | syncAndClose dumpId =>
    simp only [step] at h
    cases hsync : w.vaults.dumps.syncAndClose dumpId with
    | error e => simpa only [hsync, World.onDumps] using h
    | ok s =>
      obtain ⟨f, -, rfl⟩ := ObjectStore.syncAndClose_eq_ok.mp hsync
      simpa only [hsync, World.onDumps, Table.contains_updateKey] using h
  | stageImport nowMs dumpId =>
    simp only [step] at h
    split at h
    · exact h
    · next hfree =>
      cases hcreate : w.vaults.dumps.createStaging nowMs dumpId with
      | error e => simpa only [hcreate, World.onDumps] using h
      | ok s =>
        obtain ⟨hs, rfl⟩ := ObjectStore.createStaging_eq_ok.mp hcreate
        simp only [hcreate, World.onDumps, Table.contains_insert, Bool.or_eq_true,
          decide_eq_true_eq, key_stagingFile] at h
        rcases h with rfl | h
        · exact absurd hrow hfree
        · exact h
  | dropImport dumpId =>
    simp only [step] at h
    split at h
    · exact h
    · simp only [World.onDumps, ObjectStore.contains_removeStaging, Bool.and_eq_true] at h
      exact h.2
  | appendSymbol | syncAndCloseSymbol =>
    simpa only [step, World.dumps_onSymbols] using h
  | reopen => exact ObjectStore.contains_reopen.symm.trans h

/-- A dump is quarantined by `MarkQuarantined`, which found no staging file. -/
theorem quarantined_of_run {sha256 : Bytes → Sha256} {op : LedgerOp} {event : EventIdentity}
    {l l' : SqliteLedger} {r : LedgerResult} (h : op.run sha256 event l = .ok (r, l'))
    {d : DumpRow} (hd : d ∈ l'.dumps) (hphase : d.phase = .quarantined) :
    (d ∈ l.dumps ∨ op = .markQuarantined d.dumpId) := by
  have hch := (run_changes h).dumps
  generalize l'.dumps = dumps at hch hd
  cases hch with
  | same => exact Or.inl hd
  | inserted row _ hnew _ =>
    rcases Table.mem_insert.mp hd with hd | rfl
    · exact Or.inl hd
    · cases hnew with
      | received => cases hphase
      | staged => cases hphase
      | @tombstone record _ =>
        have hp : record.phase.phase = .quarantined := hphase
        cases hrecord : record.phase <;> rw [hrecord] at hp <;> cases hp
  | moved d₀ m hop hd₀ hguard =>
    rcases (Table.mem_updateKey hd₀).mp hd with rfl | ⟨hd, -⟩
    · rw [DumpMove.apply_dumpId]
      cases m with
      | markQuarantined =>
        cases op <;> cases hop
        exact Or.inr rfl
      | recordPromoted =>
        have hp : d₀.phase = .quarantined := hphase
        simp [DumpMove.guard, hp] at hguard
      | setRetention purgeAt =>
        have hp : d₀.phase = .quarantined := hphase
        simp [DumpMove.guard, hp] at hguard
      | _ => cases hphase
    · exact Or.inl hd

/-- What `MarkQuarantined` looked at before its transaction. -/
theorem planMarkQuarantined_ok_cases {occurredAt : IsoTimestamp} {dumpId : String} {p : Plan}
    (h : planMarkQuarantined host w occurredAt dumpId = .ok p) :
    ∃ id, p.ledger = some (.markQuarantined id) ∧
      w.vaults.dumps.staging.contains id = false := by
  simp only [planMarkQuarantined, bind_eq_ok, pure_eq_ok, guardThat_eq_ok] at h
  obtain ⟨id, -, _, -, _, ⟨-, hstaging⟩, rfl⟩ := h
  exact ⟨id, rfl, hstaging⟩

/-- **A quarantined dump keeps its staging file away.** -/
theorem sealedOff_step (hw : SealedOff w) (hcond : DrawsNewDumps w e) :
    SealedOff (step options w e) := by
  intro d hd hphase
  by_contra hstaged
  have hstaged := Bool.eq_true_of_not_eq_false hstaged
  rcases step_ledger options w e with h | ⟨host, command, p, op, r, hc⟩
  · rw [h] at hd
    have hrow := Table.contains_of_find? (Table.find?_key hd)
    exact absurd ((hw d hd hphase).symm.trans (staging_of_step hcond hrow hstaged))
      Bool.false_ne_true
  · rcases quarantined_of_run hc.run hd hphase with hd | rfl
    · have hrow := Table.contains_of_find? (Table.find?_key hd)
      exact absurd ((hw d hd hphase).symm.trans (staging_of_step hcond hrow hstaged))
        Bool.false_ne_true
    · have haction := plan_action hc.plan hc.ledger
      cases command <;> cases haction
      next dumpId =>
        obtain ⟨t, -, hplan⟩ := plan_eq_ok.mp hc.plan
        obtain ⟨id, hop, hnone⟩ := planMarkQuarantined_ok_cases hplan
        rw [hc.ledger] at hop
        cases hop
        rw [hc.event] at hstaged hcond
        have hrow : w.ledger.dumps.contains d.dumpId = true := by
          have hrun := hc.run
          simp only [LedgerOp.run, LedgerOp.noResult_eq_ok, SqliteLedger.markQuarantined,
            SqliteLedger.transitionDump_eq_ok] at hrun
          obtain ⟨⟨d₀, _, hd₀, -⟩, -⟩ := hrun
          exact Table.contains_of_find? hd₀
        exact absurd (hnone.symm.trans (staging_of_step hcond hrow hstaged)) Bool.false_ne_true

theorem reached_sealedOff {events : List Event}
    (h : Along (step options) DrawsNewDumps World.fresh events) :
    SealedOff (reached options events) :=
  invariant_along (fun _ _ => sealedOff_step) (fun _ hd => absurd hd Table.not_mem_empty) h

end Before

/-! ## One dump -/

/-- One dump at most is changed, and no case or grant. -/
structure Only (w w' : World) (dumpId : DumpId) : Prop where
  rows : ∀ k, k ≠ dumpId → w'.ledger.dumps.find? k = w.ledger.dumps.find? k
  objects : ∀ k, k ≠ dumpId → ObjectStore.SameObjects w.vaults.dumps w'.vaults.dumps k
  cases : w'.ledger.cases = w.ledger.cases
  grants : w'.ledger.grants = w.ledger.grants

namespace Only

variable {w w' w'' : World} {dumpId : DumpId}

theorem refl (w : World) (dumpId : DumpId) : Only w w dumpId :=
  ⟨fun _ _ => rfl, fun _ _ => .refl _ _, rfl, rfl⟩

theorem trans (h : Only w w' dumpId) (h' : Only w' w'' dumpId) : Only w w'' dumpId :=
  ⟨fun k hk => (h'.rows k hk).trans (h.rows k hk),
    fun k hk => (h.objects k hk).trans (h'.objects k hk),
    h'.cases.trans h.cases, h'.grants.trans h.grants⟩

theorem of_moved {event : EventIdentity} {m : DumpMove}
    (h : MovedDump w.ledger w'.ledger event dumpId m)
    (hobjects : ∀ k, k ≠ dumpId → ObjectStore.SameObjects w.vaults.dumps w'.vaults.dumps k) :
    Only w w' dumpId := by
  refine ⟨fun k hk => ?_, hobjects, h.cases, h.grants⟩
  rw [h.dumps, Table.find?_updateKey_ne (Ne.symm hk)]

end Only

/-- A dump that recovery has nothing left to do for. -/
def Ended (w : World) (d : DumpRow) : Prop :=
  (d.phase = .available ∧ w.vaults.dumps.objects.contains d.dumpId = true) ∨
  (d.phase = .rejected ∧ w.vaults.dumps.staging.contains d.dumpId = false) ∨
  (d.phase = .deleted ∧ w.vaults.dumps.staging.contains d.dumpId = false ∧
    w.vaults.dumps.objects.contains d.dumpId = false)

/-- A dump that recovery can only report. -/
def Stuck (w : World) (d : DumpRow) : Prop :=
  (d.phase = .sealed ∧
    (w.vaults.dumps.staging.contains d.dumpId = w.vaults.dumps.objects.contains d.dumpId ∨
      (d.blobState ≠ .staging ∧
        (d.blobState ≠ .vault ∨ w.vaults.dumps.objects.contains d.dumpId = false)))) ∨
  (d.phase = .quarantined ∧ w.vaults.dumps.objects.contains d.dumpId = false)

theorem ended_congr {w w' : World} {d : DumpRow}
    (h : ObjectStore.SameObjects w.vaults.dumps w'.vaults.dumps d.dumpId) :
    Ended w' d ↔ Ended w d := by
  rw [Ended, Ended, h.contains.1, h.contains.2]

theorem stuck_congr {w w' : World} {d : DumpRow}
    (h : ObjectStore.SameObjects w.vaults.dumps w'.vaults.dumps d.dumpId) :
    Stuck w' d ↔ Stuck w d := by
  rw [Stuck, Stuck, h.contains.1, h.contains.2]

/-- What recovery needs to know of a dump that it has not come to yet. -/
structure Recoverable (w : World) (d : DumpRow) : Prop where
  row : w.ledger.dumps.find? d.dumpId = some d
  tracked : Tracked d
  sealedOff : d.phase = .quarantined → w.vaults.dumps.staging.contains d.dumpId = false
  closed : ∀ f, w.vaults.dumps.staging.find? d.dumpId = some f → f.isOpen = false

theorem Recoverable.of_only {w w' : World} {d : DumpRow} {dumpId : DumpId} (h : Recoverable w d)
    (ho : Only w w' dumpId) (hne : d.dumpId ≠ dumpId) : Recoverable w' d := by
  have hstaging := (ho.objects _ hne).1
  refine ⟨(ho.rows _ hne).trans h.row, h.tracked, fun hphase => ?_, fun f hf => ?_⟩
  · rw [Table.contains, hstaging]
    exact h.sealedOff hphase
  · exact h.closed f (hstaging.symm.trans hf)

/-- Recovery brought the dump `d` to an end, in at most `budget` calls. -/
structure Finished (hosts : Nat → Host) (limit budget : Nat) (m m' : Machine) (d : DumpRow) :
    Prop where
  only : Only m.world m'.world d.dumpId
  ready : Ready hosts limit m'
  calls : m'.calls ≤ m.calls + budget
  ended : ∃ d', m'.world.ledger.dumps.find? d.dumpId = some d' ∧ d'.caseId = d.caseId ∧
    Ended m'.world d'

/-- An alarm about the dump `dumpId`. -/
def Alarmed (dumpId : DumpId) (actions : List ReconciliationAction) : Prop :=
  ∃ a ∈ actions, a.dumpId = dumpId ∧ a.outcome = .integrityAlarm

/-- What recovery makes of the dump `d`: it goes on with it to an end, or leaves it. -/
inductive Brought (hosts : Nat → Host) (limit : Nat) (m m' : Machine) (d : DumpRow)
    (actions : List ReconciliationAction) : Prop
  | finished (hstuck : ¬ Stuck m.world d) (h : Finished hosts limit 4 m m' d)
  | reported (hstuck : Stuck m.world d) (halarm : Alarmed d.dumpId actions) (hsame : m' = m)

section OneDump

variable {options : EngineOptions} {hosts : Nat → Host} {limit : Nat} {m : Machine} {d : DumpRow}
  {inspector : Option Bytes → InspectionOutcome}

theorem wp_executeRequired {command : Command} {dumpId : DumpId} {mv : DumpMove} {w' : World}
    {Q : Unit → Machine → Prop} {E : Thrown → Machine → Prop}
    (hx : ExecutedMove options (hosts m.calls) m.world command dumpId mv w') :
    Prog.wp (executeRequired options hosts command) Q E m ↔ Q () ⟨w', m.calls + 1⟩ := by
  obtain ⟨receipt, hexec⟩ := hx.executes
  rw [executeRequired, Prog.wp_bind, wp_engineExecute hexec, requireSuccess, Prog.wp_pure]

/-- The row a move leaves. -/
theorem ExecutedMove.row {command : Command} {mv : DumpMove} {host : Host} {w w' : World}
    (hx : ExecutedMove options host w command d.dumpId mv w')
    (hd : w.ledger.dumps.find? d.dumpId = some d) :
    ∃ t, w'.ledger.dumps.find? d.dumpId = some (mv.apply t d) := by
  obtain ⟨t, hmoved⟩ := hx.moved
  exact ⟨t, by rw [hmoved.dumps, Table.find?_updateKey_self hd]⟩

theorem ExecutedMove.only {command : Command} {mv : DumpMove} {host : Host} {w w' : World}
    {dumpId : DumpId} (hx : ExecutedMove options host w command dumpId mv w')
    (hobjects : ∀ k, k ≠ dumpId → ObjectStore.SameObjects w.vaults.dumps w'.vaults.dumps k) :
    Only w w' dumpId := by
  obtain ⟨t, hmoved⟩ := hx.moved
  exact Only.of_moved hmoved hobjects

/-- A removal under the dump's identifier that recovery makes itself. -/
theorem only_removed {w : World} {dumpId : DumpId} {dumps : ObjectStore DumpId}
    (hobjects : ∀ k, k ≠ dumpId → ObjectStore.SameObjects w.vaults.dumps dumps k) :
    Only w { w with vaults := { w.vaults with dumps } } dumpId :=
  ⟨fun _ _ => rfl, hobjects, rfl, rfl⟩

theorem Finished.after {m' m'' : Machine} {d' : DumpRow} {budget : Nat}
    (h : Finished hosts limit budget m' m'' d') (ho : Only m.world m'.world d.dumpId)
    (hcalls : m'.calls = m.calls + 1) (hid : d'.dumpId = d.dumpId)
    (hcase : d'.caseId = d.caseId) : Finished hosts limit (budget + 1) m m'' d := by
  obtain ⟨e, he, hecase, hended⟩ := h.ended
  have hbudget := h.calls
  rw [hid] at he
  exact ⟨ho.trans (hid ▸ h.only), h.ready, by omega, e, he, hecase.trans hcase, hended⟩

theorem Finished.mono {m' : Machine} {budget : Nat} (h : Finished hosts limit budget m m' d)
    (hbudget : budget ≤ 4) : Finished hosts limit 4 m m' d :=
  ⟨h.only, h.ready, Nat.le_trans h.calls (Nat.add_le_add_left hbudget _), h.ended⟩

/-- An inspection brings a quarantined dump to an end, whatever its bytes are. -/
theorem inspectQuarantined_wp (options : EngineOptions) (hs : Steady hosts inspector) (hr : Ready hosts limit m)
    (hcalls : m.calls + 2 ≤ limit)
    (hd : m.world.ledger.dumps.find? d.dumpId = some d) (hphase : d.phase = .quarantined)
    (hblob : d.blobState = .vault) (hsha : d.sha256.isSome = true)
    (hobject : m.world.vaults.dumps.objects.contains d.dumpId = true)
    (hstaging : m.world.vaults.dumps.staging.contains d.dumpId = false) :
    Prog.wp (inspectQuarantined options hosts d.dumpId) (fun _ m' => Finished hosts limit 2 m m' d)
      (fun _ _ => False) m := by
  have hu := hr.undisturbed hs (by omega)
  rw [inspectQuarantined, Prog.wp_bind]
  cases hout : inspector (m.world.vaults.dumps.object? d.dumpId) with
  | accepted coverage facts =>
    obtain ⟨l', hx⟩ := execute_acceptDump options hu hr.linked hd hphase hblob hsha
      (hs.inspection.trans hout)
    obtain ⟨receipt, hexec⟩ := hx.executes
    obtain ⟨t, hrow⟩ := hx.row hd
    rw [wp_engineExecute hexec, Prog.wp_pure]
    exact ⟨hx.only fun _ _ => .refl _ _, hr.move hx, by simp, _, hrow, rfl, Or.inl ⟨rfl, hobject⟩⟩
  | rejected error =>
    obtain ⟨message, hexec⟩ := execute_acceptDump_rejected options hu hd hphase
      (hs.inspection.trans hout)
    rw [wp_engineExecute hexec]
    -- the refusal is the one of the inspection, so the dump is rejected in a second call
    have hr' : Ready hosts limit ⟨m.world, m.calls + 1⟩ := hr.call (v := m.world.vaults)
    obtain ⟨l', hx⟩ := execute_rejectDump options (hr'.undisturbed hs (by simp only; omega)) hr'.linked hd
      hphase hblob (hs.inspection.trans hout)
    obtain ⟨receipt, hexec'⟩ := hx.executes
    obtain ⟨t, hrow⟩ := hx.row hd
    simp only [ne_eq, not_true_eq_false, if_false, Prog.wp_bind, Prog.wp_pure]
    rw [wp_engineExecute hexec', requireSuccess, Prog.wp_pure]
    exact ⟨hx.only fun _ _ => .refl _ _, hr'.move hx, by simp, _, hrow, rfl,
      Or.inr (Or.inl ⟨rfl, hstaging⟩)⟩

/-! ### Phase by phase -/

/-- The two calls that end a dump whose object is in the vault. -/
theorem quarantine_wp (options : EngineOptions) (hs : Steady hosts inspector) (hr : Ready hosts limit m)
    (hcalls : m.calls + 3 ≤ limit)
    (hd : m.world.ledger.dumps.find? d.dumpId = some d) (hphase : d.phase = .sealed)
    (hblob : d.blobState = .vault) (hsha : d.sha256.isSome = true)
    (hobject : m.world.vaults.dumps.objects.contains d.dumpId = true)
    (hstaging : m.world.vaults.dumps.staging.contains d.dumpId = false) :
    Prog.wp
      (do
        executeRequired options hosts (.markQuarantined d.dumpId.text)
        inspectQuarantined options hosts d.dumpId)
      (fun _ m' => Finished hosts limit 3 m m' d) (fun _ _ => False) m := by
  obtain ⟨l', hx⟩ := execute_markQuarantined options (hr.undisturbed hs (by omega)) hr.linked hd
    hphase hblob hsha hobject hstaging
  obtain ⟨t, hrow⟩ := hx.row hd
  rw [Prog.wp_bind, wp_executeRequired hx]
  have hend := inspectQuarantined_wp options (d := DumpMove.markQuarantined.apply t d)
    hs (hr.move hx) (by simp only; omega) hrow rfl hblob hsha hobject hstaging
  exact Prog.wp_mono hend
    (fun _ _ h => h.after (hx.only fun _ _ => .refl _ _) rfl rfl rfl) fun _ _ he => he

/-- A promotion of the one object a dump has, wherever it is. -/
theorem promote_sealed {s : ObjectStore DumpId} {dumpId : DumpId}
    (hone : s.staging.contains dumpId ≠ s.objects.contains dumpId)
    (hclosed : ∀ f, s.staging.find? dumpId = some f → f.isOpen = false) :
    ∃ s', s.promote dumpId = .ok s' ∧ s'.objects.contains dumpId = true ∧
      s'.staging.contains dumpId = false := by
  cases hf : s.staging.find? dumpId with
  | none =>
    have hstaging := Table.contains_eq_false.mpr hf
    have hobject : s.objects.contains dumpId = true := by
      simpa [hstaging] using hone
    exact ⟨s, ObjectStore.promote_eq_ok.mpr (Or.inl ⟨hf, hobject, rfl⟩), hobject, hstaging⟩
  | some f =>
    have hobject : s.objects.contains dumpId = false := by
      simpa [Table.contains_of_find? hf] using hone
    refine ⟨_, ObjectStore.promote_eq_ok.mpr (Or.inr ⟨f, hf, hclosed f hf,
      Table.contains_eq_false.mp hobject, rfl⟩), ?_, ?_⟩
    · simp
    · simp [ObjectStore.contains_removeStaging]

theorem finishPurge_wp (options : EngineOptions) (hs : Steady hosts inspector) (hr : Ready hosts limit m)
    (hcalls : m.calls + 1 ≤ limit)
    (hd : m.world.ledger.dumps.find? d.dumpId = some d) (hphase : d.phase = .deleting) :
    Prog.wp (executeRequired options hosts (.finishPurge d.dumpId.text))
      (fun _ m' => Finished hosts limit 1 m m' d) (fun _ _ => False) m := by
  obtain ⟨l', hx⟩ := execute_finishPurge options (hr.undisturbed hs (by omega)) hr.linked hd
    hphase
  obtain ⟨t, hrow⟩ := hx.row hd
  rw [wp_executeRequired hx]
  exact ⟨hx.only fun _ hk => ObjectStore.sameObjects_remove hk, hr.move hx, by simp, _, hrow, rfl,
    Or.inr (Or.inr ⟨rfl, by simp [ObjectStore.contains_removeStaging],
      by simp [ObjectStore.contains_remove]⟩)⟩

theorem reconcileSealed_wp (hs : Steady hosts inspector) (hr : Ready hosts limit m)
    (hcalls : m.calls + 4 ≤ limit)
    (hd : Recoverable m.world d) (hphase : d.phase = .sealed) :
    Prog.wp (reconcileSealed options hosts d (m.world.vaults.dumps.inspectPresence d.dumpId))
      (fun actions m' => Brought hosts limit m m' d actions) (fun _ _ => False) m := by
  obtain ⟨hblob, hsha, -⟩ := hd.tracked.sealed hphase
  simp only [reconcileSealed]
  by_cases hone : (m.world.vaults.dumps.inspectPresence d.dumpId).staging =
      (m.world.vaults.dumps.inspectPresence d.dumpId).vault
  · rw [if_pos hone, Prog.wp_pure]
    exact .reported (Or.inl ⟨hphase, Or.inl hone⟩) ⟨_, List.mem_singleton_self _, rfl, rfl⟩ rfl
  rw [if_neg hone]
  change ¬ m.world.vaults.dumps.staging.contains d.dumpId =
    m.world.vaults.dumps.objects.contains d.dumpId at hone
  rcases hblob with hblob | hblob
  · rw [if_pos hblob, Prog.wp_bind]
    obtain ⟨s, hpromote, hobject, hstaging⟩ := promote_sealed hone hd.closed
    obtain ⟨l', hx⟩ := execute_promoteObject options (hr.undisturbed hs (by omega)) hr.linked
      hd.row hphase hblob hpromote
    obtain ⟨t, hrow⟩ := hx.row hd.row
    rw [wp_executeRequired hx]
    have hend := quarantine_wp options (d := DumpMove.recordPromoted.apply t d) hs
      (hr.move hx) (by simp only; omega) hrow hphase rfl hsha hobject hstaging
    simp only [Prog.wp_bind] at hend ⊢
    refine Prog.wp_mono hend (fun _ _ h => Prog.wp_mono h (fun _ _ h => ?_) fun _ _ he => he)
      fun _ _ he => he
    rw [Prog.wp_pure]
    refine .finished ?_ (h.after (hx.only fun _ hk => ObjectStore.sameObjects_promote hpromote hk)
      rfl rfl rfl)
    simp [Stuck, hphase, hone, hblob]
  · have hobject : m.world.vaults.dumps.objects.contains d.dumpId = true ∨
        m.world.vaults.dumps.objects.contains d.dumpId = false := by
      cases m.world.vaults.dumps.objects.contains d.dumpId <;> simp
    rw [if_neg (by simp [hblob])]
    rcases hobject with hobject | hobject
    · rw [if_neg (by simp [hblob, ObjectStore.inspectPresence, hobject])]
      have hstaging : m.world.vaults.dumps.staging.contains d.dumpId = false := by
        simpa [hobject] using hone
      have hend := quarantine_wp options hs hr (by omega) hd.row hphase hblob hsha hobject
        hstaging
      simp only [Prog.wp_bind] at hend ⊢
      refine Prog.wp_mono hend (fun _ _ h => Prog.wp_mono h (fun _ _ h => ?_) fun _ _ he => he)
        fun _ _ he => he
      rw [Prog.wp_pure]
      refine .finished ?_ (h.mono (by decide))
      simp [Stuck, hphase, hblob, hobject, hstaging]
    · have habsent : (m.world.vaults.dumps.inspectPresence d.dumpId).vault = false := hobject
      rw [if_pos (Or.inr habsent), Prog.wp_pure]
      refine .reported (Or.inl ⟨hphase, Or.inr ⟨?_, Or.inr hobject⟩⟩)
        ⟨_, List.mem_singleton_self _, rfl, rfl⟩ rfl
      simp [hblob]

/-- **What a pass does to one dump**, phase by phase. -/
theorem reconcileDump_wp (hs : Steady hosts inspector) (hr : Ready hosts limit m)
    (hcalls : m.calls + 4 ≤ limit)
    (hd : Recoverable m.world d) :
    Prog.wp (reconcileDump options hosts d) (fun actions m' => Brought hosts limit m m' d actions)
      (fun _ _ => False) m := by
  have hobject : m.world.vaults.dumps.objects.contains d.dumpId = true ∨
      m.world.vaults.dumps.objects.contains d.dumpId = false := by
    cases m.world.vaults.dumps.objects.contains d.dumpId <;> simp
  rw [reconcileDump, Prog.wp_bind, Prog.wp_gets]
  cases hphase : d.phase with
  | receiving =>
    have hr' := hr.call (v := { m.world.vaults with
      dumps := m.world.vaults.dumps.removeStaging d.dumpId })
    obtain ⟨l', hx⟩ := execute_failUpload options (hr'.undisturbed hs (by simp only; omega)) hr'.linked
      hd.row hphase
    obtain ⟨t, hrow⟩ := hx.row hd.row
    simp only [Prog.wp_bind]
    rw [wp_vaultPerform (hs.storage _) rfl, wp_executeRequired hx, Prog.wp_pure]
    refine .finished (by simp [Stuck, hphase]) ⟨?_, hr'.move hx, by simp, _, hrow, rfl, ?_⟩
    · exact (only_removed fun _ hk => ObjectStore.sameObjects_removeStaging hk).trans
        (hx.only fun _ hk => ObjectStore.sameObjects_removeStaging hk)
    · exact Or.inr (Or.inl ⟨rfl, by simp [ObjectStore.contains_removeStaging]⟩)
  | «sealed» => exact reconcileSealed_wp hs hr hcalls hd hphase
  | quarantined =>
    obtain ⟨hblob, hsha, -⟩ := hd.tracked.quarantined hphase
    rcases hobject with hobject | hobject
    · simp only [ObjectStore.inspectPresence, hobject, Bool.true_eq_false, if_false, Prog.wp_bind]
      refine Prog.wp_mono (inspectQuarantined_wp options hs hr (by omega) hd.row hphase hblob hsha hobject
        (hd.sealedOff hphase)) (fun _ _ h => ?_) fun _ _ he => he
      exact .finished (by simp [Stuck, hphase, hobject]) (h.mono (by decide))
    · simp only [ObjectStore.inspectPresence, hobject, if_true, Prog.wp_pure]
      exact .reported (Or.inr ⟨hphase, hobject⟩) ⟨_, List.mem_singleton_self _, rfl, rfl⟩ rfl
  | available =>
    rcases hobject with hobject | hobject
    · simp only [ObjectStore.inspectPresence, hobject, Bool.true_eq_false, if_false, Prog.wp_pure]
      exact .finished (by simp [Stuck, hphase])
        ⟨.refl _ _, hr, by simp, d, hd.row, rfl, Or.inl ⟨hphase, hobject⟩⟩
    · simp only [ObjectStore.inspectPresence, hobject, if_true, Prog.wp_bind]
      obtain ⟨l₁, hx₁⟩ := execute_beginPurge options (hr.undisturbed hs (by omega)) hr.linked
        hd.row (Or.inl hphase)
      obtain ⟨t₁, hrow₁⟩ := hx₁.row hd.row
      rw [wp_executeRequired hx₁]
      have hend := finishPurge_wp options (d := DumpMove.beginPurge.apply t₁ d) hs
        (hr.move hx₁) (by simp only; omega) hrow₁ rfl
      refine Prog.wp_mono hend (fun _ _ h => ?_) fun _ _ he => he
      exact .finished (by simp [Stuck, hphase]) ((h.after (hx₁.only fun _ _ => .refl _ _) rfl rfl rfl).mono (by decide))
  | rejected =>
    by_cases hstaging : m.world.vaults.dumps.staging.contains d.dumpId = true
    · simp only [ObjectStore.inspectPresence, hstaging, if_true, Prog.wp_bind]
      rw [wp_vaultPerform (hs.storage _) rfl, Prog.wp_pure]
      refine .finished (by simp [Stuck, hphase]) ⟨?_, hr.call, by simp, d, hd.row, rfl, ?_⟩
      · exact only_removed fun _ hk => ObjectStore.sameObjects_removeStaging hk
      · exact Or.inr (Or.inl ⟨hphase, by simp [ObjectStore.contains_removeStaging]⟩)
    · have habsent : (m.world.vaults.dumps.inspectPresence d.dumpId).staging ≠ true := hstaging
      simp only [if_neg habsent, Prog.wp_pure]
      exact .finished (by simp [Stuck, hphase]) ⟨.refl _ _, hr, by simp, d, hd.row, rfl,
        Or.inr (Or.inl ⟨hphase, Bool.eq_false_iff.mpr hstaging⟩)⟩
  | deleting =>
    simp only [Prog.wp_bind]
    refine Prog.wp_mono (finishPurge_wp options hs hr (by omega) hd.row hphase) (fun _ _ h => ?_) fun _ _ he => he
    exact .finished (by simp [Stuck, hphase]) (h.mono (by decide))
  | deleted =>
    by_cases hthere : m.world.vaults.dumps.staging.contains d.dumpId = true ∨
        m.world.vaults.dumps.objects.contains d.dumpId = true
    · simp only [ObjectStore.inspectPresence, hthere, if_true, Prog.wp_bind]
      rw [wp_vaultPerform (hs.storage _) rfl, Prog.wp_pure]
      refine .finished (by simp [Stuck, hphase]) ⟨?_, hr.call, by simp, d, hd.row, rfl, ?_⟩
      · exact only_removed fun _ hk => ObjectStore.sameObjects_remove hk
      · exact Or.inr (Or.inr ⟨hphase, by simp [ObjectStore.contains_removeStaging],
          by simp [ObjectStore.contains_remove]⟩)
    · simp only [ObjectStore.inspectPresence, hthere, if_false, Prog.wp_pure]
      rw [not_or, Bool.not_eq_true, Bool.not_eq_true] at hthere
      exact .finished (by simp [Stuck, hphase]) ⟨.refl _ _, hr, by simp, d, hd.row, rfl,
        Or.inr (Or.inr ⟨hphase, hthere⟩)⟩

end OneDump

/-! ## A whole pass -/

/-- A staging file without a dump is old enough to be removed. -/
def Aged (recovery : ReconciliationOptions) (f : StagingFile DumpId) : Prop :=
  recovery.orphanGraceMs ≤ recovery.nowMs - f.modifiedAt

/-- What the removal of the orphans among `done` makes of `m`. -/
structure Swept (hosts : Nat → Host) (limit : Nat) (recovery : ReconciliationOptions)
    (known : List DumpId) (m m' : Machine) (done : List DumpId) : Prop where
  ready : Ready hosts limit m'
  calls : m'.calls ≤ m.calls + done.length
  ledger : m'.world.ledger = m.world.ledger
  kept : ∀ k ∈ known, ObjectStore.SameObjects m.world.vaults.dumps m'.world.vaults.dumps k
  shrunk : ∀ f ∈ m'.world.vaults.dumps.staging, f ∈ m.world.vaults.dumps.staging
  young : ∀ f ∈ m'.world.vaults.dumps.staging, f.id ∈ done → f.id ∉ known → ¬ Aged recovery f

/-- How a pass from `m` left the dump `d` in `m'`. -/
def Settled (m m' : Machine) (actions : List ReconciliationAction) (d : DumpRow) : Prop :=
  ∃ d', m'.world.ledger.dumps.find? d.dumpId = some d' ∧ d'.caseId = d.caseId ∧
    ((¬ Stuck m.world d ∧ Ended m'.world d') ∨
      (Stuck m.world d ∧ d' = d ∧ Alarmed d.dumpId actions ∧
        ObjectStore.SameObjects m.world.vaults.dumps m'.world.vaults.dumps d.dumpId))

/-- What the pass over the dumps `done` makes of `m`. -/
structure Passed (hosts : Nat → Host) (limit : Nat) (m m' : Machine) (done : List DumpRow)
    (actions : List ReconciliationAction) : Prop where
  ready : Ready hosts limit m'
  calls : m'.calls ≤ m.calls + 4 * done.length
  cases : m'.world.ledger.cases = m.world.ledger.cases
  grants : m'.world.ledger.grants = m.world.ledger.grants
  rows : ∀ k, (∀ d ∈ done, d.dumpId ≠ k) →
    m'.world.ledger.dumps.find? k = m.world.ledger.dumps.find? k
  objects : ∀ k, (∀ d ∈ done, d.dumpId ≠ k) →
    ObjectStore.SameObjects m.world.vaults.dumps m'.world.vaults.dumps k
  settled : ∀ d ∈ done, Settled m m' actions d

section Pass

variable {options : EngineOptions} {hosts : Nat → Host} {limit : Nat} {m m' m'' : Machine}
  {recovery : ReconciliationOptions} {known : List DumpId}
  {inspector : Option Bytes → InspectionOutcome}

theorem removeOrphan_wp (hs : Steady hosts inspector) {done : List DumpId} {orphan : DumpId}
    (h : Swept hosts limit recovery known m m' done) :
    Prog.wp (removeOrphan hosts recovery known orphan)
      (fun _ m'' => Swept hosts limit recovery known m m'' (done ++ [orphan]))
      (fun _ _ => False) m' := by
  have hcalls := h.calls
  have hlength : (done ++ [orphan]).length = done.length + 1 := List.length_append
  -- a file that stays is known or young
  have hstays (hyoung : ∀ f ∈ m'.world.vaults.dumps.staging, f.id = orphan → f.id ∉ known →
      ¬ Aged recovery f) : Swept hosts limit recovery known m m' (done ++ [orphan]) := by
    refine { h with calls := by omega, young := fun f hf hdone hknown => ?_ }
    rcases List.mem_append.mp hdone with hdone | hdone
    · exact h.young f hf hdone hknown
    · exact hyoung f hf (List.mem_singleton.mp hdone) hknown
  rw [removeOrphan]
  by_cases hknown : orphan ∈ known
  · rw [if_pos hknown, Prog.wp_pure]
    exact hstays fun f _ hid hf => absurd (hid ▸ hknown) hf
  rw [if_neg hknown, Prog.wp_bind, Prog.wp_gets]
  cases hfind : m'.world.vaults.dumps.staging.find? orphan with
  | none =>
    simp only [ObjectStore.stagingModifiedAt, hfind, Option.map_none, Prog.wp_pure]
    exact hstays fun f hf hid => absurd hid (Table.find?_eq_none.mp hfind f hf)
  | some f₀ =>
    simp only [ObjectStore.stagingModifiedAt, hfind, Option.map_some]
    by_cases haged : recovery.orphanGraceMs ≤ recovery.nowMs - f₀.modifiedAt
    · rw [if_pos haged, Prog.wp_bind, wp_vaultPerform (hs.storage _) rfl, Prog.wp_pure]
      refine ⟨h.ready.call, by simp only; omega, h.ledger, fun k hk => ?_, fun f hf => ?_,
        fun f hf hdone hf' => ?_⟩
      · have hne : k ≠ orphan := fun he => hknown (he ▸ hk)
        exact (h.kept k hk).trans (ObjectStore.sameObjects_removeStaging hne)
      · exact h.shrunk f (ObjectStore.mem_removeStaging.mp hf).1
      · obtain ⟨hf, hne⟩ := ObjectStore.mem_removeStaging.mp hf
        rcases List.mem_append.mp hdone with hdone | hdone
        · exact h.young f hf hdone hf'
        · exact absurd (List.mem_singleton.mp hdone) hne
    · rw [if_neg haged, Prog.wp_pure]
      refine hstays fun f hf hid _ => ?_
      obtain rfl : f = f₀ :=
        Table.eq_of_key hf (Table.mem_of_find? hfind) (hid.trans (Table.key_of_find? hfind).symm)
      exact haged

theorem Settled.of_only {d : DumpRow} {actions more : List ReconciliationAction} {dumpId : DumpId}
    (h : Settled m m' actions d) (ho : Only m'.world m''.world dumpId) (hne : d.dumpId ≠ dumpId) :
    Settled m m'' (actions ++ more) d := by
  obtain ⟨d', hd', hcase, h⟩ := h
  have hid : d'.dumpId = d.dumpId := Table.key_of_find? hd'
  have hsame := ho.objects _ hne
  refine ⟨d', (ho.rows _ hne).trans hd', hcase, ?_⟩
  rcases h with ⟨hstuck, hended⟩ | ⟨hstuck, heq, ⟨a, ha, halarm⟩, hobjects⟩
  · exact Or.inl ⟨hstuck, (ended_congr (hid ▸ hsame)).mpr hended⟩
  · exact Or.inr ⟨hstuck, heq, ⟨a, List.mem_append_left _ ha, halarm⟩, hobjects.trans hsame⟩

/-- The next dump of a pass. -/
theorem Passed.brought {done : List DumpRow} {d : DumpRow}
    {actions more : List ReconciliationAction} (h : Passed hosts limit m m' done actions)
    (hd : m.world.ledger.dumps.find? d.dumpId = some d) (hnew : ∀ e ∈ done, e.dumpId ≠ d.dumpId)
    (hb : Brought hosts limit m' m'' d more) :
    Passed hosts limit m m'' (done ++ [d]) (actions ++ more) := by
  have hcalls := h.calls
  have hlength : (done ++ [d]).length = done.length + 1 := List.length_append
  have hstill := h.objects _ hnew
  have hout {k : DumpId} (hk : ∀ e ∈ done ++ [d], e.dumpId ≠ k) :
      (∀ e ∈ done, e.dumpId ≠ k) ∧ k ≠ d.dumpId :=
    ⟨fun e he => hk e (List.mem_append_left _ he),
      (hk d (List.mem_append_right _ (List.mem_singleton_self d))).symm⟩
  cases hb with
  | finished hstuck hf =>
    have hbudget := hf.calls
    obtain ⟨d', hd', hcase, hended⟩ := hf.ended
    refine ⟨hf.ready, by omega, hf.only.cases.trans h.cases, hf.only.grants.trans h.grants,
      fun k hk => ?_, fun k hk => ?_, fun e he => ?_⟩
    · obtain ⟨hk, hne⟩ := hout hk
      exact (hf.only.rows k hne).trans (h.rows k hk)
    · obtain ⟨hk, hne⟩ := hout hk
      exact (h.objects k hk).trans (hf.only.objects k hne)
    · rcases List.mem_append.mp he with he | he
      · exact (h.settled e he).of_only hf.only (hnew e he)
      · obtain rfl := List.mem_singleton.mp he
        exact ⟨d', hd', hcase, Or.inl ⟨mt (stuck_congr hstill).mpr hstuck, hended⟩⟩
  | reported hstuck halarm hsame =>
    subst hsame
    refine ⟨h.ready, by omega, h.cases, h.grants, fun k hk => h.rows k (hout hk).1,
      fun k hk => h.objects k (hout hk).1, fun e he => ?_⟩
    rcases List.mem_append.mp he with he | he
    · exact (h.settled e he).of_only (.refl _ _) (hnew e he)
    · obtain rfl := List.mem_singleton.mp he
      obtain ⟨a, ha, halarm⟩ := halarm
      exact ⟨e, (h.rows _ hnew).trans hd, rfl, Or.inr ⟨(stuck_congr hstill).mp hstuck, rfl,
        ⟨a, List.mem_append_right _ ha, halarm⟩, hstill⟩⟩

/-- The calls a pass from `w` makes at most. -/
def passCalls (w : World) : Nat :=
  w.vaults.dumps.listStagingIds.length + 4 * w.ledger.dumps.sorted.length

variable (options recovery) in
/-- **A pass over a recoverable world** removes the orphans and then goes through the dumps. -/
theorem reconcile_wp (hs : Steady hosts inspector) (hr : Ready hosts limit m)
    (hcalls : m.calls + passCalls m.world ≤ limit)
    (hd : ∀ d ∈ m.world.ledger.dumps, Recoverable m.world d) :
    Prog.wp (reconcile options hosts recovery)
      (fun actions m'' => ∃ m' orphans rest, actions = orphans ++ rest ∧
        Swept hosts limit recovery (m.world.ledger.dumps.sorted.map DumpRow.dumpId) m m'
          m.world.vaults.dumps.listStagingIds ∧
        Passed hosts limit m' m'' m.world.ledger.dumps.sorted rest)
      (fun _ _ => False) m := by
  simp only [reconcile, Prog.wp_bind, Prog.wp_gets, Prog.wp_pure]
  have hnodup : (m.world.ledger.dumps.sorted.map DumpRow.dumpId).Nodup :=
    Table.sorted_keys_nodup _
  have hmem {d : DumpRow} : d ∈ m.world.ledger.dumps.sorted ↔ d ∈ m.world.ledger.dumps :=
    Table.mem_sorted
  rw [passCalls] at hcalls
  generalize m.world.ledger.dumps.sorted = initial at hnodup hmem hcalls ⊢
  have hsweep := Prog.wp_collect (s := m) (E := fun _ _ => False)
    (f := removeOrphan hosts recovery (initial.map DumpRow.dumpId))
    (I := fun done _ m' => Swept hosts limit recovery (initial.map DumpRow.dumpId) m m' done)
    m.world.vaults.dumps.listStagingIds (fun _ _ _ _ _ _ h => removeOrphan_wp hs h)
    ⟨hr, Nat.le_refl _, rfl, fun _ _ => .refl _ _, fun _ h => h,
      fun _ _ h => absurd h List.not_mem_nil⟩
  refine Prog.wp_mono hsweep (fun orphans m' hswept => ?_) fun _ _ he => he
  have hrow {d : DumpRow} (hin : d ∈ initial) :
      m'.world.ledger.dumps.find? d.dumpId = some d := by
    rw [hswept.ledger]
    exact (hd d (hmem.mp hin)).row
  have hkept {d : DumpRow} (hin : d ∈ initial) : Recoverable m'.world d := by
    have hold := hd d (hmem.mp hin)
    have hsame := hswept.kept d.dumpId (List.mem_map_of_mem hin)
    exact ⟨hrow hin, hold.tracked, fun hp => hsame.contains.1.trans (hold.sealedOff hp),
      fun f hf => hold.closed f (hsame.1.symm.trans hf)⟩
  have hpass := Prog.wp_collect (E := fun _ _ => False) (f := reconcileDump options hosts)
    (I := fun done out m'' => Passed hosts limit m' m'' done out) initial
    (fun done d rest out m'' heq h => ?_)
    ⟨hswept.ready, Nat.le_refl _, rfl, rfl, fun _ _ => rfl, fun _ _ => .refl _ _,
      fun _ hd => absurd hd List.not_mem_nil⟩
  · exact Prog.wp_mono hpass (fun rest _ hp => ⟨m', orphans, rest, rfl, hswept, hp⟩)
      fun _ _ he => he
  -- one dump of the pass: none of those before it had its identifier
  have hin : d ∈ initial := by simp [heq]
  have hnew : ∀ e ∈ done, e.dumpId ≠ d.dumpId := by
    rw [heq, List.map_append, List.map_cons] at hnodup
    intro e he hid
    exact (List.nodup_append.mp hnodup).2.2 _ (List.mem_map_of_mem he) _
      (List.mem_cons_self ..) hid
  have hlength : initial.length = done.length + (rest.length + 1) := by
    rw [heq, List.length_append, List.length_cons]
  have h₁ := hswept.calls
  have h₂ := h.calls
  have hrec : Recoverable m''.world d := by
    have hold := hkept hin
    have hsame := h.objects _ hnew
    exact ⟨(h.rows _ hnew).trans hold.row, hold.tracked,
      fun hp => hsame.contains.1.trans (hold.sealedOff hp),
      fun f hf => hold.closed f (hsame.1.symm.trans hf)⟩
  exact Prog.wp_mono (reconcileDump_wp hs h.ready (by omega) hrec)
    (fun _ _ hb => h.brought (hrow hin) hnew hb) fun _ _ he => he

/-! ## A second pass -/

theorem removeOrphan_idle {orphan : DumpId}
    (h : ∀ f ∈ m.world.vaults.dumps.staging, f.id ∉ known → ¬ Aged recovery f) :
    Prog.wp (removeOrphan hosts recovery known orphan) (fun _ m' => m' = m) (fun _ _ => False)
      m := by
  rw [removeOrphan]
  by_cases hknown : orphan ∈ known
  · rw [if_pos hknown, Prog.wp_pure]
  rw [if_neg hknown, Prog.wp_bind, Prog.wp_gets]
  cases hfind : m.world.vaults.dumps.staging.find? orphan with
  | none => simp only [ObjectStore.stagingModifiedAt, hfind, Option.map_none, Prog.wp_pure]
  | some f =>
    have hid : f.id = orphan := Table.key_of_find? hfind
    have hyoung : ¬ recovery.orphanGraceMs ≤ recovery.nowMs - f.modifiedAt :=
      h f (Table.mem_of_find? hfind) (hid ▸ hknown)
    simp only [ObjectStore.stagingModifiedAt, hfind, Option.map_some, if_neg hyoung, Prog.wp_pure]

/-- A dump at its end, or one that can only be reported, is left alone. -/
theorem reconcileDump_idle {d : DumpRow} (h : Ended m.world d ∨ Stuck m.world d) :
    Prog.wp (reconcileDump options hosts d) (fun _ m' => m' = m) (fun _ _ => False) m := by
  rw [reconcileDump, Prog.wp_bind, Prog.wp_gets]
  have hpresence : m.world.vaults.dumps.inspectPresence d.dumpId =
      ⟨m.world.vaults.dumps.staging.contains d.dumpId,
        m.world.vaults.dumps.objects.contains d.dumpId⟩ := rfl
  rcases h with h | h
  · rcases h with ⟨hphase, hobject⟩ | ⟨hphase, hstaging⟩ | ⟨hphase, hstaging, hobject⟩
    · simp [hpresence, hphase, hobject]
    · simp [hpresence, hphase, hstaging]
    · simp [hpresence, hphase, hstaging, hobject]
  · rcases h with ⟨hphase, hone | ⟨hblob, hother⟩⟩ | ⟨hphase, hobject⟩
    · simp [hpresence, hphase, reconcileSealed, hone]
    · simp only [hphase, reconcileSealed]
      by_cases hone : (m.world.vaults.dumps.inspectPresence d.dumpId).staging =
          (m.world.vaults.dumps.inspectPresence d.dumpId).vault
      · rw [if_pos hone, Prog.wp_pure]
      · have hdisagree : d.blobState ≠ .vault ∨
            (m.world.vaults.dumps.inspectPresence d.dumpId).vault = false := hother
        rw [if_neg hone, if_neg hblob, if_pos hdisagree, Prog.wp_pure]
    · simp [hpresence, hphase, hobject]

theorem reconcile_idle
    (horphans : ∀ f ∈ m.world.vaults.dumps.staging,
      m.world.ledger.dumps.contains f.id = false → ¬ Aged recovery f)
    (hdumps : ∀ d ∈ m.world.ledger.dumps, Ended m.world d ∨ Stuck m.world d) :
    Prog.wp (reconcile options hosts recovery) (fun _ m' => m' = m) (fun _ _ => False) m := by
  simp only [reconcile, Prog.wp_bind, Prog.wp_gets, Prog.wp_pure]
  refine Prog.wp_mono (Prog.wp_collect (I := fun _ _ m' => m' = m) _ (fun _ _ _ _ m' _ he => ?_) rfl)
    (fun _ m' he => ?_) fun _ _ he => he
  · subst he
    refine removeOrphan_idle fun f hf hknown => horphans f hf (Bool.eq_false_iff.mpr fun hc => ?_)
    obtain ⟨d, hd, hid⟩ := Table.contains_iff.mp hc
    exact hknown (List.mem_map.mpr ⟨d, Table.mem_sorted.mpr hd, hid⟩)
  · subst he
    refine Prog.wp_collect (I := fun _ _ m'' => m'' = m') _ (fun done d rest _ m'' heq he => ?_) rfl
    subst he
    have hin : d ∈ m''.world.ledger.dumps := Table.mem_sorted.mp (by rw [heq]; simp)
    exact reconcileDump_idle (hdumps d hin)

end Pass

/-! ## The two passes -/

/-- What a pass from `w` to `w'` comes to, for the ledger and the vault. -/
structure Converged (w w' : World) (actions : List ReconciliationAction) : Prop where
  ended : ∀ d ∈ w'.ledger.dumps,
    (d.phase = .available ∨ d.phase = .rejected ∨ d.phase = .deleted) ∨
      (d ∈ w.ledger.dumps ∧ Stuck w d)
  left : ∀ d ∈ w.ledger.dumps, Stuck w d →
    d ∈ w'.ledger.dumps ∧
      ObjectStore.SameObjects w.vaults.dumps w'.vaults.dumps d.dumpId ∧
        Alarmed d.dumpId actions
  available : ∀ d ∈ w'.ledger.dumps, d.phase = .available →
    w'.vaults.dumps.objects.contains d.dumpId = true
  grants : w'.ledger.grants = w.ledger.grants
  cases : w'.ledger.cases = w.ledger.cases
  links : ∀ dumpId, (w'.ledger.dumps.find? dumpId).map DumpRow.caseId =
    (w.ledger.dumps.find? dumpId).map DumpRow.caseId

section Converge

variable {hosts : Nat → Host} {limit : Nat} {m m' m'' : Machine}
  {recovery : ReconciliationOptions} {orphans rest : List ReconciliationAction}

variable (orphans) in
/-- The two halves of a pass, for one dump. -/
theorem settled_of_pass
    (hswept : Swept hosts limit recovery (m.world.ledger.dumps.sorted.map DumpRow.dumpId) m m'
      m.world.vaults.dumps.listStagingIds)
    (hpassed : Passed hosts limit m' m'' m.world.ledger.dumps.sorted rest) {d : DumpRow}
    (hd : d ∈ m.world.ledger.dumps) : Settled m m'' (orphans ++ rest) d := by
  have hin := Table.mem_sorted.mpr hd
  have hsame := hswept.kept d.dumpId (List.mem_map_of_mem hin)
  obtain ⟨d', hd', hcase, h⟩ := hpassed.settled d hin
  refine ⟨d', hd', hcase, ?_⟩
  rw [stuck_congr hsame] at h
  rcases h with h | ⟨hstuck, heq, ⟨a, ha, halarm⟩, hobjects⟩
  · exact Or.inl h
  · exact Or.inr ⟨hstuck, heq, ⟨a, List.mem_append_right _ ha, halarm⟩, hsame.trans hobjects⟩

/-- A pass adds no dump. -/
theorem row_of_pass (hledger : m'.world.ledger = m.world.ledger)
    (hpassed : Passed hosts limit m' m'' m.world.ledger.dumps.sorted rest) {d' : DumpRow}
    (hd' : d' ∈ m''.world.ledger.dumps) :
    ∃ d ∈ m.world.ledger.dumps, d.dumpId = d'.dumpId := by
  by_contra hnone
  push Not at hnone
  have hrow := hpassed.rows d'.dumpId fun d hd => hnone d (Table.mem_sorted.mp hd)
  have hfind : m''.world.ledger.dumps.find? d'.dumpId = some d' := Table.find?_key hd'
  rw [hledger, hfind] at hrow
  exact hnone d' (Table.mem_of_find? hrow.symm) rfl

theorem converged_of_pass
    (hswept : Swept hosts limit recovery (m.world.ledger.dumps.sorted.map DumpRow.dumpId) m m'
      m.world.vaults.dumps.listStagingIds)
    (hpassed : Passed hosts limit m' m'' m.world.ledger.dumps.sorted rest) :
    Converged m.world m''.world (orphans ++ rest) := by
  have hback {d' : DumpRow} (hd' : d' ∈ m''.world.ledger.dumps) :
      ∃ d ∈ m.world.ledger.dumps, d.dumpId = d'.dumpId ∧ d'.caseId = d.caseId ∧
        ((¬ Stuck m.world d ∧ Ended m''.world d') ∨ (Stuck m.world d ∧ d' = d)) := by
    obtain ⟨d, hd, hid⟩ := row_of_pass hswept.ledger hpassed hd'
    obtain ⟨e, he, hcase, h⟩ := settled_of_pass orphans hswept hpassed hd
    rw [hid, show m''.world.ledger.dumps.find? d'.dumpId = some d' from Table.find?_key hd',
      Option.some.injEq] at he
    subst he
    exact ⟨d, hd, hid, hcase, h.imp id fun h => ⟨h.1, h.2.1⟩⟩
  refine ⟨fun d' hd' => ?_, fun d hd hstuck => ?_, fun d' hd' hphase => ?_, ?_, ?_,
    fun dumpId => ?_⟩
  · obtain ⟨d, hd, -, -, ⟨-, hended⟩ | ⟨hstuck, rfl⟩⟩ := hback hd'
    · rcases hended with ⟨h, -⟩ | ⟨h, -⟩ | ⟨h, -⟩
      · exact Or.inl (Or.inl h)
      · exact Or.inl (Or.inr (Or.inl h))
      · exact Or.inl (Or.inr (Or.inr h))
    · exact Or.inr ⟨hd, hstuck⟩
  · obtain ⟨d', hd', -, ⟨hfree, -⟩ | ⟨-, rfl, halarm, hobjects⟩⟩ :=
      settled_of_pass orphans hswept hpassed hd
    · exact absurd hstuck hfree
    · exact ⟨Table.mem_of_find? hd', hobjects, halarm⟩
  · obtain ⟨d, hd, -, -, ⟨-, hended⟩ | ⟨hstuck, rfl⟩⟩ := hback hd'
    · rcases hended with ⟨-, hobject⟩ | ⟨h, -⟩ | ⟨h, -⟩
      · exact hobject
      · exact nomatch hphase.symm.trans h
      · exact nomatch hphase.symm.trans h
    · rcases hstuck with ⟨h, -⟩ | ⟨h, -⟩ <;> exact nomatch hphase.symm.trans h
  · rw [hpassed.grants, hswept.ledger]
  · rw [hpassed.cases, hswept.ledger]
  · cases hfind : m.world.ledger.dumps.find? dumpId with
    | some d =>
      obtain rfl : d.dumpId = dumpId := Table.key_of_find? hfind
      obtain ⟨d', hd', hcase, -⟩ :=
        settled_of_pass orphans hswept hpassed (Table.mem_of_find? hfind)
      rw [hd', Option.map_some, Option.map_some, hcase]
    | none =>
      have hnone := Table.find?_eq_none.mp hfind
      rw [hpassed.rows dumpId fun d hd => hnone d (Table.mem_sorted.mp hd), hswept.ledger, hfind]

/-- What a pass leaves, a second one finds nothing to do in. -/
theorem idle_of_pass
    (hswept : Swept hosts limit recovery (m.world.ledger.dumps.sorted.map DumpRow.dumpId) m m'
      m.world.vaults.dumps.listStagingIds)
    (hpassed : Passed hosts limit m' m'' m.world.ledger.dumps.sorted rest)
    (options : EngineOptions) (hosts' : Nat → Host) (calls : Nat) :
    Prog.wp (reconcile options hosts' recovery) (fun _ m₂ => m₂ = ⟨m''.world, calls⟩)
      (fun _ _ => False) ⟨m''.world, calls⟩ := by
  refine reconcile_idle (fun f hf hunknown => ?_) fun d' hd' => ?_
  · have hnone : ∀ d ∈ m.world.ledger.dumps.sorted, d.dumpId ≠ f.id := by
      intro d hd hid
      obtain ⟨d', hd', -⟩ := hpassed.settled d hd
      rw [hid] at hd'
      exact Bool.false_ne_true (hunknown.symm.trans (Table.contains_of_find? hd'))
    have hf' : m'.world.vaults.dumps.staging.find? f.id = some f :=
      (hpassed.objects _ hnone).1.symm.trans (Table.find?_key hf)
    have hmem := Table.mem_of_find? hf'
    refine hswept.young f hmem ?_ fun hknown => ?_
    · exact List.mem_map_of_mem (Table.mem_sorted.mpr (hswept.shrunk f hmem))
    · obtain ⟨d, hd, hid⟩ := List.mem_map.mp hknown
      exact hnone d hd hid
  · obtain ⟨d, hd, hid⟩ := row_of_pass hswept.ledger hpassed hd'
    obtain ⟨e, he, -, h⟩ := settled_of_pass [] hswept hpassed hd
    rw [hid, show m''.world.ledger.dumps.find? d'.dumpId = some d' from Table.find?_key hd',
      Option.some.injEq] at he
    subst he
    rcases h with ⟨-, hended⟩ | ⟨hstuck, rfl, -, hobjects⟩
    · exact Or.inl hended
    · exact Or.inr ((stuck_congr hobjects).mpr hstuck)

end Converge

section Crash

variable {options : EngineOptions} {events : List Event} {hosts : Nat → Host}
  {recovery : ReconciliationOptions} {inspector : Option Bytes → InspectionOutcome}

/-- Every dump of a reopened world can be recovered. -/
theorem recoverable_reopen (h : Along (step options) DrawsNewDumps World.fresh events) :
    ∀ d ∈ (reached options events).reopen.ledger.dumps,
      Recoverable (reached options events).reopen d := by
  intro d hd
  refine ⟨Table.find?_key hd, reached_tracked options events d hd, fun hphase => ?_,
    fun f hf => ?_⟩
  · exact ObjectStore.contains_reopen.trans (reached_sealedOff h d hd hphase)
  · obtain ⟨_, -, rfl⟩ := Option.map_eq_some_iff.mp (ObjectStore.find?_reopen.symm.trans hf)
    rfl

/-- **Recovery converges.** After any run, interrupted by crashes wherever they come, the
reopened instance is reconciled: the pass succeeds and brings every dump to an end or reports
it, and one more pass with the same clock changes nothing. -/
theorem reconcile_converges (h : Along (step options) DrawsNewDumps World.fresh events)
    (hs : Steady hosts inspector)
    (hevents : DrawsNewEvents hosts 0 (passCalls (reached options events).reopen)
      (reached options events).reopen.ledger) :
    ∃ actions m,
      reconcile options hosts recovery ⟨(reached options events).reopen, 0⟩ = (.ok actions, m) ∧
        Converged (reached options events).reopen m.world actions ∧
          ∀ hosts' calls, ∃ actions', reconcile options hosts' recovery ⟨m.world, calls⟩ =
            (.ok actions', ⟨m.world, calls⟩) := by
  have hready : Ready hosts (passCalls (reached options events).reopen)
      ⟨(reached options events).reopen, 0⟩ :=
    ⟨reached_linked events, hevents⟩
  have hpass := reconcile_wp options recovery hs hready
    (Nat.le_of_eq (Nat.zero_add _)) (recoverable_reopen h)
  obtain ⟨actions, m, hrun, m', orphans, rest, rfl, hswept, hpassed⟩ := Prog.wp_ok_iff.mp hpass
  refine ⟨_, m, hrun, converged_of_pass hswept hpassed, fun hosts' calls => ?_⟩
  obtain ⟨actions', _, hidle, rfl⟩ :=
    Prog.wp_ok_iff.mp (idle_of_pass hswept hpassed options hosts' calls)
  exact ⟨actions', hidle⟩

end Crash

namespace Sample

/-- The process dies after the bytes were promoted and before the ledger says so. -/
def crashedRun : List Event :=
  sealedRun ++
    [.command { host 5 with crash := true } (.promoteObject "dump_00000000000000000000000001")]

/-- The hosts of the process that is started next. -/
def restartHosts (n : Nat) : Host := host (Fin.ofNat 10 (n + 6))

theorem steady_restartHosts : Steady restartHosts fun _ => .rejected "not a minidump" :=
  ⟨fun _ => ⟨⟨"2026-01-01T00:00:00.000Z", by decide⟩, rfl⟩, fun _ => rfl, fun _ => rfl,
    fun _ => rfl, fun _ => rfl⟩

theorem restartHosts_distinct :
    ∀ j < 4, ∀ i < j, (restartHosts i).auditId ≠ (restartHosts j).auditId := by
  decide

end Sample

/-- A promotion that was interrupted is taken to its end. -/
theorem reconcile_converges_promotion :
    ∃ actions m,
      reconcile Sample.options Sample.restartHosts ⟨1767225600000, 3600000⟩
          ⟨(reached Sample.options Sample.crashedRun).reopen, 0⟩ = (.ok actions, m) ∧
        Converged (reached Sample.options Sample.crashedRun).reopen m.world actions ∧
          ∀ hosts' calls, ∃ actions',
            reconcile Sample.options hosts' ⟨1767225600000, 3600000⟩ ⟨m.world, calls⟩ =
              (.ok actions', ⟨m.world, calls⟩) := by
  have hcalls : passCalls (reached Sample.options Sample.crashedRun).reopen = 4 := by
    decide +kernel
  refine reconcile_converges ?_ Sample.steady_restartHosts ?_
  · refine ⟨trivial, trivial, trivial, ?_, trivial, trivial, trivial, trivial, trivial⟩
    show (run (step Sample.options) World.fresh (Sample.uploadRun.take 3)).ledger.dumps.contains
      (Sample.host 3).dumpId = false
    decide
  · rw [hcalls]
    refine ⟨fun n _ hn => ?_, fun i j _ hij hj => ?_⟩
    · have hfresh : ∀ n < 4, (reached Sample.options Sample.crashedRun).ledger.auditEvents.find?
          (Sample.restartHosts n).auditId = none := by
        decide
      exact hfresh n hn
    · exact Sample.restartHosts_distinct j hj i hij

end DumpLedger
