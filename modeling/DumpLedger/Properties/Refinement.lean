import DumpLedger.Properties.Failure
import DumpLedger.Specs.Complete

/-!
# The engine refines the intake specification

A command of the action table succeeds when the action is enabled in what `observe` sees of the
ledger, the expiry it is judged by has not passed and the vault holds what the action works on;
then it leaves the state the action leaves. Otherwise nothing is seen to happen.

The vault holds it whenever the run was orderly: no fault, no import, and every upload closed
before it is sealed.

* `Placed` — where the bytes of a dump on its way are
* `engine_refines` — along every run, but for an expiry whose text is out of order
-/

namespace DumpLedger

open Lib

/-! ## Where the bytes are -/

/-- The files of a dump, as its row wants them. -/
structure PlacedAt (row? : Option DumpRow) (s : ObjectStore DumpId) (d : DumpId) : Prop where
  free : row? = none → s.staging.find? d = none ∧ s.objects.find? d = none
  receiving : ∀ row ∈ row?, row.phase = .receiving →
    s.staging.contains d = true ∧ s.objects.find? d = none
  staged : ∀ row ∈ row?, row.phase = .sealed → row.blobState = .staging →
    (∃ f, s.staging.find? d = some f ∧ f.isOpen = false) ∧ s.objects.find? d = none
  promoted : ∀ row ∈ row?, row.phase = .sealed → row.blobState = .vault →
    s.objects.contains d = true ∧ s.staging.find? d = none

def Placed (w : World) : Prop :=
  ∀ d, PlacedAt (w.ledger.dumps.find? d) w.vaults.dumps d

/-- No fault and no import, and the bytes of an upload are closed before it is sealed. -/
def Orderly (w : World) : Event → Prop
  | .command host command =>
    host.Undisturbed w ∧ (∀ record, command ≠ .importDumpStaged record) ∧
      ∀ (d : DumpId) (byteSize : Int) (sha256 : String),
        command = .sealUpload d.text byteSize sha256 → w.vaults.dumps.hasOpenStaging d = false
  | .stageImport _ _ | .dropImport _ => False
  | _ => True

section Placement

variable {options : EngineOptions} {host : Host} {w : World} {command : Command}
  {row? : Option DumpRow} {row : DumpRow} {s s' : ObjectStore DumpId} {d : DumpId}

theorem PlacedAt.congr (h : PlacedAt row? s d) (hs : ObjectStore.SameObjects s s' d) :
    PlacedAt row? s' d := by
  obtain ⟨hstaging, hobjects⟩ := hs
  refine ⟨?_, ?_, ?_, ?_⟩ <;>
    simp only [Table.contains, hstaging, hobjects]
  · exact h.free
  · exact h.receiving
  · exact h.staged
  · exact h.promoted

/-- A dump that is past its seal is asked nothing. -/
theorem PlacedAt.settled (hreceiving : row.phase ≠ .receiving) (hsealed : row.phase ≠ .sealed) :
    PlacedAt (some row) s d := by
  refine ⟨fun h => ?_, fun r hr hp => ?_, fun r hr hp => ?_, fun r hr hp => ?_⟩
  · cases h
  · cases hr
    exact absurd hp hreceiving
  · cases hr
    exact absurd hp hsealed
  · cases hr
    exact absurd hp hsealed

/-- The vault holds what an enabled action works on. -/
theorem vaultReady_of_placed {action : Spec.Action} (hp : Placed w)
    (h : action.enabled w.ledger.observe) : VaultReady w action := by
  cases action with
  | beginUpload t d => exact ((hp d).free (Option.map_eq_none_iff.mp h.2.2.2.1)).1
  | sealUpload d =>
    obtain ⟨row, hd, hphase⟩ := dumpPhase_eq_some.mp h.1
    exact ((hp d).receiving row hd hphase).1
  | promoteObject d =>
    obtain ⟨row, hd, hphase⟩ := dumpPhase_eq_some.mp h.1
    obtain ⟨⟨f, hf, hclosed⟩, hobject⟩ :=
      (hp d).staged row hd hphase ((observe_row hd).2.2.1.symm.trans h.2)
    exact ⟨_, ObjectStore.promote_eq_ok.mpr (.inr ⟨f, hf, hclosed, hobject, rfl⟩)⟩
  | markQuarantined d =>
    obtain ⟨row, hd, hphase⟩ := dumpPhase_eq_some.mp h.1
    obtain ⟨hobject, hstaging⟩ :=
      (hp d).promoted row hd hphase ((observe_row hd).2.2.1.symm.trans h.2.1)
    exact ⟨hobject, Table.contains_eq_false.mpr hstaging⟩
  | _ => exact trivial

theorem placed_fresh : Placed .fresh := by
  intro d
  refine ⟨fun _ => ⟨rfl, rfl⟩, fun row h => ?_, fun row h => ?_, fun row h => ?_⟩ <;> cases h

/-! ### What a caller does to a staging file -/

/-- The staging file is where it was, and is closed if it was. -/
theorem PlacedAt.staging {f' : StagingFile DumpId → StagingFile DumpId}
    (hf : ∀ f : StagingFile DumpId, f.isOpen = false → (f' f).isOpen = false)
    (h : PlacedAt row? s d) (hstaging : s'.staging.find? d = (s.staging.find? d).map f')
    (hobjects : s'.objects.find? d = s.objects.find? d) : PlacedAt row? s' d := by
  refine ⟨fun hr => ?_, fun r hr hp => ?_, fun r hr hp hb => ?_, fun r hr hp hb => ?_⟩
  · rw [hstaging, hobjects, (h.free hr).1]
    exact ⟨rfl, (h.free hr).2⟩
  · rw [hobjects, Table.contains, hstaging, Option.isSome_map]
    exact h.receiving r hr hp
  · obtain ⟨⟨f, hfind, hclosed⟩, hobject⟩ := h.staged r hr hp hb
    rw [hobjects, hstaging, hfind]
    exact ⟨⟨f' f, rfl, hf f hclosed⟩, hobject⟩
  · obtain ⟨hobject, hnone⟩ := h.promoted r hr hp hb
    rw [hstaging, hnone, Table.contains, hobjects]
    exact ⟨hobject, rfl⟩

theorem placed_onDumps {x : Except Thrown (ObjectStore DumpId)} (hp : Placed w)
    (h : ∀ s', x = .ok s' → ∀ d, PlacedAt (w.ledger.dumps.find? d) s' d) :
    Placed (w.onDumps x) := by
  cases x with
  | error e => exact hp
  | ok s' => exact h s' rfl

theorem PlacedAt.updateStaging {id : DumpId} {f : StagingFile DumpId → StagingFile DumpId}
    {hf : ∀ file, (f file).id = file.id}
    (hclosed : ∀ file : StagingFile DumpId, file.isOpen = false → (f file).isOpen = false)
    (h : PlacedAt row? s d) : PlacedAt row? { s with staging := s.staging.updateKey id f hf } d := by
  have hfind : (s.staging.updateKey id f hf).find? d =
      (s.staging.find? d).map fun file => if decide (file.id = id) then f file else file :=
    Table.find?_update
  refine h.staging ?_ hfind rfl
  intro file hfile
  split
  · exact hclosed file hfile
  · exact hfile

theorem placed_append {nowMs : Int} {id : DumpId} {bytes : Bytes} (hp : Placed w) :
    Placed (w.onDumps (w.vaults.dumps.append nowMs id bytes)) := by
  refine placed_onDumps hp fun s' h d => ?_
  obtain ⟨f, -, -, rfl⟩ := ObjectStore.append_eq_ok.mp h
  exact (hp d).updateStaging fun _ hclosed => hclosed

theorem placed_syncAndClose {id : DumpId} (hp : Placed w) :
    Placed (w.onDumps (w.vaults.dumps.syncAndClose id)) := by
  refine placed_onDumps hp fun s' h d => ?_
  obtain ⟨f, -, rfl⟩ := ObjectStore.syncAndClose_eq_ok.mp h
  exact (hp d).updateStaging fun _ _ => rfl

theorem placed_reopen (hp : Placed w) : Placed w.reopen :=
  fun d => (hp d).staging (fun _ _ => rfl) ObjectStore.find?_reopen rfl

/-! ### What a command does -/

/-- A command that moves no dump and no file of one. -/
theorem placed_same {w' : World} (hp : Placed w) (hl : w'.ledger.dumps = w.ledger.dumps)
    (hs : ∀ d, ObjectStore.SameObjects w.vaults.dumps w'.vaults.dumps d) : Placed w' := by
  intro d
  rw [hl]
  exact (hp d).congr (hs d)

/-- A command that moves one dump, and works on no files but its. -/
theorem placed_moved {w' : World} {event : EventIdentity} {m : DumpMove} (hp : Placed w)
    (hd : w.ledger.dumps.find? row.dumpId = some row)
    (hl : w'.ledger.dumps = w.ledger.dumps.updateKey row.dumpId (m.apply event.occurredAt)
      (m.apply_dumpId event.occurredAt))
    (hs : ∀ d, d ≠ row.dumpId → ObjectStore.SameObjects w.vaults.dumps w'.vaults.dumps d)
    (h : PlacedAt (some (m.apply event.occurredAt row)) w'.vaults.dumps row.dumpId) :
    Placed w' := by
  intro d
  rw [hl]
  by_cases hne : d = row.dumpId
  · rw [hne, Table.find?_updateKey_self hd]
    exact h
  · rw [Table.find?_updateKey_ne (Ne.symm hne)]
    exact (hp d).congr (hs d hne)

/-- A move after which the dump is past its seal, or none of its files is asked for. -/
theorem placedAt_apply {now : IsoTimestamp} {m : DumpMove} (hguard : m.guard row = true)
    (hseal : ∀ n digest, m ≠ .sealUpload n digest) (hpromote : m ≠ .recordPromoted) :
    PlacedAt (some (m.apply now row)) s d := by
  have hphase : (m.apply now row).phase ≠ .receiving ∧ (m.apply now row).phase ≠ .sealed := by
    cases m with
    | sealUpload n digest => exact absurd rfl (hseal n digest)
    | recordPromoted => exact absurd rfl hpromote
    | setRetention purgeAt =>
      have hp : row.phase = .available ∨ row.phase = .rejected := by
        simpa [DumpMove.guard] using hguard
      rcases hp with hp | hp <;> simp [DumpMove.apply, hp]
    | _ => simp [DumpMove.apply]
  exact .settled hphase.1 hphase.2

/-- An upload whose staging file is closed. -/
theorem placedAt_sealUpload {now : IsoTimestamp} {n : Nat} {digest : Sha256}
    (h : PlacedAt (some row) s d) (hp : row.phase = .receiving) (hb : row.blobState = .staging)
    (hclosed : s.hasOpenStaging d = false) :
    PlacedAt (some ((DumpMove.sealUpload n digest).apply now row)) s d := by
  obtain ⟨hstaging, hobject⟩ := h.receiving row rfl hp
  obtain ⟨f, hf⟩ := Option.isSome_iff_exists.mp hstaging
  rw [ObjectStore.hasOpenStaging, hf] at hclosed
  refine ⟨fun h => ?_, fun r hr hp => ?_, fun r hr _ _ => ?_, fun r hr _ hv => ?_⟩
  · cases h
  · cases hr
    cases hp
  · exact ⟨⟨f, hf, hclosed⟩, hobject⟩
  · cases hr
    exact absurd (hb.symm.trans hv) (by decide)

/-- A transaction that brings no dump in and promotes none. -/
theorem placed_transaction {w' : World} {op : LedgerOp} {event : EventIdentity} {r : LedgerResult}
    {sha256 : Bytes → Sha256} (hp : Placed w) (htracked : ∀ row ∈ w.ledger.dumps, Tracked row)
    (hrun : op.run sha256 event w.ledger = .ok (r, w'.ledger))
    (hs : ∀ d, ObjectStore.SameObjects w.vaults.dumps w'.vaults.dumps d)
    (hnew : ∀ row, ¬NewDump op event row) (hpromote : ∀ d, op ≠ .recordPromoted d)
    (hseal : ∀ d n digest, op = .sealUpload d n digest → w.vaults.dumps.hasOpenStaging d = false) :
    Placed w' := by
  have hch := (run_changes hrun).dumps
  generalize hl : w'.ledger.dumps = dumps at hch
  cases hch with
  | same => exact placed_same hp hl hs
  | inserted row _ h _ => exact absurd h (hnew row)
  | moved row m hop hd hguard =>
    refine placed_moved hp hd hl (fun d _ => hs d) (PlacedAt.congr ?_ (hs row.dumpId))
    cases m with
    | sealUpload n digest =>
      have hphase : row.phase = .receiving := by simpa [DumpMove.guard] using hguard
      refine placedAt_sealUpload (hd ▸ hp row.dumpId) hphase
        ((htracked row (Table.mem_of_find? hd)).receiving hphase) (hseal row.dumpId n digest ?_)
      cases op <;> cases hop
      rfl
    | recordPromoted =>
      refine absurd ?_ (hpromote row.dumpId)
      cases op <;> cases hop
      rfl
    | _ => exact placedAt_apply hguard (by simp) (by simp)

/-- A command whose plan failed changed nothing; any other had one. -/
theorem execute_planned (options : EngineOptions) (host : Host) (w : World) (command : Command) :
    (execute options host w command).2 = w ∨ ∃ p, plan options host w command = .ok p := by
  cases h : plan options host w command with
  | error e => exact .inl (by simp only [execute, h])
  | ok p => exact .inr ⟨p, rfl⟩

theorem placed_failUpload {text : String} (hp : Placed w) (hu : host.Undisturbed w)
    (hl : Linked w.ledger) : Placed (execute options host w (.failUpload text)).2 := by
  rcases execute_planned options host w (.failUpload text) with h | ⟨p, hplan⟩
  · exact h.symm ▸ hp
  · obtain ⟨t, -, hplan⟩ := plan_eq_ok.mp hplan
    obtain ⟨d, hd, hplan⟩ := bind_eq_ok.mp hplan
    obtain ⟨row, hrow, -⟩ := bind_eq_ok.mp hplan
    obtain ⟨hrow, hphase⟩ := requirePhase_eq_ok.mp hrow
    obtain rfl := parseIdentifier_eq_ok.mp hd
    obtain rfl : row.dumpId = d := Table.key_of_find? hrow
    obtain ⟨l', ⟨receipt, he⟩, ⟨now, hmoved⟩, -⟩ := execute_failUpload options hu hl hrow hphase
    rw [he]
    exact placed_moved hp hrow hmoved.dumps
      (fun _ hne => ObjectStore.sameObjects_removeStaging hne)
      (placedAt_apply (by simp [DumpMove.guard, hphase]) (by simp) (by simp))

theorem placed_finishPurge {text : String} (hp : Placed w) (hu : host.Undisturbed w)
    (hl : Linked w.ledger) : Placed (execute options host w (.finishPurge text)).2 := by
  rcases execute_planned options host w (.finishPurge text) with h | ⟨p, hplan⟩
  · exact h.symm ▸ hp
  · obtain ⟨t, -, hplan⟩ := plan_eq_ok.mp hplan
    obtain ⟨d, hd, hplan⟩ := bind_eq_ok.mp hplan
    obtain ⟨row, hrow, -⟩ := bind_eq_ok.mp hplan
    obtain ⟨hrow, hphase⟩ := requirePhase_eq_ok.mp hrow
    obtain rfl := parseIdentifier_eq_ok.mp hd
    obtain rfl : row.dumpId = d := Table.key_of_find? hrow
    obtain ⟨l', ⟨receipt, he⟩, ⟨now, hmoved⟩, -⟩ := execute_finishPurge options hu hl hrow hphase
    rw [he]
    exact placed_moved hp hrow hmoved.dumps
      (fun _ hne => ObjectStore.sameObjects_remove hne)
      (placedAt_apply (by simp [DumpMove.guard, hphase]) (by simp) (by simp))

/-- A sealed dump is promoted, or its object is there already. -/
theorem placed_promoteObject {text : String} (hp : Placed w) (hu : host.Undisturbed w)
    (hl : Linked w.ledger) (htracked : ∀ row ∈ w.ledger.dumps, Tracked row) :
    Placed (execute options host w (.promoteObject text)).2 := by
  rcases execute_planned options host w (.promoteObject text) with h | ⟨p, hplan⟩
  · exact h.symm ▸ hp
  · obtain ⟨t, ht, hplan⟩ := plan_eq_ok.mp hplan
    obtain ⟨d, hd, hrest⟩ := bind_eq_ok.mp hplan
    obtain ⟨row, hrow, hpure⟩ := bind_eq_ok.mp hrest
    obtain ⟨hrow, hphase⟩ := requirePhase_eq_ok.mp hrow
    obtain rfl := parseIdentifier_eq_ok.mp hd
    obtain rfl : row.dumpId = d := Table.key_of_find? hrow
    rcases ((htracked row (Table.mem_of_find? hrow)).sealed hphase).1 with hblob | hblob
    · obtain ⟨⟨f, hf, hclosed⟩, hobject⟩ := (hp row.dumpId).staged row hrow hphase hblob
      have hpromote := ObjectStore.promote_eq_ok.mpr (.inr ⟨f, hf, hclosed, hobject, rfl⟩)
      obtain ⟨l', ⟨receipt, he⟩, ⟨now, hmoved⟩, -⟩ :=
        execute_promoteObject options hu hl hrow hphase hblob hpromote
      rw [he]
      refine placed_moved hp hrow hmoved.dumps
        (fun _ hne => ObjectStore.sameObjects_promote hpromote hne) ?_
      refine ⟨fun h => ?_, fun r hr h => ?_, fun r hr _ h => ?_, fun r _ _ _ => ?_⟩
      · cases h
      · cases hr
        exact absurd (hphase.symm.trans h) (by decide)
      · cases hr
        cases h
      · refine ⟨?_, by simp [ObjectStore.find?_removeStaging]⟩
        exact Table.contains_of_find? (Table.find?_insert_self hobject)
    · -- the vault operation changes nothing, and the transaction throws
      obtain ⟨hobject, hstaging⟩ := (hp row.dumpId).promoted row hrow hphase hblob
      have hpromote := ObjectStore.promote_eq_ok.mpr (.inl ⟨hstaging, hobject, rfl⟩)
      cases hpure
      cases hrun : (LedgerOp.recordPromoted row.dumpId).run options.digests.sha256 (host.event t)
          w.ledger with
      | error e =>
        rw [execute_storagePlan_error hu (plan_eq_ok.mpr ⟨t, ht, hplan⟩)
          (bind_eq_ok.mpr ⟨_, hpromote, rfl⟩) hrun]
        exact hp
      | ok out =>
        obtain ⟨r, l'⟩ := out
        obtain ⟨row', _, hrow', -, hstaged, -⟩ :=
          SqliteLedger.transitionDump_eq_ok.mp (LedgerOp.noResult_eq_ok.mp hrun).1
        rw [hrow] at hrow'
        cases hrow'
        exact absurd (hblob.symm.trans (of_decide_eq_true hstaged)) (by decide)

theorem refused_or_succeeded (options : EngineOptions) (command : Command)
    (hu : host.Undisturbed w) :
    (execute options host w command).1.refused = true ∨
      (execute options host w command).1.succeeded = true := by
  have hcases := execute_cases options host w command
  generalize execute options host w command = out at hcases ⊢
  obtain ⟨outcome, w'⟩ := out
  cases hcases with
  | refused _ | storageThrew _ _ _ | rolledBack _ _ _ _ => exact .inl rfl
  | crashed _ _ hcrash => exact absurd (hu.crash.symm.trans hcrash) (by decide)
  | committed _ _ _ _ => exact .inr rfl

/-- A refused command that neither removes nor promotes a file of a dump. -/
theorem placed_refused (hp : Placed w) (hu : host.Undisturbed w)
    (h : (execute options host w command).1.refused = true)
    (himport : ∀ record, command ≠ .importDumpStaged record)
    (hown : ∀ op, command.Stores host op → ∀ d, op.dumpId? = some d → op = .createStaging d) :
    Placed (execute options host w command).2 := by
  obtain ⟨hledger, hvaults⟩ := execute_refused h
  refine placed_same hp (congrArg SqliteLedger.dumps hledger) fun d => ?_
  generalize (execute options host w command).2.vaults = v at hvaults
  cases hvaults with
  | untouched => exact .refl _ _
  | left hop hrun hdrawn =>
    refine StorageOp.run_same_dumps hrun fun hd => ?_
    exact hdrawn d (hown _ hop d hd) hu.storage
  | takenBack hrun =>
    simp only [StorageOp.run, bind_eq_ok, pure_eq_ok] at hrun
    obtain ⟨s, hs, rfl⟩ := hrun
    exact ObjectStore.sameObjects_created_removed hs
  | dropped hcommand _ => exact absurd hcommand (himport _)

/-- A dump that has just been created has a staging file and no object. -/
theorem placed_beginUpload {secret name : String} (hp : Placed w) (hu : host.Undisturbed w) :
    Placed (execute options host w (.beginUpload secret name)).2 := by
  rcases refused_or_succeeded options (.beginUpload secret name) hu with
    h | h
  · refine placed_refused hp hu h (by simp) fun op hop d hd => ?_
    cases hop
    cases hd
    rfl
  · obtain ⟨p, r, hplan, hstored, htx, -⟩ := execute_succeeded h
    generalize (execute options host w (.beginUpload secret name)).2 = w' at hstored htx
    obtain ⟨l', v'⟩ := w'
    obtain ⟨t, -, hplan⟩ := plan_eq_ok.mp hplan
    simp only [planAt, planBeginUpload, bind_eq_ok, pure_eq_ok] at hplan
    obtain ⟨_, -, originalName, -, g, -, _, -, _, -, _, -, rfl⟩ := hplan
    obtain ⟨hnone, -⟩ | ⟨_, hop, -, hrun⟩ := operation_eq_ok.mp hstored
    · cases hnone
    cases hop
    obtain ⟨hnone, -⟩ | ⟨_, hop, -, hledger⟩ := transaction_eq_ok.mp htx
    · cases hnone
    cases hop
    simp only [StorageOp.run, bind_eq_ok, pure_eq_ok] at hrun
    obtain ⟨s, hs, rfl⟩ := hrun
    obtain ⟨g, c, -, -, -, -, -, -, hd, he, hl⟩ :=
      SqliteLedger.beginUpload_eq_ok.mp (LedgerOp.noResult_eq_ok.mp hledger).1
    have hdumps : l'.dumps =
        w.ledger.dumps.insert (DumpRow.receiving host.dumpId g.caseId originalName t) hd :=
      congrArg SqliteLedger.dumps hl
    intro d
    rw [hdumps]
    by_cases hne : d = host.dumpId
    · subst hne
      obtain ⟨hfree, hobject⟩ := (hp host.dumpId).free hd
      obtain ⟨hfree, rfl⟩ := ObjectStore.createStaging_eq_ok.mp hs
      have hrow : (w.ledger.dumps.insert
          (DumpRow.receiving host.dumpId g.caseId originalName t) hd).find? host.dumpId = some _ :=
        Table.find?_insert_self hd
      rw [hrow]
      refine ⟨fun h => ?_, fun r hr _ => ?_, fun r hr hsealed => ?_, fun r hr hsealed => ?_⟩
      · cases h
      · exact ⟨Table.contains_of_find? (Table.find?_insert_self hfree), hobject⟩
      · cases hr
        cases hsealed
      · cases hr
        cases hsealed
    · rw [Table.find?_insert_ne (h := hd) (Ne.symm hne)]
      exact (hp d).congr (ObjectStore.sameObjects_createStaging hs hne)

/-- Any other command works on no file of a dump. -/
theorem placed_other (hp : Placed w) (hu : host.Undisturbed w)
    (htracked : ∀ row ∈ w.ledger.dumps, Tracked row)
    (himport : ∀ record, command ≠ .importDumpStaged record)
    (hseal : ∀ (d : DumpId) (byteSize : Int) (sha256 : String),
      command = .sealUpload d.text byteSize sha256 → w.vaults.dumps.hasOpenStaging d = false)
    (hown : ∀ op, command.Stores host op → op.dumpId? = none)
    (hbegin : command.type ≠ .beginUpload) (hpromote : command.type ≠ .promoteObject) :
    Placed (execute options host w command).2 := by
  rcases refused_or_succeeded options command hu with h | h
  · refine placed_refused hp hu h himport fun op hop d hd => ?_
    rw [hown op hop] at hd
    cases hd
  · obtain ⟨p, r, hplan, hstored, htx, -⟩ := execute_succeeded h
    have hs : ∀ d, ObjectStore.SameObjects w.vaults.dumps
        (execute options host w command).2.vaults.dumps d := by
      intro d
      rcases operation_eq_ok.mp hstored with ⟨-, hsame⟩ | ⟨op, hop, -, hrun⟩
      · rw [hsame]
        exact .refl _ _
      · refine StorageOp.run_same_dumps hrun ?_
        rw [hown op ((plan_stores hplan).storage op hop)]
        simp
    rcases transaction_eq_ok.mp htx with ⟨-, -, hsame⟩ | ⟨op, hop, -, hrun⟩
    · exact placed_same hp (congrArg SqliteLedger.dumps hsame) hs
    · have haction := plan_action hplan hop
      refine placed_transaction hp htracked hrun hs (fun row hnew => ?_) (fun d he => ?_)
        fun d n digest he => ?_
      · cases hnew with
        | received he => exact hbegin (haction.symm.trans (congrArg LedgerOp.action he))
        | staged he =>
          have hcommand := haction.symm.trans (congrArg LedgerOp.action he)
          cases command <;> first | exact himport _ rfl | cases hcommand
        | tombstone he =>
          have hcommand := haction.symm.trans (congrArg LedgerOp.action he)
          cases command <;> first | exact himport _ rfl | cases hcommand
      · rw [he] at haction
        exact hpromote haction.symm
      · -- the command names the dump its transaction seals
        rw [he] at haction hop
        obtain ⟨t, -, hat⟩ := plan_eq_ok.mp hplan
        cases command <;> cases haction
        obtain ⟨d', hd, -⟩ := bind_eq_ok.mp hat
        obtain rfl := parseIdentifier_eq_ok.mp hd
        obtain ⟨⟨_, _, hop', hmove, -⟩, -⟩ := planSealUpload_moves options host w t _ _ p hat
        rw [hop'] at hop
        cases hop
        cases hmove
        exact hseal _ _ _ rfl

/-- **An orderly event keeps the bytes where the rows say.** -/
theorem placed_step {e : Event} (hp : Placed w) (hl : Linked w.ledger)
    (htracked : ∀ row ∈ w.ledger.dumps, Tracked row) (he : Orderly w e) :
    Placed (step options w e) := by
  cases e with
  | append nowMs d bytes => exact placed_append hp
  | syncAndClose d => exact placed_syncAndClose hp
  | stageImport nowMs d => exact he.elim
  | dropImport d => exact he.elim
  | appendSymbol nowMs a bytes =>
    exact placed_same hp (congrArg _ (World.ledger_onSymbols ..)) fun d => by
      rw [step, World.dumps_onSymbols]
      exact .refl _ _
  | syncAndCloseSymbol a =>
    exact placed_same hp (congrArg _ (World.ledger_onSymbols ..)) fun d => by
      rw [step, World.dumps_onSymbols]
      exact .refl _ _
  | reopen => exact placed_reopen hp
  | command host command =>
    obtain ⟨hu, himport, hseal⟩ := he
    have hsettle : step options w (.command host command) = (execute options host w command).2 := by
      rw [step, settle]
      cases hout : (execute options host w command).1 with
      | receipt _ => rfl
      | crashed =>
        rcases refused_or_succeeded options command hu with h | h <;>
          rw [hout] at h <;> cases h
    rw [hsettle]
    cases command with
    | beginUpload secret name => exact placed_beginUpload hp hu
    | failUpload d => exact placed_failUpload hp hu hl
    | promoteObject d => exact placed_promoteObject hp hu hl htracked
    | finishPurge d => exact placed_finishPurge hp hu hl
    | _ =>
      refine placed_other hp hu htracked himport hseal (fun op hop => ?_) ?_ ?_
      · cases hop <;> rfl
      · simp [Command.type]
      · simp [Command.type]

end Placement

/-! ## The refinement -/

/-- What the specification asks of one command: it succeeds exactly when the action is enabled,
the vault is ready and the expiry is a later instant than the clock's; then the state seen is the
action's, and otherwise nothing is seen to change. -/
structure StepRefines (options : EngineOptions) (host : Host) (w : World) (command : Command)
    (action : Spec.Action) (expiry : Option IsoTimestamp) (now : IsoTimestamp) : Prop where
  succeeds : (execute options host w command).1.succeeded = true ↔
    action.enabled w.ledger.observe ∧ VaultReady w action ∧
      ∀ t ∈ expiry, now.instant < t.instant
  next : (execute options host w command).1.succeeded = true →
    (execute options host w command).2.ledger.observe = action.next w.ledger.observe
  unchanged : (execute options host w command).1.succeeded = false →
    (execute options host w command).2.ledger.observe = w.ledger.observe

section Refines

variable {options : EngineOptions} {host : Host} {w : World} {command : Command}
  {action : Spec.Action} {expiry : Option IsoTimestamp} {now : IsoTimestamp}

/-- A command that did not succeed is not seen. -/
theorem observe_of_failed (h : (execute options host w command).1.succeeded = false) :
    (execute options host w command).2.ledger.observe = w.ledger.observe := by
  rcases execute_ledger options host w command with hsame | ⟨_, _, _, -, -, -, hout⟩
  · rw [hsame]
  · rw [hout] at h
    cases h

/-- One command, in a ledger whose references and evidence are sound. -/
theorem stepRefines_iff (htable : ActionTable options host w command action expiry)
    (hu : host.Undisturbed w) (hnew : host.DrawsNew options w) (hnow : now.text = host.now)
    (hl : Linked w.ledger) (htracked : ∀ row ∈ w.ledger.dumps, Tracked row) :
    StepRefines options host w command action expiry now ↔
      (action.enabled w.ledger.observe → VaultReady w action →
        ∀ t ∈ expiry, (now < t ↔ now.instant < t.instant)) := by
  constructor
  · intro h henabled hready t ht
    have hone : ∀ t' ∈ expiry, t' = t := fun t' ht' => Option.some.inj (ht'.symm.trans ht)
    constructor
    · intro hlt
      have hall : ∀ t' ∈ expiry, now < t' := fun t' ht' => hone t' ht' ▸ hlt
      exact (h.succeeds.mp (succeeded_complete htable hu hl hnew hnow henabled hall hready)).2.2 t ht
    · intro hlt
      have hall : ∀ t' ∈ expiry, now.instant < t'.instant := fun t' ht' => hone t' ht' ▸ hlt
      have hsucceeded := h.succeeds.mpr ⟨henabled, hready, hall⟩
      exact (succeeded_sound htable hnow htracked hsucceeded).unexpired t ht
  · intro h
    refine ⟨⟨fun hsucceeded => ?_, fun ⟨henabled, hready, hexpiry⟩ => ?_⟩, fun hsucceeded => ?_,
      observe_of_failed⟩
    · have htaken := succeeded_sound htable hnow htracked hsucceeded
      exact ⟨htaken.enabled, htaken.ready, fun t ht =>
        (h htaken.enabled htaken.ready t ht).mp (htaken.unexpired t ht)⟩
    · exact succeeded_complete htable hu hl hnew hnow henabled
        (fun t ht => (h henabled hready t ht).mpr (hexpiry t ht)) hready
    · exact (succeeded_sound htable hnow htracked hsucceeded).next

variable {events : List Event}

theorem reached_placed (h : Along (step options) Orderly .fresh events) :
    Placed (reached options events) := by
  have hinvariant := invariant_along (C := Orderly)
    (I := fun w => Placed w ∧ Linked w.ledger ∧ ∀ row ∈ w.ledger.dumps, Tracked row)
    (fun w e hw he => ⟨placed_step hw.1 hw.2.1 hw.2.2 he,
      ledger_step (fun _ _ _ _ _ => run_linked) hw.2.1,
      ledger_step (I := fun l => ∀ row ∈ l.dumps, Tracked row) (fun _ _ _ _ _ => run_tracked)
        hw.2.2⟩)
    ⟨placed_fresh, linked_fresh, fun _ h => absurd h Table.not_mem_empty⟩ h
  exact hinvariant.1

/-- **The engine refines its specification**, but for the expiry of a grant: it is compared with
the clock as text, and a text may sort before the clock although its instant lies ahead. In an
orderly run the vault is ready for every enabled action. -/
theorem engine_refines
    (htable : ActionTable options host (reached options events) command action expiry)
    (hu : host.Undisturbed (reached options events))
    (hnew : host.DrawsNew options (reached options events)) (hnow : now.text = host.now) :
    (StepRefines options host (reached options events) command action expiry now ↔
      (action.enabled (reached options events).ledger.observe →
        VaultReady (reached options events) action →
          ∀ t ∈ expiry, (now < t ↔ now.instant < t.instant))) ∧
      (Along (step options) Orderly .fresh events →
        action.enabled (reached options events).ledger.observe →
          VaultReady (reached options events) action) :=
  ⟨stepRefines_iff htable hu hnew hnow (reached_linked events) (reached_tracked options events),
    fun horderly henabled => vaultReady_of_placed (reached_placed horderly) henabled⟩

end Refines

namespace Sample

/-- A customer and a new case. -/
def caseRun : List Event := uploadRun.take 2

/-- An expiry in the year 10000. -/
def farExpiry : IsoTimestamp := ⟨"+010000-01-01T00:00:00.000Z", by decide⟩

def clock : IsoTimestamp := ⟨(host 2).now, by decide⟩

/-- The grant that does not expire before the year 10000. -/
def issueFar : Command := .issueGrant (host 2).caseId.text farExpiry.text ((1 : ℕ+) : Nat) none

theorem issueFar_table : ActionTable options (host 2) (reached options caseRun) issueFar
    (.issueToken (host 2).grantId (host 2).caseId 1) (some farExpiry) :=
  .issueGrant (host 2).caseId farExpiry 1 (n := ⟨1, by decide⟩) rfl

theorem host_undisturbed : (host 2).Undisturbed (reached options caseRun) :=
  ⟨⟨clock, rfl⟩, rfl, rfl, rfl, by decide⟩

theorem host_drawsNew : (host 2).DrawsNew options (reached options caseRun) :=
  ⟨by decide, by decide, by decide⟩

end Sample

/-- The theorem at the grant of the year 10000. -/
theorem engine_refines_far :
    (StepRefines Sample.options (Sample.host 2) (reached Sample.options Sample.caseRun)
        Sample.issueFar (.issueToken (Sample.host 2).grantId (Sample.host 2).caseId 1)
        (some Sample.farExpiry) Sample.clock ↔
      ((Spec.Action.issueToken (Sample.host 2).grantId (Sample.host 2).caseId 1).enabled
          (reached Sample.options Sample.caseRun).ledger.observe →
        VaultReady (reached Sample.options Sample.caseRun)
            (.issueToken (Sample.host 2).grantId (Sample.host 2).caseId 1) →
          ∀ t ∈ some Sample.farExpiry,
            (Sample.clock < t ↔ Sample.clock.instant < t.instant))) ∧
      (Along (step Sample.options) Orderly .fresh Sample.caseRun →
        (Spec.Action.issueToken (Sample.host 2).grantId (Sample.host 2).caseId 1).enabled
            (reached Sample.options Sample.caseRun).ledger.observe →
          VaultReady (reached Sample.options Sample.caseRun)
            (.issueToken (Sample.host 2).grantId (Sample.host 2).caseId 1)) :=
  engine_refines Sample.issueFar_table Sample.host_undisturbed Sample.host_drawsNew rfl

/-- **A grant that expires in the year 10000 is refused**, as one that has expired: a plus sign
sorts before a digit. -/
theorem far_expiry_refused :
    ¬ StepRefines Sample.options (Sample.host 2) (reached Sample.options Sample.caseRun)
      Sample.issueFar (.issueToken (Sample.host 2).grantId (Sample.host 2).caseId 1)
      (some Sample.farExpiry) Sample.clock := by
  intro h
  have hrefused : (execute Sample.options (Sample.host 2) (reached Sample.options Sample.caseRun)
      Sample.issueFar).1.succeeded = false := by decide
  have hstatus : (reached Sample.options Sample.caseRun).ledger.observe.caseStatus
      (Sample.host 2).caseId = some .new := by decide
  have hunused : (reached Sample.options Sample.caseRun).ledger.observe.tokenState
      (Sample.host 2).grantId = none := by decide
  have hexpiry : Sample.clock.instant < Sample.farExpiry.instant := by decide
  have hsucceeded := h.succeeds.mpr ⟨⟨hunused, _, hstatus, by decide⟩, trivial, fun t ht => by
    cases ht
    exact hexpiry⟩
  rw [hrefused] at hsucceeded
  cases hsucceeded

end DumpLedger
