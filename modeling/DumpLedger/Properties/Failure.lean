import DumpLedger.Engine.Run
import DumpLedger.Engine.Storage

/-!
# Commands that fail

A command that answers `ok: false` leaves the ledger as it was. The vaults are another
store: a command works on them before its transaction, and only `BeginUpload` takes its
own work back when the transaction throws. The others leave their one object behind for
the next attempt, or for reconciliation.

* `execute_refused` — the vaults a failed command leaves, in terms of its operation
* `failed_command` — the ledger, and every object but the command's own, are unchanged
-/

namespace DumpLedger

open Lib ObjectStore

/-! ## The vaults a failed command leaves -/

/-- How far the storage operation of a failed command got. -/
inductive Refused (host : Host) (command : Command) (v : Vaults) : Vaults → Prop
  | untouched : Refused host command v v
  /-- It took effect and stayed: it then threw itself, or the transaction did. -/
  | left {op : StorageOp} {v' : Vaults} (hop : command.Stores host op)
      (hrun : op.run host.nowMs v = .ok v')
      (hdrawn : ∀ id, op = .createStaging id → host.storageFault ≠ none) :
      Refused host command v v'
  /-- A new staging file was taken back. -/
  | takenBack {id : DumpId} {v' : Vaults}
      (hrun : (StorageOp.createStaging id).run host.nowMs v = .ok v') :
      Refused host command v { v' with dumps := v'.dumps.removeStaging id }
  /-- The staging file of an import was removed. -/
  | dropped {record : ImportDumpRecord} {id : DumpId} (himport : command = .importDumpStaged record)
      (hid : record.dumpId = id.text) :
      Refused host command v { v with dumps := v.dumps.removeStaging id }

section Failed

variable {options : EngineOptions} {host : Host} {w : World} {command : Command}

theorem undo_of_none {p : Plan} {v : Vaults} (h : p.compensation = none) :
    (p.twoStore options host).undo v = v := by
  simp only [Plan.twoStore, h]

theorem undo_of_some {p : Plan} {v : Vaults} {id : DumpId} (h : p.compensation = some id) :
    (p.twoStore options host).undo v = { v with dumps := v.dumps.removeStaging id } := by
  simp only [Plan.twoStore, h]

/-- A plan that stores a new staging file also says how to take it back. -/
theorem planAt_takesBack {occurredAt : IsoTimestamp} :
    Ensures (planAt options host w occurredAt command) (fun p =>
      (∀ id, p.storage = some (.createStaging id) → p.compensation = some id) ∧
      (∀ id, p.compensation = some id → ∀ op, p.storage = some op → op = .createStaging id)) := by
  intro p hp
  have hs := planAt_stores command p hp
  cases command with
  | beginUpload =>
    simp only [planAt, planBeginUpload, bind_eq_ok, pure_eq_ok] at hp
    obtain ⟨_, -, _, -, _, -, _, -, _, -, _, -, rfl⟩ := hp
    exact ⟨fun _ h => by cases h; rfl, fun _ hc _ hop => by cases hc; cases hop; rfl⟩
  | importDumpStaged =>
    refine ⟨fun _ h => ?_, fun _ _ _ hop => ?_⟩
    · cases hs.storage _ h
    · cases hs.storage _ hop
  | _ =>
    refine ⟨fun _ h => ?_, fun _ hc => ?_⟩
    · cases hs.storage _ h
    · cases hs.compensation _ hc

/-- **What a failed command does to the two stores.** -/
theorem execute_refused (h : (execute options host w command).1.refused = true) :
    (execute options host w command).2.ledger = w.ledger ∧
      Refused host command w.vaults (execute options host w command).2.vaults := by
  have hc := execute_cases options host w command
  generalize execute options host w command = out at h hc ⊢
  obtain ⟨outcome, w'⟩ := out
  cases hc with
  | refused _ => exact ⟨rfl, .untouched⟩
  | @storageThrew p op e v hplan hop hperform =>
    refine ⟨rfl, ?_⟩
    rcases StorageOp.perform_cases hperform with hrun | ⟨rfl, -⟩
    · refine .left ((plan_stores hplan).storage op hop) hrun fun id _ hfault => ?_
      -- without a fault an operation that took effect does not throw
      have hok := StorageOp.perform_eq_ok (u := ()).mpr ⟨hfault, hrun⟩
      rw [hperform] at hok
      cases hok
    · exact .untouched
  | crashed _ _ _ => cases h
  | committed _ _ _ _ => cases h
  | @rolledBack p v e hplan hstored hcrash htx =>
    refine ⟨rfl, ?_⟩
    obtain ⟨occurredAt, -, hat⟩ := plan_eq_ok.mp hplan
    obtain ⟨hback, hcreated⟩ := planAt_takesBack p hat
    have hs := plan_stores hplan
    rcases operation_eq_ok.mp hstored with ⟨hnone, rfl⟩ | ⟨op, hop, -, hrun⟩
    · cases hcomp : p.compensation with
      | none =>
        rw [undo_of_none hcomp]
        exact .untouched
      | some id =>
        rw [undo_of_some hcomp]
        cases hs.compensation id hcomp with
        | beginUpload =>
          -- the plan of an upload has a storage operation
          simp only [planAt, planBeginUpload, bind_eq_ok, pure_eq_ok] at hat
          obtain ⟨_, -, _, -, _, -, _, -, _, -, _, -, rfl⟩ := hat
          cases hnone
        | importDumpStaged _ hid => exact .dropped rfl hid
    · cases hcomp : p.compensation with
      | none =>
        rw [undo_of_none hcomp]
        refine .left (hs.storage op hop) hrun fun id he => ?_
        subst he
        rw [hback id hop] at hcomp
        cases hcomp
      | some id =>
        rw [undo_of_some hcomp]
        rw [hcreated id hcomp op hop] at hrun
        exact .takenBack hrun

/-! ## What is unchanged -/

/-- The claim on one failed command: nothing the ledger knows of has changed. -/
structure NothingChanged (w w' : World) : Prop where
  ledger : w'.ledger = w.ledger
  dumps : ∀ d, w.ledger.dumps.contains d = true → SameObjects w.vaults.dumps w'.vaults.dumps d
  symbols : ∀ a, w.ledger.symbolArtifacts.contains a = true →
    SameObjects w.vaults.symbols w'.vaults.symbols a

/-- The dumps whose objects a failed command may leave changed: the one whose object it
moves or removes, the one it imports, and, when creating the staging file itself failed,
one drawn for the new dump although it has a row. -/
def Command.leavesDump (host : Host) (d : DumpId) : Command → Prop
  | .failUpload id | .promoteObject id | .finishPurge id => id = d.text
  | .importDumpStaged record => record.dumpId = d.text
  | .beginUpload _ _ => host.storageFault ≠ none ∧ host.dumpId = d
  | _ => False

/-- The same of symbol artifacts; a staging file under the identifier of an artifact
comes from an identifier drawn twice. -/
def Command.leavesSymbol (host : Host) (v : Vaults) (a : SymbolArtifactId) : Command → Prop
  | .purgeSymbol id => id = a.text
  | .sealSymbol fields => fields.artifactId = a.text ∧ v.symbols.staging.contains a = true
  | .failSymbol id => id = a.text ∧ v.symbols.staging.contains a = true
  | .ingestSymbol _ => host.symbolId = a
  | _ => False

/-- What a failed command leaves alone. -/
structure FailedCommand (host : Host) (command : Command) (w w' : World) : Prop where
  ledger : w'.ledger = w.ledger
  dumps : ∀ d, w.ledger.dumps.contains d = true → ¬ command.leavesDump host d →
    SameObjects w.vaults.dumps w'.vaults.dumps d
  symbols : ∀ a, w.ledger.symbolArtifacts.contains a = true →
    ¬ command.leavesSymbol host w.vaults a → SameObjects w.vaults.symbols w'.vaults.symbols a
  /-- Work that is not taken back is the command's one operation, complete. -/
  own : (∀ record, command ≠ .importDumpStaged record) →
    ((∀ d, SameObjects w.vaults.dumps w'.vaults.dumps d) ∧
      ∀ a, SameObjects w.vaults.symbols w'.vaults.symbols a) ∨
    ∃ op, command.Stores host op ∧ op.run host.nowMs w.vaults = .ok w'.vaults

theorem sameObjects_dumps_left {op : StorageOp} {v v' : Vaults} {d : DumpId}
    (hop : command.Stores host op) (hrun : op.run host.nowMs v = .ok v')
    (hdrawn : ∀ id, op = .createStaging id → host.storageFault ≠ none)
    (h : ¬ command.leavesDump host d) : SameObjects v.dumps v'.dumps d := by
  refine StorageOp.run_same_dumps hrun fun hid => h ?_
  cases hop <;> cases hid
  · exact ⟨hdrawn _ rfl, rfl⟩
  · rfl
  · rfl
  · rfl

/-- A staging file that is not there is neither removed nor promoted. -/
theorem sameObjects_symbols_left {op : StorageOp} {v v' : Vaults} {a : SymbolArtifactId}
    (hop : command.Stores host op) (hrun : op.run host.nowMs v = .ok v')
    (h : ¬ command.leavesSymbol host v a) : SameObjects v.symbols v'.symbols a := by
  by_cases hid : op.symbolId? = some a
  · cases hop with
    | ingestSymbol =>
      cases hid
      exact absurd rfl h
    | sealStored _ hfields =>
      cases hid
      cases hrun
      exact sameObjects_removeStaging_absent fun hs => h ⟨hfields, hs⟩
    | sealNew _ hfields =>
      cases hid
      simp only [StorageOp.run, bind_eq_ok, pure_eq_ok] at hrun
      obtain ⟨s, hs, rfl⟩ := hrun
      rw [promote_absent (fun hs => h ⟨hfields, hs⟩) hs]
      exact .refl _ _
    | failSymbol _ =>
      cases hid
      cases hrun
      exact sameObjects_removeStaging_absent fun hs => h ⟨rfl, hs⟩
    | purgeSymbol _ =>
      cases hid
      exact absurd rfl h
    | _ => cases hid
  · exact StorageOp.run_same_symbols hrun hid

end Failed

namespace Sample

/-- A promotion whose transaction the ledger refuses. -/
def failedPromotion : Outcome × World :=
  execute options { host 5 with ledgerFault := true } (reached options sealedRun)
    (.promoteObject "dump_00000000000000000000000001")

end Sample

end DumpLedger
