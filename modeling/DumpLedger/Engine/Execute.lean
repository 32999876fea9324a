import DumpLedger.Engine.Plan
import DumpLedger.Lib.TwoStore

/-!
# Executing a command

`execute` carries a plan out over the two stores: the vault's operation, the ledger's
transaction, and the undo of the vault when the transaction throws. A check that threw
has no plan and changes nothing.

* `Executed`, `execute_cases` — the ways a command ends, with the world it leaves in each
* `execute_ledger` — the ledger is as before, or one transaction further
-/

namespace DumpLedger

open Lib

/-! ## Carrying a plan out -/

/-- The plan's storage operation, its transaction and its undo. -/
def Plan.twoStore (p : Plan) (options : EngineOptions) (host : Host) :
    TwoStore Vaults SqliteLedger Thrown LedgerResult where
  operation v :=
    match p.storage with
    | none => (.ok (), v)
    | some op => op.perform host.storageFault host.nowMs v
  transaction l :=
    match p.ledger with
    | none => .ok (.done, l)
    | some op =>
      if host.ledgerFault = true then .error sqliteError
      else op.run options.digests.sha256 p.event l
  undo v :=
    match p.compensation with
    | none => v
    | some dumpId => { v with dumps := v.dumps.removeStaging dumpId }

inductive Outcome
  | receipt (receipt : TransitionReceipt)
  /-- The process died; there is no receipt. -/
  | crashed

namespace Outcome

/-- The command answered, with `ok: true`. -/
def succeeded : Outcome → Bool
  | receipt r => r.ok
  | crashed => false

/-- The command answered, with `ok: false`. -/
def refused : Outcome → Bool
  | receipt r => !r.ok
  | crashed => false

end Outcome

/-- What the caller gets to see of a plan carried out. -/
def Plan.outcome (p : Plan) (action : LifecycleAction) :
    TwoStore.Result Thrown LedgerResult → Outcome
  | .done r => .receipt (.success (p.receipt.withResult r))
  | .failed e => .receipt (.failure action e.stable)
  | .crashed => .crashed

def execute (options : EngineOptions) (host : Host) (w : World) (command : Command) :
    Outcome × World :=
  match plan options host w command with
  | .error e => (.receipt (.failure command.type e.stable), w)
  | .ok p =>
    let out := (p.twoStore options host).run host.crash w.vaults w.ledger
    (p.outcome command.type out.1, ⟨out.2.2, out.2.1⟩)

/-! ## How a command ends -/

/-- The vaults a plan's storage operation may leave behind. -/
inductive Stored (p : Plan) (host : Host) (v : Vaults) : Vaults → Prop
  | kept : Stored p host v v
  | done {op : StorageOp} {v' : Vaults} (hop : p.storage = some op)
      (hrun : op.run host.nowMs v = .ok v') : Stored p host v v'

/-- How a command ended, and in which world. -/
inductive Executed (options : EngineOptions) (host : Host) (w : World) (command : Command) :
    Outcome → World → Prop
  /-- A check refused it. -/
  | refused {e : Thrown} (hplan : plan options host w command = .error e) :
      Executed options host w command (.receipt (.failure command.type e.stable)) w
  /-- The storage operation threw. -/
  | storageThrew {p : Plan} {op : StorageOp} {e : Thrown} {v : Vaults}
      (hplan : plan options host w command = .ok p) (hop : p.storage = some op)
      (hperform : op.perform host.storageFault host.nowMs w.vaults = (.error e, v)) :
      Executed options host w command (.receipt (.failure command.type e.stable))
        { w with vaults := v }
  /-- The process died before the transaction. -/
  | crashed {p : Plan} {v : Vaults} (hplan : plan options host w command = .ok p)
      (hstored : (p.twoStore options host).operation w.vaults = (.ok (), v))
      (hcrash : host.crash = true) :
      Executed options host w command .crashed { w with vaults := v }
  /-- The transaction committed. -/
  | committed {p : Plan} {v : Vaults} {r : LedgerResult} {l : SqliteLedger}
      (hplan : plan options host w command = .ok p)
      (hstored : (p.twoStore options host).operation w.vaults = (.ok (), v))
      (hcrash : host.crash = false)
      (htx : (p.twoStore options host).transaction w.ledger = .ok (r, l)) :
      Executed options host w command (.receipt (.success (p.receipt.withResult r))) ⟨l, v⟩
  /-- The transaction threw. -/
  | rolledBack {p : Plan} {v : Vaults} {e : Thrown}
      (hplan : plan options host w command = .ok p)
      (hstored : (p.twoStore options host).operation w.vaults = (.ok (), v))
      (hcrash : host.crash = false)
      (htx : (p.twoStore options host).transaction w.ledger = .error e) :
      Executed options host w command (.receipt (.failure command.type e.stable))
        { w with vaults := (p.twoStore options host).undo v }

section Ends

variable {options : EngineOptions} {host : Host} {w : World} {command : Command}

theorem execute_cases (options : EngineOptions) (host : Host) (w : World) (command : Command) :
    Executed options host w command (execute options host w command).1
      (execute options host w command).2 := by
  unfold execute
  cases hp : plan options host w command with
  | error e => exact .refused hp
  | ok p =>
    have hc := TwoStore.run_cases (p.twoStore options host) host.crash w.vaults w.ledger
    dsimp only
    generalize (p.twoStore options host).run host.crash w.vaults w.ledger = out at hc ⊢
    obtain ⟨res, v, l⟩ := out
    cases hc with
    | operationThrew hop =>
      cases hs : p.storage with
      | none => simp [Plan.twoStore, hs] at hop
      | some op =>
        simp only [Plan.twoStore, hs] at hop
        exact .storageThrew hp hs hop
    | crashed hop hcrash => exact .crashed hp hop hcrash
    | committed hop hcrash htx => exact .committed hp hop hcrash htx
    | rolledBack hop hcrash htx => exact .rolledBack hp hop hcrash htx

theorem execute_ne_crashed (hcrash : host.crash = false) :
    (execute options host w command).1 ≠ .crashed := by
  have hc := execute_cases options host w command
  generalize execute options host w command = out at hc ⊢
  obtain ⟨outcome, w'⟩ := out
  intro h
  cases h
  cases hc with
  | crashed _ _ hdied =>
    rw [hcrash] at hdied
    cases hdied

theorem operation_eq_ok {p : Plan} {v v' : Vaults} {u : Unit} :
    (p.twoStore options host).operation v = (.ok u, v') ↔
      (p.storage = none ∧ v' = v) ∨
        ∃ op, p.storage = some op ∧ host.storageFault = none ∧ op.run host.nowMs v = .ok v' := by
  cases hs : p.storage with
  | none =>
    simp only [Plan.twoStore, hs, Prod.mk.injEq, true_and, reduceCtorEq, false_and, exists_false,
      or_false]
    exact eq_comm
  | some op => simp [Plan.twoStore, hs, StorageOp.perform_eq_ok]

theorem transaction_eq_ok {p : Plan} {l l' : SqliteLedger} {r : LedgerResult} :
    (p.twoStore options host).transaction l = .ok (r, l') ↔
      (p.ledger = none ∧ r = .done ∧ l' = l) ∨
        ∃ op, p.ledger = some op ∧ host.ledgerFault = false ∧
          op.run options.digests.sha256 p.event l = .ok (r, l') := by
  cases hl : p.ledger with
  | none =>
    simp only [Plan.twoStore, hl, Except.ok.injEq, Prod.mk.injEq, true_and, reduceCtorEq, false_and,
      exists_false, or_false]
    exact and_congr eq_comm eq_comm
  | some op => cases hf : host.ledgerFault <;> simp [Plan.twoStore, hl, hf]

theorem stored_of_operation {p : Plan} {v v' : Vaults} {u : Unit}
    (h : (p.twoStore options host).operation v = (.ok u, v')) : Stored p host v v' := by
  rcases operation_eq_ok.mp h with ⟨-, rfl⟩ | ⟨op, hop, -, hrun⟩
  · exact .kept
  · exact .done hop hrun

theorem stored_of_perform {p : Plan} {op : StorageOp} {v v' : Vaults}
    {outcome : Except Thrown Unit} (hop : p.storage = some op)
    (h : op.perform host.storageFault host.nowMs v = (outcome, v')) : Stored p host v v' := by
  rcases StorageOp.perform_cases h with hrun | ⟨rfl, -⟩
  · exact .done hop hrun
  · exact .kept

/-- Both stores did their part. -/
theorem execute_of_done {p : Plan} {v : Vaults} {r : LedgerResult} {l : SqliteLedger}
    (hplan : plan options host w command = .ok p)
    (hstored : (p.twoStore options host).operation w.vaults = (.ok (), v))
    (hcrash : host.crash = false)
    (htx : (p.twoStore options host).transaction w.ledger = .ok (r, l)) :
    execute options host w command = (.receipt (.success (p.receipt.withResult r)), ⟨l, v⟩) := by
  have hrun := TwoStore.run_eq_done.mpr ⟨hstored, hcrash, htx⟩
  simp only [execute, hplan, hrun, Plan.outcome]

/-- A storage operation threw of itself. -/
theorem execute_of_throw {p : Plan} {op : StorageOp} {e : Thrown}
    (hplan : plan options host w command = .ok p) (hop : p.storage = some op)
    (hfault : host.storageFault = none) (hrun : op.run host.nowMs w.vaults = .error e) :
    execute options host w command = (.receipt (.failure command.type e.stable), w) := by
  simp only [execute, hplan, TwoStore.run, Plan.twoStore, hop, StorageOp.perform, hfault, hrun,
    Plan.outcome]

/-- The transaction threw, and there is nothing to take back. -/
theorem execute_of_rollback {p : Plan} {v : Vaults} {e : Thrown}
    (hplan : plan options host w command = .ok p)
    (hstored : (p.twoStore options host).operation w.vaults = (.ok (), v))
    (hcrash : host.crash = false)
    (htx : (p.twoStore options host).transaction w.ledger = .error e)
    (hcomp : p.compensation = none) :
    execute options host w command =
      (.receipt (.failure command.type e.stable), { w with vaults := v }) := by
  have hundo : (p.twoStore options host).undo v = v := by
    simp only [Plan.twoStore, hcomp]
  simp only [execute, hplan, TwoStore.run, hstored, hcrash, htx, Bool.false_eq_true, if_false,
    hundo, Plan.outcome]

/-! ### Without disturbance -/

/-- Nothing fails during the command, and its event gets a new identifier. -/
structure Host.Undisturbed (host : Host) (w : World) : Prop where
  clock : ∃ occurredAt : IsoTimestamp, occurredAt.text = host.now
  storage : host.storageFault = none
  ledger : host.ledgerFault = false
  crash : host.crash = false
  event : w.ledger.auditEvents.find? host.auditId = none

variable {occurredAt : IsoTimestamp} {op : LedgerOp} {receipt : TransitionSuccess}

/-- One transaction that commits. -/
theorem execute_ledgerPlan {r : LedgerResult} {l : SqliteLedger} (hu : host.Undisturbed w)
    (hplan : plan options host w command = .ok (ledgerPlan host occurredAt op receipt))
    (hrun : op.run options.digests.sha256 (host.event occurredAt) w.ledger = .ok (r, l)) :
    execute options host w command =
      (.receipt (.success (receipt.withResult r)), ⟨l, w.vaults⟩) :=
  execute_of_done hplan (operation_eq_ok.mpr (Or.inl ⟨rfl, rfl⟩)) hu.crash
    (transaction_eq_ok.mpr (Or.inr ⟨op, rfl, hu.ledger, hrun⟩))

/-- One storage operation and one transaction that commits. -/
theorem execute_storagePlan {storage : StorageOp} {v : Vaults} {r : LedgerResult} {l : SqliteLedger}
    (hu : host.Undisturbed w)
    (hplan : plan options host w command = .ok (storagePlan host occurredAt storage op receipt))
    (hstored : storage.run host.nowMs w.vaults = .ok v)
    (hrun : op.run options.digests.sha256 (host.event occurredAt) w.ledger = .ok (r, l)) :
    execute options host w command = (.receipt (.success (receipt.withResult r)), ⟨l, v⟩) :=
  execute_of_done hplan (operation_eq_ok.mpr (Or.inr ⟨storage, rfl, hu.storage, hstored⟩)) hu.crash
    (transaction_eq_ok.mpr (Or.inr ⟨op, rfl, hu.ledger, hrun⟩))

/-- One storage operation that stays, and a transaction that throws. -/
theorem execute_storagePlan_error {storage : StorageOp} {v : Vaults} {e : Thrown}
    (hu : host.Undisturbed w)
    (hplan : plan options host w command = .ok (storagePlan host occurredAt storage op receipt))
    (hstored : storage.run host.nowMs w.vaults = .ok v)
    (hrun : op.run options.digests.sha256 (host.event occurredAt) w.ledger = .error e) :
    execute options host w command =
      (.receipt (.failure command.type e.stable), { w with vaults := v }) := by
  refine execute_of_rollback hplan
    (operation_eq_ok.mpr (Or.inr ⟨storage, rfl, hu.storage, hstored⟩)) hu.crash ?_ rfl
  simp only [Plan.twoStore, storagePlan, hu.ledger, Bool.false_eq_true, if_false]
  exact hrun

/-- **The ledger after a command is the ledger before it, or one transaction further**, and
then the command succeeded. -/
theorem execute_ledger (options : EngineOptions) (host : Host) (w : World) (command : Command) :
    (execute options host w command).2.ledger = w.ledger ∨
      ∃ p op r, plan options host w command = .ok p ∧ p.ledger = some op ∧
        op.run options.digests.sha256 p.event w.ledger =
          .ok (r, (execute options host w command).2.ledger) ∧
        (execute options host w command).1 = .receipt (.success (p.receipt.withResult r)) := by
  have h := execute_cases options host w command
  generalize execute options host w command = out at h ⊢
  obtain ⟨outcome, w'⟩ := out
  cases h with
  | refused _ => exact Or.inl rfl
  | storageThrew _ _ _ => exact Or.inl rfl
  | crashed _ _ _ => exact Or.inl rfl
  | rolledBack _ _ _ _ => exact Or.inl rfl
  | committed hplan _ _ htx =>
    rcases transaction_eq_ok.mp htx with ⟨-, -, rfl⟩ | ⟨op, hop, -, hrun⟩
    · exact Or.inl rfl
    · exact Or.inr ⟨_, op, _, hplan, hop, hrun, rfl⟩

/-- A command that succeeded went through: no fault, and both stores moved on. -/
theorem execute_succeeded (h : (execute options host w command).1.succeeded = true) :
    ∃ p r, plan options host w command = .ok p ∧
      (p.twoStore options host).operation w.vaults =
        (.ok (), (execute options host w command).2.vaults) ∧
      (p.twoStore options host).transaction w.ledger =
        .ok (r, (execute options host w command).2.ledger) ∧
      (execute options host w command).1 = .receipt (.success (p.receipt.withResult r)) := by
  have hc := execute_cases options host w command
  generalize execute options host w command = out at h hc ⊢
  obtain ⟨outcome, w'⟩ := out
  cases hc with
  | refused _ => cases h
  | storageThrew _ _ _ => cases h
  | crashed _ _ _ => cases h
  | rolledBack _ _ _ _ => cases h
  | committed hplan hstored _ htx => exact ⟨_, _, hplan, hstored, htx, rfl⟩

end Ends

end DumpLedger
