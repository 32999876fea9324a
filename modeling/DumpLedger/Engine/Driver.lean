import DumpLedger.Engine.Moves
import DumpLedger.Lib.Prog

/-!
# Programs that drive the engine

Recovery and import are programs over an engine and its vault: they execute commands,
look at receipts, and work on staging files themselves. Each call is answered by a host
of its own, in the order of the calls.
-/

namespace DumpLedger

open Lib

structure Machine where
  world : World
  /-- The calls made so far. -/
  calls : Nat

abbrev Driver := Prog Machine Thrown

/-- What escapes from `execute` when the process dies. -/
def simulatedCrash : Thrown := .otherError "simulated crash"

section Calls

variable (options : EngineOptions) (hosts : Nat → Host)

/-- `engine.execute`. -/
def engineExecute (command : Command) : Driver TransitionReceipt := fun m =>
  match execute options (hosts m.calls) m.world command with
  | (.receipt receipt, w) => (.ok receipt, ⟨w, m.calls + 1⟩)
  | (.crashed, w) => (.error simulatedCrash, ⟨w, m.calls + 1⟩)

/-- A storage operation that a driver performs itself. -/
def vaultPerform (op : StorageOp) : Driver Unit := fun m =>
  let out := op.perform (hosts m.calls).storageFault (hosts m.calls).nowMs m.world.vaults
  (out.1, ⟨{ m.world with vaults := out.2 }, m.calls + 1⟩)

end Calls

/-! ## What a call comes to -/

section Rules

variable {options : EngineOptions} {hosts : Nat → Host} {m : Machine}

theorem wp_engineExecute {command : Command} {Q : TransitionReceipt → Machine → Prop}
    {E : Thrown → Machine → Prop} {receipt : TransitionReceipt} {w : World}
    (h : execute options (hosts m.calls) m.world command = (.receipt receipt, w)) :
    Prog.wp (engineExecute options hosts command) Q E m ↔ Q receipt ⟨w, m.calls + 1⟩ := by
  simp only [Prog.wp, engineExecute, h]

theorem wp_vaultPerform {op : StorageOp} {Q : Unit → Machine → Prop} {E : Thrown → Machine → Prop}
    {v : Vaults} (hfault : (hosts m.calls).storageFault = none)
    (h : op.run (hosts m.calls).nowMs m.world.vaults = .ok v) :
    Prog.wp (vaultPerform hosts op) Q E m ↔
      Q () ⟨{ m.world with vaults := v }, m.calls + 1⟩ := by
  have hp := StorageOp.perform_eq_ok (u := ()).mpr ⟨hfault, h⟩
  simp only [Prog.wp, vaultPerform, hp]

end Rules

/-! ## Drivers in a sound host -/

/-- Hosts that answer without a fault, and whose inspector looks at the bytes alone. -/
structure Steady (hosts : Nat → Host) (inspector : Option Bytes → InspectionOutcome) : Prop where
  clock : ∀ n, ∃ occurredAt : IsoTimestamp, occurredAt.text = (hosts n).now
  storage : ∀ n, (hosts n).storageFault = none
  ledger : ∀ n, (hosts n).ledgerFault = false
  crash : ∀ n, (hosts n).crash = false
  inspect : ∀ n, (hosts n).inspect = fun _ bytes => inspector bytes

/-- The audit identifiers of the calls `first` to `limit` are new to the trail and to each
other. -/
structure DrawsNewEvents (hosts : Nat → Host) (first limit : Nat) (l : SqliteLedger) : Prop where
  fresh : ∀ n, first ≤ n → n < limit → l.auditEvents.find? (hosts n).auditId = none
  distinct : ∀ i j, first ≤ i → i < j → j < limit → (hosts i).auditId ≠ (hosts j).auditId

/-- What a driver needs for the calls up to `limit`. -/
structure Ready (hosts : Nat → Host) (limit : Nat) (m : Machine) : Prop where
  linked : Linked m.world.ledger
  events : DrawsNewEvents hosts m.calls limit m.world.ledger

section Sound

variable {options : EngineOptions} {hosts : Nat → Host} {m : Machine} {limit : Nat}
  {inspector : Option Bytes → InspectionOutcome}

theorem Ready.undisturbed (hr : Ready hosts limit m) (hs : Steady hosts inspector)
    (hcalls : m.calls < limit) : (hosts m.calls).Undisturbed m.world :=
  ⟨hs.clock _, hs.storage _, hs.ledger _, hs.crash _, hr.events.fresh _ (Nat.le_refl _) hcalls⟩

theorem Steady.inspection (hs : Steady hosts inspector) {n : Nat} {w : World} {dumpId : DumpId} :
    DumpLedger.inspection (hosts n) w dumpId = inspector (w.vaults.dumps.object? dumpId) := by
  rw [DumpLedger.inspection, hs.inspect]

/-- A call that leaves the ledger alone. -/
theorem Ready.call (hr : Ready hosts limit m) {v : Vaults} :
    Ready hosts limit ⟨{ m.world with vaults := v }, m.calls + 1⟩ :=
  ⟨hr.linked, fun n hn => hr.events.fresh n (Nat.le_of_succ_le hn),
    fun i j hi => hr.events.distinct i j (Nat.le_of_succ_le hi)⟩

/-- A call that commits a move. -/
theorem Ready.move (hr : Ready hosts limit m) {command : Command} {dumpId : DumpId}
    {mv : DumpMove} {w' : World}
    (hx : ExecutedMove options (hosts m.calls) m.world command dumpId mv w') :
    Ready hosts limit ⟨w', m.calls + 1⟩ := by
  obtain ⟨t, hmoved⟩ := hx.moved
  refine ⟨hx.linked, fun n hn hlimit => ?_,
    fun i j hi => hr.events.distinct i j (Nat.le_of_succ_le hi)⟩
  have hne : (hosts n).auditId ≠ (hosts m.calls).auditId :=
    (hr.events.distinct m.calls n (Nat.le_refl _) hn hlimit).symm
  rw [hmoved.trail _ hne]
  exact hr.events.fresh n (Nat.le_of_succ_le hn) hlimit

end Sound

end DumpLedger
