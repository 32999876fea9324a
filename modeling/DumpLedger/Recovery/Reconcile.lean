import DumpLedger.Engine.Driver

/-!
# Reconciliation

What runs when the process starts: staging files without a dump are removed once they
are old enough, then each dump that was left half way is brought to an end, by the phase
the ledger has it in and by what the vault has of it.

The dumps are those of the snapshot taken at the start. A dump whose row and objects do
not fit together is reported and left for an operator.
-/

namespace DumpLedger

open Lib

inductive ReconciliationOutcome
  | available
  | rejected
  | deleted
  | transferFailed
  | orphanRemoved
  | integrityAlarm
  deriving DecidableEq, Repr

structure ReconciliationAction where
  dumpId : DumpId
  outcome : ReconciliationOutcome
  detail : String
  deriving DecidableEq

structure ReconciliationOptions where
  nowMs : Int
  orphanGraceMs : Int := 3600000

section Reconcile

variable (options : EngineOptions) (hosts : Nat → Host)

def requireSuccess : TransitionReceipt → Driver Unit
  | .success _ => return
  | .failure action error =>
    throw (.otherError s!"reconciliation {action.text} failed: {error.code.text}")

def inspectQuarantined (dumpId : DumpId) : Driver ReconciliationOutcome := do
  let accepted ← engineExecute options hosts (.acceptDump dumpId.text)
  match accepted with
  | .success _ => return .available
  | .failure action error =>
    if error.code ≠ .inspectionOutcomeMismatch then
      requireSuccess (.failure action error)
    let rejected ← engineExecute options hosts (.rejectDump dumpId.text)
    requireSuccess rejected
    return .rejected

/-- `engine.execute` of a command that has to succeed. -/
def executeRequired (command : Command) : Driver Unit := do
  let receipt ← engineExecute options hosts command
  requireSuccess receipt

def removeOrphan (options : ReconciliationOptions) (known : List DumpId) (orphan : DumpId) :
    Driver (List ReconciliationAction) := do
  if orphan ∈ known then
    return []
  let modified ← Prog.gets fun m => m.world.vaults.dumps.stagingModifiedAt orphan
  match modified with
  | some modified =>
    if options.orphanGraceMs ≤ options.nowMs - modified then
      vaultPerform hosts (.removeStaging orphan)
      return [⟨orphan, .orphanRemoved, "removed aged unreferenced startup staging object"⟩]
    return []
  | none => return []

def reconcileSealed (dump : DumpRow) (presence : VaultPresence) :
    Driver (List ReconciliationAction) := do
  if presence.staging = presence.vault then
    return [⟨dump.dumpId, .integrityAlarm,
      "sealed dump does not have exactly one recoverable object"⟩]
  if dump.blobState = .staging then
    executeRequired options hosts (.promoteObject dump.dumpId.text)
  else if dump.blobState ≠ .vault ∨ presence.vault = false then
    return [⟨dump.dumpId, .integrityAlarm, "sealed ledger and vault blob states disagree"⟩]
  executeRequired options hosts (.markQuarantined dump.dumpId.text)
  let outcome ← inspectQuarantined options hosts dump.dumpId
  return [⟨dump.dumpId, outcome, "resumed sealed dump promotion and inspection"⟩]

def reconcileDump (dump : DumpRow) : Driver (List ReconciliationAction) := do
  let presence ← Prog.gets fun m => m.world.vaults.dumps.inspectPresence dump.dumpId
  match dump.phase with
  | .receiving =>
    vaultPerform hosts (.removeStaging dump.dumpId)
    executeRequired options hosts (.failUpload dump.dumpId.text)
    return [⟨dump.dumpId, .transferFailed, "interrupted receiving upload was rejected"⟩]
  | .sealed => reconcileSealed options hosts dump presence
  | .quarantined =>
    if presence.vault = false then
      return [⟨dump.dumpId, .integrityAlarm, "quarantined dump has no vault object"⟩]
    let outcome ← inspectQuarantined options hosts dump.dumpId
    return [⟨dump.dumpId, outcome, "repeated idempotent inspection"⟩]
  | .available =>
    if presence.vault = false then
      executeRequired options hosts (.beginPurge dump.dumpId.text)
      executeRequired options hosts (.finishPurge dump.dumpId.text)
      return [⟨dump.dumpId, .integrityAlarm,
        "missing available bytes were made non-downloadable and tombstoned"⟩]
    return []
  | .rejected =>
    if presence.staging = true then
      vaultPerform hosts (.removeStaging dump.dumpId)
      return [⟨dump.dumpId, .rejected, "removed rejected staging residue"⟩]
    return []
  | .deleting =>
    executeRequired options hosts (.finishPurge dump.dumpId.text)
    return [⟨dump.dumpId, .deleted, "finished interrupted purge"⟩]
  | .deleted =>
    if presence.staging = true ∨ presence.vault = true then
      vaultPerform hosts (.remove dump.dumpId)
      return [⟨dump.dumpId, .integrityAlarm, "removed bytes found after tombstone"⟩]
    return []

/-- The actions taken, in order. -/
def reconcile (recovery : ReconciliationOptions) : Driver (List ReconciliationAction) := do
  let initial ← Prog.gets fun m => m.world.ledger.dumps.sorted
  let stagingIds ← Prog.gets fun m => m.world.vaults.dumps.listStagingIds
  let orphans ← Prog.collect (removeOrphan hosts recovery (initial.map DumpRow.dumpId)) stagingIds
  let actions ← Prog.collect (reconcileDump options hosts) initial
  return orphans ++ actions

end Reconcile

end DumpLedger
