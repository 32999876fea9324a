import DumpLedger.Recovery.Reconcile

/-!
# The other two ways to complete a dump

`EngineUploadPostProcessor.process` completes a dump after its upload, and `importBundle`
completes each dump that it has staged. Both accept the dump or, when the inspection says
otherwise, reject it; what they do with a receipt that failed differs.
-/

namespace DumpLedger

open Lib

section Completion

variable (options : EngineOptions) (hosts : Nat → Host)

/-! ## Accepting or rejecting -/

/-- `AcceptDump`, and `RejectDump` when the inspection rejected the dump. -/
def acceptOrReject (require : TransitionReceipt → Driver Unit) (dumpId : DumpId) :
    Driver DumpPhase := do
  let accepted ← engineExecute options hosts (.acceptDump dumpId.text)
  match accepted with
  | .success _ => return .available
  | .failure action error =>
    if error.code ≠ .inspectionOutcomeMismatch then
      require (.failure action error)
    let rejected ← engineExecute options hosts (.rejectDump dumpId.text)
    require rejected
    return .rejected

/-- `engine.execute` of a command whose receipt is looked at. -/
def executeWith (require : TransitionReceipt → Driver Unit) (command : Command) : Driver Unit := do
  let receipt ← engineExecute options hosts command
  require receipt

/-! ## After an upload -/

/-- `requireSuccess` of the post-processor. -/
def requireProcessed : TransitionReceipt → Driver Unit
  | .success _ => return
  | .failure action error => throw (.otherError s!"{action.text} failed: {error.code.text}")

/-- The dump has to be quarantined by now. -/
def processQuarantined (dumpId : DumpId) : Driver DumpPhase := do
  let dump ← Prog.gets fun m => m.world.ledger.dumps.find? dumpId
  match dump with
  | none => throw (.otherError "post-processing cannot resume from missing")
  | some dump =>
    if dump.phase = .quarantined then acceptOrReject options hosts requireProcessed dumpId
    else throw (.otherError s!"post-processing cannot resume from {Vocabulary.text dump.phase}")

/-- The dump is promoted, unless it is in the vault already, and quarantined. -/
def processSealed (dumpId : DumpId) (blobState : BlobState) : Driver Unit :=
  if blobState = .staging then do
    executeWith options hosts requireProcessed (.promoteObject dumpId.text)
    executeWith options hosts requireProcessed (.markQuarantined dumpId.text)
  else executeWith options hosts requireProcessed (.markQuarantined dumpId.text)

/-- `process`. -/
def processUpload (dumpIdText : String) : Driver DumpPhase := do
  let dumpId ← Prog.lift (parseDumpId dumpIdText)
  let dump ← Prog.gets fun m => m.world.ledger.dumps.find? dumpId
  match dump with
  | none => throw (.otherError "post-processing dump was not found")
  | some dump =>
    match dump.phase with
    | .available | .rejected => return dump.phase
    | .sealed => do
      processSealed options hosts dumpId dump.blobState
      processQuarantined options hosts dumpId
    | _ => processQuarantined options hosts dumpId

/-! ## In an import -/

/-- `requireOk`. -/
def requireOk : TransitionReceipt → Driver Unit
  | .success _ => return
  | .failure _ error => throw (.ledgerError error.code error.message)

/-- What `importBundle` does with a dump that it has staged. -/
def completeStaged (dumpId : DumpId) : Driver DumpPhase := do
  executeWith options hosts requireOk (.promoteObject dumpId.text)
  executeWith options hosts requireOk (.markQuarantined dumpId.text)
  acceptOrReject options hosts requireOk dumpId

end Completion

end DumpLedger
