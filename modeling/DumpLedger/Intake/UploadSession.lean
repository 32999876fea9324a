import DumpLedger.Engine.Driver
import DumpLedger.Engine.Run

/-!
# Receiving an upload

`receive` begins an upload, writes what its source sends to the staging file while it counts and
hashes, and seals the dump. Whatever is thrown on the way is caught, and the upload is failed.

Between two chunks the process does other work, which is part of what `receive` is given. The
`reason` of a failure is not recorded, so it is left out.
-/

namespace DumpLedger.UploadSession

open Lib

inductive IntakeErrorCode
  | grantInvalid | grantSlotsExhausted | uploadTooLarge | uploadIncomplete | storageUnavailable
  | integrityFailure
  deriving DecidableEq, Repr

/-- What is thrown within `receive`. -/
inductive ReceiveThrown
  | intakeError (code : IntakeErrorCode)
  | uploadLimitExceeded
  | uploadStorageFailure
  /-- The source threw, or a timeout aborted the pipeline. -/
  | pipelineError
  /-- The process died, and nothing catches anything. -/
  | died

inductive PipelineStep
  /-- A write of a chunk; one that fails has written `fault` bytes of it. -/
  | chunk (bytes : Bytes) (nowMs : Int) (fault : Option Nat)
  /-- Something that another request does. -/
  | elsewhere (event : Event)

/-- The steps of the pipeline, and whether the source ended or was cut off after them. -/
structure ByteSource where
  steps : List PipelineStep
  finished : Bool

structure ReceiveUpload where
  grantSecret : String
  originalName : String
  contentLength : Option Int
  bytes : ByteSource

structure UploadReceipt where
  dumpId : DumpId
  byteSize : Nat
  sha256 : Sha256

/-- `byteSize`, and the bytes that the hash was updated with. -/
structure Written where
  byteSize : Nat
  hashed : Bytes

abbrev Receiving := Prog Machine ReceiveThrown

section Ports

variable (options : EngineOptions) (hosts : Nat → Host)

/-! ## The lifecycle port -/

def lifecycleExecute (command : Command) : Receiving TransitionReceipt := fun m =>
  match engineExecute options hosts command m with
  | (.ok receipt, m) => (.ok receipt, m)
  | (.error _, m) => (.error .died, m)

def begin (grantSecret originalName : String) : Receiving (Except ErrorCode (DumpId × ℕ+)) := do
  let receipt ← lifecycleExecute options hosts (.beginUpload grantSecret originalName)
  match receipt with
  | .failure _ error => return .error error.code
  | .success receipt =>
    match receipt.dumpId, receipt.maxBytes with
    | some dumpId, some maxBytes => return .ok (dumpId, maxBytes)
    | _, _ => return .error .integrityFailure

/-- `seal`: whether the receipt is `ok`. -/
def «seal» (dumpId : DumpId) (byteSize : Nat) (sha256 : Sha256) : Receiving Bool := do
  let receipt ← lifecycleExecute options hosts (.sealUpload dumpId.text byteSize sha256.text)
  return receipt.ok

/-- `fail`: whether the receipt is `ok`. -/
def fail (dumpId : DumpId) : Receiving Bool := do
  let receipt ← lifecycleExecute options hosts (.failUpload dumpId.text)
  return receipt.ok

/-! ## The byte sink -/

/-- The state after an operation on the staging files. -/
def onStaging (m : Machine) (x : Except Thrown (ObjectStore DumpId)) : Machine :=
  { m with world := m.world.onDumps x }

def appendChunk (dumpId : DumpId) (bytes : Bytes) (nowMs : Int) (fault : Option Nat) :
    Receiving Unit := fun m =>
  match fault with
  | some written =>
    (.error .uploadStorageFailure,
      onStaging m (m.world.vaults.dumps.append nowMs dumpId (bytes.take written)))
  | none =>
    let appended := m.world.vaults.dumps.append nowMs dumpId bytes
    match appended with
    | .ok _ => (.ok (), onStaging m appended)
    | .error _ => (.error .uploadStorageFailure, m)

def closeStaging (dumpId : DumpId) (fault : Option StorageFault) : Receiving Unit := fun m =>
  let closed := m.world.vaults.dumps.syncAndClose dumpId
  match fault, closed with
  | none, .ok _ => (.ok (), onStaging m closed)
  | some .after, .ok _ => (.error .uploadStorageFailure, onStaging m closed)
  | _, _ => (.error .uploadStorageFailure, m)

/-! ## Receiving -/

/-- `destination.write`. -/
def write (dumpId : DumpId) (maxBytes : ℕ+) (w : Written) : PipelineStep → Receiving Written
  | .elsewhere event => do
    Prog.modify fun m => { m with world := step options m.world event }
    return w
  | .chunk bytes nowMs fault =>
    let byteSize := w.byteSize + bytes.length
    if maxBytes < byteSize then throw .uploadLimitExceeded
    else do
      appendChunk dumpId bytes nowMs fault
      return ⟨byteSize, w.hashed ++ bytes⟩

/-- `boundedPipeline`. -/
def boundedPipeline (dumpId : DumpId) (maxBytes : ℕ+) (bytes : ByteSource) : Receiving Written := do
  let written ← Prog.foldEach (write options dumpId maxBytes) ⟨0, []⟩ bytes.steps
  if bytes.finished = true then return written else throw .pipelineError

/-- What is tried: the body, closing the file, sealing the dump. -/
def transfer (dumpId : DumpId) (maxBytes : ℕ+) (bytes : ByteSource)
    (closing : Option StorageFault) : Receiving UploadReceipt := do
  let written ← boundedPipeline options dumpId maxBytes bytes
  closeStaging dumpId closing
  let sha256 := options.digests.sha256 written.hashed
  let «sealed» ← «seal» options hosts dumpId written.byteSize sha256
  if «sealed» = true then return ⟨dumpId, written.byteSize, sha256⟩
  else throw (.intakeError .storageUnavailable)

/-- The error that an upload which was failed is reported with. -/
def ReceiveThrown.reported : ReceiveThrown → IntakeErrorCode
  | .intakeError code => code
  | .uploadLimitExceeded => .uploadTooLarge
  | .uploadStorageFailure => .storageUnavailable
  | .pipelineError | .died => .uploadIncomplete

/-- The compensation, and the error. -/
def abandon (dumpId : DumpId) (code : IntakeErrorCode) : Receiving UploadReceipt := do
  let failed ← fail options hosts dumpId
  if failed = true then throw (.intakeError code) else throw (.intakeError .integrityFailure)

/-- The `catch` of `receive`. -/
def handle (dumpId : DumpId) : ReceiveThrown → Receiving UploadReceipt
  | .died => throw .died
  | error => abandon options hosts dumpId error.reported

/-- The part of `receive` after the upload has begun. -/
def receiveInto (dumpId : DumpId) (maxBytes : ℕ+) (input : ReceiveUpload)
    (closing : Option StorageFault) : Receiving UploadReceipt :=
  if ∃ contentLength ∈ input.contentLength, (maxBytes : Int) < contentLength then
    abandon options hosts dumpId .uploadTooLarge
  else
    tryCatch (transfer options hosts dumpId maxBytes input.bytes closing)
      (handle options hosts dumpId)

/-- `receive`; `closing` is what happens to the file when it is closed. -/
def receive (input : ReceiveUpload) (closing : Option StorageFault) : Receiving UploadReceipt := do
  let begun ← begin options hosts input.grantSecret input.originalName
  match begun with
  | .error code =>
    throw (.intakeError (if code = .grantConsumed then .grantSlotsExhausted else .grantInvalid))
  | .ok (dumpId, maxBytes) => receiveInto options hosts dumpId maxBytes input closing

end Ports

end DumpLedger.UploadSession
