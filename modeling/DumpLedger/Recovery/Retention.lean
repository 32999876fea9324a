import DumpLedger.Engine.Driver
import DumpLedger.Engine.Reads

/-!
# The retention run

It finishes the purges that were begun before, then purges the dumps that are due, up to a limit.
A dump whose commands fail is reported and the run goes on.
-/

namespace DumpLedger

open Lib

inductive RetentionStep
  | «begin» | finish
  deriving DecidableEq, Repr

inductive RetentionRunResult
  | deleted (dumpId : DumpId)
  | failed (dumpId : DumpId) (step : RetentionStep) (error : StableError)

namespace RetentionRunResult

/-- `result.ok`. -/
def ok : RetentionRunResult → Bool
  | deleted _ => true
  | failed _ _ _ => false

def dumpId : RetentionRunResult → DumpId
  | deleted dumpId | failed dumpId _ _ => dumpId

end RetentionRunResult

structure RetentionRunReport where
  results : List RetentionRunResult
  hasMore : Bool

structure RetentionCandidate where
  dumpId : DumpId
  pending : Bool

/-- `options.limit`. -/
def retentionLimit (limit : Option JsNumber) : Except Thrown Nat :=
  orThrow ((limit.getD (.int 32)).bounded? 1 9007199254740991)
    (.rangeError "retention limit must be a positive safe integer")

/-- The pending dumps first. -/
def retentionCandidates (pending due : List DumpId) : List RetentionCandidate :=
  pending.map (fun dumpId => ⟨dumpId, true⟩) ++ due.map (fun dumpId => ⟨dumpId, false⟩)

section Retention

variable (options : EngineOptions) (hosts : Nat → Host)

/-- `engine.dueForPurge(at)`; the clock is asked only without `at`. -/
def readDueForPurge (at? : Option String) : Driver (List DumpId) := fun m =>
  (dueForPurge m.world (hosts m.calls).now at?, { m with calls := m.calls + 1 })

def finishCandidate (dumpId : DumpId) : Driver (List RetentionRunResult) := do
  let finished ← engineExecute options hosts (.finishPurge dumpId.text)
  match finished with
  | .failure _ error => return [.failed dumpId .finish error]
  | .success _ => return [.deleted dumpId]

/-- The body of the loop. -/
def purgeCandidate (candidate : RetentionCandidate) : Driver (List RetentionRunResult) :=
  if candidate.pending = true then finishCandidate options hosts candidate.dumpId
  else do
    let begun ← engineExecute options hosts (.beginPurge candidate.dumpId.text)
    match begun with
    | .failure _ error => return [.failed candidate.dumpId .begin error]
    | .success _ => finishCandidate options hosts candidate.dumpId

def runRetention (at? : Option String) (limit? : Option JsNumber) : Driver RetentionRunReport := do
  let limit ← Prog.lift (retentionLimit limit?)
  let due ← readDueForPurge hosts at?
  let pending ← Prog.gets fun m => pendingPurgeCompletion m.world
  let candidates := retentionCandidates pending due
  let results ← Prog.collect (purgeCandidate options hosts) (candidates.take limit)
  return ⟨results, decide (limit < candidates.length) || results.any fun result => !result.ok⟩

end Retention

end DumpLedger
