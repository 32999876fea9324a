import DumpLedger.Engine.Plan

/-!
# Reading without a command

What the engine answers from the ledger without a command, an audit event or a change.
-/

namespace DumpLedger

open Lib

/-! ## The quota of a grant -/

structure GrantQuota where
  maxUploads : Nat
  uploadsUsed : Nat
  maxBytes : ℕ+
  expiresAt : IsoTimestamp

/-- `grantQuota`: issued and consumed grants have one. -/
def grantQuota (options : EngineOptions) (w : World) (grantSecret : String) :
    Except Thrown (Option GrantQuota) := do
  let secret ← assertText grantSecret "grantSecret" 1024
  match w.ledger.findGrantByDigest (options.digests.digestSecret secret.text).bounded with
  | none => return none
  | some grant =>
    if grant.state ≠ .issued ∧ grant.state ≠ .consumed then return none
    else
      return some
        { maxUploads := grant.maxUploads, uploadsUsed := grant.uploadsUsed,
          maxBytes := grant.maxBytes, expiresAt := grant.expiresAt }

/-! ## What a retention run works on -/

/-- `dueForPurge` of the ledger: the `WHERE` compares the times as text. -/
def SqliteLedger.dueForPurge (l : SqliteLedger) (at' : IsoTimestamp) : List DumpId :=
  (l.dumps.sorted.filter fun d => decide ((d.phase = .available ∨ d.phase = .rejected) ∧
    ∃ purgeAt ∈ d.purgeAt, purgeAt ≤ at')).map DumpRow.dumpId

/-- `dueForPurge` of the engine. -/
def dueForPurge (w : World) (now : String) (at? : Option String) : Except Thrown (List DumpId) := do
  let at' ← assertIsoTimestamp (at?.getD now) "retention time"
  return w.ledger.dueForPurge at'

/-- `pendingPurgeCompletion`: `snapshot` has the dumps by their identifiers. -/
def pendingPurgeCompletion (w : World) : List DumpId :=
  (w.ledger.dumps.sorted.filter fun d => decide (d.phase = .deleting)).map DumpRow.dumpId

end DumpLedger
