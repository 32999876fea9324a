import DumpLedger.Engine.Execute
import DumpLedger.Ledger.Changes
import DumpLedger.Lib.Run

/-!
# Runs of the engine

An event is a command, a step of a caller that streams bytes into a staging object, or a
restart of the process. `step` takes one event; a run from `World.fresh` takes any list.

A command during which the process died is followed by a restart within the same step.

* `step_ledger` — only a command that succeeded changes the ledger, by one transaction
* `ledger_invariant` — what every transaction keeps holds along every run
-/

namespace DumpLedger

open Lib

inductive Event
  | command (host : Host) (command : Command)
  /-- The bytes of an upload, or of an import. -/
  | append (nowMs : Int) (dumpId : DumpId) (bytes : Bytes)
  | syncAndClose (dumpId : DumpId)
  /-- An import stages the bytes of a dump the ledger has no row of. -/
  | stageImport (nowMs : Int) (dumpId : DumpId)
  /-- An import drops bytes it staged and did not hand over. -/
  | dropImport (dumpId : DumpId)
  | appendSymbol (nowMs : Int) (artifactId : SymbolArtifactId) (bytes : Bytes)
  | syncAndCloseSymbol (artifactId : SymbolArtifactId)
  | reopen

namespace World

/-- A caller's operation on the dump vault; one that throws changes nothing. -/
def onDumps (w : World) (x : Except Thrown (ObjectStore DumpId)) : World :=
  match x with
  | .ok dumps => { w with vaults := { w.vaults with dumps } }
  | .error _ => w

/-- A caller's operation on the symbol vault. -/
def onSymbols (w : World) (x : Except Thrown (ObjectStore SymbolArtifactId)) : World :=
  match x with
  | .ok symbols => { w with vaults := { w.vaults with symbols } }
  | .error _ => w

@[simp] theorem ledger_onDumps (w : World) (x : Except Thrown (ObjectStore DumpId)) :
    (w.onDumps x).ledger = w.ledger := by
  cases x <;> rfl

@[simp] theorem ledger_onSymbols (w : World) (x : Except Thrown (ObjectStore SymbolArtifactId)) :
    (w.onSymbols x).ledger = w.ledger := by
  cases x <;> rfl

@[simp] theorem symbols_onDumps (w : World) (x : Except Thrown (ObjectStore DumpId)) :
    (w.onDumps x).vaults.symbols = w.vaults.symbols := by
  cases x <;> rfl

@[simp] theorem dumps_onSymbols (w : World) (x : Except Thrown (ObjectStore SymbolArtifactId)) :
    (w.onSymbols x).vaults.dumps = w.vaults.dumps := by
  cases x <;> rfl

@[simp] theorem ledger_reopen (w : World) : w.reopen.ledger = w.ledger := rfl

end World

/-- The world a command leaves; a process that died is started again. -/
def settle (out : Outcome × World) : World :=
  match out.1 with
  | .crashed => out.2.reopen
  | .receipt _ => out.2

theorem ledger_settle (out : Outcome × World) : (settle out).ledger = out.2.ledger := by
  obtain ⟨o, w⟩ := out
  cases o <;> rfl

def step (options : EngineOptions) (w : World) : Event → World
  | .command host command => settle (execute options host w command)
  | .append nowMs dumpId bytes => w.onDumps (w.vaults.dumps.append nowMs dumpId bytes)
  | .syncAndClose dumpId => w.onDumps (w.vaults.dumps.syncAndClose dumpId)
  | .stageImport nowMs dumpId =>
    if w.ledger.dumps.contains dumpId = true then w
    else w.onDumps (w.vaults.dumps.createStaging nowMs dumpId)
  | .dropImport dumpId =>
    if w.ledger.dumps.contains dumpId = true then w
    else w.onDumps (.ok (w.vaults.dumps.removeStaging dumpId))
  | .appendSymbol nowMs artifactId bytes =>
    w.onSymbols (w.vaults.symbols.append nowMs artifactId bytes)
  | .syncAndCloseSymbol artifactId => w.onSymbols (w.vaults.symbols.syncAndClose artifactId)
  | .reopen => w.reopen

/-- The world after a run of an instance that started empty. -/
def reached (options : EngineOptions) (events : List Event) : World :=
  run (step options) .fresh events

theorem reached_concat {options : EngineOptions} {events : List Event} {e : Event} :
    reached options (events ++ [e]) = step options (reached options events) e := by
  unfold reached
  rw [run_append, run_cons, run_nil]

section Runs

variable {options : EngineOptions} {w : World} {e : Event}

/-- The transaction an event committed, with the command it came from. -/
structure Committed (options : EngineOptions) (w : World) (e : Event) (host : Host)
    (command : Command) (p : Plan) (op : LedgerOp) (r : LedgerResult) (l : SqliteLedger) :
    Prop where
  event : e = .command host command
  plan : plan options host w command = .ok p
  ledger : p.ledger = some op
  run : op.run options.digests.sha256 p.event w.ledger = .ok (r, l)
  outcome : (execute options host w command).1 = .receipt (.success (p.receipt.withResult r))

/-- **An event leaves the ledger alone or commits one transaction.** -/
theorem step_ledger (options : EngineOptions) (w : World) (e : Event) :
    (step options w e).ledger = w.ledger ∨
      ∃ host command p op r, Committed options w e host command p op r (step options w e).ledger := by
  cases e with
  | command host command =>
    show (settle (execute options host w command)).ledger = _ ∨ _
    rw [step, ledger_settle]
    rcases execute_ledger options host w command with h | ⟨p, op, r, hp, hop, hrun, hout⟩
    · exact Or.inl h
    · exact Or.inr ⟨host, command, p, op, r, rfl, hp, hop, hrun, hout⟩
  | stageImport nowMs dumpId =>
    refine Or.inl ?_
    simp only [step]
    split
    · rfl
    · exact World.ledger_onDumps ..
  | dropImport dumpId =>
    refine Or.inl ?_
    simp only [step]
    split
    · rfl
    · exact World.ledger_onDumps ..
  | append | syncAndClose => exact Or.inl (World.ledger_onDumps ..)
  | appendSymbol | syncAndCloseSymbol => exact Or.inl (World.ledger_onSymbols ..)
  | reopen => exact Or.inl rfl

/-- A command that succeeded committed the transaction of its plan. -/
theorem committed_of_succeeded {host : Host} {command : Command} {p : Plan} {op : LedgerOp}
    (h : (execute options host w command).1.succeeded = true)
    (hp : plan options host w command = .ok p) (hop : p.ledger = some op) :
    ∃ r, Committed options w (.command host command) host command p op r
      (step options w (.command host command)).ledger := by
  obtain ⟨p', r, hp', -, htx, hout⟩ := execute_succeeded h
  rw [hp] at hp'
  cases hp'
  rcases transaction_eq_ok.mp htx with ⟨hnone, -, -⟩ | ⟨op', hop', -, hrun⟩
  · rw [hop] at hnone
    cases hnone
  · rw [hop] at hop'
    cases hop'
    refine ⟨r, rfl, hp, hop, ?_, hout⟩
    rw [hrun, step, ledger_settle]

/-- Every transaction keeps `I`. -/
def KeptByTransactions (options : EngineOptions) (I : SqliteLedger → Prop) : Prop :=
  ∀ (op : LedgerOp) (event : EventIdentity) (l : SqliteLedger) (r : LedgerResult)
    (l' : SqliteLedger), I l → op.run options.digests.sha256 event l = .ok (r, l') → I l'

theorem ledger_step {I : SqliteLedger → Prop} (hrun : KeptByTransactions options I)
    (hi : I w.ledger) : I (step options w e).ledger := by
  rcases step_ledger options w e with h | ⟨host, command, p, op, r, hc⟩
  · rw [h]
    exact hi
  · exact hrun op p.event _ r _ hi hc.run

/-- **What every transaction keeps holds after every run.** -/
theorem ledger_invariant {I : SqliteLedger → Prop} (hfresh : I .fresh)
    (hrun : KeptByTransactions options I) (events : List Event) : I (reached options events).ledger :=
  invariant_run (I := fun w : World => I w.ledger)
    (fun _ _ h => ledger_step hrun h) hfresh

/-- The foreign keys hold in every state of a run. -/
theorem reached_linked (events : List Event) : Linked (reached options events).ledger :=
  ledger_invariant linked_fresh (fun _ _ _ _ _ => run_linked) events

end Runs

/-! ## A small instance -/

namespace Sample

/-- SHA-256 on the inputs the small runs hash. -/
def sha256 (bytes : Bytes) : Sha256 :=
  if bytes = [77, 68, 77, 80] then
    ⟨"0bb2fcd163de4d5e0b8bebb54a4613f8693b546003870b8465a882cf080684f4", by decide +kernel⟩
  else if bytes = [97, 112, 112, 0, 49] then
    ⟨"26a732d42da182948c5628c54510b187784c45c0cd750f815ae6224ff2b38a19", by decide +kernel⟩
  else
    ⟨"e3b0c44298fc1c149afbf4c8996fb92427ae41e4649b934ca495991b7852b855", by decide +kernel⟩

/-- One secret, under a key of zeros. -/
def digestSecret (_ : String) : Sha256 :=
  ⟨"a4ad39506530dc8135d54fe87ee41d82d99b34717886f5496ed1e11d6f9e929d", by decide +kernel⟩

def options : EngineOptions where
  digests := { sha256, digestSecret }
  fingerprint := "Zmh6rfhivXdsj8GLjp-OIAiXFIVu4jOzkCpZHQ1fKSU"
  assertRichAnalysis _ _ := .error (.typeError "invalid rich report")

instance neZero_ten : NeZero 10 := ⟨by decide⟩

def auditId (n : Fin 10) : AuditEventId :=
  ⟨"audit_0000000000000000000000000" ++ String.singleton (Nat.digitChar n),
    by revert n; decide +kernel⟩

/-- A host without faults; the event gets the identifier `auditId n`. -/
def host (n : Fin 10) : Host where
  now := "2026-01-01T00:00:00.000Z"
  nowMs := 1767225600000
  customerId := ⟨"00000000-0000-4000-8000-000000000001", by decide +kernel⟩
  caseId := ⟨"case_00000000000000000000000001", by decide +kernel⟩
  grantId := ⟨"grant_00000000000000000000000001", by decide +kernel⟩
  dumpId := ⟨"dump_00000000000000000000000001", by decide +kernel⟩
  auditId := auditId n
  symbolId := ⟨"symbol_00000000000000000000000001", by decide +kernel⟩
  analysisId := ⟨"analysis_00000000000000000000000001", by decide +kernel⟩
  secret := "0123456789abcdefghijklmnop"
  inspect _ _ := .rejected "not a minidump"
  storageFault := none
  ledgerFault := false
  crash := false

/-- A customer, a case, a grant of one slot and an upload that took it. -/
def uploadRun : List Event :=
  [.command (host 0) (.createCustomer "Acme"),
    .command (host 1) (.createCase "00000000-0000-4000-8000-000000000001" "Crash on start"),
    .command (host 2)
      (.issueGrant "case_00000000000000000000000001" "2026-02-01T00:00:00.000Z" 1024 none),
    .command (host 3) (.beginUpload "0123456789abcdefghijklmnop" "crash.dmp")]

/-- An upload that is complete and sealed. -/
def sealedRun : List Event :=
  uploadRun ++
    [.append 1767225600000 ⟨"dump_00000000000000000000000001", by decide +kernel⟩
        [77, 68, 77, 80],
      .syncAndClose ⟨"dump_00000000000000000000000001", by decide +kernel⟩,
      .command (host 4)
        (.sealUpload "dump_00000000000000000000000001" 4
          "0bb2fcd163de4d5e0b8bebb54a4613f8693b546003870b8465a882cf080684f4")]

/-- An import that has brought in a customer and a case in the state `status`. -/
def importRun (status : String) : List Event :=
  [.command (host 0)
      (.beginImport "manifest"
        { customers := .int 1, cases := .int 1, grants := .int 1, dumps := .int 0,
          auditEvents := none }),
    .command (host 1)
      (.importCustomer
        { customerId := "00000000-0000-4000-8000-000000000001", displayName := "Acme",
          createdAt := "2025-01-01T00:00:00.000Z", customerNo := none }),
    .command (host 2)
      (.importCase
        { caseId := "case_00000000000000000000000001",
          customerId := "00000000-0000-4000-8000-000000000001", title := "Crash on start",
          status, createdAt := "2025-01-01T00:00:00.000Z" })]

/-- A grant record in the state `state`, with one slot, of which `uploadsUsed` are used. -/
def grantRecord (state : String) (uploadsUsed : Nat) : ImportGrantRecord where
  grantId := "grant_00000000000000000000000001"
  caseId := "case_00000000000000000000000001"
  secretDigest := "a4ad39506530dc8135d54fe87ee41d82d99b34717886f5496ed1e11d6f9e929d"
  state := state
  expiresAt := "2026-02-01T00:00:00.000Z"
  maxBytes := 1024
  maxUploads := some (.int 1)
  uploadsUsed := some (.int uploadsUsed)
  consumedByDumpId := none
  createdAt := "2025-01-01T00:00:00.000Z"

end Sample

end DumpLedger
