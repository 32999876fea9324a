import DumpLedger.Ledger.Transaction

/-!
# Commands and receipts

A command carries raw values, as its caller has them: identifiers, timestamps and
vocabulary words as text, numbers as JavaScript numbers, sizes as bigints.

The validators of the engine turn raw values into checked ones or throw. Each is the
check of its source counterpart; the checks text, identifiers and timestamps share are
in the domain modules.
-/

namespace DumpLedger

open Lib

/-! ## Raw records -/

structure ImportCustomerRecord where
  customerId : String
  displayName : String
  createdAt : String
  customerNo : Option JsNumber

structure ImportCaseRecord where
  caseId : String
  customerId : String
  title : String
  status : String
  createdAt : String

structure ImportGrantRecord where
  grantId : String
  caseId : String
  secretDigest : String
  state : String
  expiresAt : String
  maxBytes : Int
  maxUploads : Option JsNumber
  uploadsUsed : Option JsNumber
  consumedByDumpId : Option String
  createdAt : String

structure ImportDumpRecord where
  dumpId : String
  caseId : String
  phase : String
  originalName : String
  byteSize : Option Int
  sha256 : Option String
  validation : String
  coverage : Option String
  inspectionError : Option String
  inspectionFacts : Option JsonObject
  receivedAt : String
  availableAt : Option String
  purgeAt : Option String
  purgedAt : Option String

structure ImportAuditEventRecord where
  eventId : String
  occurredAt : String
  action : String
  customerId : Option String
  caseId : Option String
  dumpId : Option String
  detail : JsonObject

structure RawImportCounts where
  customers : JsNumber
  cases : JsNumber
  grants : JsNumber
  dumps : JsNumber
  auditEvents : Option JsNumber

structure RawImportSummary where
  imported : RawImportCounts
  skipped : JsNumber

/-- The fields of a `SealSymbol`; `file` and `id` are the pair its kind resolves by. -/
structure SealSymbolFields where
  artifactId : String
  kind : SymbolArtifactKind
  file : String
  id : String
  byteSize : Int
  sha256 : String
  product : Option String
  version : Option String
  arch : Option String
  ingestAuth : Option String

/-- A canonical report as a caller sends it. -/
structure RawRichAnalysisDetail where
  reportJson : String
  reportDigest : String

/-- The checked fields a canonical report has to agree with. -/
structure RichAnalysisBinding where
  identity : AnalysisIdentity
  outcome : AnalysisOutcome
  summary : String
  facts : Option JsonObject

/-! ## Commands -/

inductive Command
  | createCustomer (displayName : String)
  | createCase (customerId title : String)
  | startInvestigation (caseId : String)
  | waitForCustomer (caseId : String)
  | resumeInvestigation (caseId : String)
  | resolveCase (caseId : String)
  | closeCase (caseId : String)
  | issueGrant (caseId expiresAt : String) (maxBytes : Int) (maxUploads : Option JsNumber)
  | revokeGrant (grantId : String)
  | expireGrant (grantId : String)
  | beginUpload (grantSecret originalName : String)
  | sealUpload (dumpId : String) (byteSize : Int) (sha256 : String)
  | failUpload (dumpId : String)
  | promoteObject (dumpId : String)
  | markQuarantined (dumpId : String)
  | acceptDump (dumpId : String)
  | rejectDump (dumpId : String)
  | authorizeDownload (dumpId : String)
  | setRetention (dumpId purgeAt : String)
  | beginPurge (dumpId : String)
  | finishPurge (dumpId : String)
  | recordAnalysis (dumpId analyzerName analyzerVersion kind inputSha256 outcome summary : String)
      (facts : Option JsonObject) (duplicateOf : Option String)
      (detail : Option RawRichAnalysisDetail)
  | ingestSymbol (kind : String)
  | sealSymbol (fields : SealSymbolFields)
  | failSymbol (artifactId : String)
  | purgeSymbol (artifactId : String)
  | beginImport (manifestDigest : String) (counts : RawImportCounts)
  | importCustomer (record : ImportCustomerRecord)
  | importCase (record : ImportCaseRecord)
  | importGrant (record : ImportGrantRecord) (forcedState : Option String)
  | importDumpStaged (record : ImportDumpRecord)
  | importAuditEvent (record : ImportAuditEventRecord)
  | finishImport (importId : String) (summary : RawImportSummary)

/-- `command.type`. -/
inductive LifecycleAction
  | createCustomer | createCase | startInvestigation | waitForCustomer | resumeInvestigation
  | resolveCase | closeCase | issueGrant | revokeGrant | expireGrant | beginUpload | sealUpload
  | failUpload | promoteObject | markQuarantined | acceptDump | rejectDump | authorizeDownload
  | setRetention | beginPurge | finishPurge | recordAnalysis | ingestSymbol | sealSymbol
  | failSymbol | purgeSymbol | beginImport | importCustomer | importCase | importGrant
  | importDumpStaged | importAuditEvent | finishImport
  deriving DecidableEq, Repr

def Command.type : Command → LifecycleAction
  | createCustomer .. => .createCustomer
  | createCase .. => .createCase
  | startInvestigation .. => .startInvestigation
  | waitForCustomer .. => .waitForCustomer
  | resumeInvestigation .. => .resumeInvestigation
  | resolveCase .. => .resolveCase
  | closeCase .. => .closeCase
  | issueGrant .. => .issueGrant
  | revokeGrant .. => .revokeGrant
  | expireGrant .. => .expireGrant
  | beginUpload .. => .beginUpload
  | sealUpload .. => .sealUpload
  | failUpload .. => .failUpload
  | promoteObject .. => .promoteObject
  | markQuarantined .. => .markQuarantined
  | acceptDump .. => .acceptDump
  | rejectDump .. => .rejectDump
  | authorizeDownload .. => .authorizeDownload
  | setRetention .. => .setRetention
  | beginPurge .. => .beginPurge
  | finishPurge .. => .finishPurge
  | recordAnalysis .. => .recordAnalysis
  | ingestSymbol .. => .ingestSymbol
  | sealSymbol .. => .sealSymbol
  | failSymbol .. => .failSymbol
  | purgeSymbol .. => .purgeSymbol
  | beginImport .. => .beginImport
  | importCustomer .. => .importCustomer
  | importCase .. => .importCase
  | importGrant .. => .importGrant
  | importDumpStaged .. => .importDumpStaged
  | importAuditEvent .. => .importAuditEvent
  | finishImport .. => .finishImport

/-- The text of `command.type`. -/
def LifecycleAction.text : LifecycleAction → String
  | createCustomer => "CreateCustomer"
  | createCase => "CreateCase"
  | startInvestigation => "StartInvestigation"
  | waitForCustomer => "WaitForCustomer"
  | resumeInvestigation => "ResumeInvestigation"
  | resolveCase => "ResolveCase"
  | closeCase => "CloseCase"
  | issueGrant => "IssueGrant"
  | revokeGrant => "RevokeGrant"
  | expireGrant => "ExpireGrant"
  | beginUpload => "BeginUpload"
  | sealUpload => "SealUpload"
  | failUpload => "FailUpload"
  | promoteObject => "PromoteObject"
  | markQuarantined => "MarkQuarantined"
  | acceptDump => "AcceptDump"
  | rejectDump => "RejectDump"
  | authorizeDownload => "AuthorizeDownload"
  | setRetention => "SetRetention"
  | beginPurge => "BeginPurge"
  | finishPurge => "FinishPurge"
  | recordAnalysis => "RecordAnalysis"
  | ingestSymbol => "IngestSymbol"
  | sealSymbol => "SealSymbol"
  | failSymbol => "FailSymbol"
  | purgeSymbol => "PurgeSymbol"
  | beginImport => "BeginImport"
  | importCustomer => "ImportCustomer"
  | importCase => "ImportCase"
  | importGrant => "ImportGrant"
  | importDumpStaged => "ImportDumpStaged"
  | importAuditEvent => "ImportAuditEvent"
  | finishImport => "FinishImport"

/-! ## Receipts -/

structure TransitionSuccess where
  action : LifecycleAction
  occurredAt : IsoTimestamp
  importId : Option AuditEventId := none
  customerId : Option CustomerId := none
  caseId : Option CaseId := none
  grantId : Option GrantId := none
  grantSecret : Option String := none
  dumpId : Option DumpId := none
  maxBytes : Option ℕ+ := none
  maxUploads : Option Nat := none
  phase : Option DumpPhase := none
  artifactId : Option SymbolArtifactId := none
  deduplicated : Option Bool := none
  dump : Option DumpRow := none
  purgeAt : Option IsoTimestamp := none
  customerNo : Option Nat := none
  revokedGrantIds : Option (List GrantId) := none
  analysis : Option AnalysisRow := none
  replayed : Option Bool := none

/-- The fields a transaction's result fills in. -/
def TransitionSuccess.withResult (s : TransitionSuccess) : LedgerResult → TransitionSuccess
  | .done => s
  | .customerNo n => { s with customerNo := some n }
  | .revoked grantIds => { s with revokedGrantIds := some grantIds }
  | .dump dump => { s with phase := some dump.phase, dump := some dump }
  | .analysis report replayed => { s with analysis := some report, replayed := some replayed }
  | .artifact artifact deduplicated =>
    { s with artifactId := some artifact.artifactId, deduplicated := some deduplicated }

inductive TransitionReceipt
  | success (receipt : TransitionSuccess)
  | failure (action : LifecycleAction) (error : StableError)

namespace TransitionReceipt

/-- `receipt.ok`. -/
def ok : TransitionReceipt → Bool
  | success _ => true
  | failure _ _ => false

end TransitionReceipt

/-! ## Validators -/

def assertPositiveBigint (value : Int) (name : String) : Except Thrown ℕ+ :=
  if h : 0 < value then .ok ⟨value.toNat, by omega⟩
  else .error (invalidInput s!"{name} must be a positive bigint")

def assertNonnegativeBigint (value : Int) (name : String) : Except Thrown Nat :=
  if 0 ≤ value then .ok value.toNat
  else .error (invalidInput s!"{name} must be a nonnegative bigint")

theorem assertPositiveBigint_coe {name : String} (n : ℕ+) :
    assertPositiveBigint (n : Nat) name = .ok n := by
  have hn : (0 : Int) < ((n : Nat) : Int) := by exact_mod_cast n.pos
  unfold assertPositiveBigint
  rw [dif_pos hn]
  rfl

theorem assertNonnegativeBigint_coe {name : String} (n : Nat) :
    assertNonnegativeBigint n name = .ok n := by
  simp [assertNonnegativeBigint]

theorem assertNonnegativeBigint_eq_ok {value : Int} {name : String} {n : Nat} :
    assertNonnegativeBigint value name = .ok n ↔ value = n := by
  unfold assertNonnegativeBigint
  split
  · simp only [Except.ok.injEq]
    omega
  · simp only [reduceCtorEq, false_iff]
    omega

def assertNullableIsoTimestamp (value : Option String) (name : String) :
    Except Thrown (Option IsoTimestamp) :=
  forOption value fun v => assertIsoTimestamp v name

def assertNullableByteSize (value : Option Int) : Except Thrown (Option Nat) :=
  forOption value fun v => assertNonnegativeBigint v "byteSize"

def assertNullableSha256 (value : Option String) : Except Thrown (Option Sha256) :=
  forOption value assertSha256

def assertNullableCoverage (value : Option String) : Except Thrown (Option CoverageKind) :=
  forOption value fun v => orThrow (isCoverageKind v) (invalidInput "coverage is invalid")

def assertPlainObject (value : JsonObject) (name : String) (maxSerializedBytes : Nat) :
    Except Thrown JsonObject := do
  guardThat ((Json.obj value).serializedBytes ≤ maxSerializedBytes)
    (invalidInput s!"{name} exceeds its serialized size bound")
  return value

/-- A number of upload slots; absent counts as one. -/
def assertMaxUploads (value : Option JsNumber) :
    Except Thrown {n : Nat // 1 ≤ n ∧ n ≤ maxGrantUploadSlots} :=
  match value with
  | none => .ok ⟨1, by decide⟩
  | some value =>
    match h : value.bounded? 1 maxGrantUploadSlots with
    | some n => .ok ⟨n, JsNumber.bounded?_eq_some h⟩
    | none =>
      .error (invalidInput s!"maxUploads must be an integer between 1 and {maxGrantUploadSlots}")

def assertUploadsUsed (value : JsNumber) : Except Thrown {n : Nat // n ≤ maxGrantUploadSlots} :=
  match h : value.bounded? 0 maxGrantUploadSlots with
  | some n => .ok ⟨n, (JsNumber.bounded?_eq_some h).2⟩
  | none =>
    .error (invalidInput s!"uploadsUsed must be an integer between 0 and {maxGrantUploadSlots}")

theorem assertMaxUploads_int {n : Nat} (h : 1 ≤ n ∧ n ≤ maxGrantUploadSlots) :
    assertMaxUploads (some (.int n)) = .ok ⟨n, h⟩ := by
  have hb := JsNumber.bounded?_int h.1 h.2 (h.2.trans (by decide))
  unfold assertMaxUploads
  split
  · rename_i heq
    cases heq
  · rename_i heq
    cases heq
    split
    · rename_i m hm
      rw [hb] at hm
      cases hm
      rfl
    · rename_i hm
      rw [hb] at hm
      cases hm

theorem assertUploadsUsed_int {n : Nat} (h : n ≤ maxGrantUploadSlots) :
    assertUploadsUsed (.int n) = .ok ⟨n, h⟩ := by
  have hb := JsNumber.bounded?_int (Nat.zero_le n) h (h.trans (by decide))
  unfold assertUploadsUsed
  split
  · rename_i m hm
    rw [hb] at hm
    cases hm
    rfl
  · rename_i hm
    rw [hb] at hm
    cases hm

/-- A nonnegative safe integer. -/
def assertCount (value : JsNumber) (name : String) : Except Thrown Nat :=
  orThrow (value.bounded? 0 9007199254740991) (invalidInput s!"{name} must be a nonnegative integer")

theorem assertCount_int {name : String} {n : Nat} (h : n ≤ 9007199254740991) :
    assertCount (.int n) name = .ok n := by
  rw [assertCount, JsNumber.bounded?_int (Nat.zero_le n) h h]
  rfl

def assertImportCounts (value : RawImportCounts) (name : String) : Except Thrown ImportCounts := do
  let customers ← assertCount value.customers s!"{name}.customers"
  let cases ← assertCount value.cases s!"{name}.cases"
  let grants ← assertCount value.grants s!"{name}.grants"
  let dumps ← assertCount value.dumps s!"{name}.dumps"
  let auditEvents ← forOption value.auditEvents fun n => assertCount n s!"{name}.auditEvents"
  return { customers, cases, grants, dumps, auditEvents }

def assertImportSummary (value : RawImportSummary) : Except Thrown ImportSummary := do
  let imported ← assertImportCounts value.imported "summary.imported"
  let skipped ← assertCount value.skipped "summary.skipped"
  return { imported, skipped }

/-! ## Analysis bounds -/

/-- `/[\u0000-\u001f\u007f]/`. -/
def isControlCharacter (c : Char) : Bool := decide (c.toNat ≤ 0x1f) || decide (c.toNat = 0x7f)

def assertAnalysisText (value name : String) (maximum minimum : Nat) : Except Thrown String := do
  guardThat (minimum ≤ utf16Length value ∧ utf16Length value ≤ maximum ∧
      value.toList.any isControlCharacter = false)
    (invalidInput s!"{name} is invalid")
  return value

def assertAnalysisOutcome (value : String) : Except Thrown AnalysisOutcome :=
  if value = "completed" then .ok .completed
  else if value = "failed" then .ok .failed
  else .error (invalidInput "outcome must be \"completed\" or \"failed\"")

/-- Deepest accepted nesting of `facts`. -/
def maxAnalysisFactsDepth : Nat := 100

mutual

/-- A plain JSON tree: finite numbers only, down to a fixed depth. -/
def assertJsonTree (name : String) : Json → Nat → Except Thrown Unit
  | .null, _ | .bool _, _ | .str _, _ => .ok ()
  | .num n, _ =>
    guardThat (n.isFinite = true) (invalidInput s!"{name} must contain only finite JSON numbers")
  | .arr elements, depth => do
    guardThat (depth < maxAnalysisFactsDepth)
      (invalidInput s!"{name} exceeds the maximum nesting depth")
    assertJsonTreeElements name elements (depth + 1)
  | .obj members, depth => do
    guardThat (depth < maxAnalysisFactsDepth)
      (invalidInput s!"{name} exceeds the maximum nesting depth")
    assertJsonTreeMembers name members (depth + 1)

def assertJsonTreeElements (name : String) : List Json → Nat → Except Thrown Unit
  | [], _ => .ok ()
  | j :: rest, depth => do
    assertJsonTree name j depth
    assertJsonTreeElements name rest depth

def assertJsonTreeMembers (name : String) : List (String × Json) → Nat → Except Thrown Unit
  | [], _ => .ok ()
  | (_, j) :: rest, depth => do
    assertJsonTree name j depth
    assertJsonTreeMembers name rest depth

end

def assertAnalysisFacts (value : Option JsonObject) : Except Thrown (Option JsonObject) :=
  forOption value fun facts => do
    assertJsonTree "facts" (.obj facts) 0
    guardThat ((Json.obj facts).serializedBytes ≤ 4096)
      (invalidInput "facts exceeds 4096 serialized bytes")
    return facts

end DumpLedger
