import DumpLedger.Engine.Commands
import DumpLedger.Vault.ObjectStore

/-!
# Planning a command

A command is checked first, against the raw values and against reads of the ledger and
the vault. What is left to do is its `Plan`: at most one vault operation, then at most
one ledger transaction, and for two commands an undo of the vault when the transaction
throws. `plan` follows `executeChecked` command by command.

`Host` is what the world outside answers during one command: the clock, the identifiers
drawn, the inspector, and whether the storage operation or the transaction fails or the
process dies between the two.
-/

namespace DumpLedger

open Lib Vocabulary

/-! ## The world -/

structure Vaults where
  dumps : ObjectStore DumpId
  symbols : ObjectStore SymbolArtifactId

namespace Vaults

def empty : Vaults := ⟨.empty, .empty⟩

def reopen (v : Vaults) : Vaults := ⟨v.dumps.reopen, v.symbols.reopen⟩

end Vaults

structure World where
  ledger : SqliteLedger
  vaults : Vaults

namespace World

/-- A new instance. -/
def fresh : World := ⟨.fresh, .empty⟩

/-- What a restarted process finds. -/
def reopen (w : World) : World := { w with vaults := w.vaults.reopen }

end World

/-! ## What the host answers -/

inductive InspectionOutcome
  | accepted (coverage : CoverageKind) (facts : JsonObject)
  | rejected (error : String)

/-- Where a storage operation fails: before it took effect or after. -/
inductive StorageFault
  | before
  | after
  deriving DecidableEq, Repr

structure Host where
  now : String
  nowMs : Int
  customerId : CustomerId
  caseId : CaseId
  grantId : GrantId
  dumpId : DumpId
  auditId : AuditEventId
  symbolId : SymbolArtifactId
  analysisId : AnalysisId
  secret : String
  /-- The inspector reads the immutable bytes, if there are any. -/
  inspect : DumpId → Option Bytes → InspectionOutcome
  storageFault : Option StorageFault
  ledgerFault : Bool
  crash : Bool

structure EngineOptions where
  digests : Digests
  /-- `grantKeyFingerprint()`. -/
  fingerprint : String
  assertRichAnalysis : RawRichAnalysisDetail → RichAnalysisBinding →
    Except Thrown RichAnalysisDetail

/-! ## Storage operations -/

inductive StorageOp
  | createStaging (dumpId : DumpId)
  | removeStaging (dumpId : DumpId)
  | promote (dumpId : DumpId)
  | remove (dumpId : DumpId)
  | createSymbolStaging (artifactId : SymbolArtifactId)
  | removeSymbolStaging (artifactId : SymbolArtifactId)
  | promoteSymbol (artifactId : SymbolArtifactId)
  | removeSymbol (artifactId : SymbolArtifactId)

namespace StorageOp

def run (op : StorageOp) (nowMs : Int) (v : Vaults) : Except Thrown Vaults :=
  match op with
  | createStaging dumpId => do return { v with dumps := ← v.dumps.createStaging nowMs dumpId }
  | removeStaging dumpId => .ok { v with dumps := v.dumps.removeStaging dumpId }
  | promote dumpId => do return { v with dumps := ← v.dumps.promote dumpId }
  | remove dumpId => .ok { v with dumps := v.dumps.remove dumpId }
  | createSymbolStaging artifactId => do
    return { v with symbols := ← v.symbols.createStaging nowMs artifactId }
  | removeSymbolStaging artifactId =>
    .ok { v with symbols := v.symbols.removeStaging artifactId }
  | promoteSymbol artifactId => do return { v with symbols := ← v.symbols.promote artifactId }
  | removeSymbol artifactId => .ok { v with symbols := v.symbols.remove artifactId }

/-- The operation as the host lets it happen. -/
def perform (op : StorageOp) (fault : Option StorageFault) (nowMs : Int) (v : Vaults) :
    Except Thrown Unit × Vaults :=
  match fault, op.run nowMs v with
  | some .before, _ => (.error ioError, v)
  | _, .error e => (.error e, v)
  | some .after, .ok v' => (.error ioError, v')
  | none, .ok v' => (.ok (), v')

variable {op : StorageOp} {fault : Option StorageFault} {nowMs : Int} {v v' : Vaults}

/-- Failed or not, an operation took its whole effect or none. -/
theorem perform_cases {outcome : Except Thrown Unit} (h : op.perform fault nowMs v = (outcome, v')) :
    op.run nowMs v = .ok v' ∨ (v' = v ∧ ∃ e, outcome = .error e) := by
  unfold perform at h
  split at h <;> simp only [Prod.mk.injEq] at h <;> obtain ⟨rfl, rfl⟩ := h
  · exact Or.inr ⟨rfl, _, rfl⟩
  · exact Or.inr ⟨rfl, _, rfl⟩
  · next hr => exact Or.inl hr
  · next hr => exact Or.inl hr

theorem perform_eq_ok {u : Unit} :
    op.perform fault nowMs v = (.ok u, v') ↔ fault = none ∧ op.run nowMs v = .ok v' := by
  cases hr : op.run nowMs v with
  | error e =>
    cases fault with
    | none => simp [perform, hr]
    | some f => cases f <;> simp [perform, hr]
  | ok v₁ =>
    cases fault with
    | none => simp [perform, hr]
    | some f => cases f <;> simp [perform, hr]

end StorageOp

/-! ## Plans -/

structure Plan where
  event : EventIdentity
  storage : Option StorageOp := none
  ledger : Option LedgerOp := none
  /-- The staging object to remove when the transaction throws. -/
  compensation : Option DumpId := none
  receipt : TransitionSuccess

theorem Sha256.isBoundedText_text (d : Sha256) : isBoundedText 128 d.text = true := by
  have hv := d.valid
  simp only [isSha256, Bool.and_eq_true, decide_eq_true_eq, List.all_eq_true] at hv
  obtain ⟨hlen, hhex⟩ := hv
  have hsmall : ∀ c ∈ d.text.toList, c.toNat < 0x10000 ∧ c ≠ '\x00' := by
    intro c hc
    have h := hhex c hc
    simp only [isLowerHex, Bool.or_eq_true, Bool.and_eq_true, decide_eq_true_eq, Char.le_def,
      UInt32.le_iff_toNat_le] at h
    refine ⟨?_, ?_⟩
    · show c.val.toNat < _
      have h9 : ('9' : Char).val.toNat = 57 := rfl
      have hf : ('f' : Char).val.toNat = 102 := rfl
      omega
    · rintro rfl
      exact absurd h (by decide)
  have hsum : utf16Length d.text = 64 := by
    unfold utf16Length
    rw [List.map_congr_left (g := fun _ => 1) fun c hc => if_pos (hsmall c hc).1]
    simpa using hlen
  have hne : d.text ≠ "" := by
    intro he
    rw [he] at hlen
    exact absurd hlen (by decide)
  have hnul : '\x00' ∉ d.text.toList := fun hmem => (hsmall _ hmem).2 rfl
  simp [isBoundedText, hsum, hne, hnul]

/-- A digest as the `secret_digest` column holds it. -/
def Sha256.bounded (d : Sha256) : BoundedText 128 := ⟨d.text, d.isBoundedText_text⟩

section Plans

variable (options : EngineOptions) (host : Host) (w : World) (occurredAt : IsoTimestamp)

/-- `event()`. -/
def Host.event : EventIdentity := ⟨host.auditId, occurredAt⟩

/-- A command that is one transaction. -/
def ledgerPlan (op : LedgerOp) (receipt : TransitionSuccess) : Plan where
  event := host.event occurredAt
  ledger := some op
  receipt := receipt

/-- A command that is one storage operation and one transaction. -/
def storagePlan (storage : StorageOp) (op : LedgerOp) (receipt : TransitionSuccess) : Plan where
  event := host.event occurredAt
  storage := some storage
  ledger := some op
  receipt := receipt

def requireOneOfPhases (dumpId : DumpId) (phases : List DumpPhase) : Except Thrown DumpRow := do
  let dump ← orThrow (w.ledger.getDump dumpId) (notFound "dump was not found")
  guardThat (phases.contains dump.phase = true)
    (invalidTransition s!"dump phase {text dump.phase} is not valid for this action")
  return dump

def requirePhase (dumpId : DumpId) (phase : DumpPhase) : Except Thrown DumpRow :=
  requireOneOfPhases w dumpId [phase]

/-! ### Customers, cases and grants -/

def planCreateCustomer (displayName : String) : Except Thrown Plan := do
  let displayName ← assertText displayName "displayName" 200
  return ledgerPlan host occurredAt (.createCustomer host.customerId displayName)
    { action := .createCustomer, occurredAt, customerId := some host.customerId }

def planCreateCase (customerId title : String) : Except Thrown Plan := do
  let customerId ← parseCustomerId customerId
  let title ← assertText title "title" 500
  return ledgerPlan host occurredAt (.createCase host.caseId customerId title)
    { action := .createCase, occurredAt, caseId := some host.caseId,
      customerId := some customerId }

/-- The commands that name a case and nothing else. -/
def planCase (action : LifecycleAction) (op : CaseId → LedgerOp) (caseId : String) :
    Except Thrown Plan := do
  let caseId ← parseCaseId caseId
  return ledgerPlan host occurredAt (op caseId) { action, occurredAt, caseId := some caseId }

def planIssueGrant (caseId expiresAt : String) (maxBytes : Int) (maxUploads : Option JsNumber) :
    Except Thrown Plan := do
  let caseId ← parseCaseId caseId
  let expiresAt ← assertIsoTimestamp expiresAt "expiresAt"
  let maxBytes ← assertPositiveBigint maxBytes "maxBytes"
  guardThat (occurredAt < expiresAt) (invalidInput "grant expiry must be in the future")
  let maxUploads ← assertMaxUploads maxUploads
  guardThat (24 ≤ utf16Length host.secret)
    (integrityFailure "entropy source returned a short secret")
  return ledgerPlan host occurredAt
    (.issueGrant host.grantId caseId (options.digests.digestSecret host.secret).bounded expiresAt
      maxBytes maxUploads.1 maxUploads.2)
    { action := .issueGrant, occurredAt, grantId := some host.grantId,
      grantSecret := some host.secret, caseId := some caseId, maxBytes := some maxBytes,
      maxUploads := some maxUploads.1 }

/-- `RevokeGrant` and `ExpireGrant`. -/
def planGrantEnd (action : LifecycleAction) (next : SqliteLedger.GrantEnd) (grantId : String) :
    Except Thrown Plan := do
  let grantId ← parseGrantId grantId
  return ledgerPlan host occurredAt (.transitionGrant grantId next)
    { action, occurredAt, grantId := some grantId }

/-! ### Uploads -/

def planBeginUpload (grantSecret originalName : String) : Except Thrown Plan := do
  let secret ← assertText grantSecret "grantSecret" 1024
  let originalName ← assertText originalName "originalName" 1024
  let grant ← orThrow
    (w.ledger.findGrantByDigest (options.digests.digestSecret secret.text).bounded)
    (.ledgerError .grantInvalid "upload grant is invalid")
  guardThat (grant.state ≠ .consumed)
    (.ledgerError .grantConsumed "upload grant has already been used")
  guardThat (grant.state ≠ .expired ∧ occurredAt < grant.expiresAt)
    (.ledgerError .grantExpired "upload grant has expired")
  guardThat (grant.state = .issued) (.ledgerError .grantInvalid "upload grant is not active")
  return {
    event := host.event occurredAt
    storage := some (.createStaging host.dumpId)
    ledger := some (.beginUpload grant.grantId host.dumpId originalName)
    compensation := some host.dumpId
    receipt :=
      { action := .beginUpload, occurredAt, dumpId := some host.dumpId,
        caseId := some grant.caseId, grantId := some grant.grantId,
        maxBytes := some grant.maxBytes, phase := some .receiving } }

def planSealUpload (dumpId : String) (byteSize : Int) (sha256 : String) : Except Thrown Plan := do
  let dumpId ← parseDumpId dumpId
  let _ ← requirePhase w dumpId .receiving
  guardThat ((w.vaults.dumps.inspectPresence dumpId).staging = true)
    (integrityFailure "sealed upload has no staging object")
  let byteSize ← assertNonnegativeBigint byteSize "byteSize"
  let sha256 ← assertSha256 sha256
  return ledgerPlan host occurredAt (.sealUpload dumpId byteSize sha256)
    { action := .sealUpload, occurredAt, dumpId := some dumpId, phase := some .sealed }

def planFailUpload (dumpId : String) : Except Thrown Plan := do
  let dumpId ← parseDumpId dumpId
  let _ ← requirePhase w dumpId .receiving
  return storagePlan host occurredAt (.removeStaging dumpId) (.failUpload dumpId)
    { action := .failUpload, occurredAt, dumpId := some dumpId, phase := some .rejected }

def planPromoteObject (dumpId : String) : Except Thrown Plan := do
  let dumpId ← parseDumpId dumpId
  let _ ← requirePhase w dumpId .sealed
  return storagePlan host occurredAt (.promote dumpId) (.recordPromoted dumpId)
    { action := .promoteObject, occurredAt, dumpId := some dumpId, phase := some .sealed }

def planMarkQuarantined (dumpId : String) : Except Thrown Plan := do
  let dumpId ← parseDumpId dumpId
  let _ ← requirePhase w dumpId .sealed
  let presence := w.vaults.dumps.inspectPresence dumpId
  guardThat (presence.vault = true ∧ presence.staging = false)
    (integrityFailure "quarantine requires only an immutable vault object")
  return ledgerPlan host occurredAt (.markQuarantined dumpId)
    { action := .markQuarantined, occurredAt, dumpId := some dumpId, phase := some .quarantined }

/-- `inspection.inspect(dumpId)`. -/
def inspection (dumpId : DumpId) : InspectionOutcome :=
  host.inspect dumpId (w.vaults.dumps.object? dumpId)

def planAcceptDump (dumpId : String) : Except Thrown Plan := do
  let dumpId ← parseDumpId dumpId
  let _ ← requirePhase w dumpId .quarantined
  match inspection host w dumpId with
  | .rejected _ =>
    throw (.ledgerError .inspectionOutcomeMismatch "inspection rejected the dump")
  | .accepted coverage facts =>
    return ledgerPlan host occurredAt (.acceptDump dumpId coverage facts)
      { action := .acceptDump, occurredAt, dumpId := some dumpId, phase := some .available }

def planRejectDump (dumpId : String) : Except Thrown Plan := do
  let dumpId ← parseDumpId dumpId
  let _ ← requirePhase w dumpId .quarantined
  match inspection host w dumpId with
  | .accepted _ _ =>
    throw (.ledgerError .inspectionOutcomeMismatch "inspection accepted the dump")
  | .rejected error =>
    return ledgerPlan host occurredAt (.rejectDump dumpId error)
      { action := .rejectDump, occurredAt, dumpId := some dumpId, phase := some .rejected }

/-! ### Available dumps -/

def planAuthorizeDownload (dumpId : String) : Except Thrown Plan := do
  let dumpId ← parseDumpId dumpId
  guardThat ((w.vaults.dumps.inspectPresence dumpId).vault = true)
    (integrityFailure "available dump bytes are missing")
  return ledgerPlan host occurredAt (.authorizeDownload dumpId)
    { action := .authorizeDownload, occurredAt, dumpId := some dumpId }

def planSetRetention (dumpId purgeAt : String) : Except Thrown Plan := do
  let dumpId ← parseDumpId dumpId
  let purgeAt ← assertIsoTimestamp purgeAt "purgeAt"
  guardThat (occurredAt < purgeAt) (invalidInput "purgeAt must be in the future")
  return ledgerPlan host occurredAt (.setRetention dumpId purgeAt)
    { action := .setRetention, occurredAt, dumpId := some dumpId, purgeAt := some purgeAt }

def planBeginPurge (dumpId : String) : Except Thrown Plan := do
  let dumpId ← parseDumpId dumpId
  let dump ← requireOneOfPhases w dumpId [.available, .rejected]
  return ledgerPlan host occurredAt (.beginPurge dumpId)
    { action := .beginPurge, occurredAt, dumpId := some dumpId, caseId := some dump.caseId,
      phase := some .deleting }

def planFinishPurge (dumpId : String) : Except Thrown Plan := do
  let dumpId ← parseDumpId dumpId
  let _ ← requirePhase w dumpId .deleting
  return storagePlan host occurredAt (.remove dumpId) (.finishPurge dumpId)
    { action := .finishPurge, occurredAt, dumpId := some dumpId, phase := some .deleted }

/-- A checked detail, or a replay when the identity is known and no detail came with it. -/
def recordAnalysisPlan (caseId : CaseId) (insert : AnalysisInsert)
    (detail : Option RichAnalysisDetail) : Plan :=
  let receipt : TransitionSuccess :=
    { action := .recordAnalysis, occurredAt, dumpId := some insert.identity.dumpId,
      caseId := some caseId }
  match w.ledger.findAnalysisByIdentity insert.identity, detail with
  | some existing, none =>
    { event := host.event occurredAt,
      receipt := { receipt with analysis := some existing, replayed := some true } }
  | _, _ => ledgerPlan host occurredAt (.recordAnalysis insert detail) receipt

def planRecordAnalysis
    (dumpId analyzerName analyzerVersion kind inputSha256 outcome summary : String)
    (facts : Option JsonObject) (duplicateOf : Option String)
    (detail : Option RawRichAnalysisDetail) : Except Thrown Plan := do
  let dumpId ← parseDumpId dumpId
  let analyzerName ← assertAnalysisText analyzerName "analyzerName" 128 1
  let analyzerVersion ← assertAnalysisText analyzerVersion "analyzerVersion" 64 1
  let kind ← assertAnalysisText kind "kind" 64 1
  let inputSha256 ← assertSha256 inputSha256
  let outcome ← assertAnalysisOutcome outcome
  let summary ← assertAnalysisText summary "summary" 2000 0
  let facts ← assertAnalysisFacts facts
  let duplicateOf ← forOption duplicateOf parseDumpId
  let dump ← requirePhase w dumpId .available
  guardThat (dump.sha256 = some inputSha256)
    (invalidInput "inputSha256 must equal the dump's sealed sha256")
  let identity : AnalysisIdentity := { dumpId, analyzerName, analyzerVersion, kind, inputSha256 }
  let detail ← forOption detail fun d =>
    options.assertRichAnalysis d { identity, outcome, summary, facts }
  return recordAnalysisPlan host w occurredAt dump.caseId
    { analysisId := host.analysisId, identity, outcome, summary, facts, duplicateOf,
      createdAt := occurredAt } detail

/-! ### Symbols -/

def planIngestSymbol (kind : String) : Except Thrown Plan := do
  let _ ← parseSymbolArtifactKind kind
  return {
    event := host.event occurredAt
    storage := some (.createSymbolStaging host.symbolId)
    receipt := { action := .ingestSymbol, occurredAt, artifactId := some host.symbolId } }

/-- The identity pair is fixed by the kind, and so are the names of its fields. -/
def assertSymbolIdentity (kind : SymbolArtifactKind) (file id : String) :
    Except Thrown SymbolIdentity :=
  match kind with
  | .pdb => do
    let name ← assertText file "debugFile" 255
    let id ← assertText id "debugId" 64
    return { name, id }
  | .exe => do
    let name ← assertText file "codeFile" 255
    let id ← assertText id "codeId" 64
    return { name, id }

/-- A stored identity drops the staging; a new one is promoted, then sealed. -/
def sealSymbolPlan (insert : SymbolArtifactInsert) : Plan :=
  match w.ledger.findSymbolArtifact insert.identity insert.kind with
  | some existing =>
    { event := host.event occurredAt,
      storage := some (.removeSymbolStaging insert.artifactId),
      receipt :=
        { action := .sealSymbol, occurredAt, artifactId := some existing.artifactId,
          deduplicated := some true } }
  | none =>
    storagePlan host occurredAt (.promoteSymbol insert.artifactId) (.sealSymbolArtifact insert)
      { action := .sealSymbol, occurredAt }

/-- The checks of a `SealSymbol`. -/
def checkSealSymbol (fields : SealSymbolFields) : Except Thrown SymbolArtifactInsert := do
  let artifactId ← parseSymbolArtifactId fields.artifactId
  let sha256 ← assertSha256 fields.sha256
  let byteSize ← assertPositiveBigint fields.byteSize "byteSize"
  let product ← forOption fields.product fun v => assertText v "product" 200
  let version ← forOption fields.version fun v => assertText v "version" 200
  let arch ← forOption fields.arch fun v => assertText v "arch" 64
  let ingestAuth ← forOption fields.ingestAuth parseSymbolIngestAuthChannel
  let identity ← assertSymbolIdentity fields.kind fields.file fields.id
  return { artifactId, kind := fields.kind, identity, byteSize, sha256, product, version, arch,
           ingestAuth }

def planSealSymbol (fields : SealSymbolFields) : Except Thrown Plan := do
  return sealSymbolPlan host w occurredAt (← checkSealSymbol fields)

def planFailSymbol (artifactId : String) : Except Thrown Plan := do
  let artifactId ← parseSymbolArtifactId artifactId
  return {
    event := host.event occurredAt
    storage := some (.removeSymbolStaging artifactId)
    receipt := { action := .failSymbol, occurredAt } }

def planPurgeSymbol (artifactId : String) : Except Thrown Plan := do
  let artifactId ← parseSymbolArtifactId artifactId
  guardThat (w.ledger.findSymbolArtifactById artifactId ≠ none)
    (notFound "symbol artifact was not found")
  return storagePlan host occurredAt (.removeSymbol artifactId) (.purgeSymbolArtifact artifactId)
    { action := .purgeSymbol, occurredAt, artifactId := some artifactId }

/-! ### Imports -/

def planBeginImport (manifestDigest : String) (counts : RawImportCounts) : Except Thrown Plan := do
  let manifestDigest ← assertText manifestDigest "manifestDigest" 128
  let counts ← assertImportCounts counts "counts"
  return ledgerPlan host occurredAt (.beginImport manifestDigest counts)
    { action := .beginImport, occurredAt, importId := some host.auditId }

def planImportCustomer (record : ImportCustomerRecord) : Except Thrown Plan := do
  let customerId ← parseCustomerId record.customerId
  let displayName ← assertText record.displayName "displayName" 200
  let createdAt ← assertIsoTimestamp record.createdAt "createdAt"
  let customerNo ← forOption record.customerNo fun n => assertCount n "customerNo"
  return ledgerPlan host occurredAt
    (.importCustomer { customerId, displayName, createdAt, customerNo })
    { action := .importCustomer, occurredAt, customerId := some customerId }

def planImportCase (record : ImportCaseRecord) : Except Thrown Plan := do
  let caseId ← parseCaseId record.caseId
  let customerId ← parseCustomerId record.customerId
  let title ← assertText record.title "title" 500
  let status ← parseCaseStatus record.status
  let createdAt ← assertIsoTimestamp record.createdAt "createdAt"
  return ledgerPlan host occurredAt (.importCase { caseId, customerId, title, status, createdAt })
    { action := .importCase, occurredAt, caseId := some caseId, customerId := some customerId }

/-- The checks of the record of an `ImportGrant`. -/
def checkImportGrantRecord (record : ImportGrantRecord) : Except Thrown GrantRow := do
  let grantId ← parseGrantId record.grantId
  let caseId ← parseCaseId record.caseId
  let secretDigest ← assertText record.secretDigest "secretDigest" 128
  let state ← parseTokenState record.state
  let expiresAt ← assertIsoTimestamp record.expiresAt "expiresAt"
  let maxBytes ← assertPositiveBigint record.maxBytes "maxBytes"
  let createdAt ← assertIsoTimestamp record.createdAt "createdAt"
  let consumedByDumpId ← forOption record.consumedByDumpId parseDumpId
  let maxUploads ← assertMaxUploads record.maxUploads
  let uploadsUsed ← assertUploadsUsed (record.uploadsUsed.getD (.int 0))
  return {
    grantId, caseId, secretDigest, state, expiresAt, maxBytes, createdAt, consumedByDumpId
    maxUploads := maxUploads.1
    uploadsUsed := uploadsUsed.1
    maxUploads_between := maxUploads.2
    uploadsUsed_le := uploadsUsed.2 }

def planImportGrant (record : ImportGrantRecord) (forcedState : Option String) :
    Except Thrown Plan := do
  guardThat (forcedState = none ∨ forcedState = some "revoked")
    (invalidInput "forcedState must be \"revoked\"")
  let row ← checkImportGrantRecord record
  return ledgerPlan host occurredAt (.importGrant row forcedState.isSome)
    { action := .importGrant, occurredAt, grantId := some row.grantId, caseId := some row.caseId }

/-- The record of an available dump: its bytes have to be staged already. -/
def planImportStaged (dumpId : DumpId) (caseId : CaseId) (originalName : BoundedText 1024)
    (receivedAt : IsoTimestamp) (byteSize : Option Nat) (sha256 : Option Sha256)
    (purgeAt : Option IsoTimestamp) : Except Thrown Plan :=
  match byteSize, sha256 with
  | some byteSize, some sha256 => do
    let presence := w.vaults.dumps.inspectPresence dumpId
    guardThat (presence.staging = true ∧ presence.vault = false)
      (integrityFailure "imported dump bytes are not staged")
    return {
      event := host.event occurredAt
      ledger := some (.importDumpStaged
        { dumpId, caseId, originalName, byteSize, sha256, receivedAt, purgeAt })
      compensation := some dumpId
      receipt :=
        { action := .importDumpStaged, occurredAt, dumpId := some dumpId, caseId := some caseId,
          phase := some .sealed } }
  | _, _ => .error (invalidInput "an available import requires byteSize and sha256")

/-- The phases of a tombstone. -/
def tombstonePhase? : DumpPhase → Option TombstonePhase
  | .rejected => some .rejected
  | .deleted => some .deleted
  | _ => none

def planImportTombstone (record : ImportDumpRecord) (dumpId : DumpId) (caseId : CaseId)
    (phase : DumpPhase) (originalName : BoundedText 1024) (receivedAt : IsoTimestamp)
    (byteSize : Option Nat) (sha256 : Option Sha256) (purgeAt purgedAt : Option IsoTimestamp) :
    Except Thrown Plan := do
  let tombstone ← orThrow (tombstonePhase? phase)
    (invalidTransition s!"dump phase {text phase} cannot be imported")
  let validation ← parseValidationState record.validation
  let coverage ← assertNullableCoverage record.coverage
  let inspectionError ← forOption record.inspectionError fun v =>
    assertText v "inspectionError" 2000
  let availableAt ← assertNullableIsoTimestamp record.availableAt "availableAt"
  return ledgerPlan host occurredAt
    (.importDumpTombstone
      { dumpId, caseId, phase := tombstone, originalName, byteSize, sha256, validation, coverage,
        inspectionError, inspectionFacts := record.inspectionFacts, receivedAt, availableAt,
        purgeAt, purgedAt })
    { action := .importDumpStaged, occurredAt, dumpId := some dumpId, caseId := some caseId,
      phase := some phase }

def planImportDumpStaged (record : ImportDumpRecord) : Except Thrown Plan := do
  let dumpId ← parseDumpId record.dumpId
  let caseId ← parseCaseId record.caseId
  let phase ← parseDumpPhase record.phase
  let originalName ← assertText record.originalName "originalName" 1024
  let receivedAt ← assertIsoTimestamp record.receivedAt "receivedAt"
  let byteSize ← assertNullableByteSize record.byteSize
  let sha256 ← assertNullableSha256 record.sha256
  let purgeAt ← assertNullableIsoTimestamp record.purgeAt "purgeAt"
  let purgedAt ← assertNullableIsoTimestamp record.purgedAt "purgedAt"
  if phase = .available then
    planImportStaged host w occurredAt dumpId caseId originalName receivedAt byteSize sha256 purgeAt
  else
    planImportTombstone host occurredAt record dumpId caseId phase originalName receivedAt byteSize
      sha256 purgeAt purgedAt

/-- The checks of the record of an `ImportAuditEvent`. -/
def checkImportAuditEventRecord (record : ImportAuditEventRecord) :
    Except Thrown AuditEventRow := do
  let eventId ← parseAuditEventId record.eventId
  let action ← assertText record.action "action" 64
  let occurredAt ← assertIsoTimestamp record.occurredAt "occurredAt"
  let customerId ← forOption record.customerId parseCustomerId
  let caseId ← forOption record.caseId parseCaseId
  let dumpId ← forOption record.dumpId parseDumpId
  let detail ← assertPlainObject record.detail "detail" (16 * 1024)
  return { eventId, occurredAt, action, customerId, caseId, dumpId, detail }

def planImportAuditEvent (record : ImportAuditEventRecord) : Except Thrown Plan := do
  let row ← checkImportAuditEventRecord record
  return ledgerPlan host occurredAt (.importAuditEvent row)
    { action := .importAuditEvent, occurredAt }

def planFinishImport (importId : String) (summary : RawImportSummary) : Except Thrown Plan := do
  let importId ← parseAuditEventId importId
  let summary ← assertImportSummary summary
  return ledgerPlan host occurredAt (.finishImport importId summary)
    { action := .finishImport, occurredAt, importId := some importId }

/-! ### The dispatch -/

/-- `executeChecked` up to its first effect, at the checked time. -/
def planAt : Command → Except Thrown Plan
  | .createCustomer displayName => planCreateCustomer host occurredAt displayName
  | .createCase customerId title => planCreateCase host occurredAt customerId title
  | .startInvestigation caseId =>
    planCase host occurredAt .startInvestigation .startInvestigation caseId
  | .waitForCustomer caseId => planCase host occurredAt .waitForCustomer .waitForCustomer caseId
  | .resumeInvestigation caseId =>
    planCase host occurredAt .resumeInvestigation .resumeInvestigation caseId
  | .resolveCase caseId => planCase host occurredAt .resolveCase .resolveCase caseId
  | .closeCase caseId => planCase host occurredAt .closeCase .closeCase caseId
  | .issueGrant caseId expiresAt maxBytes maxUploads =>
    planIssueGrant options host occurredAt caseId expiresAt maxBytes maxUploads
  | .revokeGrant grantId => planGrantEnd host occurredAt .revokeGrant .revoked grantId
  | .expireGrant grantId => planGrantEnd host occurredAt .expireGrant .expired grantId
  | .beginUpload grantSecret originalName =>
    planBeginUpload options host w occurredAt grantSecret originalName
  | .sealUpload dumpId byteSize sha256 => planSealUpload host w occurredAt dumpId byteSize sha256
  | .failUpload dumpId => planFailUpload host w occurredAt dumpId
  | .promoteObject dumpId => planPromoteObject host w occurredAt dumpId
  | .markQuarantined dumpId => planMarkQuarantined host w occurredAt dumpId
  | .acceptDump dumpId => planAcceptDump host w occurredAt dumpId
  | .rejectDump dumpId => planRejectDump host w occurredAt dumpId
  | .authorizeDownload dumpId => planAuthorizeDownload host w occurredAt dumpId
  | .setRetention dumpId purgeAt => planSetRetention host occurredAt dumpId purgeAt
  | .beginPurge dumpId => planBeginPurge host w occurredAt dumpId
  | .finishPurge dumpId => planFinishPurge host w occurredAt dumpId
  | .recordAnalysis dumpId analyzerName analyzerVersion kind inputSha256 outcome summary facts
      duplicateOf detail =>
    planRecordAnalysis options host w occurredAt dumpId analyzerName analyzerVersion kind
      inputSha256 outcome summary facts duplicateOf detail
  | .ingestSymbol kind => planIngestSymbol host occurredAt kind
  | .sealSymbol fields => planSealSymbol host w occurredAt fields
  | .failSymbol artifactId => planFailSymbol host occurredAt artifactId
  | .purgeSymbol artifactId => planPurgeSymbol host w occurredAt artifactId
  | .beginImport manifestDigest counts => planBeginImport host occurredAt manifestDigest counts
  | .importCustomer record => planImportCustomer host occurredAt record
  | .importCase record => planImportCase host occurredAt record
  | .importGrant record forcedState => planImportGrant host occurredAt record forcedState
  | .importDumpStaged record => planImportDumpStaged host w occurredAt record
  | .importAuditEvent record => planImportAuditEvent host occurredAt record
  | .finishImport importId summary => planFinishImport host occurredAt importId summary

def plan (command : Command) : Except Thrown Plan := do
  let occurredAt ← assertIsoTimestamp host.now "clock"
  planAt options host w occurredAt command

end Plans

/-! ## Which transaction a command makes -/

/-- The command a transaction belongs to. -/
def LedgerOp.action : LedgerOp → LifecycleAction
  | .createCustomer .. => .createCustomer
  | .createCase .. => .createCase
  | .startInvestigation .. => .startInvestigation
  | .waitForCustomer .. => .waitForCustomer
  | .resumeInvestigation .. => .resumeInvestigation
  | .resolveCase .. => .resolveCase
  | .closeCase .. => .closeCase
  | .issueGrant .. => .issueGrant
  | .transitionGrant _ .revoked => .revokeGrant
  | .transitionGrant _ .expired => .expireGrant
  | .beginUpload .. => .beginUpload
  | .sealUpload .. => .sealUpload
  | .failUpload .. => .failUpload
  | .recordPromoted .. => .promoteObject
  | .markQuarantined .. => .markQuarantined
  | .acceptDump .. => .acceptDump
  | .rejectDump .. => .rejectDump
  | .authorizeDownload .. => .authorizeDownload
  | .setRetention .. => .setRetention
  | .beginPurge .. => .beginPurge
  | .finishPurge .. => .finishPurge
  | .recordAnalysis .. => .recordAnalysis
  | .sealSymbolArtifact .. => .sealSymbol
  | .purgeSymbolArtifact .. => .purgeSymbol
  | .beginImport .. => .beginImport
  | .importCustomer .. => .importCustomer
  | .importCase .. => .importCase
  | .importGrant .. => .importGrant
  | .importDumpStaged .. | .importDumpTombstone .. => .importDumpStaged
  | .importAuditEvent .. => .importAuditEvent
  | .finishImport .. => .finishImport

section Actions

variable {options : EngineOptions} {host : Host} {w : World} {occurredAt : IsoTimestamp}

/-- The plan's transaction, if it has one, belongs to the command, and its event is the
one drawn for it. -/
structure Plan.Of (action : LifecycleAction) (host : Host) (occurredAt : IsoTimestamp) (p : Plan) :
    Prop where
  action : ∀ op ∈ p.ledger, op.action = action
  event : p.event = host.event occurredAt

theorem ledgerPlan_of {action : LifecycleAction} {op : LedgerOp} {receipt : TransitionSuccess}
    (h : op.action = action) : (ledgerPlan host occurredAt op receipt).Of action host occurredAt :=
  ⟨fun _ hop => by cases hop; exact h, rfl⟩

theorem storagePlan_of {action : LifecycleAction} {storage : StorageOp} {op : LedgerOp}
    {receipt : TransitionSuccess} (h : op.action = action) :
    (storagePlan host occurredAt storage op receipt).Of action host occurredAt :=
  ⟨fun _ hop => by cases hop; exact h, rfl⟩

theorem storageOnly_of {action : LifecycleAction} {p : Plan} (h : p.ledger = none)
    (he : p.event = host.event occurredAt) : p.Of action host occurredAt :=
  ⟨fun _ hop => by simp [h] at hop, he⟩

theorem recordAnalysisPlan_of {caseId : CaseId} {insert : AnalysisInsert}
    {detail : Option RichAnalysisDetail} :
    (recordAnalysisPlan host w occurredAt caseId insert detail).Of .recordAnalysis host
      occurredAt := by
  unfold recordAnalysisPlan
  split
  · exact storageOnly_of rfl rfl
  · exact ledgerPlan_of rfl

theorem sealSymbolPlan_of {insert : SymbolArtifactInsert} :
    (sealSymbolPlan host w occurredAt insert).Of .sealSymbol host occurredAt := by
  unfold sealSymbolPlan
  split
  · exact storageOnly_of rfl rfl
  · exact storagePlan_of rfl

theorem planImportDumpStaged_of {record : ImportDumpRecord} :
    Ensures (planImportDumpStaged host w occurredAt record)
      (Plan.Of .importDumpStaged host occurredAt) := by
  unfold planImportDumpStaged
  repeat refine .bind fun _ _ => ?_
  split
  · unfold planImportStaged
    split
    · refine .bind fun _ _ => .ok ⟨fun _ h => ?_, rfl⟩
      cases h
      rfl
    · exact .error
  · unfold planImportTombstone
    repeat refine .bind fun _ _ => ?_
    exact .ok (ledgerPlan_of rfl)

/-- **A command makes no transaction but its own.** -/
theorem planAt_of (command : Command) :
    Ensures (planAt options host w occurredAt command) (Plan.Of command.type host occurredAt) := by
  cases command with
  | beginUpload grantSecret originalName =>
    unfold planAt planBeginUpload
    repeat refine .bind fun _ _ => ?_
    refine .ok ⟨fun _ h => ?_, rfl⟩
    cases h
    rfl
  | acceptDump dumpId =>
    unfold planAt planAcceptDump
    repeat refine .bind fun _ _ => ?_
    split
    · exact .error
    · exact .ok (ledgerPlan_of rfl)
  | rejectDump dumpId =>
    unfold planAt planRejectDump
    repeat refine .bind fun _ _ => ?_
    split
    · exact .error
    · exact .ok (ledgerPlan_of rfl)
  | recordAnalysis =>
    unfold planAt planRecordAnalysis
    repeat refine .bind fun _ _ => ?_
    exact .ok recordAnalysisPlan_of
  | ingestSymbol kind => exact .bind fun _ _ => .ok (storageOnly_of rfl rfl)
  | sealSymbol fields => exact .bind fun _ _ => .ok sealSymbolPlan_of
  | failSymbol artifactId => exact .bind fun _ _ => .ok (storageOnly_of rfl rfl)
  | importDumpStaged record => exact planImportDumpStaged_of
  | failUpload | promoteObject | finishPurge | purgeSymbol =>
    simp only [planAt, planFailUpload, planPromoteObject, planFinishPurge, planPurgeSymbol]
    repeat refine .bind fun _ _ => ?_
    exact .ok (storagePlan_of rfl)
  | _ =>
    simp only [planAt, planCreateCustomer, planCreateCase, planCase, planIssueGrant, planGrantEnd,
      planSealUpload, planMarkQuarantined, planAuthorizeDownload, planSetRetention, planBeginPurge,
      planBeginImport, planImportCustomer, planImportCase, planImportGrant, planImportAuditEvent,
      planFinishImport]
    repeat refine .bind fun _ _ => ?_
    exact .ok (ledgerPlan_of rfl)

theorem plan_eq_ok {command : Command} {p : Plan} :
    plan options host w command = .ok p ↔
      ∃ occurredAt : IsoTimestamp, occurredAt.text = host.now ∧
        planAt options host w occurredAt command = .ok p := by
  simp only [plan, bind_eq_ok, assertIsoTimestamp_eq_ok]

/-- The transaction of a command's plan belongs to the command. -/
theorem plan_action {command : Command} {p : Plan} {op : LedgerOp}
    (h : plan options host w command = .ok p) (hop : p.ledger = some op) :
    op.action = command.type := by
  obtain ⟨occurredAt, -, h⟩ := plan_eq_ok.mp h
  exact (planAt_of command p h).action op hop

theorem plan_event {command : Command} {p : Plan} (h : plan options host w command = .ok p) :
    p.event.eventId = host.auditId := by
  obtain ⟨occurredAt, -, h⟩ := plan_eq_ok.mp h
  rw [(planAt_of command p h).event]
  rfl

end Actions

end DumpLedger
