import DumpLedger.Domain.Ids
import DumpLedger.Domain.Lifecycle

/-!
# The intake specification

The state and the actions of `specs/DumpLedger.tla` for cases, tokens and dumps, over
identifiers instead of the slots `1..2`. A slot that is not in use is `none`: a case that is
not one of `Cases`, a token that is `"unused"`, a dump that is `"absent"`.

The constants `TokenCase` and `TokenMaxUploads` say of every slot what it will be issued
with. Here `IssueToken` brings them along, and the state remembers them.

* `State` — the variables
* `Action.enabled`, `Action.next` — when an action may be taken, and what it leaves
-/

namespace DumpLedger.Spec

@[ext]
structure State where
  caseStatus : CaseId → Option CaseStatus
  tokenState : GrantId → Option TokenState
  tokenCase : GrantId → Option CaseId
  tokenMaxUploads : GrantId → Nat
  dumpToken : DumpId → Option GrantId
  tokenUploads : GrantId → Nat
  dumpPhase : DumpId → Option DumpPhase
  dumpCase : DumpId → Option CaseId
  blobState : DumpId → BlobState
  digestRecorded : Set DumpId
  analysisRecorded : Set DumpId
  validation : DumpId → ValidationState
  coverage : DumpId → Option CoverageKind
  downloadable : Set DumpId

inductive Action
  | startInvestigation (c : CaseId)
  | waitForCustomer (c : CaseId)
  | resumeInvestigation (c : CaseId)
  | resolveCase (c : CaseId)
  | closeCase (c : CaseId)
  | issueToken (t : GrantId) (c : CaseId) (maxUploads : Nat)
  | revokeToken (t : GrantId)
  | expireToken (t : GrantId)
  | beginUpload (t : GrantId) (d : DumpId)
  | sealUpload (d : DumpId)
  | failUpload (d : DumpId)
  | promoteObject (d : DumpId)
  | markQuarantined (d : DumpId)
  | acceptDump (d : DumpId) (kind : CoverageKind)
  | rejectDump (d : DumpId)
  | beginPurge (d : DumpId)
  | finishPurge (d : DumpId)
  | recordAnalysis (d : DumpId)

/-- `caseStatus[c] /= "closed"`, of a case. -/
def State.caseOpen (s : State) (c : CaseId) : Prop :=
  ∃ status, s.caseStatus c = some status ∧ status ≠ .closed

namespace Action

def enabled (s : State) : Action → Prop
  | startInvestigation c => s.caseStatus c = some .new
  | waitForCustomer c => s.caseStatus c = some .investigating
  | resumeInvestigation c =>
    s.caseStatus c = some .waitingForCustomer ∨ s.caseStatus c = some .resolved ∨
      s.caseStatus c = some .closed
  | resolveCase c =>
    s.caseStatus c = some .investigating ∨ s.caseStatus c = some .waitingForCustomer
  | closeCase c => s.caseStatus c = some .resolved
  | issueToken t c _ => s.tokenState t = none ∧ s.caseOpen c
  | revokeToken t | expireToken t => s.tokenState t = some .issued
  | beginUpload t d =>
    s.tokenState t = some .issued ∧ (∃ c, s.tokenCase t = some c ∧ s.caseOpen c) ∧
      s.tokenUploads t < s.tokenMaxUploads t ∧ s.dumpPhase d = none ∧ s.dumpCase d = none
  | sealUpload d => s.dumpPhase d = some .receiving ∧ s.blobState d = .staging
  | failUpload d => s.dumpPhase d = some .receiving
  | promoteObject d => s.dumpPhase d = some .sealed ∧ s.blobState d = .staging
  | markQuarantined d =>
    s.dumpPhase d = some .sealed ∧ s.blobState d = .vault ∧ d ∈ s.digestRecorded
  | acceptDump d _ =>
    s.dumpPhase d = some .quarantined ∧ s.blobState d = .vault ∧ d ∈ s.digestRecorded
  | rejectDump d => s.dumpPhase d = some .quarantined ∧ s.blobState d = .vault
  | beginPurge d => s.dumpPhase d = some .available ∨ s.dumpPhase d = some .rejected
  | finishPurge d => s.dumpPhase d = some .deleting
  | recordAnalysis d => s.dumpPhase d = some .available

open Function in
/-- What is not named stays: `UNCHANGED`. -/
def next (s : State) : Action → State
  | startInvestigation c | resumeInvestigation c =>
    { s with caseStatus := update s.caseStatus c (some .investigating) }
  | waitForCustomer c =>
    { s with caseStatus := update s.caseStatus c (some .waitingForCustomer) }
  | resolveCase c => { s with caseStatus := update s.caseStatus c (some .resolved) }
  | closeCase c =>
    { s with
      caseStatus := update s.caseStatus c (some .closed)
      tokenState := fun t =>
        if s.tokenCase t = some c ∧ s.tokenState t = some .issued then some .revoked
        else s.tokenState t }
  | issueToken t c maxUploads =>
    { s with
      tokenState := update s.tokenState t (some .issued)
      tokenCase := update s.tokenCase t (some c)
      tokenMaxUploads := update s.tokenMaxUploads t maxUploads }
  | revokeToken t => { s with tokenState := update s.tokenState t (some .revoked) }
  | expireToken t => { s with tokenState := update s.tokenState t (some .expired) }
  | beginUpload t d =>
    { s with
      tokenUploads := update s.tokenUploads t (s.tokenUploads t + 1)
      tokenState := update s.tokenState t
        (if s.tokenUploads t + 1 ≥ s.tokenMaxUploads t then some .consumed else some .issued)
      dumpToken := update s.dumpToken d (some t)
      dumpPhase := update s.dumpPhase d (some .receiving)
      dumpCase := update s.dumpCase d (s.tokenCase t)
      blobState := update s.blobState d .staging }
  | sealUpload d =>
    { s with
      dumpPhase := update s.dumpPhase d (some .sealed)
      digestRecorded := s.digestRecorded ∪ {d} }
  | failUpload d =>
    { s with
      dumpPhase := update s.dumpPhase d (some .rejected)
      blobState := update s.blobState d .none
      validation := update s.validation d .transferFailed }
  | promoteObject d => { s with blobState := update s.blobState d .vault }
  | markQuarantined d => { s with dumpPhase := update s.dumpPhase d (some .quarantined) }
  | acceptDump d kind =>
    { s with
      dumpPhase := update s.dumpPhase d (some .available)
      validation := update s.validation d .valid
      coverage := update s.coverage d (some kind)
      downloadable := s.downloadable ∪ {d} }
  | rejectDump d =>
    { s with
      dumpPhase := update s.dumpPhase d (some .rejected)
      validation := update s.validation d .invalid }
  | beginPurge d =>
    { s with
      dumpPhase := update s.dumpPhase d (some .deleting)
      downloadable := s.downloadable \ {d} }
  | finishPurge d =>
    { s with
      dumpPhase := update s.dumpPhase d (some .deleted)
      blobState := update s.blobState d .none
      analysisRecorded := s.analysisRecorded \ {d} }
  | recordAnalysis d => { s with analysisRecorded := s.analysisRecorded ∪ {d} }

end Action

end DumpLedger.Spec
