import DumpLedger.Ledger.Audit

/-!
# Customers, cases, grants and dumps

The transactions of the live lifecycle. Each is a chain of reads, guarded updates and
inserts in `Except`; a step that throws rolls the whole transaction back, so a
transaction that threw has no resulting ledger.

For each operation `f`, `f_eq_ok` says exactly when it commits and what the ledger is
then. The proofs of the invariants and of the drivers use nothing else.
-/

namespace DumpLedger

open Lib Vocabulary

/-! ## Row updates -/

/-- `Number(n)` below 2^54: exact up to 2^53, then rounded to an even multiple of two. -/
def nearestDouble (n : Nat) : Nat :=
  if n ≤ 2 ^ 53 then n
  else if n % 4 = 1 then n - 1
  else if n % 4 = 3 then n + 1
  else n

namespace GrantRow

/-- One slot taken by an upload of `dumpId`; a grant without a free slot is left alone. -/
def takeSlot (dumpId : DumpId) (g : GrantRow) : GrantRow :=
  if h : g.uploadsUsed < g.maxUploads then
    { g with
      uploadsUsed := g.uploadsUsed + 1
      state := if g.uploadsUsed + 1 ≥ g.maxUploads then .consumed else .issued
      consumedByDumpId := g.consumedByDumpId <|> some dumpId
      uploadsUsed_le := Nat.le_trans h g.maxUploads_between.2 }
  else g

/-- The row `issueGrant` inserts. -/
def fresh (grantId : GrantId) (caseId : CaseId) (secretDigest : BoundedText 128)
    (expiresAt : IsoTimestamp) (maxBytes : ℕ+) (maxUploads : Nat)
    (hmax : 1 ≤ maxUploads ∧ maxUploads ≤ maxGrantUploadSlots) (createdAt : IsoTimestamp) :
    GrantRow where
  grantId := grantId
  caseId := caseId
  secretDigest := secretDigest
  state := .issued
  expiresAt := expiresAt
  maxBytes := maxBytes
  maxUploads := maxUploads
  uploadsUsed := 0
  consumedByDumpId := none
  createdAt := createdAt
  maxUploads_between := hmax
  uploadsUsed_le := Nat.zero_le _

theorem takeSlot_grantId (dumpId : DumpId) (g : GrantRow) :
    (g.takeSlot dumpId).grantId = g.grantId := by
  unfold takeSlot
  split <;> rfl

theorem takeSlot_caseId (dumpId : DumpId) (g : GrantRow) :
    (g.takeSlot dumpId).caseId = g.caseId := by
  unfold takeSlot
  split <;> rfl

section TakeSlot

variable {dumpId : DumpId} {g : GrantRow}

@[simp] theorem takeSlot_maxUploads : (g.takeSlot dumpId).maxUploads = g.maxUploads := by
  unfold takeSlot
  split <;> rfl

@[simp] theorem takeSlot_secretDigest : (g.takeSlot dumpId).secretDigest = g.secretDigest := by
  unfold takeSlot
  split <;> rfl

theorem takeSlot_uploadsUsed (h : g.uploadsUsed < g.maxUploads) :
    (g.takeSlot dumpId).uploadsUsed = g.uploadsUsed + 1 := by
  rw [takeSlot, dif_pos h]

/-- The slot that was the last one consumes the grant. -/
theorem takeSlot_state (h : g.uploadsUsed < g.maxUploads) :
    (g.takeSlot dumpId).state = if g.uploadsUsed + 1 ≥ g.maxUploads then .consumed else .issued := by
  rw [takeSlot, dif_pos h]

end TakeSlot

end GrantRow

namespace DumpRow

/-- The row `beginUpload` inserts. -/
def receiving (dumpId : DumpId) (caseId : CaseId) (originalName : BoundedText 1024)
    (receivedAt : IsoTimestamp) : DumpRow where
  dumpId := dumpId
  caseId := caseId
  phase := .receiving
  blobState := .staging
  originalName := originalName
  byteSize := none
  sha256 := none
  validation := .notChecked
  coverage := none
  downloadable := false
  inspectionError := none
  inspectionFacts := none
  receivedAt := receivedAt
  availableAt := none
  purgeAt := none
  purgedAt := none

end DumpRow

namespace SqliteLedger

/-! ## Reads -/

/-- `SELECT COALESCE(MAX(customer_no), 0) + 1`, as a JavaScript number. -/
def nextCustomerNo (l : SqliteLedger) : Nat :=
  nearestDouble ((l.customers.rows.map CustomerRow.customerNo).foldr max 0 + 1)

def caseStatusFor (l : SqliteLedger) (caseId : CaseId) : Except Thrown CaseStatus := do
  let row ← orThrow (l.cases.find? caseId) (notFound "case was not found")
  return row.status

def customerForCase (l : SqliteLedger) (caseId : CaseId) : Except Thrown CustomerId := do
  let row ← orThrow (l.cases.find? caseId) (notFound "case was not found")
  return row.customerId

def findGrantByDigest (l : SqliteLedger) (secretDigest : BoundedText 128) : Option GrantRow :=
  l.grants.rows.find? fun g => decide (g.secretDigest = secretDigest)

def getDump (l : SqliteLedger) (dumpId : DumpId) : Option DumpRow := l.dumps.find? dumpId

/-- `SELECT grant_id ... WHERE case_id = ? AND state = 'issued' ORDER BY grant_id`. -/
def issuedGrantIds (l : SqliteLedger) (caseId : CaseId) : List GrantId :=
  (l.grants.sorted.filter fun g => decide (g.caseId = caseId ∧ g.state = .issued)).map
    GrantRow.grantId

/-! ## Customers and cases -/

def createCustomer (l : SqliteLedger) (customerId : CustomerId) (displayName : BoundedText 200)
    (event : EventIdentity) : Except Thrown (Nat × SqliteLedger) := do
  let customerNo := l.nextCustomerNo
  let l ← l.insertCustomer
    { customerId, displayName, createdAt := event.occurredAt, customerNo }
  let l ← l.insertAudit event .createCustomer (some customerId) none none []
  return (customerNo, l)

def createCase (l : SqliteLedger) (caseId : CaseId) (customerId : CustomerId)
    (title : BoundedText 500) (event : EventIdentity) : Except Thrown SqliteLedger := do
  let l ← l.insertCase { caseId, customerId, title, status := .new, createdAt := event.occurredAt }
  l.insertAudit event .createCase (some customerId) (some caseId) none []

def transitionCase (l : SqliteLedger) (caseId : CaseId) (expected : List CaseStatus)
    (event : EventIdentity) (action : AuditAction) (next : CaseStatus) :
    Except Thrown SqliteLedger := do
  let status ← l.caseStatusFor caseId
  let cases ← orThrow
    (l.cases.modify? caseId (fun c => expected.contains c.status)
      (fun c => { c with status := next }) (fun _ => rfl))
    (invalidTransition s!"cannot {action.text} from status {text status}")
  let l := { l with cases }
  let customerId ← l.customerForCase caseId
  l.insertAudit event action (some customerId) (some caseId) none []

def startInvestigation (l : SqliteLedger) (caseId : CaseId) (event : EventIdentity) :=
  l.transitionCase caseId [.new] event .startInvestigation .investigating

def waitForCustomer (l : SqliteLedger) (caseId : CaseId) (event : EventIdentity) :=
  l.transitionCase caseId [.investigating] event .waitForCustomer .waitingForCustomer

def resumeInvestigation (l : SqliteLedger) (caseId : CaseId) (event : EventIdentity) :=
  l.transitionCase caseId [.waitingForCustomer, .resolved, .closed] event .resumeInvestigation
    .investigating

def resolveCase (l : SqliteLedger) (caseId : CaseId) (event : EventIdentity) :=
  l.transitionCase caseId [.investigating, .waitingForCustomer] event .resolveCase .resolved

/-- `UPDATE upload_grants SET state = 'revoked' WHERE grant_id = ? AND state = 'issued'`. -/
def revokeIssued (l : SqliteLedger) (grantId : GrantId) : Except Thrown SqliteLedger := do
  let grants ← orThrow
    (l.grants.modify? grantId (fun g => decide (g.state = .issued))
      (fun g => { g with state := .revoked }) (fun _ => rfl))
    (integrityFailure "issued grant could not be revoked during CloseCase")
  return { l with grants }

/-- The detail of a `CloseCase` event. -/
def revokedDetail (ids : List GrantId) : JsonObject :=
  [("revokedGrantIds", .arr (ids.map fun id => .str id.text))]

def closeCase (l : SqliteLedger) (caseId : CaseId) (event : EventIdentity) :
    Except Thrown (List GrantId × SqliteLedger) := do
  let status ← l.caseStatusFor caseId
  let cases ← orThrow
    (l.cases.modify? caseId (fun c => decide (c.status = .resolved))
      (fun c => { c with status := .closed }) (fun _ => rfl))
    (invalidTransition s!"cannot CloseCase from status {text status}")
  let l := { l with cases }
  let revokedGrantIds := l.issuedGrantIds caseId
  let l ← revokedGrantIds.foldlM revokeIssued l
  let customerId ← l.customerForCase caseId
  let l ← l.insertAudit event .closeCase (some customerId) (some caseId) none
    (revokedDetail revokedGrantIds)
  return (revokedGrantIds, l)

/-! ## Grants -/

def issueGrant (l : SqliteLedger) (grantId : GrantId) (caseId : CaseId)
    (secretDigest : BoundedText 128) (expiresAt : IsoTimestamp) (maxBytes : ℕ+)
    (maxUploads : Nat) (hmax : 1 ≤ maxUploads ∧ maxUploads ≤ maxGrantUploadSlots)
    (event : EventIdentity) : Except Thrown SqliteLedger := do
  let status ← l.caseStatusFor caseId
  guardThat (status ≠ .closed) (invalidTransition "cannot IssueGrant on a closed case")
  let customerId ← l.customerForCase caseId
  let l ← l.insertGrant
    (GrantRow.fresh grantId caseId secretDigest expiresAt maxBytes maxUploads hmax
      event.occurredAt)
  l.insertAudit event .issueGrant (some customerId) (some caseId) none
    [("grantId", .str grantId.text), ("maxUploads", .num (.int maxUploads))]

/-- The two states an operator moves an issued grant to. -/
inductive GrantEnd
  | revoked
  | expired
  deriving DecidableEq, Repr

namespace GrantEnd

def state : GrantEnd → TokenState
  | revoked => .revoked
  | expired => .expired

def action : GrantEnd → AuditAction
  | revoked => .revokeGrant
  | expired => .expireGrant

end GrantEnd

def transitionGrant (l : SqliteLedger) (grantId : GrantId) (next : GrantEnd)
    (event : EventIdentity) : Except Thrown SqliteLedger := do
  let grant ← orThrow (l.grants.find? grantId) (notFound "upload grant was not found")
  let caseRow ← orThrow (l.cases.find? grant.caseId) (notFound "upload grant was not found")
  let grants ← orThrow
    (l.grants.modify? grantId (fun g => decide (g.state = .issued))
      (fun g => { g with state := next.state }) (fun _ => rfl))
    (invalidTransition "upload grant is not issued")
  { l with grants }.insertAudit event next.action (some caseRow.customerId) (some grant.caseId)
    none [("grantId", .str grantId.text)]

def beginUpload (l : SqliteLedger) (grantId : GrantId) (dumpId : DumpId)
    (originalName : BoundedText 1024) (event : EventIdentity) : Except Thrown SqliteLedger := do
  let grant ← orThrow (l.grants.find? grantId)
    (.ledgerError .grantInvalid "upload grant is invalid")
  let caseRow ← orThrow (l.cases.find? grant.caseId)
    (.ledgerError .grantInvalid "upload grant is invalid")
  guardThat (caseRow.status ≠ .closed)
    (invalidTransition "cannot BeginUpload on a closed case")
  let grants ← orThrow
    (l.grants.modify? grantId
      (fun g => decide (g.state = .issued ∧ g.uploadsUsed < g.maxUploads))
      (GrantRow.takeSlot dumpId) (GrantRow.takeSlot_grantId dumpId))
    (.ledgerError .grantConsumed "upload grant has no remaining upload slots")
  let l ← { l with grants }.insertDump
    (DumpRow.receiving dumpId grant.caseId originalName event.occurredAt)
  l.insertAudit event .beginUpload (some caseRow.customerId) (some grant.caseId) (some dumpId)
    [("grantId", .str grantId.text)]

/-! ## Dumps -/

/-- A guarded update of one dump: `assignments` when the phase is expected and the
extra predicate holds. -/
def transitionDump (l : SqliteLedger) (dumpId : DumpId) (expected : List DumpPhase)
    (event : EventIdentity) (action : AuditAction) (assignments : DumpRow → DumpRow)
    (hkey : ∀ d, (assignments d).dumpId = d.dumpId) (extraPredicate : DumpRow → Bool) :
    Except Thrown SqliteLedger := do
  let dump ← orThrow (l.getDump dumpId) (notFound "dump was not found")
  let dumps ← orThrow
    (l.dumps.modify? dumpId (fun d => expected.contains d.phase && extraPredicate d)
      assignments hkey)
    (invalidTransition s!"cannot {action.text} from phase {text dump.phase}")
  let l := { l with dumps }
  let customerId ← l.customerForCase dump.caseId
  l.insertAudit event action (some customerId) (some dump.caseId) (some dumpId) []

def sealUpload (l : SqliteLedger) (dumpId : DumpId) (byteSize : Nat) (sha256 : Sha256)
    (event : EventIdentity) :=
  l.transitionDump dumpId [.receiving] event .sealUpload
    (fun d => { d with phase := .sealed, byteSize := some byteSize, sha256 := some sha256 })
    (fun _ => rfl) (fun _ => true)

def failUpload (l : SqliteLedger) (dumpId : DumpId) (event : EventIdentity) :=
  l.transitionDump dumpId [.receiving] event .failUpload
    (fun d => { d with
      phase := .rejected, blobState := .none, validation := .transferFailed,
      downloadable := false })
    (fun _ => rfl) (fun _ => true)

def recordPromoted (l : SqliteLedger) (dumpId : DumpId) (event : EventIdentity) :=
  l.transitionDump dumpId [.sealed] event .promoteObject
    (fun d => { d with blobState := .vault })
    (fun _ => rfl) (fun d => decide (d.blobState = .staging))

def markQuarantined (l : SqliteLedger) (dumpId : DumpId) (event : EventIdentity) :=
  l.transitionDump dumpId [.sealed] event .markQuarantined
    (fun d => { d with phase := .quarantined })
    (fun _ => rfl) (fun d => decide (d.blobState = .vault) && d.sha256.isSome)

def acceptDump (l : SqliteLedger) (dumpId : DumpId) (coverage : CoverageKind)
    (facts : JsonObject) (event : EventIdentity) :=
  l.transitionDump dumpId [.quarantined] event .acceptDump
    (fun d => { d with
      phase := .available, validation := .valid, coverage := some coverage,
      downloadable := true, inspectionError := none, inspectionFacts := some facts,
      availableAt := some event.occurredAt })
    (fun _ => rfl) (fun d => decide (d.blobState = .vault) && d.sha256.isSome)

def rejectDump (l : SqliteLedger) (dumpId : DumpId) (reason : String) (event : EventIdentity) :=
  l.transitionDump dumpId [.quarantined] event .rejectDump
    (fun d => { d with
      phase := .rejected, validation := .invalid, downloadable := false,
      inspectionError := some reason })
    (fun _ => rfl) (fun d => decide (d.blobState = .vault))

def beginPurge (l : SqliteLedger) (dumpId : DumpId) (event : EventIdentity) :=
  l.transitionDump dumpId [.available, .rejected] event .beginPurge
    (fun d => { d with phase := .deleting, downloadable := false })
    (fun _ => rfl) (fun _ => true)

/-- `DELETE FROM dump_analyses WHERE dump_id = ?`, which cascades to the details. -/
def deleteAnalyses (l : SqliteLedger) (dumpId : DumpId) : SqliteLedger :=
  let gone := l.analyses.rows.filter fun a => decide (a.identity.dumpId = dumpId)
  { l with
    analyses := l.analyses.delete fun a => decide (a.identity.dumpId = dumpId)
    analysisDetails := l.analysisDetails.delete fun d =>
      gone.any fun a => decide (a.analysisId = d.analysisId) }

def finishPurge (l : SqliteLedger) (dumpId : DumpId) (event : EventIdentity) :
    Except Thrown SqliteLedger := do
  let l ← l.transitionDump dumpId [.deleting] event .finishPurge
    (fun d => { d with
      phase := .deleted, blobState := .none, downloadable := false,
      purgedAt := some event.occurredAt })
    (fun _ => rfl) (fun _ => true)
  return l.deleteAnalyses dumpId

def setRetention (l : SqliteLedger) (dumpId : DumpId) (purgeAt : IsoTimestamp)
    (event : EventIdentity) : Except Thrown SqliteLedger := do
  let dump ← orThrow (l.getDump dumpId) (notFound "dump was not found")
  let dumps ← orThrow
    (l.dumps.modify? dumpId (fun d => [DumpPhase.available, .rejected].contains d.phase)
      (fun d => { d with purgeAt := some purgeAt }) (fun _ => rfl))
    (invalidTransition s!"cannot SetRetention from phase {text dump.phase}")
  let l := { l with dumps }
  let customerId ← l.customerForCase dump.caseId
  l.insertAudit event .setRetention (some customerId) (some dump.caseId) (some dumpId)
    [("purgeAt", .str purgeAt.text)]

def authorizeDownload (l : SqliteLedger) (dumpId : DumpId) (event : EventIdentity) :
    Except Thrown (DumpRow × SqliteLedger) := do
  let dump ← orThrow (l.getDump dumpId) (notFound "dump was not found")
  guardThat (dump.phase = .available ∧ dump.downloadable = true)
    (invalidTransition "dump is not available for download")
  let customerId ← l.customerForCase dump.caseId
  let l ← l.insertAudit event .authorizeDownload (some customerId) (some dump.caseId)
    (some dumpId) []
  return (dump, l)

/-! ## When an operation commits -/

section Committed

variable {l l' : SqliteLedger} {event : EventIdentity}

theorem caseStatusFor_eq_ok {caseId : CaseId} {status : CaseStatus} :
    l.caseStatusFor caseId = .ok status ↔
      ∃ c, l.cases.find? caseId = some c ∧ c.status = status := by
  simp only [caseStatusFor, bind_eq_ok, orThrow_eq_ok, pure_eq_ok]

theorem customerForCase_eq_ok {caseId : CaseId} {customerId : CustomerId} :
    l.customerForCase caseId = .ok customerId ↔
      ∃ c, l.cases.find? caseId = some c ∧ c.customerId = customerId := by
  simp only [customerForCase, bind_eq_ok, orThrow_eq_ok, pure_eq_ok]

theorem createCustomer_eq_ok {customerId : CustomerId} {displayName : BoundedText 200} {n : Nat} :
    l.createCustomer customerId displayName event = .ok (n, l') ↔
      n = l.nextCustomerNo ∧ (∀ r ∈ l.customers, r.customerNo ≠ n) ∧
        ∃ hc : l.customers.find? customerId = none,
          ∃ he : l.auditEvents.find? event.eventId = none,
            l' = { l with
                  customers := l.customers.insert
                    ⟨customerId, displayName, event.occurredAt, n⟩ hc }.audited
                    (auditRow event .createCustomer (some customerId) none none []) he := by
  simp only [createCustomer, bind_eq_ok, insertCustomer_eq_ok, insertAudit_eq_ok, pure_eq_ok,
    Prod.mk.injEq]
  constructor
  · rintro ⟨_, ⟨hno, hc, rfl⟩, _, ⟨-, he, rfl⟩, rfl, rfl⟩
    exact ⟨rfl, hno, hc, he, rfl⟩
  · rintro ⟨rfl, hno, hc, he, rfl⟩
    exact ⟨_, ⟨hno, hc, rfl⟩, _, ⟨⟨by simp, by simp, by simp⟩, he, rfl⟩, rfl, rfl⟩

theorem createCase_eq_ok {caseId : CaseId} {customerId : CustomerId} {title : BoundedText 500} :
    l.createCase caseId customerId title event = .ok l' ↔
      l.customers.contains customerId = true ∧
        ∃ hc : l.cases.find? caseId = none,
          ∃ he : l.auditEvents.find? event.eventId = none,
            l' = { l with
                  cases := l.cases.insert
                    ⟨caseId, customerId, title, .new, event.occurredAt⟩ hc }.audited
                    (auditRow event .createCase (some customerId) (some caseId) none []) he := by
  simp only [createCase, bind_eq_ok, insertCase_eq_ok, insertAudit_eq_ok]
  constructor
  · rintro ⟨_, ⟨hcu, hc, rfl⟩, -, he, rfl⟩
    exact ⟨hcu, hc, he, rfl⟩
  · rintro ⟨hcu, hc, he, rfl⟩
    exact ⟨_, ⟨hcu, hc, rfl⟩, ⟨by simpa using hcu, by simp, by simp⟩, he, rfl⟩

theorem transitionCase_eq_ok {caseId : CaseId} {expected : List CaseStatus} {action : AuditAction}
    {next : CaseStatus} :
    l.transitionCase caseId expected event action next = .ok l' ↔
      ∃ c, l.cases.find? caseId = some c ∧ expected.contains c.status = true ∧
        l.customers.contains c.customerId = true ∧
          ∃ he : l.auditEvents.find? event.eventId = none,
            l' = { l with
                  cases := l.cases.updateKey caseId
                    (fun c => { c with status := next }) (fun _ => rfl) }.audited
                    (auditRow event action (some c.customerId) (some caseId) none []) he := by
  simp only [transitionCase, bind_eq_ok, caseStatusFor_eq_ok, orThrow_eq_ok,
    Table.modify?_eq_some, customerForCase_eq_ok, insertAudit_eq_ok]
  constructor
  · rintro ⟨_, ⟨c, hc, rfl⟩, _, ⟨c', hc', hp, rfl⟩, _, ⟨c'', hc'', rfl⟩, hs, he, rfl⟩
    rw [hc] at hc'
    cases hc'
    rw [Table.find?_updateKey_self hc] at hc''
    cases hc''
    exact ⟨c, hc, hp, by simpa using hs.customer, he, rfl⟩
  · rintro ⟨c, hc, hp, hcu, he, rfl⟩
    refine ⟨_, ⟨c, hc, rfl⟩, _, ⟨c, hc, hp, rfl⟩, _, ⟨_, Table.find?_updateKey_self hc, rfl⟩,
      ⟨by simpa using hcu, ?_, by simp⟩, he, rfl⟩
    simpa using Table.contains_of_find? hc

theorem revokeIssued_eq_ok {grantId : GrantId} :
    l.revokeIssued grantId = .ok l' ↔
      ∃ g, l.grants.find? grantId = some g ∧ g.state = .issued ∧
        l' = { l with
              grants := l.grants.updateKey grantId (fun g => { g with state := .revoked })
                (fun _ => rfl) } := by
  simp only [revokeIssued, bind_eq_ok, orThrow_eq_ok, Table.modify?_eq_some, pure_eq_ok,
    decide_eq_true_eq]
  constructor
  · rintro ⟨_, ⟨g, hg, hp, rfl⟩, rfl⟩
    exact ⟨g, hg, hp, rfl⟩
  · rintro ⟨g, hg, hp, rfl⟩
    exact ⟨_, ⟨g, hg, hp, rfl⟩, rfl⟩

/-- Revoking distinct issued grants one by one never fails. -/
theorem foldlM_revokeIssued {ids : List GrantId} (hnd : ids.Nodup)
    (hissued : ∀ id ∈ ids, ∃ g, l.grants.find? id = some g ∧ g.state = .issued) :
    ids.foldlM revokeIssued l =
      .ok { l with
            grants := l.grants.update (fun g => decide (g.grantId ∈ ids))
              (fun g => { g with state := .revoked }) (fun _ => rfl) } := by
  induction ids generalizing l with
  | nil =>
    have hsame : l.grants.update (fun g => decide (g.grantId ∈ ([] : List GrantId)))
        (fun g => { g with state := .revoked }) (fun _ => rfl) = l.grants := by
      refine Table.ext ?_
      show l.grants.rows.map _ = _
      simp
    rw [hsame]
    rfl
  | cons id ids ih =>
    obtain ⟨hid, hnd'⟩ := List.nodup_cons.mp hnd
    obtain ⟨g, hg, hgi⟩ := hissued id (List.mem_cons_self ..)
    rw [List.foldlM_cons, revokeIssued_eq_ok.mpr ⟨g, hg, hgi, rfl⟩, bind_ok, ih hnd' ?_]
    · exact congrArg (fun grants => Except.ok { l with grants }) (Table.update_updateKey hid)
    · intro id' hid'
      have hne : id ≠ id' := fun he => hid (he ▸ hid')
      obtain ⟨g', hg', hgi'⟩ := hissued id' (List.mem_cons_of_mem _ hid')
      exact ⟨g', by rw [Table.find?_updateKey_ne hne]; exact hg', hgi'⟩

theorem mem_issuedGrantIds {caseId : CaseId} {grantId : GrantId} :
    grantId ∈ l.issuedGrantIds caseId ↔
      ∃ g ∈ l.grants, g.grantId = grantId ∧ g.caseId = caseId ∧ g.state = .issued := by
  simp only [issuedGrantIds, List.mem_map, List.mem_filter, Table.mem_sorted, decide_eq_true_eq]
  constructor
  · rintro ⟨g, ⟨hg, hc, hs⟩, rfl⟩
    exact ⟨g, hg, rfl, hc, hs⟩
  · rintro ⟨g, hg, rfl, hc, hs⟩
    exact ⟨g, ⟨hg, hc, hs⟩, rfl⟩

theorem nodup_issuedGrantIds {caseId : CaseId} : (l.issuedGrantIds caseId).Nodup := by
  have hsub : (l.issuedGrantIds caseId).Sublist (l.grants.sorted.map GrantRow.grantId) :=
    List.Sublist.map _ List.filter_sublist
  refine hsub.nodup ?_
  exact (((Table.sorted_perm l.grants).map GrantRow.grantId).nodup_iff).mpr l.grants.keys_nodup

/-- The grants once every issued one of a case is revoked. -/
def grantsRevokedFor (l : SqliteLedger) (caseId : CaseId) : Table GrantRow :=
  l.grants.update (fun g => decide (g.caseId = caseId ∧ g.state = TokenState.issued))
    (fun g => { g with state := .revoked }) (fun _ => rfl)

theorem foldlM_issuedGrantIds {caseId : CaseId} :
    (l.issuedGrantIds caseId).foldlM revokeIssued l =
      .ok { l with grants := l.grantsRevokedFor caseId } := by
  rw [foldlM_revokeIssued nodup_issuedGrantIds]
  · refine congrArg (fun grants => Except.ok { l with grants }) ?_
    refine Table.update_congr fun g hg => decide_eq_decide.mpr ?_
    rw [mem_issuedGrantIds]
    constructor
    · rintro ⟨g', hg', hk, hc, hs⟩
      cases Table.eq_of_key hg' hg hk
      exact ⟨hc, hs⟩
    · rintro ⟨hc, hs⟩
      exact ⟨g, hg, rfl, hc, hs⟩
  · intro id hid
    obtain ⟨g, hg, rfl, -, hs⟩ := mem_issuedGrantIds.mp hid
    exact ⟨g, Table.find?_key hg, hs⟩

/-- **`CloseCase` revokes every issued grant of the case, and no other.** -/
theorem closeCase_eq_ok {caseId : CaseId} {ids : List GrantId} :
    l.closeCase caseId event = .ok (ids, l') ↔
      ∃ c, l.cases.find? caseId = some c ∧ c.status = .resolved ∧
        l.customers.contains c.customerId = true ∧ ids = l.issuedGrantIds caseId ∧
          ∃ he : l.auditEvents.find? event.eventId = none,
            l' = { l with
                  cases := l.cases.updateKey caseId (fun c => { c with status := .closed })
                    (fun _ => rfl)
                  grants := l.grantsRevokedFor caseId }.audited
                    (auditRow event .closeCase (some c.customerId) (some caseId) none
                      (revokedDetail (l.issuedGrantIds caseId))) he := by
  simp only [closeCase, bind_eq_ok, caseStatusFor_eq_ok, orThrow_eq_ok, Table.modify?_eq_some,
    decide_eq_true_eq, foldlM_issuedGrantIds, Except.ok.injEq, exists_eq_left',
    customerForCase_eq_ok, insertAudit_eq_ok, pure_eq_ok, Prod.mk.injEq]
  constructor
  · rintro ⟨_, ⟨c, hc, rfl⟩, _, ⟨c', hc', hp, rfl⟩, _, ⟨c'', hc'', rfl⟩, _, ⟨hs, he, rfl⟩,
      rfl, rfl⟩
    rw [hc] at hc'
    cases hc'
    rw [Table.find?_updateKey_self hc] at hc''
    cases hc''
    exact ⟨c, hc, hp, by simpa using hs.customer, rfl, he, rfl⟩
  · rintro ⟨c, hc, hp, hcu, rfl, he, rfl⟩
    refine ⟨_, ⟨c, hc, rfl⟩, _, ⟨c, hc, hp, rfl⟩, _,
      ⟨_, Table.find?_updateKey_self hc, rfl⟩, _, ⟨⟨by simpa using hcu, ?_, by simp⟩, he, rfl⟩,
      rfl, rfl⟩
    simpa using Table.contains_of_find? hc

theorem transitionGrant_eq_ok {grantId : GrantId} {next : GrantEnd} :
    l.transitionGrant grantId next event = .ok l' ↔
      ∃ g c, l.grants.find? grantId = some g ∧ g.state = .issued ∧
        l.cases.find? g.caseId = some c ∧ l.customers.contains c.customerId = true ∧
          ∃ he : l.auditEvents.find? event.eventId = none,
            l' = { l with
                  grants := l.grants.updateKey grantId
                    (fun g => { g with state := next.state }) (fun _ => rfl) }.audited
                    (auditRow event next.action (some c.customerId) (some g.caseId) none
                      [("grantId", .str grantId.text)]) he := by
  simp only [transitionGrant, bind_eq_ok, orThrow_eq_ok, Table.modify?_eq_some,
    insertAudit_eq_ok]
  constructor
  · rintro ⟨g, hg, c, hc, _, ⟨g', hg', hp, rfl⟩, hs, he, rfl⟩
    rw [hg] at hg'
    cases hg'
    exact ⟨g, c, hg, by simpa using hp, hc, by simpa using hs.customer, he, rfl⟩
  · rintro ⟨g, c, hg, hp, hc, hcu, he, rfl⟩
    refine ⟨g, hg, c, hc, _, ⟨g, hg, by simpa using hp, rfl⟩,
      ⟨by simpa using hcu, ?_, by simp⟩, he, rfl⟩
    simpa using Table.contains_of_find? hc

theorem issueGrant_eq_ok {grantId : GrantId} {caseId : CaseId} {secretDigest : BoundedText 128}
    {expiresAt : IsoTimestamp} {maxBytes : ℕ+} {maxUploads : Nat}
    {hmax : 1 ≤ maxUploads ∧ maxUploads ≤ maxGrantUploadSlots} :
    l.issueGrant grantId caseId secretDigest expiresAt maxBytes maxUploads hmax event = .ok l' ↔
      ∃ c, l.cases.find? caseId = some c ∧ c.status ≠ .closed ∧
        l.customers.contains c.customerId = true ∧
        (∀ r ∈ l.grants, r.secretDigest ≠ secretDigest) ∧
          ∃ hg : l.grants.find? grantId = none,
            ∃ he : l.auditEvents.find? event.eventId = none,
              l' = { l with
                    grants := l.grants.insert
                      (GrantRow.fresh grantId caseId secretDigest expiresAt maxBytes maxUploads
                        hmax event.occurredAt) hg }.audited
                      (auditRow event .issueGrant (some c.customerId) (some caseId) none
                        [("grantId", .str grantId.text),
                          ("maxUploads", .num (.int maxUploads))]) he := by
  simp only [issueGrant, bind_eq_ok, caseStatusFor_eq_ok, guardThat_eq_ok, customerForCase_eq_ok,
    insertGrant_eq_ok, insertAudit_eq_ok]
  constructor
  · rintro ⟨_, ⟨c, hc, rfl⟩, -, hst, _, ⟨c', hc', rfl⟩, _, ⟨-, hd, hg, rfl⟩, hs, he, rfl⟩
    rw [hc] at hc'
    cases hc'
    exact ⟨c, hc, hst, by simpa using hs.customer, hd, hg, he, rfl⟩
  · rintro ⟨c, hc, hst, hcu, hd, hg, he, rfl⟩
    have hcc := Table.contains_of_find? hc
    exact ⟨_, ⟨c, hc, rfl⟩, (), hst, _, ⟨c, hc, rfl⟩, _, ⟨hcc, hd, hg, rfl⟩,
      ⟨by simpa using hcu, by simpa using hcc, by simp⟩, he, rfl⟩

theorem beginUpload_eq_ok {grantId : GrantId} {dumpId : DumpId} {originalName : BoundedText 1024} :
    l.beginUpload grantId dumpId originalName event = .ok l' ↔
      ∃ g c, l.grants.find? grantId = some g ∧ l.cases.find? g.caseId = some c ∧
        c.status ≠ .closed ∧ g.state = .issued ∧ g.uploadsUsed < g.maxUploads ∧
        l.customers.contains c.customerId = true ∧
          ∃ hd : l.dumps.find? dumpId = none,
            ∃ he : l.auditEvents.find? event.eventId = none,
              l' = { l with
                    grants := l.grants.updateKey grantId (GrantRow.takeSlot dumpId)
                      (GrantRow.takeSlot_grantId dumpId)
                    dumps := l.dumps.insert
                      (DumpRow.receiving dumpId g.caseId originalName event.occurredAt)
                      hd }.audited
                    (auditRow event .beginUpload (some c.customerId) (some g.caseId) (some dumpId)
                      [("grantId", .str grantId.text)]) he := by
  simp only [beginUpload, bind_eq_ok, orThrow_eq_ok, guardThat_eq_ok, Table.modify?_eq_some,
    insertDump_eq_ok, insertAudit_eq_ok]
  constructor
  · rintro ⟨g, hg, c, hc, -, hst, _, ⟨g', hg', hp, rfl⟩, _, ⟨-, hd, rfl⟩, hs, he, rfl⟩
    rw [hg] at hg'
    cases hg'
    obtain ⟨hi, hlt⟩ : g.state = .issued ∧ g.uploadsUsed < g.maxUploads := by simpa using hp
    exact ⟨g, c, hg, hc, hst, hi, hlt, by simpa using hs.customer, hd, he, rfl⟩
  · rintro ⟨g, c, hg, hc, hst, hi, hlt, hcu, hd, he, rfl⟩
    have hcc := Table.contains_of_find? hc
    exact ⟨g, hg, c, hc, (), hst, _, ⟨g, hg, by simp [hi, hlt], rfl⟩, _, ⟨hcc, hd, rfl⟩,
      ⟨by simpa using hcu, by simpa using hcc, by simp [DumpRow.receiving]⟩, he, rfl⟩

theorem transitionDump_eq_ok {dumpId : DumpId} {expected : List DumpPhase} {action : AuditAction}
    {assignments : DumpRow → DumpRow} {hkey : ∀ d, (assignments d).dumpId = d.dumpId}
    {extraPredicate : DumpRow → Bool} :
    l.transitionDump dumpId expected event action assignments hkey extraPredicate = .ok l' ↔
      ∃ d c, l.dumps.find? dumpId = some d ∧ expected.contains d.phase = true ∧
        extraPredicate d = true ∧ l.cases.find? d.caseId = some c ∧
        l.customers.contains c.customerId = true ∧
          ∃ he : l.auditEvents.find? event.eventId = none,
            l' = { l with dumps := l.dumps.updateKey dumpId assignments hkey }.audited
                    (auditRow event action (some c.customerId) (some d.caseId) (some dumpId) [])
                    he := by
  simp only [transitionDump, bind_eq_ok, getDump, orThrow_eq_ok, Table.modify?_eq_some,
    customerForCase_eq_ok, insertAudit_eq_ok, Bool.and_eq_true]
  constructor
  · rintro ⟨d, hd, _, ⟨d', hd', ⟨hp, hx⟩, rfl⟩, _, ⟨c, hc, rfl⟩, hs, he, rfl⟩
    rw [hd] at hd'
    cases hd'
    exact ⟨d, c, hd, hp, hx, hc, by simpa using hs.customer, he, rfl⟩
  · rintro ⟨d, c, hd, hp, hx, hc, hcu, he, rfl⟩
    refine ⟨d, hd, _, ⟨d, hd, ⟨hp, hx⟩, rfl⟩, _, ⟨c, hc, rfl⟩,
      ⟨by simpa using hcu, ?_, ?_⟩, he, rfl⟩
    · simpa using Table.contains_of_find? hc
    · simpa using Table.contains_of_find? hd

/-- A transition changes its own dump. -/
theorem transitionDump_only {dumpId : DumpId} {expected : List DumpPhase} {action : AuditAction}
    {assignments : DumpRow → DumpRow} {hkey : ∀ d, (assignments d).dumpId = d.dumpId}
    {extraPredicate : DumpRow → Bool}
    (h : l.transitionDump dumpId expected event action assignments hkey extraPredicate = .ok l') :
    l'.cases = l.cases ∧ l'.grants = l.grants ∧
      (∀ d, d ≠ dumpId → l'.dumps.find? d = l.dumps.find? d) ∧
      ∃ row, l'.dumps.find? dumpId = some (assignments row) := by
  obtain ⟨row, c, hrow, -, -, -, -, he, rfl⟩ := transitionDump_eq_ok.mp h
  refine ⟨rfl, rfl, fun d hne => ?_, row, ?_⟩
  · show (l.dumps.updateKey dumpId assignments hkey).find? d = _
    rw [Table.find?_updateKey_ne (Ne.symm hne)]
  · show (l.dumps.updateKey dumpId assignments hkey).find? dumpId = _
    rw [Table.find?_updateKey_self hrow]

theorem finishPurge_eq_ok {dumpId : DumpId} :
    l.finishPurge dumpId event = .ok l' ↔
      ∃ l₁, l.transitionDump dumpId [.deleting] event .finishPurge
          (fun d => { d with
            phase := .deleted, blobState := .none, downloadable := false,
            purgedAt := some event.occurredAt })
          (fun _ => rfl) (fun _ => true) = .ok l₁ ∧ l' = l₁.deleteAnalyses dumpId := by
  simp only [finishPurge, bind_eq_ok, pure_eq_ok]
  constructor
  · rintro ⟨l₁, h, rfl⟩
    exact ⟨l₁, h, rfl⟩
  · rintro ⟨l₁, h, rfl⟩
    exact ⟨l₁, h, rfl⟩

theorem setRetention_eq_ok {dumpId : DumpId} {purgeAt : IsoTimestamp} :
    l.setRetention dumpId purgeAt event = .ok l' ↔
      ∃ d c, l.dumps.find? dumpId = some d ∧ [DumpPhase.available, .rejected].contains d.phase ∧
        l.cases.find? d.caseId = some c ∧ l.customers.contains c.customerId = true ∧
          ∃ he : l.auditEvents.find? event.eventId = none,
            l' = { l with
                  dumps := l.dumps.updateKey dumpId
                    (fun d => { d with purgeAt := some purgeAt }) (fun _ => rfl) }.audited
                    (auditRow event .setRetention (some c.customerId) (some d.caseId)
                      (some dumpId) [("purgeAt", .str purgeAt.text)]) he := by
  simp only [setRetention, bind_eq_ok, getDump, orThrow_eq_ok, Table.modify?_eq_some,
    customerForCase_eq_ok, insertAudit_eq_ok]
  constructor
  · rintro ⟨d, hd, _, ⟨d', hd', hp, rfl⟩, _, ⟨c, hc, rfl⟩, hs, he, rfl⟩
    rw [hd] at hd'
    cases hd'
    exact ⟨d, c, hd, hp, hc, by simpa using hs.customer, he, rfl⟩
  · rintro ⟨d, c, hd, hp, hc, hcu, he, rfl⟩
    refine ⟨d, hd, _, ⟨d, hd, hp, rfl⟩, _, ⟨c, hc, rfl⟩, ⟨by simpa using hcu, ?_, ?_⟩, he, rfl⟩
    · simpa using Table.contains_of_find? hc
    · simpa using Table.contains_of_find? hd

theorem authorizeDownload_eq_ok {dumpId : DumpId} {dump : DumpRow} :
    l.authorizeDownload dumpId event = .ok (dump, l') ↔
      ∃ c, l.dumps.find? dumpId = some dump ∧ dump.phase = .available ∧
        dump.downloadable = true ∧ l.cases.find? dump.caseId = some c ∧
        l.customers.contains c.customerId = true ∧
          ∃ he : l.auditEvents.find? event.eventId = none,
            l' = l.audited (auditRow event .authorizeDownload (some c.customerId)
              (some dump.caseId) (some dumpId) []) he := by
  simp only [authorizeDownload, bind_eq_ok, getDump, orThrow_eq_ok, guardThat_eq_ok,
    customerForCase_eq_ok, insertAudit_eq_ok, pure_eq_ok, Prod.mk.injEq]
  constructor
  · rintro ⟨d, hd, -, ⟨hp, hdl⟩, _, ⟨c, hc, rfl⟩, _, ⟨hs, he, rfl⟩, rfl, rfl⟩
    exact ⟨c, hd, hp, hdl, hc, by simpa using hs.customer, he, rfl⟩
  · rintro ⟨c, hd, hp, hdl, hc, hcu, he, rfl⟩
    refine ⟨dump, hd, (), ⟨hp, hdl⟩, _, ⟨c, hc, rfl⟩, _, ⟨⟨by simpa using hcu, ?_, ?_⟩, he, rfl⟩,
      rfl, rfl⟩
    · simpa using Table.contains_of_find? hc
    · simpa using Table.contains_of_find? hd

end Committed

end SqliteLedger

end DumpLedger
