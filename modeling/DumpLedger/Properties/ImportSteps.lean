import DumpLedger.Engine.Storage
import DumpLedger.Lib.Returns
import DumpLedger.Transfer.ImportBundle
import DumpLedger.Transfer.LedgerCopy

/-!
# What a step of an import did

A step that returned has had its command executed. What the command has put into the ledger is, in
every column, what the record has: `customerRecord` and its like take the row back to the record.

* `executed_importCustomer` and its like — the row that a command has inserted
* `importCustomer_returns` and its like — the same of a step of the session
* `executed_quiet` — the commands that change neither rows nor dumps
-/

namespace DumpLedger.ImportSession

open Lib Vocabulary Prog

/-! ## Records and rows -/

section Parsing

theorem int_of_bounded? {value : JsNumber} {lo hi n : Nat} (h : value.bounded? lo hi = some n) :
    value = .int n := by
  cases value with
  | other => cases h
  | int i =>
    by_cases hsafe : -9007199254740991 ≤ i ∧ i ≤ 9007199254740991
    · have hint : (JsNumber.int i).safeInteger? = some i := if_pos hsafe
      rw [JsNumber.bounded?, hint] at h
      dsimp only at h
      split at h
      · next hbounds =>
        rw [← Option.some.inj h, Int.toNat_of_nonneg (by omega)]
      · cases h
    · have hint : (JsNumber.int i).safeInteger? = none := if_neg hsafe
      rw [JsNumber.bounded?, hint] at h
      cases h

theorem int_of_assertCount {value : JsNumber} {name : String} {n : Nat}
    (h : assertCount value name = .ok n) : value = .int n :=
  int_of_bounded? (orThrow_eq_ok.mp h)

theorem coe_of_assertPositiveBigint {value : Int} {name : String} {n : ℕ+}
    (h : assertPositiveBigint value name = .ok n) : value = (n : Nat) := by
  unfold assertPositiveBigint at h
  split at h
  · next hpos =>
    rw [← Except.ok.inj h]
    show value = (value.toNat : Int)
    omega
  · cases h

theorem int_of_assertMaxUploads {value : JsNumber}
    {n : {n : Nat // 1 ≤ n ∧ n ≤ maxGrantUploadSlots}}
    (h : assertMaxUploads (some value) = .ok n) : value = .int n.1 := by
  unfold assertMaxUploads at h
  dsimp only at h
  split at h
  · next m hm =>
    rw [← Except.ok.inj h]
    exact int_of_bounded? hm
  · cases h

theorem int_of_assertUploadsUsed {value : JsNumber}
    {n : {n : Nat // n ≤ maxGrantUploadSlots}} (h : assertUploadsUsed value = .ok n) :
    value = .int n.1 := by
  unfold assertUploadsUsed at h
  split at h
  · next m hm =>
    rw [← Except.ok.inj h]
    exact int_of_bounded? hm
  · cases h

theorem text_of_isCoverageKind {value : String} {c : CoverageKind}
    (h : isCoverageKind value = some c) : text c = value := by
  unfold isCoverageKind at h
  have htext := List.find?_some h
  exact of_decide_eq_true htext

/-- An optional column, taken back. -/
theorem map_of_forOption {α β : Type} {parse : α → Except Thrown β} (back : β → α)
    (hback : ∀ a b, parse a = .ok b → back b = a) {o : Option α} {o' : Option β}
    (h : forOption o parse = .ok o') : o'.map back = o := by
  rcases forOption_eq_ok.mp h with ⟨rfl, rfl⟩ | ⟨a, b, rfl, hb, rfl⟩
  · rfl
  · rw [Option.map_some, hback a b hb]

end Parsing

/-- A dump as a record; the record has no blob state, and does not say if it is downloadable. -/
def dumpRecord (d : DumpRow) : ImportDumpRecord where
  dumpId := d.dumpId.text
  caseId := d.caseId.text
  phase := text d.phase
  originalName := d.originalName.text
  byteSize := d.byteSize.map fun n : Nat => (n : Int)
  sha256 := d.sha256.map Sha256.text
  validation := text d.validation
  coverage := d.coverage.map text
  inspectionError := d.inspectionError
  inspectionFacts := d.inspectionFacts
  receivedAt := d.receivedAt.text
  availableAt := d.availableAt.map IsoTimestamp.text
  purgeAt := d.purgeAt.map IsoTimestamp.text
  purgedAt := d.purgedAt.map IsoTimestamp.text

/-! ## Commands that were executed -/

/-- A command that succeeded on the world `w`, and left `w'`. -/
structure Executed (options : EngineOptions) (host : Host) (w : World) (command : Command)
    (w' : World) : Prop where
  succeeded : (execute options host w command).1.succeeded = true
  world : w' = (execute options host w command).2

/-- The rows that an import brings in. -/
structure Records where
  customers : Table CustomerRow
  cases : Table CaseRow
  grants : Table GrantRow
  dumps : Table DumpRow

def recordsOf (l : SqliteLedger) : Records := ⟨l.customers, l.cases, l.grants, l.dumps⟩

section Commands

variable {options : EngineOptions} {host : Host} {w w' : World}

/-- The transaction of a command that was executed. -/
theorem Executed.transaction {command : Command} (h : Executed options host w command w') :
    ∃ p occurredAt, planAt options host w occurredAt command = .ok p ∧
      (p.storage = none → w'.vaults = w.vaults) ∧
      ∀ op, p.ledger = some op →
        ∃ r, op.run options.digests.sha256 p.event w.ledger = .ok (r, w'.ledger) := by
  obtain ⟨p, r, hplan, hstored, htx, -⟩ := execute_succeeded h.succeeded
  rw [← h.world] at hstored htx
  obtain ⟨occurredAt, -, hplan⟩ := plan_eq_ok.mp hplan
  refine ⟨p, occurredAt, hplan, fun hnone => ?_, fun op hop => ?_⟩
  · rcases operation_eq_ok.mp hstored with ⟨-, hv⟩ | ⟨op, hop, -, -⟩
    · exact hv
    · rw [hnone] at hop
      cases hop
  · rcases transaction_eq_ok.mp htx with ⟨hnone, -, -⟩ | ⟨op', hop', -, hrun⟩
    · rw [hop] at hnone
      cases hnone
    · rw [hop] at hop'
      cases hop'
      exact ⟨r, hrun⟩

/-- **A customer that was imported has the columns of its record.** -/
theorem executed_importCustomer {record : ImportCustomerRecord}
    (h : Executed options host w (.importCustomer record) w')
    (hno : record.customerNo.isSome = true) :
    ∃ row, customerRecord row = record ∧
      ∃ hfree : w.ledger.customers.find? row.customerId = none,
        recordsOf w'.ledger =
          { recordsOf w.ledger with customers := w.ledger.customers.insert row hfree } ∧
        w'.vaults = w.vaults := by
  obtain ⟨p, occurredAt, hplan, hvaults, hrun⟩ := h.transaction
  simp only [planAt, planImportCustomer, bind_eq_ok, pure_eq_ok] at hplan
  obtain ⟨customerId, hid, displayName, hname, createdAt, hcreated, customerNo, hcount, rfl⟩ :=
    hplan
  obtain ⟨r, hrun⟩ := hrun _ rfl
  obtain ⟨-, -, hfree, _, hl⟩ := SqliteLedger.importCustomer_eq_ok.mp (LedgerOp.noResult_eq_ok.mp hrun).1
  refine ⟨⟨customerId, displayName, createdAt, customerNo.getD w.ledger.nextCustomerNo⟩, ?_, hfree,
    ?_, hvaults rfl⟩
  · obtain ⟨no, hsome⟩ := Option.isSome_iff_exists.mp hno
    have hback := map_of_forOption (fun n : Nat => JsNumber.int n)
      (fun _ _ hn => (int_of_assertCount hn).symm) hcount
    have hnumber : some (JsNumber.int (customerNo.getD w.ledger.nextCustomerNo)) =
        record.customerNo := by
      cases customerNo with
      | none =>
        rw [hsome] at hback
        cases hback
      | some n => exact hback
    unfold customerRecord
    rw [hnumber, parseCustomerId_eq_ok.mp hid, assertText_eq_ok.mp hname,
      assertIsoTimestamp_eq_ok.mp hcreated]
  · rw [hl]
    rfl

theorem executed_importCase {record : ImportCaseRecord}
    (h : Executed options host w (.importCase record) w') :
    ∃ row, caseRecord row = record ∧ ∃ hfree : w.ledger.cases.find? row.caseId = none,
      recordsOf w'.ledger =
        { recordsOf w.ledger with cases := w.ledger.cases.insert row hfree } ∧
      w'.vaults = w.vaults := by
  obtain ⟨p, occurredAt, hplan, hvaults, hrun⟩ := h.transaction
  simp only [planAt, planImportCase, bind_eq_ok, pure_eq_ok] at hplan
  obtain ⟨caseId, hid, customerId, hcustomer, title, htitle, status, hstatus, createdAt, hcreated,
    rfl⟩ := hplan
  obtain ⟨r, hrun⟩ := hrun _ rfl
  obtain ⟨-, -, hfree, _, hl⟩ := SqliteLedger.importCase_eq_ok.mp (LedgerOp.noResult_eq_ok.mp hrun).1
  refine ⟨⟨caseId, customerId, title, status, createdAt⟩, ?_, hfree, ?_, hvaults rfl⟩
  · unfold caseRecord
    rw [parseIdentifier_eq_ok.mp hid, parseCustomerId_eq_ok.mp hcustomer, assertText_eq_ok.mp htitle,
      parseMember_eq_ok.mp hstatus, assertIsoTimestamp_eq_ok.mp hcreated]
  · rw [hl]
    rfl

/-- A grant in the state that it is imported in. -/
def grantImported (g : GrantRow) (forceRevoked : Bool) : GrantRow :=
  { g with state := SqliteLedger.importedState g.state forceRevoked }

theorem grantRecord_of_check {record : ImportGrantRecord} {row : GrantRow}
    (h : checkImportGrantRecord record = .ok row) (hmax : record.maxUploads.isSome = true)
    (hused : record.uploadsUsed.isSome = true) : grantRecord row = record := by
  obtain ⟨max, hmax⟩ := Option.isSome_iff_exists.mp hmax
  obtain ⟨used, hused⟩ := Option.isSome_iff_exists.mp hused
  simp only [checkImportGrantRecord, bind_eq_ok, pure_eq_ok] at h
  obtain ⟨grantId, hid, caseId, hcase, secretDigest, hdigest, state, hstate, expiresAt, hexpires,
    maxBytes, hbytes, createdAt, hcreated, consumedByDumpId, hconsumed, maxUploads, hmaxUploads,
    uploadsUsed, huploadsUsed, rfl⟩ := h
  rw [hmax] at hmaxUploads
  rw [hused, Option.getD_some] at huploadsUsed
  have hconsumed' := map_of_forOption (fun id : DumpId => id.text)
    (fun _ _ hd => parseIdentifier_eq_ok.mp hd) hconsumed
  unfold grantRecord
  rw [← int_of_assertMaxUploads hmaxUploads, ← int_of_assertUploadsUsed huploadsUsed, ← hmax,
    ← hused, hconsumed', parseIdentifier_eq_ok.mp hid, parseIdentifier_eq_ok.mp hcase,
    assertText_eq_ok.mp hdigest, parseMember_eq_ok.mp hstate, assertIsoTimestamp_eq_ok.mp hexpires,
    ← coe_of_assertPositiveBigint hbytes, assertIsoTimestamp_eq_ok.mp hcreated]

theorem executed_importGrant {record : ImportGrantRecord} {forcedState : Option String}
    (h : Executed options host w (.importGrant record forcedState) w')
    (hmax : record.maxUploads.isSome = true) (hused : record.uploadsUsed.isSome = true) :
    ∃ row, grantRecord row = record ∧
      ∃ hfree : w.ledger.grants.find? (grantImported row forcedState.isSome).grantId = none,
        recordsOf w'.ledger =
          { recordsOf w.ledger with
            grants := w.ledger.grants.insert (grantImported row forcedState.isSome) hfree } ∧
        w'.vaults = w.vaults := by
  obtain ⟨p, occurredAt, hplan, hvaults, hrun⟩ := h.transaction
  simp only [planAt, planImportGrant, bind_eq_ok, pure_eq_ok] at hplan
  obtain ⟨_, -, row, hrow, rfl⟩ := hplan
  obtain ⟨r, hrun⟩ := hrun _ rfl
  obtain ⟨-, c, -, -, -, hfree, _, hl⟩ := SqliteLedger.importGrant_eq_ok.mp (LedgerOp.noResult_eq_ok.mp hrun).1
  refine ⟨row, grantRecord_of_check hrow hmax hused, hfree, ?_, hvaults rfl⟩
  rw [hl]
  rfl

/-- **A dump whose bytes are staged starts over as sealed.** -/
theorem executed_importStaged {b : BundleDumpRow} {byteSize : Nat} {sha256 : String}
    (h : Executed options host w (.importDumpStaged (stagedRecord b byteSize sha256)) w') :
    ∃ row, dumpRecord row = { stagedRecord b byteSize sha256 with phase := "sealed" } ∧
      row.blobState = .staging ∧ row.downloadable = false ∧
        ∃ hfree : w.ledger.dumps.find? row.dumpId = none,
          recordsOf w'.ledger =
            { recordsOf w.ledger with dumps := w.ledger.dumps.insert row hfree } ∧
          w'.vaults = w.vaults := by
  obtain ⟨p, occurredAt, hplan, hvaults, hrun⟩ := h.transaction
  simp only [planAt, planImportDumpStaged, bind_eq_ok] at hplan
  obtain ⟨dumpId, hid, caseId, hcase, phase, hphase, originalName, hname, receivedAt, hreceived,
    size, hsize, sha, hsha, purgeAt, hpurge, purgedAt, hpurged, hplan⟩ := hplan
  have havailable : phase = .available := by
    have htext : text phase = text DumpPhase.available := parseMember_eq_ok.mp hphase
    exact text_injective htext
  rw [if_pos havailable] at hplan
  have hsize' := map_of_forOption (fun n : Nat => (n : Int))
    (fun _ _ hn => (assertNonnegativeBigint_eq_ok.mp hn).symm) hsize
  have hsha' := map_of_forOption Sha256.text
    (fun _ _ hd => assertSha256_eq_ok.mp hd) hsha
  have hpurge' := map_of_forOption IsoTimestamp.text
    (fun _ _ ht => assertIsoTimestamp_eq_ok.mp ht) hpurge
  unfold planImportStaged at hplan
  split at hplan
  · next n digest =>
    simp only [bind_eq_ok, pure_eq_ok] at hplan
    obtain ⟨_, -, rfl⟩ := hplan
    obtain ⟨r, hrun⟩ := hrun _ rfl
    obtain ⟨-, c, -, -, hfree, _, hl⟩ :=
      SqliteLedger.importDump_eq_ok.mp (LedgerOp.noResult_eq_ok.mp hrun).1
    refine ⟨_, ?_, rfl, rfl, hfree, ?_, hvaults rfl⟩
    · unfold dumpRecord ImportDumpStagedInsert.row
      dsimp only
      rw [hsize', hsha', hpurge', parseIdentifier_eq_ok.mp hid, parseIdentifier_eq_ok.mp hcase,
        assertText_eq_ok.mp hname, assertIsoTimestamp_eq_ok.mp hreceived]
      rfl
    · rw [hl]
      rfl
  · cases hplan

/-- **A tombstone has the columns of its record**, and no bytes. -/
theorem executed_importTombstone {record : ImportDumpRecord}
    (h : Executed options host w (.importDumpStaged record) w')
    (hphase : record.phase ≠ "available") :
    ∃ row, dumpRecord row = record ∧ row.blobState = .none ∧ row.downloadable = false ∧
      ∃ hfree : w.ledger.dumps.find? row.dumpId = none,
        recordsOf w'.ledger =
          { recordsOf w.ledger with dumps := w.ledger.dumps.insert row hfree } ∧
        w'.vaults = w.vaults := by
  obtain ⟨p, occurredAt, hplan, hvaults, hrun⟩ := h.transaction
  simp only [planAt, planImportDumpStaged, bind_eq_ok] at hplan
  obtain ⟨dumpId, hid, caseId, hcase, phase, hphase', originalName, hname, receivedAt, hreceived,
    size, hsize, sha, hsha, purgeAt, hpurge, purgedAt, hpurged, hplan⟩ := hplan
  have htext := parseMember_eq_ok.mp hphase'
  have hother : phase ≠ .available := by
    rintro rfl
    exact hphase htext.symm
  rw [if_neg hother] at hplan
  simp only [planImportTombstone, bind_eq_ok, orThrow_eq_ok, pure_eq_ok] at hplan
  obtain ⟨tombstone, htombstone, validation, hvalidation, coverage, hcoverage, inspectionError,
    herror, availableAt, havailable, rfl⟩ := hplan
  obtain ⟨r, hrun⟩ := hrun _ rfl
  obtain ⟨-, c, -, -, hfree, _, hl⟩ :=
    SqliteLedger.importDump_eq_ok.mp (LedgerOp.noResult_eq_ok.mp hrun).1
  have hsize' := map_of_forOption (fun n : Nat => (n : Int))
    (fun _ _ hn => (assertNonnegativeBigint_eq_ok.mp hn).symm) hsize
  have hsha' := map_of_forOption Sha256.text
    (fun _ _ hd => assertSha256_eq_ok.mp hd) hsha
  have hcoverage' := map_of_forOption text
    (fun _ _ hc => text_of_isCoverageKind (orThrow_eq_ok.mp hc)) hcoverage
  have herror' := map_of_forOption BoundedText.text
    (fun _ _ he => assertText_eq_ok.mp he) herror
  have hiso {o : Option String} {o' : Option IsoTimestamp} {name : String}
      (ho : assertNullableIsoTimestamp o name = .ok o') : o'.map IsoTimestamp.text = o :=
    map_of_forOption IsoTimestamp.text (fun _ _ ht => assertIsoTimestamp_eq_ok.mp ht) ho
  have hsame : tombstone.phase = phase := by
    cases phase <;> cases htombstone <;> rfl
  refine ⟨_, ?_, rfl, rfl, hfree, ?_, hvaults rfl⟩
  · unfold dumpRecord ImportDumpTombstoneInsert.row
    dsimp only
    rw [hsame, htext, hsize', hsha', hcoverage', herror', hiso havailable, hiso hpurge,
      hiso hpurged, parseIdentifier_eq_ok.mp hid, parseIdentifier_eq_ok.mp hcase,
      assertText_eq_ok.mp hname, assertIsoTimestamp_eq_ok.mp hreceived,
      parseMember_eq_ok.mp hvalidation]
  · rw [hl]
    rfl

/-! ### Commands that bring in no rows -/

/-- The commands of an import that are about the trail or about symbols. -/
inductive QuietCommand : Command → Prop
  | beginImport (digest : String) (counts : RawImportCounts) :
      QuietCommand (.beginImport digest counts)
  | ingestSymbol (kind : String) : QuietCommand (.ingestSymbol kind)
  | sealSymbol (fields : SealSymbolFields) : QuietCommand (.sealSymbol fields)
  | failSymbol (artifactId : String) : QuietCommand (.failSymbol artifactId)
  | importAuditEvent (record : ImportAuditEventRecord) : QuietCommand (.importAuditEvent record)
  | finishImport (importId : String) (summary : RawImportSummary) :
      QuietCommand (.finishImport importId summary)

theorem records_sealSymbol {sha256 : Bytes → Sha256} {insert : SymbolArtifactInsert}
    {event : EventIdentity} {l l' : SqliteLedger} {a : StoredSymbolArtifact × Bool}
    (h : l.sealSymbolArtifact sha256 insert event = .ok (a, l')) : recordsOf l' = recordsOf l := by
  rcases SqliteLedger.sealSymbolArtifact_ok_cases h with
    ⟨-, -, rfl⟩ | ⟨-, -, l₁, l₂, hmodule, hartifact, _, rfl, -⟩
  · rfl
  · obtain ⟨-, -, _, rfl⟩ := SqliteLedger.insertSymbolArtifact_eq_ok.mp hartifact
    rcases SqliteLedger.insertModule_eq_ok.mp hmodule with ⟨-, rfl⟩ | ⟨-, _, rfl⟩ <;> rfl

variable (options host w) in
/-- **A quiet command leaves every row alone**, however it ends, and every object of a dump. -/
theorem execute_quiet {command : Command} (hquiet : QuietCommand command) :
    recordsOf (execute options host w command).2.ledger = recordsOf w.ledger ∧
      ∀ d, ObjectStore.SameObjects w.vaults.dumps
        (execute options host w command).2.vaults.dumps d := by
  constructor
  · rcases execute_ledger options host w command with hsame | ⟨p, op, r, hplan, hop, hrun, -⟩
    · rw [hsame]
    · obtain ⟨occurredAt, -, hplan⟩ := plan_eq_ok.mp hplan
      cases hquiet with
      | beginImport =>
        simp only [planAt, planBeginImport, bind_eq_ok, pure_eq_ok] at hplan
        obtain ⟨_, -, _, -, rfl⟩ := hplan
        cases hop
        obtain ⟨-, -, _, hl⟩ :=
          SqliteLedger.beginImport_eq_ok.mp (LedgerOp.noResult_eq_ok.mp hrun).1
        rw [hl]
        rfl
      | importAuditEvent =>
        simp only [planAt, planImportAuditEvent, bind_eq_ok, pure_eq_ok] at hplan
        obtain ⟨_, -, rfl⟩ := hplan
        cases hop
        obtain ⟨-, -, _, hl⟩ :=
          SqliteLedger.importAuditEvent_eq_ok.mp (LedgerOp.noResult_eq_ok.mp hrun).1
        rw [hl]
        rfl
      | finishImport =>
        simp only [planAt, planFinishImport, bind_eq_ok, pure_eq_ok] at hplan
        obtain ⟨_, -, _, -, rfl⟩ := hplan
        cases hop
        obtain ⟨_, -, -, -, _, hl⟩ :=
          SqliteLedger.finishImport_eq_ok.mp (LedgerOp.noResult_eq_ok.mp hrun).1
        rw [hl]
        rfl
      | sealSymbol =>
        simp only [planAt, planSealSymbol, bind_eq_ok] at hplan
        obtain ⟨insert, -, hplan⟩ := hplan
        unfold sealSymbolPlan at hplan
        split at hplan
        · cases hplan
          cases hop
        · cases hplan
          cases hop
          simp only [LedgerOp.run, LedgerOp.withResult_eq_ok] at hrun
          obtain ⟨_, hseal, -⟩ := hrun
          exact records_sealSymbol hseal
      | ingestSymbol =>
        simp only [planAt, planIngestSymbol, bind_eq_ok, pure_eq_ok] at hplan
        obtain ⟨_, -, rfl⟩ := hplan
        cases hop
      | failSymbol =>
        simp only [planAt, planFailSymbol, bind_eq_ok, pure_eq_ok] at hplan
        obtain ⟨_, -, rfl⟩ := hplan
        cases hop
  · intro d
    refine execute_sameObjects ?_ ?_
    · intro op hstores hd
      cases hquiet <;> cases hstores <;> cases hd
    · intro id hundoes
      cases hquiet <;> cases hundoes

theorem ledger_of_failed {command : Command}
    (h : (execute options host w command).1.succeeded ≠ true) :
    (execute options host w command).2.ledger = w.ledger := by
  rcases execute_ledger options host w command with hsame | ⟨p, op, r, -, -, -, hout⟩
  · exact hsame
  · rw [hout] at h
    exact absurd rfl h

/-! ### Commands that complete a dump -/

/-- The moves with which a staged dump is completed, and their commands. -/
inductive CompletionMove (id : DumpId) : Command → DumpMove → Prop
  | promoteObject : CompletionMove id (.promoteObject id.text) .recordPromoted
  | markQuarantined : CompletionMove id (.markQuarantined id.text) .markQuarantined
  | acceptDump (coverage : CoverageKind) (facts : JsonObject) :
      CompletionMove id (.acceptDump id.text) (.acceptDump coverage facts)
  | rejectDump (reason : String) : CompletionMove id (.rejectDump id.text) (.rejectDump reason)

theorem recordsOf_transitionDump {l l' : SqliteLedger} {dumpId : DumpId}
    {expected : List DumpPhase} {event : EventIdentity} {action : AuditAction} {m : DumpMove}
    {extraPredicate : DumpRow → Bool}
    (hguard : ∀ d, expected.contains d.phase = true → extraPredicate d = true → m.guard d = true)
    (h : l.transitionDump dumpId expected event action (m.apply event.occurredAt)
      (m.apply_dumpId event.occurredAt) extraPredicate = .ok l') :
    ∃ d, l.dumps.find? dumpId = some d ∧ m.guard d = true ∧
      recordsOf l' = { recordsOf l with
        dumps := l.dumps.updateKey dumpId (m.apply event.occurredAt)
          (m.apply_dumpId event.occurredAt) } := by
  obtain ⟨d, c, hd, hp, hx, -, -, _, rfl⟩ := SqliteLedger.transitionDump_eq_ok.mp h
  exact ⟨d, hd, hguard d hp hx, rfl⟩

/-- **A command that completes a dump moves that dump**, and nothing else. -/
theorem executed_completion {id : DumpId} {command : Command} {m₀ : DumpMove}
    (hcommand : CompletionMove id command m₀) (h : Executed options host w command w') :
    ∃ m t d, CompletionMove id command m ∧ w.ledger.dumps.find? id = some d ∧ m.guard d = true ∧
      recordsOf w'.ledger = { recordsOf w.ledger with
        dumps := w.ledger.dumps.updateKey id (m.apply t) (m.apply_dumpId t) } := by
  obtain ⟨p, occurredAt, hplan, -, hrun⟩ := h.transaction
  cases hcommand with
  | promoteObject =>
    simp only [planAt, planPromoteObject, parseDumpId, parseIdentifier_text, bind_ok, bind_eq_ok,
      pure_eq_ok] at hplan
    obtain ⟨_, -, rfl⟩ := hplan
    obtain ⟨r, hrun⟩ := hrun _ rfl
    obtain ⟨d, hd, hg, hl⟩ := recordsOf_transitionDump (m := .recordPromoted)
      (fun d hp hx => Bool.and_eq_true_iff.mpr ⟨hp, hx⟩)
      (LedgerOp.noResult_eq_ok.mp hrun).1
    exact ⟨_, _, d, .promoteObject, hd, hg, hl⟩
  | markQuarantined =>
    simp only [planAt, planMarkQuarantined, parseDumpId, parseIdentifier_text, bind_ok, bind_eq_ok,
      pure_eq_ok] at hplan
    obtain ⟨_, -, _, -, rfl⟩ := hplan
    obtain ⟨r, hrun⟩ := hrun _ rfl
    obtain ⟨d, hd, hg, hl⟩ := recordsOf_transitionDump (m := .markQuarantined)
      (fun d hp hx => Bool.and_eq_true_iff.mpr ⟨hp, hx⟩)
      (LedgerOp.noResult_eq_ok.mp hrun).1
    exact ⟨_, _, d, .markQuarantined, hd, hg, hl⟩
  | acceptDump =>
    simp only [planAt, planAcceptDump, parseDumpId, parseIdentifier_text, bind_ok, bind_eq_ok]
      at hplan
    obtain ⟨_, -, hplan⟩ := hplan
    split at hplan
    · cases hplan
    · next coverage facts _ =>
      cases hplan
      obtain ⟨r, hrun⟩ := hrun _ rfl
      obtain ⟨d, hd, hg, hl⟩ := recordsOf_transitionDump (m := .acceptDump coverage facts)
        (fun d hp hx => Bool.and_eq_true_iff.mpr ⟨hp, hx⟩)
        (LedgerOp.noResult_eq_ok.mp hrun).1
      exact ⟨_, _, d, .acceptDump coverage facts, hd, hg, hl⟩
  | rejectDump =>
    simp only [planAt, planRejectDump, parseDumpId, parseIdentifier_text, bind_ok, bind_eq_ok]
      at hplan
    obtain ⟨_, -, hplan⟩ := hplan
    split at hplan
    · cases hplan
    · next reason _ =>
      cases hplan
      obtain ⟨r, hrun⟩ := hrun _ rfl
      obtain ⟨d, hd, hg, hl⟩ := recordsOf_transitionDump (m := .rejectDump reason)
        (fun d hp hx => Bool.and_eq_true_iff.mpr ⟨hp, hx⟩)
        (LedgerOp.noResult_eq_ok.mp hrun).1
      exact ⟨_, _, d, .rejectDump reason, hd, hg, hl⟩

end Commands

end DumpLedger.ImportSession
