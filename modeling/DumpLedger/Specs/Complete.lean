import DumpLedger.Specs.ActionTable

/-!
# When a command goes through

In a host nothing goes wrong in, a command succeeds when its action is enabled, the expiry it is
judged by lies ahead, and the vault holds what it works on.

* `succeeded_complete`
-/

namespace DumpLedger

open Lib Function

/-! ## When a command goes through -/

section Complete

variable {options : EngineOptions} {host : Host} {w : World} {command : Command}
  {now : IsoTimestamp}

/-- A command whose plan is one transaction that commits. -/
theorem succeeded_ledgerPlan {op : LedgerOp} {receipt : TransitionSuccess} {r : LedgerResult}
    {l : SqliteLedger} (hu : host.Undisturbed w) (hnow : now.text = host.now)
    (hplan : planAt options host w now command = .ok (ledgerPlan host now op receipt))
    (hrun : op.run options.digests.sha256 (host.event now) w.ledger = .ok (r, l)) :
    (execute options host w command).1.succeeded = true := by
  rw [execute_ledgerPlan hu (plan_eq_ok.mpr ⟨now, hnow, hplan⟩) hrun]
  rfl

theorem ExecutedMove.succeeded {d : DumpId} {m : DumpMove} {w' : World}
    (h : ExecutedMove options host w command d m w') :
    (execute options host w command).1.succeeded = true := by
  obtain ⟨receipt, he⟩ := h.executes
  rw [he]
  rfl

theorem planAt_planCase (lifecycle : LifecycleAction) (op : CaseId → LedgerOp) (c : CaseId) :
    planCase host now lifecycle op c.text =
      .ok (ledgerPlan host now (op c)
        { action := lifecycle, occurredAt := now, caseId := some c }) :=
  bind_eq_ok.mpr ⟨c, parseIdentifier_eq_ok.mpr rfl, rfl⟩

theorem transitionCase_commits {l : SqliteLedger} {c : CaseId} {status : CaseStatus}
    {expected : List CaseStatus} (event : EventIdentity) (action : AuditAction) (next : CaseStatus)
    (hl : Linked l)
    (hstatus : l.observe.caseStatus c = some status) (hexpected : expected.contains status = true)
    (he : l.auditEvents.find? event.eventId = none) :
    ∃ l', l.transitionCase c expected event action next = .ok l' := by
  obtain ⟨row, hrow, rfl⟩ := Option.map_eq_some_iff.mp hstatus
  exact ⟨_, SqliteLedger.transitionCase_eq_ok.mpr
    ⟨row, hrow, hexpected, hl.case_customer row (Table.mem_of_find? hrow), he, rfl⟩⟩

/-- A command that moves a case out of one of the statuses. -/
theorem moveCase_complete {lifecycle : LifecycleAction} (op : CaseId → LedgerOp) {c : CaseId}
    {expected : List CaseStatus} {status next : CaseStatus} {action : AuditAction}
    (hu : host.Undisturbed w) (hl : Linked w.ledger) (hnow : now.text = host.now)
    (hplan : planAt options host w now command = planCase host now lifecycle op c.text)
    (hop : ∀ event, (op c).run options.digests.sha256 event w.ledger =
      LedgerOp.noResult (w.ledger.transitionCase c expected event action next))
    (hstatus : w.ledger.observe.caseStatus c = some status)
    (hexpected : expected.contains status = true) :
    (execute options host w command).1.succeeded = true := by
  obtain ⟨l', h⟩ := transitionCase_commits (host.event now) action next hl hstatus hexpected
    hu.event
  refine succeeded_ledgerPlan hu hnow (hplan.trans (planAt_planCase ..)) (r := .done) (l := l') ?_
  rw [hop]
  exact LedgerOp.noResult_eq_ok.mpr ⟨h, rfl⟩

theorem closeCase_complete {c : CaseId} (hu : host.Undisturbed w) (hl : Linked w.ledger)
    (hnow : now.text = host.now) (henabled : (Spec.Action.closeCase c).enabled w.ledger.observe) :
    (execute options host w (.closeCase c.text)).1.succeeded = true := by
  obtain ⟨row, hrow, hstatus⟩ := Option.map_eq_some_iff.mp henabled
  refine succeeded_ledgerPlan hu hnow (planAt_planCase ..) (LedgerOp.withResult_eq_ok.mpr
    ⟨_, SqliteLedger.closeCase_eq_ok.mpr ⟨row, hrow, hstatus,
      hl.case_customer row (Table.mem_of_find? hrow), rfl, hu.event, rfl⟩, rfl⟩)

theorem Linked.case_of_grant {l : SqliteLedger} (hl : Linked l) {g : GrantRow} (hg : g ∈ l.grants) :
    ∃ c, l.cases.find? g.caseId = some c ∧ l.customers.contains c.customerId = true := by
  obtain ⟨c, hc, hid⟩ := Table.contains_iff.mp (hl.grant_case g hg)
  exact ⟨c, Table.find?_eq_some.mpr ⟨hc, hid⟩, hl.case_customer c hc⟩

theorem grantEnd_complete {lifecycle : LifecycleAction} {next : SqliteLedger.GrantEnd} {t : GrantId}
    (hu : host.Undisturbed w) (hl : Linked w.ledger) (hnow : now.text = host.now)
    (hplan : planAt options host w now command = planGrantEnd host now lifecycle next t.text)
    (hissued : w.ledger.observe.tokenState t = some .issued) :
    (execute options host w command).1.succeeded = true := by
  obtain ⟨g, hg, hstate⟩ := Option.map_eq_some_iff.mp hissued
  obtain ⟨c, hc, hcu⟩ := hl.case_of_grant (Table.mem_of_find? hg)
  refine succeeded_ledgerPlan hu hnow (hplan.trans
    (bind_eq_ok.mpr ⟨t, parseIdentifier_eq_ok.mpr rfl, rfl⟩)) (LedgerOp.noResult_eq_ok.mpr
      ⟨SqliteLedger.transitionGrant_eq_ok.mpr ⟨g, c, hg, hstate, hc, hcu, hu.event, rfl⟩, rfl⟩)

theorem issueGrant_complete {c : CaseId} {expiresAt : IsoTimestamp} {maxBytes : ℕ+}
    {maxUploads : Option JsNumber} {n : {n : Nat // 1 ≤ n ∧ n ≤ maxGrantUploadSlots}}
    (hmax : assertMaxUploads maxUploads = .ok n) (hu : host.Undisturbed w) (hl : Linked w.ledger)
    (hnew : host.DrawsNew options w) (hnow : now.text = host.now) (hexpiry : now < expiresAt)
    (henabled : (Spec.Action.issueToken host.grantId c n).enabled w.ledger.observe) :
    (execute options host w
      (.issueGrant c.text expiresAt.text (maxBytes : Nat) maxUploads)).1.succeeded = true := by
  obtain ⟨hunused, status, hstatus, hopen⟩ := henabled
  obtain ⟨row, hrow, rfl⟩ := Option.map_eq_some_iff.mp hstatus
  have hplan : planAt options host w now
      (.issueGrant c.text expiresAt.text (maxBytes : Nat) maxUploads) = .ok (ledgerPlan host now
        (.issueGrant host.grantId c (options.digests.digestSecret host.secret).bounded expiresAt
          maxBytes n.1 n.2)
        { action := .issueGrant, occurredAt := now, grantId := some host.grantId,
          grantSecret := some host.secret, caseId := some c, maxBytes := some maxBytes,
          maxUploads := some n.1 }) := by
    simp only [planAt, planIssueGrant, bind_eq_ok, parseCaseId, parseIdentifier_eq_ok,
      assertIsoTimestamp_text, assertPositiveBigint_coe, hmax, guardThat_eq_ok, pure_eq_ok,
      Except.ok.injEq, exists_eq_left', exists_and_left, exists_const]
    exact ⟨c, rfl, hexpiry, hnew.secret, rfl⟩
  exact succeeded_ledgerPlan hu hnow hplan (LedgerOp.noResult_eq_ok.mpr
    ⟨SqliteLedger.issueGrant_eq_ok.mpr ⟨row, hrow, hopen,
      hl.case_customer row (Table.mem_of_find? hrow), hnew.digest,
      Option.map_eq_none_iff.mp hunused, hu.event, rfl⟩, rfl⟩)

theorem beginUpload_complete {secret originalName : BoundedText 1024} {g : GrantRow}
    (hgrant : w.ledger.findGrantByDigest (options.digests.digestSecret secret.text).bounded = some g)
    (hu : host.Undisturbed w) (hl : Linked w.ledger) (hnow : now.text = host.now)
    (hexpiry : now < g.expiresAt) (hfree : w.vaults.dumps.staging.find? host.dumpId = none)
    (henabled : (Spec.Action.beginUpload g.grantId host.dumpId).enabled w.ledger.observe) :
    (execute options host w (.beginUpload secret.text originalName.text)).1.succeeded = true := by
  obtain ⟨hstate, -, hslot, hdump, -⟩ := id henabled
  obtain ⟨-, ⟨c', hcase, status, hstatus, hopen⟩, -⟩ := henabled
  have hg : w.ledger.grants.find? g.grantId = some g :=
    Table.find?_key (SqliteLedger.findGrantByDigest_eq_some hgrant).1
  obtain ⟨c, hc, hcu⟩ := hl.case_of_grant (Table.mem_of_find? hg)
  simp only [SqliteLedger.observe, hg, Option.map_some, Option.some.injEq] at hstate hcase
  simp only [SqliteLedger.observe, hg, Option.map_some, Option.getD_some] at hslot
  subst hcase
  simp only [SqliteLedger.observe, hc, Option.map_some, Option.some.injEq] at hstatus
  subst hstatus
  obtain ⟨s, hs⟩ : ∃ s, w.vaults.dumps.createStaging host.nowMs host.dumpId = .ok s :=
    ⟨_, ObjectStore.createStaging_eq_ok.mpr ⟨hfree, rfl⟩⟩
  have hplan := plan_eq_ok.mpr ⟨now, hnow, show planAt options host w now
      (.beginUpload secret.text originalName.text) = .ok _ by
    simp only [planAt, planBeginUpload, bind_eq_ok, assertText_text, hgrant, orThrow_some,
      guardThat_eq_ok, pure_eq_ok, Except.ok.injEq, exists_eq_left', exists_and_left, exists_const]
    exact ⟨by simp [hstate], ⟨by simp [hstate], hexpiry⟩, hstate, rfl⟩⟩
  rw [execute_of_done hplan
    (operation_eq_ok.mpr (.inr ⟨_, rfl, hu.storage, bind_eq_ok.mpr ⟨s, hs, rfl⟩⟩)) hu.crash
    (transaction_eq_ok.mpr (.inr ⟨_, rfl, hu.ledger, LedgerOp.noResult_eq_ok.mpr
      ⟨SqliteLedger.beginUpload_eq_ok.mpr ⟨g, c, hg, hc, hopen, hstate, hslot, hcu,
        Option.map_eq_none_iff.mp hdump, hu.event, rfl⟩, rfl⟩⟩))]
  rfl

theorem sealUpload_complete {d : DumpId} {byteSize : Nat} {sha256 : Sha256}
    (hu : host.Undisturbed w) (hl : Linked w.ledger)
    (hstaging : w.vaults.dumps.staging.contains d = true)
    (hphase : w.ledger.observe.dumpPhase d = some .receiving) :
    (execute options host w (.sealUpload d.text byteSize sha256.text)).1.succeeded = true := by
  obtain ⟨row, hd, hp⟩ := dumpPhase_eq_some.mp hphase
  obtain rfl : row.dumpId = d := Table.key_of_find? hd
  have hplan : ∀ t, planAt options host w t
      (.sealUpload row.dumpId.text byteSize sha256.text) =
        .ok (ledgerPlan host t (.sealUpload row.dumpId byteSize sha256)
          { action := .sealUpload, occurredAt := t, dumpId := some row.dumpId,
            phase := some .sealed }) :=
    fun t => bind_eq_ok.mpr ⟨_, parseIdentifier_eq_ok.mpr rfl, bind_eq_ok.mpr
      ⟨_, requirePhase_eq_ok.mpr ⟨hd, hp⟩, bind_eq_ok.mpr ⟨(), guardThat_eq_ok.mpr hstaging,
        bind_eq_ok.mpr ⟨_, assertNonnegativeBigint_coe _, bind_eq_ok.mpr
          ⟨_, assertSha256_text _, rfl⟩⟩⟩⟩⟩
  obtain ⟨l', h⟩ := executedMove_ledger hu hl hplan rfl hd (by simp [DumpMove.guard, hp])
  exact h.succeeded

theorem firstAnalysis_commits {l : SqliteLedger} {insert : AnalysisInsert} {caseId : CaseId}
    {c : CaseRow} (event : EventIdentity) (hfind : l.findAnalysisByIdentity insert.identity = none)
    (hdump : l.dumps.contains insert.identity.dumpId = true)
    (hnew : l.analyses.find? insert.analysisId = none) (hc : l.cases.find? caseId = some c)
    (hcu : l.customers.contains c.customerId = true)
    (he : l.auditEvents.find? event.eventId = none) :
    ∃ out, l.firstAnalysis caseId insert event none = .ok out := by
  have hidentity : ∀ a ∈ l.analyses, a.identity ≠ insert.identity := by
    intro a ha hid
    have := List.find?_eq_none.mp hfind a ha
    simp [hid] at this
  have hinsert : l.insertAnalysis insert.row = .ok _ :=
    SqliteLedger.insertAnalysis_eq_ok.mpr ⟨hdump, hidentity, hnew, rfl⟩
  refine ⟨_, bind_eq_ok.mpr ⟨_, hinsert, bind_eq_ok.mpr ⟨_, rfl, bind_eq_ok.mpr
    ⟨_, SqliteLedger.customerForCase_eq_ok.mpr ⟨c, hc, rfl⟩, bind_eq_ok.mpr
      ⟨_, SqliteLedger.insertAudit_eq_ok.mpr ⟨⟨?_, ?_, ?_⟩, he, rfl⟩, bind_eq_ok.mpr
        ⟨insert.row, orThrow_eq_ok.mpr ?_, rfl⟩⟩⟩⟩⟩⟩
  · intro k hk
    cases hk
    exact hcu
  · intro k hk
    cases hk
    exact Table.contains_of_find? hc
  · intro k hk
    cases hk
    exact hdump
  · show ((l.analyses.rows ++ [insert.row]).find? _).filter _ = _
    have hnone : l.analyses.rows.find? (fun a => decide (a.identity = insert.identity)) = none :=
      hfind
    rw [List.find?_append, hnone]
    simp [AnalysisInsert.row]

theorem recordAnalysis_complete {d : DumpId} {row : DumpRow} {sha256 : Sha256}
    {analyzerName analyzerVersion kind outcome summary : String} {facts : Option JsonObject}
    {duplicateOf : Option String} {name version label abstract : String}
    {result : AnalysisOutcome} {checked : Option JsonObject} {original : Option DumpId}
    (hrow : w.ledger.dumps.find? d = some row) (hsealed : row.sha256 = some sha256)
    (hname : assertAnalysisText analyzerName "analyzerName" 128 1 = .ok name)
    (hversion : assertAnalysisText analyzerVersion "analyzerVersion" 64 1 = .ok version)
    (hkind : assertAnalysisText kind "kind" 64 1 = .ok label)
    (houtcome : assertAnalysisOutcome outcome = .ok result)
    (hsummary : assertAnalysisText summary "summary" 2000 0 = .ok abstract)
    (hfacts : assertAnalysisFacts facts = .ok checked)
    (hduplicate : forOption duplicateOf parseDumpId = .ok original)
    (hu : host.Undisturbed w) (hl : Linked w.ledger) (hnew : host.DrawsNew options w)
    (hnow : now.text = host.now) (henabled : (Spec.Action.recordAnalysis d).enabled w.ledger.observe) :
    (execute options host w (.recordAnalysis d.text analyzerName analyzerVersion kind sha256.text
      outcome summary facts duplicateOf none)).1.succeeded = true := by
  obtain ⟨row', hrow', hphase⟩ := dumpPhase_eq_some.mp henabled
  obtain rfl : row' = row := Option.some.inj (hrow'.symm.trans hrow)
  let insert : AnalysisInsert :=
    { analysisId := host.analysisId,
      identity := { dumpId := d, analyzerName := name, analyzerVersion := version, kind := label,
                    inputSha256 := sha256 },
      outcome := result, summary := abstract, facts := checked, duplicateOf := original,
      createdAt := now }
  have hplan : planAt options host w now (.recordAnalysis d.text analyzerName analyzerVersion kind
      sha256.text outcome summary facts duplicateOf none) =
        .ok (recordAnalysisPlan host w now row'.caseId insert none) :=
    bind_eq_ok.mpr ⟨_, parseIdentifier_eq_ok.mpr rfl, bind_eq_ok.mpr ⟨_, hname,
      bind_eq_ok.mpr ⟨_, hversion, bind_eq_ok.mpr ⟨_, hkind, bind_eq_ok.mpr ⟨_, assertSha256_text _,
      bind_eq_ok.mpr ⟨_, houtcome, bind_eq_ok.mpr ⟨_, hsummary, bind_eq_ok.mpr ⟨_, hfacts,
      bind_eq_ok.mpr ⟨_, hduplicate, bind_eq_ok.mpr ⟨_, requirePhase_eq_ok.mpr ⟨hrow', hphase⟩,
      bind_eq_ok.mpr ⟨(), guardThat_eq_ok.mpr hsealed, rfl⟩⟩⟩⟩⟩⟩⟩⟩⟩⟩⟩
  cases hfind : w.ledger.findAnalysisByIdentity insert.identity with
  | some existing =>
    have hnothing : (recordAnalysisPlan host w now row'.caseId insert none).storage = none ∧
        (recordAnalysisPlan host w now row'.caseId insert none).ledger = none := by
      unfold recordAnalysisPlan
      rw [hfind]
      exact ⟨rfl, rfl⟩
    rw [execute_of_done (plan_eq_ok.mpr ⟨now, hnow, hplan⟩)
      (operation_eq_ok.mpr (.inl ⟨hnothing.1, rfl⟩)) hu.crash
      (transaction_eq_ok.mpr (.inl ⟨hnothing.2, rfl, rfl⟩))]
    rfl
  | none =>
    obtain ⟨c, hc, hcu⟩ := hl.case_of_dump (Table.mem_of_find? hrow')
    obtain ⟨⟨⟨report, replayed⟩, l'⟩, hfirst⟩ := firstAnalysis_commits (host.event now)
      hfind (Table.contains_of_find? hrow') hnew.analysis hc hcu hu.event
    have hrecord : w.ledger.recordAnalysis insert (host.event now) none =
        .ok ((report, replayed), l') := by
      refine bind_eq_ok.mpr ⟨row', orThrow_eq_ok.mpr hrow', ?_⟩
      rw [hfind]
      exact hfirst
    have hrun : (LedgerOp.recordAnalysis insert none).run options.digests.sha256 (host.event now)
        w.ledger = .ok (.analysis report replayed, l') := by
      simp only [LedgerOp.run, LedgerOp.withResult_eq_ok]
      exact ⟨(report, replayed), hrecord, rfl⟩
    have hcommand := hplan
    unfold recordAnalysisPlan at hcommand
    rw [hfind] at hcommand
    exact succeeded_ledgerPlan hu hnow hcommand hrun

/-- **A command of the table whose action may be taken succeeds.** -/
theorem succeeded_complete {action : Spec.Action} {expiry : Option IsoTimestamp}
    (htable : ActionTable options host w command action expiry) (hu : host.Undisturbed w)
    (hl : Linked w.ledger) (hnew : host.DrawsNew options w) (hnow : now.text = host.now)
    (henabled : action.enabled w.ledger.observe) (hunexpired : ∀ t ∈ expiry, now < t)
    (hready : VaultReady w action) : (execute options host w command).1.succeeded = true := by
  cases htable with
  | startInvestigation c =>
    exact moveCase_complete .startInvestigation hu hl hnow rfl (fun _ => rfl) henabled
      (by decide)
  | waitForCustomer c =>
    exact moveCase_complete .waitForCustomer hu hl hnow rfl (fun _ => rfl) henabled
      (by decide)
  | resumeInvestigation c =>
    rcases henabled with h | h | h <;>
      exact moveCase_complete .resumeInvestigation hu hl hnow rfl (fun _ => rfl) h
        (by decide)
  | resolveCase c =>
    rcases henabled with h | h <;>
      exact moveCase_complete .resolveCase hu hl hnow rfl (fun _ => rfl) h (by decide)
  | closeCase c => exact closeCase_complete hu hl hnow henabled
  | issueGrant c expiresAt maxBytes hmax =>
    exact issueGrant_complete hmax hu hl hnew hnow (hunexpired _ rfl) henabled
  | revokeGrant t => exact grantEnd_complete hu hl hnow rfl henabled
  | expireGrant t => exact grantEnd_complete hu hl hnow rfl henabled
  | beginUpload secret originalName hgrant =>
    exact beginUpload_complete hgrant hu hl hnow (hunexpired _ rfl) hready henabled
  | sealUpload d byteSize sha256 => exact sealUpload_complete hu hl hready henabled.1
  | failUpload d =>
    obtain ⟨row, hd, hp⟩ := dumpPhase_eq_some.mp henabled
    obtain rfl : row.dumpId = d := Table.key_of_find? hd
    obtain ⟨_, h⟩ := execute_failUpload options hu hl hd hp
    exact h.succeeded
  | promoteObject d =>
    obtain ⟨row, hd, hp⟩ := dumpPhase_eq_some.mp henabled.1
    obtain rfl : row.dumpId = d := Table.key_of_find? hd
    obtain ⟨s, hs⟩ := hready
    obtain ⟨_, h⟩ := execute_promoteObject options hu hl hd hp
      ((observe_row hd).2.2.1.symm.trans henabled.2) hs
    exact h.succeeded
  | markQuarantined d =>
    obtain ⟨hphase, hblob, hsha⟩ := henabled
    obtain ⟨row, hd, hp⟩ := dumpPhase_eq_some.mp hphase
    obtain rfl : row.dumpId = d := Table.key_of_find? hd
    obtain ⟨-, -, hb, hs, -⟩ := observe_row hd
    obtain ⟨_, h⟩ := execute_markQuarantined options hu hl hd hp (hb.symm.trans hblob)
      (hs.mp hsha) hready.1 hready.2
    exact h.succeeded
  | acceptDump d hinspect =>
    obtain ⟨hphase, hblob, hsha⟩ := henabled
    obtain ⟨row, hd, hp⟩ := dumpPhase_eq_some.mp hphase
    obtain rfl : row.dumpId = d := Table.key_of_find? hd
    obtain ⟨-, -, hb, hs, -⟩ := observe_row hd
    obtain ⟨_, h⟩ := execute_acceptDump options hu hl hd hp (hb.symm.trans hblob) (hs.mp hsha)
      hinspect
    exact h.succeeded
  | rejectDump d hinspect =>
    obtain ⟨row, hd, hp⟩ := dumpPhase_eq_some.mp henabled.1
    obtain rfl : row.dumpId = d := Table.key_of_find? hd
    obtain ⟨_, h⟩ := execute_rejectDump options hu hl hd hp
      ((observe_row hd).2.2.1.symm.trans henabled.2) hinspect
    exact h.succeeded
  | beginPurge d =>
    obtain ⟨row, hd, hp⟩ : ∃ row, w.ledger.dumps.find? d = some row ∧
        (row.phase = .available ∨ row.phase = .rejected) := by
      rcases henabled with h | h
      · obtain ⟨row, hd, hp⟩ := dumpPhase_eq_some.mp h
        exact ⟨row, hd, .inl hp⟩
      · obtain ⟨row, hd, hp⟩ := dumpPhase_eq_some.mp h
        exact ⟨row, hd, .inr hp⟩
    obtain rfl : row.dumpId = d := Table.key_of_find? hd
    obtain ⟨_, h⟩ := execute_beginPurge options hu hl hd hp
    exact h.succeeded
  | finishPurge d =>
    obtain ⟨row, hd, hp⟩ := dumpPhase_eq_some.mp henabled
    obtain rfl : row.dumpId = d := Table.key_of_find? hd
    obtain ⟨_, h⟩ := execute_finishPurge options hu hl hd hp
    exact h.succeeded
  | recordAnalysis d hrow hsealed hname hversion hkind houtcome hsummary hfacts hduplicate =>
    exact recordAnalysis_complete hrow hsealed hname hversion hkind houtcome hsummary hfacts
      hduplicate hu hl hnew hnow henabled

end Complete

end DumpLedger
