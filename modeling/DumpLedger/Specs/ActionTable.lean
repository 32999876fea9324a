import DumpLedger.Domain.DateText
import DumpLedger.Engine.Moves
import DumpLedger.Specs.Moves

/-!
# The action table

Each command of the table stands for an action of the specification. One that succeeded found
the action enabled in what `observe` sees of the ledger, and left what the action leaves.

* `ActionTable` — the commands and their actions
* `succeeded_sound` — what a command that succeeded did
-/

namespace DumpLedger

open Lib Function

/-! ## The action table -/

/-- The command, the action it stands for and the expiry it is judged by. The arguments have
passed the format checks. -/
inductive ActionTable (options : EngineOptions) (host : Host) (w : World) :
    Command → Spec.Action → Option IsoTimestamp → Prop
  | startInvestigation (c : CaseId) :
      ActionTable options host w (.startInvestigation c.text) (.startInvestigation c) none
  | waitForCustomer (c : CaseId) :
      ActionTable options host w (.waitForCustomer c.text) (.waitForCustomer c) none
  | resumeInvestigation (c : CaseId) :
      ActionTable options host w (.resumeInvestigation c.text) (.resumeInvestigation c) none
  | resolveCase (c : CaseId) :
      ActionTable options host w (.resolveCase c.text) (.resolveCase c) none
  | closeCase (c : CaseId) : ActionTable options host w (.closeCase c.text) (.closeCase c) none
  | issueGrant (c : CaseId) (expiresAt : IsoTimestamp) (maxBytes : ℕ+)
      {maxUploads : Option JsNumber} {n : {n : Nat // 1 ≤ n ∧ n ≤ maxGrantUploadSlots}}
      (hmax : assertMaxUploads maxUploads = .ok n) :
      ActionTable options host w (.issueGrant c.text expiresAt.text (maxBytes : Nat) maxUploads)
        (.issueToken host.grantId c n) (some expiresAt)
  | revokeGrant (t : GrantId) : ActionTable options host w (.revokeGrant t.text) (.revokeToken t) none
  | expireGrant (t : GrantId) : ActionTable options host w (.expireGrant t.text) (.expireToken t) none
  /-- The secret is that of an issued grant. -/
  | beginUpload (secret originalName : BoundedText 1024) {g : GrantRow}
      (hgrant : w.ledger.findGrantByDigest (options.digests.digestSecret secret.text).bounded =
        some g) :
      ActionTable options host w (.beginUpload secret.text originalName.text)
        (.beginUpload g.grantId host.dumpId) (some g.expiresAt)
  | sealUpload (d : DumpId) (byteSize : Nat) (sha256 : Sha256) :
      ActionTable options host w (.sealUpload d.text byteSize sha256.text) (.sealUpload d) none
  | failUpload (d : DumpId) : ActionTable options host w (.failUpload d.text) (.failUpload d) none
  | promoteObject (d : DumpId) :
      ActionTable options host w (.promoteObject d.text) (.promoteObject d) none
  | markQuarantined (d : DumpId) :
      ActionTable options host w (.markQuarantined d.text) (.markQuarantined d) none
  /-- The action's choice is the coverage the inspector finds. -/
  | acceptDump (d : DumpId) {kind : CoverageKind} {facts : JsonObject}
      (hinspect : inspection host w d = .accepted kind facts) :
      ActionTable options host w (.acceptDump d.text) (.acceptDump d kind) none
  | rejectDump (d : DumpId) {error : String} (hinspect : inspection host w d = .rejected error) :
      ActionTable options host w (.rejectDump d.text) (.rejectDump d) none
  | beginPurge (d : DumpId) : ActionTable options host w (.beginPurge d.text) (.beginPurge d) none
  | finishPurge (d : DumpId) :
      ActionTable options host w (.finishPurge d.text) (.finishPurge d) none
  /-- A compact report on the sealed bytes of the dump. -/
  | recordAnalysis (d : DumpId) {row : DumpRow} {sha256 : Sha256}
      {analyzerName analyzerVersion kind outcome summary : String} {facts : Option JsonObject}
      {duplicateOf : Option String} {name version label abstract : String}
      {result : AnalysisOutcome} {checked : Option JsonObject} {original : Option DumpId}
      (hrow : w.ledger.dumps.find? d = some row) (hsealed : row.sha256 = some sha256)
      (hname : assertAnalysisText analyzerName "analyzerName" 128 1 = .ok name)
      (hversion : assertAnalysisText analyzerVersion "analyzerVersion" 64 1 = .ok version)
      (hkind : assertAnalysisText kind "kind" 64 1 = .ok label)
      (houtcome : assertAnalysisOutcome outcome = .ok result)
      (hsummary : assertAnalysisText summary "summary" 2000 0 = .ok abstract)
      (hfacts : assertAnalysisFacts facts = .ok checked)
      (hduplicate : forOption duplicateOf parseDumpId = .ok original) :
      ActionTable options host w
        (.recordAnalysis d.text analyzerName analyzerVersion kind sha256.text outcome summary
          facts duplicateOf none)
        (.recordAnalysis d) none

/-- The vault holds what the action works on. -/
def VaultReady (w : World) : Spec.Action → Prop
  | .beginUpload _ d => w.vaults.dumps.staging.find? d = none
  | .sealUpload d => w.vaults.dumps.staging.contains d = true
  | .promoteObject d => ∃ s, w.vaults.dumps.promote d = .ok s
  | .markQuarantined d =>
    w.vaults.dumps.objects.contains d = true ∧ w.vaults.dumps.staging.contains d = false
  | _ => True

/-- The secret and the identifier drawn for the command are long enough and new. -/
structure Host.DrawsNew (host : Host) (options : EngineOptions) (w : World) : Prop where
  secret : 24 ≤ utf16Length host.secret
  digest : ∀ g ∈ w.ledger.grants,
    g.secretDigest ≠ (options.digests.digestSecret host.secret).bounded
  analysis : w.ledger.analyses.find? host.analysisId = none

/-! ## What a command that succeeded did -/

section Sound

variable {options : EngineOptions} {host : Host} {w : World} {command : Command}
  {now : IsoTimestamp}

/-- A command that succeeded had a plan, and both stores carried it out. -/
theorem succeeded_plan (hnow : now.text = host.now)
    (h : (execute options host w command).1.succeeded = true) :
    ∃ p, planAt options host w now command = .ok p ∧
      (∀ op ∈ p.storage, ∃ v, op.run host.nowMs w.vaults = .ok v) ∧
      (∀ op ∈ p.ledger, ∃ r, op.run options.digests.sha256 p.event w.ledger =
        .ok (r, (execute options host w command).2.ledger)) ∧
      (p.ledger = none → (execute options host w command).2.ledger = w.ledger) := by
  obtain ⟨p, r, hplan, hstored, htx, -⟩ := execute_succeeded h
  obtain ⟨t, ht, hplan⟩ := plan_eq_ok.mp hplan
  obtain rfl : t = now := IsoTimestamp.ext (ht.trans hnow.symm)
  refine ⟨p, hplan, fun op hop => ?_, fun op hop => ?_, fun hnone => ?_⟩
  · rcases operation_eq_ok.mp hstored with ⟨hnone, -⟩ | ⟨op', hop', -, hrun⟩
    · rw [hnone] at hop
      cases hop
    · rw [hop'] at hop
      cases hop
      exact ⟨_, hrun⟩
  · rcases transaction_eq_ok.mp htx with ⟨hnone, -⟩ | ⟨op', hop', -, hrun⟩
    · rw [hnone] at hop
      cases hop
    · rw [hop'] at hop
      cases hop
      exact ⟨r, hrun⟩
  · rcases transaction_eq_ok.mp htx with ⟨-, -, hl⟩ | ⟨op', hop', -⟩
    · exact hl
    · rw [hnone] at hop'
      cases hop'

/-- The action was enabled, the expiry lay ahead, the vault was ready, and the state it left
is the action's. -/
structure Taken (w : World) (now : IsoTimestamp) (action : Spec.Action)
    (expiry : Option IsoTimestamp) (l' : SqliteLedger) : Prop where
  enabled : action.enabled w.ledger.observe
  unexpired : ∀ t ∈ expiry, now < t
  ready : VaultReady w action
  next : l'.observe = action.next w.ledger.observe

theorem unexpired_none : ∀ t ∈ (none : Option IsoTimestamp), now < t := by
  intro t h
  cases h

/-! ### Cases and grants -/

theorem planCase_sound {lifecycle : LifecycleAction} (op : CaseId → LedgerOp) {c : CaseId}
    (hnow : now.text = host.now)
    (hplan : planAt options host w now command = planCase host now lifecycle op c.text)
    (h : (execute options host w command).1.succeeded = true) :
    ∃ event r, (op c).run options.digests.sha256 event w.ledger =
      .ok (r, (execute options host w command).2.ledger) := by
  obtain ⟨p, hp, -, htx, -⟩ := succeeded_plan hnow h
  simp only [hplan, planCase, bind_eq_ok, parseCaseId, parseIdentifier_eq_ok, pure_eq_ok] at hp
  obtain ⟨c', hc', rfl⟩ := hp
  obtain rfl : c' = c := Identifier.ext hc'
  obtain ⟨r, hr⟩ := htx _ rfl
  exact ⟨_, r, hr⟩

/-- A command that moves a case out of one of the statuses. -/
theorem moveCase_sound {lifecycle : LifecycleAction} (op : CaseId → LedgerOp) {c : CaseId}
    {expected : List CaseStatus} {next : CaseStatus} {action : AuditAction}
    (hnow : now.text = host.now)
    (hplan : planAt options host w now command = planCase host now lifecycle op c.text)
    (hop : ∀ event, (op c).run options.digests.sha256 event w.ledger =
      LedgerOp.noResult (w.ledger.transitionCase c expected event action next))
    (haction : action ≠ .beginUpload)
    (h : (execute options host w command).1.succeeded = true) :
    ∃ status, w.ledger.observe.caseStatus c = some status ∧ expected.contains status = true ∧
      (execute options host w command).2.ledger.observe =
        { w.ledger.observe with
          caseStatus := update w.ledger.observe.caseStatus c (some next) } := by
  obtain ⟨event, r, hr⟩ := planCase_sound op hnow hplan h
  rw [hop] at hr
  exact SqliteLedger.observe_transitionCase (LedgerOp.noResult_eq_ok.mp hr).1 haction

theorem closeCase_sound {c : CaseId} (hnow : now.text = host.now)
    (h : (execute options host w (.closeCase c.text)).1.succeeded = true) :
    Taken w now (.closeCase c) none (execute options host w (.closeCase c.text)).2.ledger := by
  obtain ⟨event, r, hr⟩ := planCase_sound .closeCase hnow rfl h
  obtain ⟨ids, hids, -⟩ := LedgerOp.withResult_eq_ok.mp hr
  obtain ⟨henabled, hnext⟩ := SqliteLedger.observe_closeCase hids
  exact ⟨henabled, unexpired_none, trivial, hnext⟩

theorem issueGrant_sound {c : CaseId} {expiresAt : IsoTimestamp} {maxBytes : ℕ+}
    {maxUploads : Option JsNumber} {n : {n : Nat // 1 ≤ n ∧ n ≤ maxGrantUploadSlots}}
    (hmax : assertMaxUploads maxUploads = .ok n) (hnow : now.text = host.now)
    (h : (execute options host w
      (.issueGrant c.text expiresAt.text (maxBytes : Nat) maxUploads)).1.succeeded = true) :
    Taken w now (.issueToken host.grantId c n) (some expiresAt) (execute options host w
      (.issueGrant c.text expiresAt.text (maxBytes : Nat) maxUploads)).2.ledger := by
  obtain ⟨p, hp, -, htx, -⟩ := succeeded_plan hnow h
  simp only [planAt, planIssueGrant, bind_eq_ok, parseCaseId, parseIdentifier_eq_ok,
    assertIsoTimestamp_text, assertPositiveBigint_coe, hmax, guardThat_eq_ok, pure_eq_ok,
    Except.ok.injEq, exists_eq_left', exists_and_left, exists_const] at hp
  obtain ⟨c', hc', hexpiry, -, rfl⟩ := hp
  obtain rfl : c' = c := Identifier.ext hc'
  obtain ⟨r, hr⟩ := htx _ rfl
  obtain ⟨henabled, hnext⟩ :=
    SqliteLedger.observe_issueGrant (LedgerOp.noResult_eq_ok.mp hr).1
  refine ⟨henabled, ?_, trivial, hnext⟩
  intro t ht
  cases ht
  exact hexpiry

theorem planGrantEnd_sound {t : GrantId} {lifecycle : LifecycleAction}
    {next : SqliteLedger.GrantEnd} (hnow : now.text = host.now)
    (hplan : planAt options host w now command = planGrantEnd host now lifecycle next t.text)
    (h : (execute options host w command).1.succeeded = true) :
    w.ledger.observe.tokenState t = some .issued ∧
      (execute options host w command).2.ledger.observe =
        { w.ledger.observe with
          tokenState := update w.ledger.observe.tokenState t (some next.state) } := by
  obtain ⟨p, hp, -, htx, -⟩ := succeeded_plan hnow h
  simp only [hplan, planGrantEnd, bind_eq_ok, parseGrantId, parseIdentifier_eq_ok, pure_eq_ok] at hp
  obtain ⟨t', ht', rfl⟩ := hp
  obtain rfl : t' = t := Identifier.ext ht'
  obtain ⟨r, hr⟩ := htx _ rfl
  exact SqliteLedger.observe_transitionGrant (LedgerOp.noResult_eq_ok.mp hr).1

/-! ### Uploads -/

theorem beginUpload_sound {secret originalName : BoundedText 1024} {g : GrantRow}
    (hgrant : w.ledger.findGrantByDigest (options.digests.digestSecret secret.text).bounded = some g)
    (hnow : now.text = host.now)
    (h : (execute options host w (.beginUpload secret.text originalName.text)).1.succeeded = true) :
    Taken w now (.beginUpload g.grantId host.dumpId) (some g.expiresAt)
      (execute options host w (.beginUpload secret.text originalName.text)).2.ledger := by
  obtain ⟨p, hp, hstored, htx, -⟩ := succeeded_plan hnow h
  simp only [planAt, planBeginUpload, bind_eq_ok, assertText_text, hgrant, orThrow_some,
    guardThat_eq_ok, pure_eq_ok, Except.ok.injEq, exists_eq_left', exists_and_left,
    exists_const] at hp
  obtain ⟨-, ⟨-, hexpiry⟩, -, rfl⟩ := hp
  obtain ⟨v, hv⟩ := hstored _ rfl
  simp only [StorageOp.run, bind_eq_ok, pure_eq_ok] at hv
  obtain ⟨s, hs, -⟩ := hv
  obtain ⟨hfree, -⟩ := ObjectStore.createStaging_eq_ok.mp hs
  obtain ⟨r, hr⟩ := htx _ rfl
  obtain ⟨henabled, hnext⟩ :=
    SqliteLedger.observe_beginUpload (LedgerOp.noResult_eq_ok.mp hr).1
  refine ⟨henabled, ?_, hfree, hnext⟩
  intro t ht
  cases ht
  exact hexpiry

/-! ### Dumps -/

/-! ### Dumps -/

section Dumps

variable {d : DumpId}

/-- A plan whose transaction is the action's move. -/
structure Plan.Moves (host : Host) (w : World) (d : DumpId) (action : Spec.Action) (p : Plan) :
    Prop where
  moves : ∃ op m, p.ledger = some op ∧ op.dumpMove? = some (d, m) ∧ m.action? d = some action
  ready : (∀ op ∈ p.storage, ∃ v, op.run host.nowMs w.vaults = .ok v) → VaultReady w action

theorem Taken.of_moves {action : Spec.Action} (hnow : now.text = host.now)
    (htracked : ∀ row ∈ w.ledger.dumps, Tracked row)
    (hplan : Ensures (planAt options host w now command) (Plan.Moves host w d action))
    (h : (execute options host w command).1.succeeded = true) :
    Taken w now action none (execute options host w command).2.ledger := by
  obtain ⟨p, hp, hstored, htx, -⟩ := succeeded_plan hnow h
  obtain ⟨⟨op, m, hop, hmove, haction⟩, hready⟩ := hplan p hp
  obtain ⟨r, hr⟩ := htx op hop
  obtain ⟨henabled, hnext⟩ := observe_dumpMove htracked hmove haction hr
  exact ⟨henabled, unexpired_none, hready hstored, hnext⟩

variable (options host w now)

theorem planSealUpload_moves (byteSize : Int) (sha256 : String) :
    Ensures (planAt options host w now (.sealUpload d.text byteSize sha256))
      (Plan.Moves host w d (.sealUpload d)) := by
  refine .bind fun d' hd => ?_
  obtain rfl : d' = d := Identifier.ext (parseIdentifier_eq_ok.mp hd)
  refine .bind fun _ _ => .bind fun _ hstaging => .bind fun _ _ => .bind fun _ _ => .ok ?_
  have hready := guardThat_eq_ok.mp hstaging
  exact ⟨⟨_, _, rfl, rfl, rfl⟩, fun _ => hready⟩

theorem planFailUpload_moves :
    Ensures (planAt options host w now (.failUpload d.text))
      (Plan.Moves host w d (.failUpload d)) := by
  refine .bind fun d' hd => ?_
  obtain rfl : d' = d := Identifier.ext (parseIdentifier_eq_ok.mp hd)
  exact .bind fun _ _ => .ok ⟨⟨_, _, rfl, rfl, rfl⟩, fun _ => trivial⟩

theorem planPromoteObject_moves :
    Ensures (planAt options host w now (.promoteObject d.text))
      (Plan.Moves host w d (.promoteObject d)) := by
  refine .bind fun d' hd => ?_
  obtain rfl : d' = d := Identifier.ext (parseIdentifier_eq_ok.mp hd)
  refine .bind fun _ _ => .ok ⟨⟨_, _, rfl, rfl, rfl⟩, fun hstored => ?_⟩
  obtain ⟨v, hv⟩ := hstored _ rfl
  obtain ⟨s, hs, -⟩ := bind_eq_ok.mp hv
  exact ⟨s, hs⟩

theorem planMarkQuarantined_moves :
    Ensures (planAt options host w now (.markQuarantined d.text))
      (Plan.Moves host w d (.markQuarantined d)) := by
  refine .bind fun d' hd => ?_
  obtain rfl : d' = d := Identifier.ext (parseIdentifier_eq_ok.mp hd)
  refine .bind fun _ _ => .bind fun _ honly => .ok ?_
  have hready := guardThat_eq_ok.mp honly
  exact ⟨⟨_, _, rfl, rfl, rfl⟩, fun _ => hready⟩

theorem planAcceptDump_moves {kind : CoverageKind} {facts : JsonObject}
    (hinspect : inspection host w d = .accepted kind facts) :
    Ensures (planAt options host w now (.acceptDump d.text))
      (Plan.Moves host w d (.acceptDump d kind)) := by
  refine .bind fun d' hd => ?_
  obtain rfl : d' = d := Identifier.ext (parseIdentifier_eq_ok.mp hd)
  refine .bind fun _ _ => ?_
  rw [hinspect]
  exact .ok ⟨⟨_, _, rfl, rfl, rfl⟩, fun _ => trivial⟩

theorem planRejectDump_moves {error : String} (hinspect : inspection host w d = .rejected error) :
    Ensures (planAt options host w now (.rejectDump d.text))
      (Plan.Moves host w d (.rejectDump d)) := by
  refine .bind fun d' hd => ?_
  obtain rfl : d' = d := Identifier.ext (parseIdentifier_eq_ok.mp hd)
  refine .bind fun _ _ => ?_
  rw [hinspect]
  exact .ok ⟨⟨_, _, rfl, rfl, rfl⟩, fun _ => trivial⟩

theorem planBeginPurge_moves :
    Ensures (planAt options host w now (.beginPurge d.text))
      (Plan.Moves host w d (.beginPurge d)) := by
  refine .bind fun d' hd => ?_
  obtain rfl : d' = d := Identifier.ext (parseIdentifier_eq_ok.mp hd)
  exact .bind fun _ _ => .ok ⟨⟨_, _, rfl, rfl, rfl⟩, fun _ => trivial⟩

theorem planFinishPurge_moves :
    Ensures (planAt options host w now (.finishPurge d.text))
      (Plan.Moves host w d (.finishPurge d)) := by
  refine .bind fun d' hd => ?_
  obtain rfl : d' = d := Identifier.ext (parseIdentifier_eq_ok.mp hd)
  exact .bind fun _ _ => .ok ⟨⟨_, _, rfl, rfl, rfl⟩, fun _ => trivial⟩

variable {options host w now}

/-- A report is the repeat of one that is there, or the first of its identity. -/
theorem recordAnalysis_sound {analyzerName analyzerVersion kind sha256 outcome summary : String}
    {facts : Option JsonObject} {duplicateOf : Option String} (hnow : now.text = host.now)
    (h : (execute options host w (.recordAnalysis d.text analyzerName analyzerVersion kind sha256
      outcome summary facts duplicateOf none)).1.succeeded = true) :
    Taken w now (.recordAnalysis d) none (execute options host w (.recordAnalysis d.text analyzerName
      analyzerVersion kind sha256 outcome summary facts duplicateOf none)).2.ledger := by
  obtain ⟨p, hp, -, htx, hsame⟩ := succeeded_plan hnow h
  simp only [planAt, planRecordAnalysis, bind_eq_ok, pure_eq_ok, parseDumpId,
    parseIdentifier_eq_ok, requirePhase_eq_ok, forOption_none] at hp
  obtain ⟨d', hd', _, -, _, -, _, -, _, -, _, -, _, -, _, -, _, -, row, ⟨hrow, hphase⟩, -, -, _,
    hnone, rfl⟩ := hp
  obtain rfl : d' = d := Identifier.ext hd'
  cases hnone
  refine ⟨dumpPhase_eq_some.mpr ⟨row, hrow, hphase⟩, unexpired_none, trivial, ?_⟩
  generalize hinsert : AnalysisInsert.mk .. = insert at htx hsame
  have hdump : insert.identity.dumpId = d' := by rw [← hinsert]
  cases hfind : w.ledger.findAnalysisByIdentity insert.identity with
  | some existing =>
    have hplan : (recordAnalysisPlan host w now row.caseId insert none).ledger = none := by
      unfold recordAnalysisPlan
      rw [hfind]
    have hmem := SqliteLedger.mem_of_findAnalysis hfind
    rw [hdump] at hmem
    rw [hsame hplan]
    exact Spec.State.ext rfl rfl rfl rfl rfl rfl rfl rfl rfl rfl
      (Set.union_eq_self_of_subset_right (Set.singleton_subset_iff.mpr hmem)).symm rfl rfl rfl
  | none =>
    have hplan : (recordAnalysisPlan host w now row.caseId insert none).ledger =
        some (.recordAnalysis insert none) := by
      unfold recordAnalysisPlan
      rw [hfind]
      rfl
    obtain ⟨r, hr⟩ := htx _ hplan
    simp only [LedgerOp.run, LedgerOp.withResult_eq_ok] at hr
    obtain ⟨⟨report, replayed⟩, hrecord, -⟩ := hr
    obtain ⟨_, -, hfirst⟩ := bind_eq_ok.mp hrecord
    rw [hfind] at hfirst
    rw [SqliteLedger.observe_firstAnalysis hfirst, hdump]
    rfl

end Dumps

/-- **A command of the table that succeeded took its action.** -/
theorem succeeded_sound {action : Spec.Action} {expiry : Option IsoTimestamp}
    (htable : ActionTable options host w command action expiry) (hnow : now.text = host.now)
    (htracked : ∀ row ∈ w.ledger.dumps, Tracked row)
    (h : (execute options host w command).1.succeeded = true) :
    Taken w now action expiry (execute options host w command).2.ledger := by
  cases htable with
  | startInvestigation c =>
    obtain ⟨status, hstatus, hexpected, hnext⟩ :=
      moveCase_sound .startInvestigation hnow rfl (fun _ => rfl) (by decide) h
    obtain rfl : status = .new := by simpa using hexpected
    exact ⟨hstatus, unexpired_none, trivial, hnext⟩
  | waitForCustomer c =>
    obtain ⟨status, hstatus, hexpected, hnext⟩ :=
      moveCase_sound .waitForCustomer hnow rfl (fun _ => rfl) (by decide) h
    obtain rfl : status = .investigating := by simpa using hexpected
    exact ⟨hstatus, unexpired_none, trivial, hnext⟩
  | resumeInvestigation c =>
    obtain ⟨status, hstatus, hexpected, hnext⟩ :=
      moveCase_sound .resumeInvestigation hnow rfl (fun _ => rfl) (by decide) h
    refine ⟨?_, unexpired_none, trivial, hnext⟩
    simpa [Spec.Action.enabled, hstatus] using hexpected
  | resolveCase c =>
    obtain ⟨status, hstatus, hexpected, hnext⟩ :=
      moveCase_sound .resolveCase hnow rfl (fun _ => rfl) (by decide) h
    refine ⟨?_, unexpired_none, trivial, hnext⟩
    simpa [Spec.Action.enabled, hstatus] using hexpected
  | closeCase c => exact closeCase_sound hnow h
  | issueGrant c expiresAt maxBytes hmax => exact issueGrant_sound hmax hnow h
  | revokeGrant t =>
    obtain ⟨hissued, hnext⟩ := planGrantEnd_sound hnow rfl h
    exact ⟨hissued, unexpired_none, trivial, hnext⟩
  | expireGrant t =>
    obtain ⟨hissued, hnext⟩ := planGrantEnd_sound hnow rfl h
    exact ⟨hissued, unexpired_none, trivial, hnext⟩
  | beginUpload secret originalName hgrant => exact beginUpload_sound hgrant hnow h
  | sealUpload d byteSize sha256 =>
    exact .of_moves hnow htracked (planSealUpload_moves _ _ _ _ _ _) h
  | failUpload d => exact .of_moves hnow htracked (planFailUpload_moves _ _ _ _) h
  | promoteObject d => exact .of_moves hnow htracked (planPromoteObject_moves _ _ _ _) h
  | markQuarantined d => exact .of_moves hnow htracked (planMarkQuarantined_moves _ _ _ _) h
  | acceptDump d hinspect => exact .of_moves hnow htracked (planAcceptDump_moves _ _ _ _ hinspect) h
  | rejectDump d hinspect => exact .of_moves hnow htracked (planRejectDump_moves _ _ _ _ hinspect) h
  | beginPurge d => exact .of_moves hnow htracked (planBeginPurge_moves _ _ _ _) h
  | finishPurge d => exact .of_moves hnow htracked (planFinishPurge_moves _ _ _ _) h
  | recordAnalysis d hrow hsealed hname hversion hkind houtcome hsummary hfacts hduplicate =>
    exact recordAnalysis_sound hnow h

end Sound

end DumpLedger
