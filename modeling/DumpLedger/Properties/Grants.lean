import DumpLedger.Engine.Run

/-!
# Grant budgets

A grant is a bounded credential: it has `maxUploads` slots, and every upload that begins
with its secret takes one. The commands that issue, use, revoke and close keep
`Budgeted`; an imported record brings in whatever it says.

* `slots_step` — an event takes one slot of a grant or none
* `reached_budgeted` — the budget holds as long as every imported record respects it
* `grant_budget` — with the number of uploads a grant admits
-/

namespace DumpLedger

open Lib SqliteLedger

structure Budgeted (g : GrantRow) : Prop where
  within : g.uploadsUsed ≤ g.maxUploads
  consumed : g.state = .consumed ↔ g.uploadsUsed = g.maxUploads

/-! ## The commands -/

section Plans

variable {options : EngineOptions} {host : Host} {w : World} {occurredAt : IsoTimestamp} {p : Plan}

theorem planBeginUpload_ok_cases {grantSecret originalName : String}
    (h : planBeginUpload options host w occurredAt grantSecret originalName = .ok p) :
    ∃ (grant : GrantRow) (name : BoundedText 1024),
      w.ledger.findGrantByDigest (options.digests.digestSecret grantSecret).bounded = some grant ∧
        grant.state = .issued ∧ name.text = originalName ∧
        p.storage = some (.createStaging host.dumpId) ∧
        p.ledger = some (.beginUpload grant.grantId host.dumpId name) ∧
        p.compensation = some host.dumpId ∧ p.receipt.grantId = some grant.grantId := by
  simp only [planBeginUpload, bind_eq_ok, assertText_eq_ok, orThrow_eq_ok, guardThat_eq_ok,
    pure_eq_ok] at h
  obtain ⟨secret, rfl, name, hname, grant, hg, -, -, -, -, -, hissued, rfl⟩ := h
  exact ⟨grant, name, hg, hissued, hname, rfl, rfl, rfl, rfl⟩

theorem planImportGrant_ok_cases {record : ImportGrantRecord} {forcedState : Option String}
    (h : planImportGrant host occurredAt record forcedState = .ok p) :
    ∃ row, checkImportGrantRecord record = .ok row ∧
      p.ledger = some (.importGrant row forcedState.isSome) ∧ p.storage = none := by
  simp only [planImportGrant, bind_eq_ok, guardThat_eq_ok, pure_eq_ok] at h
  obtain ⟨-, -, row, hrow, rfl⟩ := h
  exact ⟨row, hrow, rfl, rfl⟩

end Plans

/-! ## Slots -/

/-- The event is a `BeginUpload` that succeeded on the grant. -/
def takesSlot (options : EngineOptions) (grantId : GrantId) (w : World) : Event → Bool
  | .command host (.beginUpload grantSecret originalName) =>
    match (execute options host w (.beginUpload grantSecret originalName)).1 with
    | .receipt (.success receipt) => decide (receipt.grantId = some grantId)
    | _ => false
  | _ => false

section Slots

variable {options : EngineOptions} {w : World} {e : Event} {grantId : GrantId}

/-- A slot is taken exactly by a committed `beginUpload`. -/
theorem takesSlot_iff :
    takesSlot options grantId w e = true ↔
      ∃ host command p dumpId name r,
        Committed options w e host command p (.beginUpload grantId dumpId name) r
          (step options w e).ledger := by
  constructor
  · intro h
    unfold takesSlot at h
    split at h
    · next host secret name =>
      split at h
      · next receipt hout =>
        have hsucc : (execute options host w (.beginUpload secret name)).1.succeeded = true := by
          rw [hout]
          rfl
        obtain ⟨p, r, hp, -, -, hout'⟩ := execute_succeeded hsucc
        obtain ⟨t, -, hplan⟩ := plan_eq_ok.mp hp
        obtain ⟨grant, name', -, -, -, -, hop, -, hreceipt⟩ := planBeginUpload_ok_cases hplan
        obtain ⟨r', hc⟩ := committed_of_succeeded hsucc hp hop
        have hrun := hc.run
        simp only [LedgerOp.run, LedgerOp.noResult_eq_ok] at hrun
        obtain ⟨-, rfl⟩ := hrun
        have hgrant : receipt.grantId = some grant.grantId := by
          rw [hc.outcome] at hout
          cases hout
          exact hreceipt
        rw [decide_eq_true_eq, hgrant, Option.some.injEq] at h
        subst h
        exact ⟨host, _, p, host.dumpId, name', _, hc⟩
      · cases h
    · cases h
  · rintro ⟨host, command, p, dumpId, name, r, hc⟩
    have haction := plan_action hc.plan hc.ledger
    cases command <;> cases haction
    next secret name' =>
      obtain ⟨t, -, hplan⟩ := plan_eq_ok.mp hc.plan
      obtain ⟨grant, name'', -, -, -, -, hop, -, hreceipt⟩ := planBeginUpload_ok_cases hplan
      rw [hc.ledger] at hop
      cases hop
      have hrun := hc.run
      simp only [LedgerOp.run, LedgerOp.noResult_eq_ok] at hrun
      obtain ⟨-, rfl⟩ := hrun
      rw [hc.event]
      simp only [takesSlot, hc.outcome, TransitionSuccess.withResult]
      exact decide_eq_true hreceipt

variable (options e) in
/-- **An event takes one slot of a grant or leaves its count alone**, and never changes its
size or its secret. -/
theorem slots_step {g : GrantRow} (hg : w.ledger.grants.find? grantId = some g) :
    ∃ g', (step options w e).ledger.grants.find? grantId = some g' ∧
      g'.maxUploads = g.maxUploads ∧ g'.secretDigest = g.secretDigest ∧
      g'.uploadsUsed = g.uploadsUsed + if takesSlot options grantId w e = true then 1 else 0 := by
  by_cases htake : takesSlot options grantId w e = true
  · rw [if_pos htake]
    obtain ⟨host, command, p, dumpId, name, r, hc⟩ := takesSlot_iff.mp htake
    have hrun := hc.run
    simp only [LedgerOp.run, LedgerOp.noResult_eq_ok, beginUpload_eq_ok] at hrun
    obtain ⟨⟨g₀, c, hg₀, -, -, -, hfree, -, hd, _, hl⟩, -⟩ := hrun
    rw [hg] at hg₀
    cases hg₀
    refine ⟨g.takeSlot dumpId, ?_, GrantRow.takeSlot_maxUploads, GrantRow.takeSlot_secretDigest,
      GrantRow.takeSlot_uploadsUsed hfree⟩
    rw [congrArg SqliteLedger.grants hl]
    show (w.ledger.grants.updateKey grantId (GrantRow.takeSlot dumpId)
      (GrantRow.takeSlot_grantId dumpId)).find? grantId = _
    exact Table.find?_updateKey_self hg
  · rw [if_neg htake]
    rcases step_ledger options w e with h | ⟨host, command, p, op, r, hc⟩
    · rw [h]
      exact ⟨g, hg, rfl, rfl, rfl⟩
    · have hch := (run_changes hc.run).grants
      generalize hcases : (step options w e).ledger.cases = cases,
        hgrants : (step options w e).ledger.grants = grants at hch ⊢
      cases hch with
      | same => exact ⟨g, hg, rfl, rfl, rfl⟩
      | caseInserted => exact ⟨g, hg, rfl, rfl, rfl⟩
      | caseMoved => exact ⟨g, hg, rfl, rfl, rfl⟩
      | caseClosed caseId =>
        rw [grantsRevokedFor, Table.find?_update, hg, Option.map_some]
        refine ⟨_, rfl, ?_⟩
        split <;> exact ⟨rfl, rfl, rfl⟩
      | issued row _ _ _ _ _ _ =>
        exact ⟨g, Table.find?_insert_of_some hg, rfl, rfl, rfl⟩
      | imported record forceRevoked _ _ _ _ =>
        exact ⟨g, Table.find?_insert_of_some hg, rfl, rfl, rfl⟩
      | ended g₀ next _ _ =>
        rw [Table.find?_updateKey, hg]
        split
        · exact ⟨_, rfl, rfl, rfl, rfl⟩
        · exact ⟨g, rfl, rfl, rfl, rfl⟩
      | slotTaken g₀ _ dumpId name hop _ _ _ _ _ =>
        -- a committed upload on another grant: one on this grant would take a slot of it
        have hne : g₀.grantId ≠ grantId := by
          rintro rfl
          subst hop
          exact htake (takesSlot_iff.mpr ⟨host, command, p, dumpId, name, r, hc⟩)
        exact ⟨g, by rw [Table.find?_updateKey_ne hne]; exact hg, rfl, rfl, rfl⟩

end Slots

/-! ## The budget -/

section Budget

variable {l l' : SqliteLedger} {op : LedgerOp} {event : EventIdentity} {sha256 : Bytes → Sha256}
  {r : LedgerResult}

/-- Ending an issued grant that is within its budget leaves it within its budget. -/
theorem budgeted_ended {g : GrantRow} {state : TokenState} (h : Budgeted g)
    (hissued : g.state = .issued) (hstate : state ≠ .consumed) :
    Budgeted { g with state := state } := by
  refine ⟨h.within, ⟨fun hc => absurd hc hstate, fun hfull => ?_⟩⟩
  have hc := h.consumed.mpr hfull
  rw [hissued] at hc
  cases hc

theorem budgeted_takeSlot {g : GrantRow} {dumpId : DumpId} (hfree : g.uploadsUsed < g.maxUploads) :
    Budgeted (g.takeSlot dumpId) := by
  refine ⟨?_, ?_⟩
  · rw [GrantRow.takeSlot_uploadsUsed hfree, GrantRow.takeSlot_maxUploads]
    omega
  · rw [GrantRow.takeSlot_state hfree, GrantRow.takeSlot_uploadsUsed hfree,
      GrantRow.takeSlot_maxUploads]
    by_cases hlast : g.uploadsUsed + 1 ≥ g.maxUploads
    · rw [if_pos hlast]
      simp only [true_iff]
      omega
    · rw [if_neg hlast]
      simp only [reduceCtorEq, false_iff]
      omega

theorem run_budgeted (hl : ∀ g ∈ l.grants, Budgeted g)
    (h : op.run sha256 event l = .ok (r, l'))
    (himport : ∀ record forceRevoked, op = .importGrant record forceRevoked → Budgeted record) :
    ∀ g ∈ l'.grants, Budgeted g := by
  have hch := (run_changes h).grants
  generalize l'.cases = cases, l'.grants = grants at hch ⊢
  cases hch with
  | same => exact hl
  | caseInserted => exact hl
  | caseMoved => exact hl
  | caseClosed caseId =>
    intro g hg
    rcases Table.of_mem_update hg with ⟨hg, -⟩ | ⟨g₀, hg₀, hp, rfl⟩
    · exact hl g hg
    · exact budgeted_ended (hl g₀ hg₀) (of_decide_eq_true hp).2 (by decide)
  | issued row _ _ _ _ hissued hunused =>
    intro g hg
    rcases Table.mem_insert.mp hg with hg | rfl
    · exact hl g hg
    · have hmax := g.maxUploads_between.1
      refine ⟨by omega, ⟨fun hc => ?_, fun hfull => by omega⟩⟩
      rw [hissued] at hc
      cases hc
  | imported record forceRevoked _ hop _ _ =>
    intro g hg
    have hb := himport record forceRevoked hop
    rcases Table.mem_insert.mp hg with hg | rfl
    · exact hl g hg
    · exact ⟨hb.within, importedState_eq_consumed.trans hb.consumed⟩
  | ended g₀ next hg₀ hissued =>
    intro g hg
    rcases (Table.mem_updateKey hg₀).mp hg with rfl | ⟨hg, -⟩
    · exact budgeted_ended (hl g₀ (Table.mem_of_find? hg₀)) hissued (by cases next <;> decide)
    · exact hl g hg
  | slotTaken g₀ _ dumpId _ _ hg₀ _ hfree _ _ =>
    intro g hg
    rcases (Table.mem_updateKey hg₀).mp hg with rfl | ⟨hg, -⟩
    · exact budgeted_takeSlot hfree
    · exact hl g hg

end Budget

/-! ## Runs -/

/-- The guards of `importGrant`: the ledger takes the record in. -/
def AcceptsGrant (l : SqliteLedger) (row : GrantRow) : Prop :=
  l.unfinishedImportId ≠ none ∧ l.cases.contains row.caseId = true ∧
    l.grants.contains row.grantId = false ∧ l.findGrantByDigest row.secretDigest = none

/-- A grant record the engine takes in respects its own budget. -/
def ImportsBudgeted (w : World) : Event → Prop
  | .command _ (.importGrant record _) =>
    ∀ row, checkImportGrantRecord record = .ok row → AcceptsGrant w.ledger row → Budgeted row
  | _ => True

theorem acceptsGrant_of_ok {l l' : SqliteLedger} {row : GrantRow} {forceRevoked : Bool}
    {event : EventIdentity} (h : l.importGrant row forceRevoked event = .ok l') :
    AcceptsGrant l row := by
  obtain ⟨hopen, c, hc, -, hd, hg, -, -⟩ := importGrant_eq_ok.mp h
  exact ⟨hopen, Table.contains_of_find? hc, Table.contains_eq_false.mpr hg,
    findGrantByDigest_eq_none.mpr hd⟩

section Runs

variable {options : EngineOptions}

/-- A committed `importGrant` comes from a record that was checked and taken in. -/
theorem committed_importGrant {w : World} {e : Event} {host : Host} {command : Command} {p : Plan}
    {row : GrantRow} {forceRevoked : Bool} {r : LedgerResult} {l : SqliteLedger}
    (hc : Committed options w e host command p (.importGrant row forceRevoked) r l) :
    ∃ record forcedState, e = .command host (.importGrant record forcedState) ∧
      checkImportGrantRecord record = .ok row ∧ forceRevoked = forcedState.isSome ∧
      AcceptsGrant w.ledger row := by
  have haction := plan_action hc.plan hc.ledger
  cases command <;> cases haction
  next record forcedState =>
    obtain ⟨t, -, hplan⟩ := plan_eq_ok.mp hc.plan
    obtain ⟨row', hrow, hop, -⟩ := planImportGrant_ok_cases hplan
    rw [hc.ledger] at hop
    cases hop
    have hrun := hc.run
    simp only [LedgerOp.run, LedgerOp.noResult_eq_ok] at hrun
    exact ⟨record, forcedState, hc.event, hrow, rfl, acceptsGrant_of_ok hrun.1⟩

theorem step_budgeted {w : World} {e : Event} (hw : ∀ g ∈ w.ledger.grants, Budgeted g)
    (hcond : ImportsBudgeted w e) : ∀ g ∈ (step options w e).ledger.grants, Budgeted g := by
  rcases step_ledger options w e with h | ⟨host, command, p, op, r, hc⟩
  · rw [h]
    exact hw
  · refine run_budgeted hw hc.run fun row forceRevoked hop => ?_
    subst hop
    obtain ⟨record, forcedState, rfl, hrow, -, haccept⟩ := committed_importGrant hc
    exact hcond row hrow haccept

theorem reached_budgeted {events : List Event}
    (h : Along (step options) ImportsBudgeted World.fresh events) :
    ∀ g ∈ (reached options events).ledger.grants, Budgeted g :=
  invariant_along (I := fun w : World => ∀ g ∈ w.ledger.grants, Budgeted g)
    (fun _ _ => step_budgeted) (fun _ hg => absurd hg Table.not_mem_empty) h

/-- The accounting of grants along a run. -/
structure GrantBudget (options : EngineOptions) (events : List Event) : Prop where
  /-- Every grant is within its budget, and consumed exactly when it is used up. -/
  budgeted : ∀ g ∈ (reached options events).ledger.grants, Budgeted g
  /-- Whatever happens next takes one slot of a grant, by an upload, or none. -/
  slots : ∀ e, ∀ g ∈ (reached options events).ledger.grants,
    ∃ g' ∈ (step options (reached options events) e).ledger.grants,
      g'.grantId = g.grantId ∧ g'.maxUploads = g.maxUploads ∧ g'.secretDigest = g.secretDigest ∧
        g'.uploadsUsed = g.uploadsUsed +
          if takesSlot options g.grantId (reached options events) e = true then 1 else 0
  /-- An upload that begins is on the grant of its secret, and creates one dump. -/
  uploads : ∀ host secret name,
    (execute options host (reached options events) (.beginUpload secret name)).1.succeeded = true →
      ∃ g ∈ (reached options events).ledger.grants,
        g.secretDigest.text = (options.digests.digestSecret secret).text ∧
          takesSlot options g.grantId (reached options events)
            (.command host (.beginUpload secret name)) = true ∧
          ∃ d, (step options (reached options events)
              (.command host (.beginUpload secret name))).ledger.dumps.rows =
            (reached options events).ledger.dumps.rows ++ [d]
  /-- From any point of the run on, a grant admits no more uploads than it has slots left. -/
  admits : ∀ es es', events = es ++ es' → ∀ g ∈ (reached options es).ledger.grants,
    countAlong (step options) (takesSlot options g.grantId) (reached options es) es' ≤
      g.maxUploads - g.uploadsUsed

/-- The slots a grant has used grow by the uploads counted, as far as a run goes. -/
theorem uploadsUsed_run (options : EngineOptions) {w : World} (events : List Event) {grantId : GrantId} {g : GrantRow}
    (hg : w.ledger.grants.find? grantId = some g) :
    ∃ g', (run (step options) w events).ledger.grants.find? grantId = some g' ∧
      g'.maxUploads = g.maxUploads ∧
      g'.uploadsUsed =
        g.uploadsUsed + countAlong (step options) (takesSlot options grantId) w events := by
  induction events generalizing w g with
  | nil => exact ⟨g, hg, rfl, rfl⟩
  | cons e es ih =>
    obtain ⟨g₁, hg₁, hmax₁, -, hused₁⟩ := slots_step options e hg
    obtain ⟨g₂, hg₂, hmax₂, hused₂⟩ := ih hg₁
    refine ⟨g₂, hg₂, hmax₂.trans hmax₁, ?_⟩
    rw [hused₂, hused₁, countAlong, Nat.add_assoc]

theorem upload_creates {w : World} {host : Host} {secret name : String}
    (h : (execute options host w (.beginUpload secret name)).1.succeeded = true) :
    ∃ g ∈ w.ledger.grants, g.secretDigest.text = (options.digests.digestSecret secret).text ∧
      takesSlot options g.grantId w (.command host (.beginUpload secret name)) = true ∧
      ∃ d, (step options w (.command host (.beginUpload secret name))).ledger.dumps.rows =
        w.ledger.dumps.rows ++ [d] := by
  obtain ⟨p, r, hp, -, -, -⟩ := execute_succeeded h
  obtain ⟨t, -, hplan⟩ := plan_eq_ok.mp hp
  obtain ⟨grant, name', hgrant, -, -, -, hop, -, -⟩ := planBeginUpload_ok_cases hplan
  obtain ⟨hmem, hdigest⟩ := findGrantByDigest_eq_some hgrant
  obtain ⟨r', hc⟩ := committed_of_succeeded h hp hop
  refine ⟨grant, hmem, congrArg BoundedText.text hdigest,
    takesSlot_iff.mpr ⟨host, _, p, _, _, r', hc⟩, ?_⟩
  have hrun := hc.run
  simp only [LedgerOp.run, LedgerOp.noResult_eq_ok, beginUpload_eq_ok] at hrun
  obtain ⟨⟨g, c, -, -, -, -, -, -, hd, _, hl⟩, -⟩ := hrun
  rw [hl]
  exact ⟨_, rfl⟩

/-- **The budget of every grant holds along a run in which the imported grant records
respect theirs.** -/
theorem grant_budget (events : List Event)
    (h : Along (step options) ImportsBudgeted World.fresh events) : GrantBudget options events where
  budgeted := reached_budgeted h
  slots e g hg := by
    obtain ⟨g', hg', hmax, hsecret, hused⟩ := slots_step options e
      (Table.find?_key hg)
    exact ⟨g', Table.mem_of_find? hg', Table.key_of_find? hg', hmax, hsecret, hused⟩
  uploads _ _ _ hsucc := upload_creates hsucc
  admits es es' hsplit g hg := by
    obtain ⟨g', hg', hmax, hused⟩ := uploadsUsed_run options es'
      (Table.find?_key hg)
    have hrun : run (step options) (reached options es) es' = reached options events := by
      rw [hsplit, reached, reached, run_append]
    rw [hrun] at hg'
    rw [key_grant] at hused
    have hwithin := (reached_budgeted h g' (Table.mem_of_find? hg')).within
    omega

end Runs

/-- An upload on a grant of one slot. -/
theorem grant_budget_upload : GrantBudget Sample.options Sample.uploadRun :=
  grant_budget Sample.uploadRun ⟨trivial, trivial, trivial, trivial, trivial⟩

/-- An imported record of one slot, two of which are used. -/
theorem grant_budget_import_overdrawn :
    ¬ ∀ g ∈ (reached Sample.options (Sample.importRun "investigating" ++
        [.command (Sample.host 3) (.importGrant (Sample.grantRecord "consumed" 2) none)])).ledger.grants,
      g.uploadsUsed ≤ g.maxUploads ∧ (g.state = .consumed ↔ g.uploadsUsed = g.maxUploads) := by
  decide +kernel

end DumpLedger
