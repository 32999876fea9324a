import DumpLedger.Properties.Grants

/-!
# Closed cases

A closed case holds no live credential: closing revokes, issuing asks for an open case,
and reopening is the only way out of `closed`. An import puts a case and its grants into
the ledger by separate commands, each with the state its record says, and the grant's
command does not look at the status of the case.

* `noLiveCredential_step` — what keeps the invariant, change by change
* `closed_case_no_issued` — it holds as long as no issued grant is imported into a closed case
-/

namespace DumpLedger

open Lib SqliteLedger

/-- No issued grant belongs to a closed case. -/
def NoLiveCredential (l : SqliteLedger) : Prop :=
  ∀ g ∈ l.grants, ∀ c ∈ l.cases, c.caseId = g.caseId → c.status = .closed → g.state ≠ .issued

instance (l : SqliteLedger) : Decidable (NoLiveCredential l) :=
  inferInstanceAs (Decidable (∀ g ∈ l.grants.rows, ∀ c ∈ l.cases.rows,
    c.caseId = g.caseId → c.status = .closed → g.state ≠ .issued))

/-! ## Transactions -/

section Transactions

variable {l l' : SqliteLedger} {op : LedgerOp} {event : EventIdentity} {sha256 : Bytes → Sha256}
  {r : LedgerResult}

theorem noLiveCredential_run (hlink : Linked l) (hl : NoLiveCredential l)
    (h : op.run sha256 event l = .ok (r, l'))
    (himport : ∀ record forceRevoked c, op = .importGrant record forceRevoked →
      l.cases.find? record.caseId = some c → c.status = .closed →
        importedState record.state forceRevoked ≠ .issued) :
    NoLiveCredential l' := by
  have hch := (run_changes h).grants
  unfold NoLiveCredential
  generalize l'.cases = cases, l'.grants = grants at hch ⊢
  cases hch with
  | same => exact hl
  | caseInserted row hfree _ =>
    intro g hg c hc hcase hclosed
    rcases Table.mem_insert.mp hc with hc | rfl
    · exact hl g hg c hc hcase hclosed
    · -- a new case has no grants yet
      have hexists := hlink.grant_case g hg
      rw [← hcase, Table.contains, hfree] at hexists
      cases hexists
  | caseMoved caseId next hnext =>
    intro g hg c hc hcase hclosed
    rcases Table.of_mem_update hc with ⟨hc, -⟩ | ⟨c₀, -, -, rfl⟩
    · exact hl g hg c hc hcase hclosed
    · exact absurd hclosed hnext
  | caseClosed caseId =>
    intro g hg c hc hcase hclosed
    rcases Table.of_mem_update hg with ⟨hg, hkept⟩ | ⟨g₀, -, -, rfl⟩
    · rcases Table.of_mem_update hc with ⟨hc, -⟩ | ⟨c₀, -, hp, rfl⟩
      · exact hl g hg c hc hcase hclosed
      · -- the grants of the case that were issued are the revoked ones
        intro hissued
        have hid : g.caseId = caseId := hcase.symm.trans (of_decide_eq_true hp)
        exact absurd ⟨hid, hissued⟩ (of_decide_eq_false hkept)
    · exact fun hrevoked => by cases hrevoked
  | issued row c₀ _ hc₀ hopen _ _ =>
    intro g hg c hc hcase hclosed
    rcases Table.mem_insert.mp hg with hg | rfl
    · exact hl g hg c hc hcase hclosed
    · obtain rfl : c = c₀ := Table.eq_of_key hc (Table.mem_of_find? hc₀)
        (hcase.trans (Table.key_of_find? hc₀).symm)
      exact absurd hclosed hopen
  | imported record forceRevoked c₀ hop _ hc₀ =>
    intro g hg c hc hcase hclosed
    rcases Table.mem_insert.mp hg with hg | rfl
    · exact hl g hg c hc hcase hclosed
    · obtain rfl : c = c₀ := Table.eq_of_key hc (Table.mem_of_find? hc₀)
        (hcase.trans (Table.key_of_find? hc₀).symm)
      exact himport record forceRevoked c hop hc₀ hclosed
  | ended g₀ next hg₀ _ =>
    intro g hg c hc hcase hclosed
    rcases (Table.mem_updateKey hg₀).mp hg with rfl | ⟨hg, -⟩
    · cases next <;> exact fun hissued => by cases hissued
    · exact hl g hg c hc hcase hclosed
  | slotTaken g₀ c₀ dumpId _ _ hg₀ _ _ hc₀ hopen =>
    intro g hg c hc hcase hclosed
    rcases (Table.mem_updateKey hg₀).mp hg with rfl | ⟨hg, -⟩
    · rw [GrantRow.takeSlot_caseId] at hcase
      obtain rfl : c = c₀ := Table.eq_of_key hc (Table.mem_of_find? hc₀)
        (hcase.trans (Table.key_of_find? hc₀).symm)
      exact absurd hclosed hopen
    · exact hl g hg c hc hcase hclosed

end Transactions

/-! ## Runs -/

/-- A grant record the engine takes in and stores as issued names a case that is not
closed. -/
def ImportsIntoOpenCases (w : World) : Event → Prop
  | .command _ (.importGrant record forcedState) =>
    ∀ row c, checkImportGrantRecord record = .ok row → AcceptsGrant w.ledger row →
      importedState row.state forcedState.isSome = .issued →
        w.ledger.cases.find? row.caseId = some c → c.status ≠ .closed
  | _ => True

section Runs

variable {options : EngineOptions}

theorem noLiveCredential_step {w : World} {e : Event} (hlink : Linked w.ledger)
    (hw : NoLiveCredential w.ledger) (hcond : ImportsIntoOpenCases w e) :
    NoLiveCredential (step options w e).ledger := by
  rcases step_ledger options w e with h | ⟨host, command, p, op, r, hc⟩
  · rw [h]
    exact hw
  · refine noLiveCredential_run hlink hw hc.run fun row forceRevoked c hop hcase hclosed => ?_
    subst hop
    obtain ⟨record, forcedState, rfl, hrow, rfl, haccept⟩ := committed_importGrant hc
    exact fun hissued => hcond row c hrow haccept hissued hcase hclosed

/-- **No issued grant ever belongs to a closed case**, along a run that imports none. -/
theorem closed_case_no_issued (events : List Event)
    (h : Along (step options) ImportsIntoOpenCases World.fresh events) :
    NoLiveCredential (reached options events).ledger :=
  (invariant_along (I := fun w : World => Linked w.ledger ∧ NoLiveCredential w.ledger)
    (fun _ _ hi hcond =>
      ⟨ledger_step (fun _ _ _ _ _ => run_linked) hi.1, noLiveCredential_step hi.1 hi.2 hcond⟩)
    ⟨linked_fresh, fun _ hg => absurd hg Table.not_mem_empty⟩ h).2

end Runs

/-- Closing a case with an issued grant. -/
theorem closed_case_no_issued_closing :
    NoLiveCredential (reached Sample.options (Sample.uploadRun.take 3 ++
      [.command (Sample.host 3) (.startInvestigation "case_00000000000000000000000001"),
        .command (Sample.host 4) (.resolveCase "case_00000000000000000000000001"),
        .command (Sample.host 5) (.closeCase "case_00000000000000000000000001")])).ledger :=
  closed_case_no_issued _ ⟨trivial, trivial, trivial, trivial, trivial, trivial, trivial⟩

/-- An issued grant imported into a case imported as closed. -/
theorem closed_case_imported_issued :
    ¬ NoLiveCredential (reached Sample.options (Sample.importRun "closed" ++
        [.command (Sample.host 3)
          (.importGrant (Sample.grantRecord "issued" 0) none)])).ledger := by
  decide +kernel

end DumpLedger
