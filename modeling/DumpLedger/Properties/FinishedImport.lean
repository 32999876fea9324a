import DumpLedger.Properties.ImportRuns
import DumpLedger.Properties.OpenedBundle

/-!
# A finished import

`importBundle` reports `finished` when the end of its session was reached. By then every row of the
bundle is in the target exactly once, and the counters have counted each declared dump once.

* `Underway` — the invariant of the loops of `importRows`
* `importDump_underway` — the step of a dump, with its completion
* `finished_import_complete` — what a finished import has brought in
-/

namespace DumpLedger.ImportSession

open Lib Vocabulary Prog

/-! ## Rows and records -/

/-- The record of a grant as the target has it: issued under another key, it is revoked. -/
def importedGrantRecord (forced : Bool) (record : ImportGrantRecord) : ImportGrantRecord :=
  { record with
    state := if record.state = "issued" ∧ forced = true then "revoked" else record.state }

theorem grantRecord_grantImported (g : GrantRow) (forced : Bool) :
    grantRecord (grantImported g forced) = importedGrantRecord forced (grantRecord g) := by
  have hstate : text (SqliteLedger.importedState g.state forced) =
      if text g.state = "issued" ∧ forced = true then "revoked" else text g.state := by
    cases g.state <;> cases forced <;> decide
  unfold grantRecord grantImported importedGrantRecord
  dsimp only
  rw [hstate]

/-- Rows that were counted up to the number of the records are all of the records. -/
theorem Brought.perm {ρ κ α : Type} [DecidableEq κ] [Keyed ρ κ] {count : Nat} {table : Table ρ}
    {record : ρ → α} {records : List α} (h : Brought count table fun row => record row ∈ records)
    (hkey : ∀ r r' : ρ, record r = record r' → key r = key r') (hcount : count = records.length) :
    (table.rows.map record).Perm records := by
  have hnodup : (table.rows.map record).Nodup := by
    have hkeys := table.keys_nodup
    rw [List.Nodup, List.pairwise_map] at hkeys ⊢
    exact hkeys.imp fun hne heq => hne (hkey _ _ heq)
  have hsub : List.Subperm (table.rows.map record) records := by
    refine hnodup.subperm fun a ha => ?_
    obtain ⟨row, hrow, rfl⟩ := List.mem_map.mp ha
    exact h.source row hrow
  refine hsub.perm_of_length_le ?_
  rw [List.length_map, ← h.count, hcount]

theorem Brought.mono {ρ κ : Type} [DecidableEq κ] [Keyed ρ κ] {count : Nat} {table : Table ρ}
    {source source' : ρ → Prop} (h : Brought count table source)
    (himp : ∀ row, source row → source' row) : Brought count table source' :=
  ⟨h.count, fun row hrow => himp row (h.source row hrow)⟩

theorem key_of_customerRecord (r r' : CustomerRow) (h : customerRecord r = customerRecord r') :
    key r = key r' :=
  CustomerId.ext (congrArg ImportCustomerRecord.customerId h)

theorem key_of_caseRecord (r r' : CaseRow) (h : caseRecord r = caseRecord r') : key r = key r' :=
  Identifier.ext (congrArg ImportCaseRecord.caseId h)

theorem key_of_grantRecord (r r' : GrantRow) (h : grantRecord r = grantRecord r') :
    key r = key r' :=
  Identifier.ext (congrArg ImportGrantRecord.grantId h)

/-- Every row of the bundle is in the ledger exactly once. -/
structure Complete (options : EngineOptions) (bundle : OpenBundle) (l : SqliteLedger) : Prop where
  customers : (l.customers.rows.map customerRecord).Perm bundle.rows.customers
  cases : (l.cases.rows.map caseRecord).Perm bundle.rows.cases
  grants : (l.grants.rows.map grantRecord).Perm
    (bundle.rows.grants.map (importedGrantRecord (fingerprintMismatch options bundle)))
  dumps : (l.dumps.rows.map DumpRow.dumpId).Perm
    (bundle.manifest.dumps.map ExportManifestDump.dumpId)
  skipped : ∀ s ∈ bundle.manifest.skipped, l.dumps.find? s.dumpId = none

/-- Nothing is missing when all steps were counted. -/
theorem complete_of_allStepped {options : EngineOptions} {bundle : OpenBundle}
    {v : SessionVariables} {l : SqliteLedger} (hvalid : bundle.manifest.Valid)
    (hp : Progress options bundle v (recordsOf l)) (hall : allStepped bundle v = true) :
    Complete options bundle l := by
  unfold allStepped at hall
  simp only [Bool.and_eq_true, decide_eq_true_eq] at hall
  obtain ⟨⟨⟨hcustomers, hcases⟩, hgrants⟩, hdumps⟩ := hall
  have hids : (bundle.manifest.dumps.map ExportManifestDump.dumpId).Nodup :=
    (List.nodup_append.mp hvalid.unique).1
  rw [hids.dedup] at hdumps
  have hperm : (l.dumps.rows.map DumpRow.dumpId).Perm
      (bundle.manifest.dumps.map ExportManifestDump.dumpId) :=
    hp.dumps.perm (fun _ _ h => h) hdumps
  constructor
  case customers => exact hp.customers.perm key_of_customerRecord hcustomers
  case cases => exact hp.cases.perm key_of_caseRecord hcases
  case grants =>
    refine Brought.perm (hp.grants.mono ?_) key_of_grantRecord ?_
    · rintro row ⟨g, hg, rfl⟩
      rw [grantRecord_grantImported]
      exact List.mem_map_of_mem hg
    · rw [hgrants, List.length_map]
  case dumps => exact hperm
  case skipped =>
    intro skipped hskipped
    rw [Table.find?_eq_none]
    intro row hrow hid
    have hdeclared := hperm.mem_iff.mp (List.mem_map_of_mem (f := DumpRow.dumpId) hrow)
    refine List.disjoint_of_nodup_append hvalid.unique hdeclared ?_
    rw [show row.dumpId = skipped.dumpId from hid]
    exact List.mem_map_of_mem hskipped

/-! ## The records of a bundle -/

theorem mem_of_readEach {α β : Type} {read : α → Except Thrown β} {as : List α} {bs : List β}
    (h : readEach read as = .ok bs) {b : β} (hb : b ∈ bs) : ∃ a ∈ as, read a = .ok b := by
  induction as generalizing bs with
  | nil =>
    cases h
    cases hb
  | cons a rest ih =>
    simp only [readEach, bind_eq_ok, pure_eq_ok] at h
    obtain ⟨b', hread, bs', hrest, rfl⟩ := h
    rcases List.mem_cons.mp hb with rfl | hb
    · exact ⟨a, List.mem_cons_self, hread⟩
    · obtain ⟨a', ha', hread'⟩ := ih hrest hb
      exact ⟨a', List.mem_cons_of_mem _ ha', hread'⟩

theorem numbered_of_read {conversions : Conversions}
    {applyMigrations : BundleDatabase → Except Thrown BundleDatabase} {version : Nat}
    {database : Except Thrown BundleDatabase} {rows : BundleRows}
    (h : readBundleLedger conversions applyMigrations version database = .ok rows) :
    Numbered rows := by
  rw [readBundleLedger, mapError_eq_ok] at h
  simp only [readBundleRows, bind_eq_ok, pure_eq_ok] at h
  obtain ⟨_, -, _, -, _, -, _, -, _, -, customers, hcustomers, _, -, _, -, _, -, grants, hgrants,
    _, -, _, -, _, -, _, -, rfl⟩ := h
  constructor
  · intro c hc
    obtain ⟨row, -, hread⟩ := mem_of_readEach hcustomers hc
    simp only [readCustomer, bind_eq_ok, pure_eq_ok] at hread
    obtain ⟨_, -, _, -, _, -, rfl⟩ := hread
    rfl
  · intro g hg
    obtain ⟨row, -, hread⟩ := mem_of_readEach hgrants hg
    simp only [readGrant, bind_eq_ok, pure_eq_ok] at hread
    obtain ⟨_, -, _, -, _, -, _, -, _, -, _, -, _, -, _, -, _, -, _, -, rfl⟩ := hread
    exact ⟨rfl, rfl⟩

theorem numbered_of_open {sha256 : Bytes → Sha256} {options : ImportBundleOptions}
    {bundle : OpenBundle} (h : openBundle sha256 options = .ok bundle) :
    Numbered bundle.rows := by
  simp only [openBundle, bind_eq_ok, pure_eq_ok] at h
  obtain ⟨_, -, _, -, _, -, _, -, _, -, _, -, _, -, _, -, _, -, _, -, rows, hrows, _, -, rfl⟩ := h
  exact numbered_of_read hrows

/-! ## The loops -/

/-- The phases that a completed import leaves. -/
def Settled (phase : DumpPhase) : Prop :=
  phase = .available ∨ phase = .rejected ∨ phase = .deleted

/-- The import is under way: each declared dump that was brought in is settled, and counted. -/
structure Underway (options : EngineOptions) (bundle : OpenBundle) (s : Importing) : Prop where
  began : s.session.phase = .began
  notClosed : s.session.closed = false
  progress : Progress options bundle s.session s.records
  settled : ∀ row ∈ s.records.dumps, Settled row.phase
  counted : s.counters.imported + s.counters.rejected = s.session.steppedDumps.length
  verified : s.counters.verified ≤ s.session.steppedDumps.length

section Loops

variable {options : EngineOptions} {hosts : Nat → Host} {bundle : OpenBundle} {s s' : Importing}

theorem RowBrought.underway (h : RowBrought options bundle s s')
    (hs : Underway options bundle s) : Underway options bundle s' where
  began := h.phase.trans hs.began
  notClosed := h.closed.trans hs.notClosed
  progress := h.progress hs.progress
  settled := by
    rw [h.dumps]
    exact hs.settled
  counted := by
    rw [h.counters, h.steppedDumps]
    exact hs.counted
  verified := by
    rw [h.counters, h.steppedDumps]
    exact hs.verified

theorem returns_count {f : Counters → Counters} {u : Unit} :
    Returns (count f) s u s' ↔ s' = { s with counters := f s.counters } :=
  returns_modify

/-- The rows after a dump was staged. -/
theorem StagedDump.progress {dumpId : DumpId} {disposition : ImportDumpDisposition}
    (h : StagedDump options bundle s s' dumpId disposition)
    (hp : Progress options bundle s.session s.records) :
    Progress options bundle s'.session s'.records ∧
      ∀ row ∈ s'.records.dumps, row ∈ s.records.dumps ∨
        row.dumpId = dumpId ∧ row.phase = disposition.phase := by
  obtain ⟨declared, b, row, hdeclared, -, hbrought⟩ := h.brought
  obtain ⟨hfree, hrecords⟩ := hbrought.records
  have hlisted : row.dumpId ∈ bundle.manifest.dumps.map ExportManifestDump.dumpId := by
    rw [hbrought.id, ← declaredDump_isSome, hdeclared]
    rfl
  have hrows (r : DumpRow) (hr : r ∈ s.machine.world.ledger.dumps.insert row hfree) :
      r ∈ s.records.dumps ∨ r = row := Table.mem_insert.mp hr
  unfold Importing.records
  rw [h.session, hrecords]
  refine ⟨⟨hp.customers, hp.cases, hp.grants, hp.dumps.insert hfree hlisted⟩, ?_⟩
  intro r hr
  rcases hrows r hr with hmem | rfl
  · exact Or.inl hmem
  · exact Or.inr ⟨hbrought.id, hbrought.phase⟩

theorem Progress.moved {v : SessionVariables} {r : Records} {dumpId : DumpId}
    {t : Table DumpRow} (hp : Progress options bundle v r) (hmoved : MovedAt dumpId r.dumps t) :
    Progress options bundle v { r with dumps := t } := by
  have hlength : t.rows.length = r.dumps.rows.length := by
    have hids := congrArg List.length hmoved.ids
    rwa [List.length_map, List.length_map] at hids
  refine ⟨hp.customers, hp.cases, hp.grants, ⟨hp.dumps.count.trans hlength.symm, ?_⟩⟩
  intro row hrow
  have hid : row.dumpId ∈ r.dumps.rows.map DumpRow.dumpId := by
    rw [← hmoved.ids]
    exact List.mem_map_of_mem hrow
  obtain ⟨row', hrow', heq⟩ := List.mem_map.mp hid
  show row.dumpId ∈ _
  rw [← heq]
  exact hp.dumps.source row' hrow'

/-- **The step of a dump**: it is settled and counted, or it was not declared. -/
theorem importDump_underway {row : BundleDumpRow} {u : Unit}
    (h : Returns (importDump options hosts bundle row) s u s') (hs : Underway options bundle s) :
    Underway options bundle s' := by
  unfold importDump at h
  split at h
  · obtain ⟨-, rfl⟩ := returns_pure.mp h
    exact hs
  · rw [returns_bind] at h
    obtain ⟨disposition, s₁, hstage, h⟩ := h
    have hstaged := stageDump_returns hs.notClosed hstage
    obtain ⟨hprogress, hrows⟩ := hstaged.progress hs.progress
    have hcounters := hstaged.counters
    have hsession := hstaged.session
    have hlength : s₁.session.steppedDumps.length = s.session.steppedDumps.length + 1 := by
      rw [hsession, List.length_cons]
    have hcounted := hs.counted
    have hverified := hs.verified
    -- a tombstone is counted as it is
    have htombstone (hphase : Settled disposition.phase) {f : Counters → Counters}
        (hcount : (f s₁.counters).imported + (f s₁.counters).rejected =
          s₁.counters.imported + s₁.counters.rejected + 1)
        (hverify : (f s₁.counters).verified = s₁.counters.verified)
        (hf : s' = { s₁ with counters := f s₁.counters }) : Underway options bundle s' := by
      subst hf
      refine ⟨?_, ?_, hprogress, ?_, ?_, ?_⟩
      · show s₁.session.phase = _
        rw [hsession]
        exact hs.began
      · show s₁.session.closed = _
        rw [hsession]
        exact hs.notClosed
      · intro r hr
        rcases hrows r hr with hmem | ⟨-, hr⟩
        · exact hs.settled r hmem
        · rw [hr]
          exact hphase
      · show (f s₁.counters).imported + (f s₁.counters).rejected = s₁.session.steppedDumps.length
        rw [hcount, hcounters, hlength, hcounted]
      · show (f s₁.counters).verified ≤ s₁.session.steppedDumps.length
        rw [hverify, hcounters, hlength]
        omega
    cases disposition with
    | staged =>
      dsimp only at h
      unfold completeImported at h
      simp only [returns_bind] at h
      obtain ⟨_, s₂, hcount, phase, s₃, hcomplete, h⟩ := h
      rw [returns_count] at hcount
      subst hcount
      obtain ⟨m', hm', rfl⟩ := returns_drive.mp hcomplete
      obtain ⟨hphase, hmoved⟩ := completeStaged_returns hm'
      obtain ⟨t, hrecords, hmovedAt, hnew⟩ := hmoved.records
      have hcount : ∃ c, s' = { s₁ with machine := m', counters := c } ∧
          c.imported + c.rejected = s₁.counters.imported + s₁.counters.rejected + 1 ∧
          c.verified = s₁.counters.verified + 1 := by
        rcases hphase with rfl | rfl
        · rw [if_pos rfl, returns_count] at h
          exact ⟨_, h, by dsimp only; omega, rfl⟩
        · rw [if_neg (by decide), returns_count] at h
          exact ⟨_, h, by dsimp only; omega, rfl⟩
      obtain ⟨c, rfl, himported, hverify⟩ := hcount
      refine ⟨?_, ?_, ?_, ?_, ?_, ?_⟩
      · show s₁.session.phase = _
        rw [hsession]
        exact hs.began
      · show s₁.session.closed = _
        rw [hsession]
        exact hs.notClosed
      · show Progress options bundle s₁.session (recordsOf m'.world.ledger)
        rw [hrecords]
        exact hprogress.moved hmovedAt
      · show ∀ r ∈ (recordsOf m'.world.ledger).dumps, _
        rw [hrecords]
        intro r hr
        by_cases hid : r.dumpId = row.dumpId
        · have hr' := hnew r hr hid
          unfold Settled
          rw [hr']
          rcases hphase with rfl | rfl <;> simp
        · rcases hrows r (hmovedAt.others r hr hid) with hmem | ⟨hr', -⟩
          · exact hs.settled r hmem
          · exact absurd hr' hid
      · show c.imported + c.rejected = s₁.session.steppedDumps.length
        rw [himported, hcounters, hlength, hcounted]
      · show c.verified ≤ s₁.session.steppedDumps.length
        rw [hverify, hcounters, hlength]
        omega
    | mismatch =>
      exact htombstone (Or.inr (Or.inl rfl)) (by dsimp only; omega) rfl (returns_count.mp h)
    | tombstoneRejected =>
      exact htombstone (Or.inr (Or.inl rfl)) (by dsimp only; omega) rfl (returns_count.mp h)
    | tombstoneDeleted =>
      exact htombstone (Or.inr (Or.inr rfl)) (by dsimp only; omega) rfl (returns_count.mp h)

/-- The session, from its start to its end, on a ledger that was empty. -/
theorem importRows_returns (hvalid : bundle.manifest.Valid) (hnumbered : Numbered bundle.rows)
    {m : Machine} {u : Unit}
    (h : Returns (importRows options hosts bundle) ⟨m, {}, {}⟩ u s') :
    m.world.ledger.isEmpty = true ∧
      Complete options bundle s'.machine.world.ledger ∧
        (∀ row ∈ s'.machine.world.ledger.dumps, Settled row.phase) ∧
          s'.counters.imported + s'.counters.rejected = bundle.manifest.dumps.length ∧
            s'.counters.verified ≤ bundle.manifest.dumps.length := by
  unfold importRows at h
  simp only [returns_bind] at h
  obtain ⟨_, s₁, hskipped, _, s₂, hbegin, _, s₃, hcustomers, _, s₄, hcases, _, s₅, hgrants,
    symbols, s₆, hsymbols, _, s₇, hcount, _, s₈, hdumps, hfinish⟩ := h
  rw [returns_count] at hskipped hcount
  subst hskipped
  subst hcount
  obtain ⟨-, hempty, hquiet, -, hcounters, importId, hsession⟩ := beginStep_returns hbegin
  -- nothing was brought in so far
  have hbegun : Underway options bundle s₂ := by
    have hrecords : s₂.records = recordsOf m.world.ledger := hquiet.records
    have hnone := hempty
    unfold SqliteLedger.isEmpty at hnone
    simp only [Bool.and_eq_true] at hnone
    obtain ⟨⟨⟨hc, hca⟩, hg⟩, hd⟩ := hnone
    have hrows {ρ κ : Type} [DecidableEq κ] [Keyed ρ κ] {t : Table ρ} {source : ρ → Prop}
        (ht : t.isEmpty = true) : Brought 0 t source := by
      have hnot := Table.isEmpty_iff.mp ht
      refine ⟨?_, fun row hrow => absurd hrow (hnot row)⟩
      rw [List.eq_nil_iff_forall_not_mem.mpr hnot]
      rfl
    constructor
    case began => rw [hsession]
    case notClosed => rw [hsession]
    case progress =>
      rw [hsession, hrecords]
      exact ⟨hrows hc, hrows hca, hrows hg, hrows hd⟩
    case settled =>
      rw [hrecords]
      exact fun row hrow => absurd hrow (Table.isEmpty_iff.mp hd row)
    case counted => rw [hcounters, hsession]; rfl
    case verified => rw [hcounters, hsession]; exact Nat.le_refl _
  have hafter₃ := returns_forEach _ hcustomers (fun _ s => Underway options bundle s) hbegun
    fun _ _ _ _ _ _ hs hstep => (importCustomer_brought hnumbered hstep).underway hs
  have hafter₄ := returns_forEach _ hcases (fun _ s => Underway options bundle s) hafter₃
    fun _ _ _ _ _ _ hs hstep => (importCase_brought hstep).underway hs
  have hafter₅ := returns_forEach _ hgrants (fun _ s => Underway options bundle s) hafter₄
    fun _ _ _ _ _ _ hs hstep => (importGrant_brought hnumbered hstep).underway hs
  obtain ⟨-, hquiet₆, hcounters₆, imported, hsession₆⟩ := importSymbols_returns hsymbols
  have hafter₆ : Underway options bundle
      { s₆ with counters := { s₆.counters with symbols } } := by
    have hrecords₆ : s₆.records = s₅.records := hquiet₆.records
    constructor
    case began => dsimp only; rw [hsession₆]; exact hafter₅.began
    case notClosed => dsimp only; rw [hsession₆]; exact hafter₅.notClosed
    case progress =>
      show Progress options bundle s₆.session s₆.records
      rw [hsession₆, hrecords₆]
      have hp := hafter₅.progress
      exact ⟨hp.customers, hp.cases, hp.grants, hp.dumps⟩
    case settled =>
      show ∀ row ∈ s₆.records.dumps, Settled row.phase
      rw [hrecords₆]
      exact hafter₅.settled
    case counted => dsimp only; rw [hcounters₆, hsession₆]; exact hafter₅.counted
    case verified => dsimp only; rw [hcounters₆, hsession₆]; exact hafter₅.verified
  have hafter₈ := returns_forEach _ hdumps (fun _ s => Underway options bundle s) hafter₆
    fun _ _ _ _ _ _ hs hstep => importDump_underway hstep hs
  obtain ⟨-, hall, hquiet', -, hcounters'⟩ := finish_returns hfinish
  have hsteps : s₈.session.steppedDumps.length = bundle.manifest.dumps.length := by
    have hids : (bundle.manifest.dumps.map ExportManifestDump.dumpId).Nodup :=
      (List.nodup_append.mp hvalid.unique).1
    unfold allStepped at hall
    simp only [Bool.and_eq_true, decide_eq_true_eq] at hall
    rw [hall.2, hids.dedup, List.length_map]
  refine ⟨hempty, complete_of_allStepped hvalid ?_ hall, ?_, ?_, ?_⟩
  · rw [hquiet'.records]
    exact hafter₈.progress
  · show ∀ row ∈ (recordsOf s'.machine.world.ledger).dumps, _
    rw [hquiet'.records]
    exact hafter₈.settled
  · rw [hcounters', hafter₈.counted, hsteps]
  · rw [hcounters', ← hsteps]
    exact hafter₈.verified

end Loops

/-- **A finished import is complete**: every customer, case and grant of the bundle and every
declared dump is in the target exactly once, each dump settled and counted once, and no skipped
dump is there. Grants that were issued under another key are revoked. -/
theorem finished_import_complete {options : EngineOptions} {hosts : Nat → Host}
    {bundleOptions : ImportBundleOptions} {m : Machine}
    (h : (importBundle options hosts bundleOptions m).1.status = .finished) :
    ∃ bundle, openBundle options.digests.sha256 bundleOptions = .ok bundle ∧
      Complete options bundle (importBundle options hosts bundleOptions m).2.world.ledger ∧
        (∀ row ∈ (importBundle options hosts bundleOptions m).2.world.ledger.dumps,
          Settled row.phase) ∧
          (importBundle options hosts bundleOptions m).1.counters.imported +
              (importBundle options hosts bundleOptions m).1.counters.rejected =
            bundle.manifest.dumps.length ∧
            (importBundle options hosts bundleOptions m).1.counters.verified ≤
              bundle.manifest.dumps.length := by
  unfold importBundle at h ⊢
  dsimp only at h ⊢
  generalize hrun : runImport options hosts bundleOptions ⟨m, {}, {}⟩ = out at h ⊢
  obtain ⟨result, s'⟩ := out
  cases result with
  | error e => cases h
  | ok u =>
    have hreturns : Returns (runImport options hosts bundleOptions) ⟨m, {}, {}⟩ u s' := hrun
    unfold runImport at hreturns
    rw [returns_bind] at hreturns
    obtain ⟨bundle, s₁, hopen, hrows⟩ := hreturns
    rw [openImportSession, returns_lift] at hopen
    obtain ⟨hopen, rfl⟩ := hopen
    obtain ⟨-, ⟨bytes, hparse⟩, -⟩ := openBundle_eq_ok hopen
    obtain ⟨-, hcomplete, hsettled, hcounted, hverified⟩ :=
      importRows_returns (valid_of_parse hparse) (numbered_of_open hopen) hrows
    exact ⟨bundle, hopen, hcomplete, hsettled, hcounted, hverified⟩

/-- The small bundle is imported: the inspector rejects its one dump, the other was deleted. -/
theorem finished_import_sample : ∃ archive bundle,
    openBundle Sample.sha256 (Sample.importOptions [Sample.available, Sample.deleted] archive) =
      .ok bundle ∧
    Complete Sample.options bundle
      (importBundle Sample.options Sample.hosts
        (Sample.importOptions [Sample.available, Sample.deleted] archive)
        ⟨World.fresh, 0⟩).2.world.ledger := by
  obtain ⟨archive, bundle, hopen, hsame⟩ := Sample.opens_true
  have hdone : (importRows Sample.options Sample.hosts
      (Sample.standIn [Sample.available, Sample.deleted] [77, 68, 77, 80])
      ⟨⟨World.fresh, 0⟩, {}, {}⟩).1.isOk = true := by
    decide +kernel
  have hfinished := @finished_of_open Sample.options _ _ _ _ _ hopen hsame hdone
  obtain ⟨found, hfound, hcomplete, -⟩ := finished_import_complete hfinished
  exact ⟨archive, found, hfound, hcomplete⟩

end DumpLedger.ImportSession
