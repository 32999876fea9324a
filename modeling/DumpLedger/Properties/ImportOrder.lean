import DumpLedger.Properties.FinishedImport

/-!
# The order of the steps does not matter

A finished session has brought in all rows of its bundle, each with the columns that the bundle
has. So two sessions that were finished have the same rows, whatever the order of their steps and
whatever the hosts answered, and the same bytes are staged.

* `Laid` — the invariant of the steps, with the bytes of each dump
* `mem_customers_iff` and its like — the rows of a finished session, read off the bundle
* `import_order` — two finished sessions agree
-/

namespace DumpLedger.ImportSession

open Lib Vocabulary Prog

/-! ## A record determines its row -/

theorem customerRecord_injective : Function.Injective customerRecord := by
  intro r r' h
  unfold customerRecord at h
  simp only [ImportCustomerRecord.mk.injEq, Option.some.injEq, JsNumber.int.injEq,
    Nat.cast_inj] at h
  obtain ⟨hid, hname, hcreated, hno⟩ := h
  cases r
  cases r'
  simp only [CustomerRow.mk.injEq]
  exact ⟨CustomerId.ext hid, BoundedText.ext hname, IsoTimestamp.ext hcreated, hno⟩

theorem caseRecord_injective : Function.Injective caseRecord := by
  intro r r' h
  unfold caseRecord at h
  simp only [ImportCaseRecord.mk.injEq] at h
  obtain ⟨hid, hcustomer, htitle, hstatus, hcreated⟩ := h
  cases r
  cases r'
  simp only [CaseRow.mk.injEq]
  exact ⟨Identifier.ext hid, CustomerId.ext hcustomer, BoundedText.ext htitle,
    text_injective hstatus, IsoTimestamp.ext hcreated⟩

theorem map_text_injective {kind : String} :
    Function.Injective (Option.map fun id : Identifier kind => id.text) :=
  Option.map_injective fun _ _ h => Identifier.ext h

theorem grantRecord_injective : Function.Injective grantRecord := by
  intro r r' h
  unfold grantRecord at h
  simp only [ImportGrantRecord.mk.injEq, Option.some.injEq, JsNumber.int.injEq, Nat.cast_inj,
    PNat.coe_inj] at h
  obtain ⟨hid, hcase, hdigest, hstate, hexpires, hbytes, hmax, hused, hconsumed, hcreated⟩ := h
  cases r
  cases r'
  simp only [GrantRow.mk.injEq]
  exact ⟨Identifier.ext hid, Identifier.ext hcase, BoundedText.ext hdigest, text_injective hstate,
    IsoTimestamp.ext hexpires, hbytes, hmax, hused, map_text_injective hconsumed,
    IsoTimestamp.ext hcreated⟩

/-- The record of a dump lacks two columns. -/
theorem dumpRow_ext {d d' : DumpRow} (h : dumpRecord d = dumpRecord d')
    (hblob : d.blobState = d'.blobState) (hdownload : d.downloadable = d'.downloadable) :
    d = d' := by
  unfold dumpRecord at h
  simp only [ImportDumpRecord.mk.injEq] at h
  obtain ⟨hid, hcase, hphase, hname, hsize, hsha, hvalidation, hcoverage, herror, hfacts, hreceived,
    havailable, hpurge, hpurged⟩ := h
  have hiso : Function.Injective (Option.map IsoTimestamp.text) :=
    Option.map_injective fun _ _ => IsoTimestamp.ext
  cases d
  cases d'
  simp only [DumpRow.mk.injEq]
  exact ⟨Identifier.ext hid, Identifier.ext hcase, text_injective hphase, hblob,
    BoundedText.ext hname, Option.map_injective (fun _ _ hn => Int.ofNat_inj.mp hn) hsize,
    Option.map_injective (fun _ _ => Sha256.ext) hsha, text_injective hvalidation,
    Option.map_injective (fun _ _ => text_injective) hcoverage, hdownload, herror, hfacts,
    IsoTimestamp.ext hreceived, hiso havailable, hiso hpurge, hiso hpurged⟩

/-! ## The steps -/

/-- What the rows and the staged bytes have come to when the variables are these. -/
structure Laid (options : EngineOptions) (bundle : OpenBundle) (v : SessionVariables)
    (m : Machine) : Prop where
  progress : Progress options bundle v (recordsOf m.world.ledger)
  dumps : ∀ row ∈ m.world.ledger.dumps, ∃ bytes,
    ImportedAs options.digests.sha256 bundle row bytes ∧
      StagingIs m.world.vaults.dumps row.dumpId bytes
  others : ∀ d, m.world.ledger.dumps.find? d = none →
    m.world.vaults.dumps.staging.find? d = none
  objects : ∀ d, m.world.vaults.dumps.objects.find? d = none

/-- The steps of a session between its begin and its end. -/
inductive SessionCall.IsStep : SessionCall → Prop
  | importCustomer (customerId : String) : IsStep (.importCustomer customerId)
  | importCase (caseId : String) : IsStep (.importCase caseId)
  | importGrant (grantId : String) : IsStep (.importGrant grantId)
  | stageDump (dumpId : DumpId) : IsStep (.stageDump dumpId)
  | importSymbols : IsStep .importSymbols

theorem stagingIs_congr {s s' : ObjectStore DumpId} {d : DumpId} {bytes : Option Bytes}
    (h : s'.staging.find? d = s.staging.find? d) : StagingIs s' d bytes ↔ StagingIs s d bytes := by
  cases bytes with
  | none =>
    unfold StagingIs
    rw [h]
  | some bytes =>
    unfold StagingIs
    simp only [h]

section Steps

variable {options : EngineOptions} {hosts : Nat → Host} {bundle : OpenBundle} {s s' : Importing}

theorem Laid.of_quiet {v v' : SessionVariables} {m m' : Machine} (hs : Laid options bundle v m)
    (hq : Quiet m m') (hp : Progress options bundle v' (recordsOf m.world.ledger)) :
    Laid options bundle v' m' := by
  have hdumps : m'.world.ledger.dumps = m.world.ledger.dumps := congrArg Records.dumps hq.records
  constructor
  case progress => rwa [hq.records]
  case dumps =>
    intro row hrow
    rw [hdumps] at hrow
    obtain ⟨bytes, himported, hstaging⟩ := hs.dumps row hrow
    exact ⟨bytes, himported, (stagingIs_congr (hq.dumps row.dumpId).1).mpr hstaging⟩
  case others =>
    intro d hd
    rw [hdumps] at hd
    exact (hq.dumps d).1.trans (hs.others d hd)
  case objects => exact fun d => (hq.dumps d).2.trans (hs.objects d)

theorem RowBrought.laid (h : RowBrought options bundle s s')
    (hs : Laid options bundle s.session s.machine) :
    Laid options bundle s'.session s'.machine := by
  have hdumps : s'.machine.world.ledger.dumps = s.machine.world.ledger.dumps := h.dumps
  constructor
  case progress => exact h.progress hs.progress
  case dumps =>
    rw [hdumps, h.vaults]
    exact hs.dumps
  case others =>
    rw [hdumps, h.vaults]
    exact hs.others
  case objects =>
    rw [h.vaults]
    exact hs.objects

/-- A dump that was staged has the columns and the bytes of the bundle. -/
theorem StagedDump.laid {dumpId : DumpId} {disposition : ImportDumpDisposition}
    (h : StagedDump options bundle s s' dumpId disposition)
    (hs : Laid options bundle s.session s.machine) :
    Laid options bundle s'.session s'.machine := by
  obtain ⟨hprogress, -⟩ := h.progress hs.progress
  obtain ⟨declared, b, row, hdeclared, hfirst, hbrought⟩ := h.brought
  obtain ⟨hfree, hrecords⟩ := hbrought.records
  obtain ⟨hcolumns, hblob, hdownload⟩ := hbrought.columns
  have hid := hbrought.id
  subst hid
  have hdumps : s'.machine.world.ledger.dumps = s.machine.world.ledger.dumps.insert row hfree :=
    congrArg Records.dumps hrecords
  have hrows (r : DumpRow) : r ∈ s.machine.world.ledger.dumps.insert row hfree ↔
      r ∈ s.machine.world.ledger.dumps ∨ r = row := Table.mem_insert
  have hnone := hs.others row.dumpId hfree
  constructor
  case progress => exact hprogress
  case dumps =>
    intro r hr
    rw [hdumps, hrows] at hr
    rcases hr with hr | rfl
    · have hne : r.dumpId ≠ row.dumpId := Table.find?_eq_none.mp hfree r hr
      obtain ⟨bytes, himported, hstaging⟩ := hs.dumps r hr
      exact ⟨bytes, himported, (stagingIs_congr (hbrought.others.others _ hne)).mpr hstaging⟩
    · refine ⟨_, ⟨declared, b, hdeclared, hfirst, ?_, hdownload⟩, hbrought.staging hnone⟩
      rw [← hcolumns, ← hblob]
  case others =>
    intro d hd
    rw [hdumps, Table.find?_eq_none] at hd
    have hne : d ≠ row.dumpId := fun he => hd row ((hrows row).mpr (Or.inr rfl)) he.symm
    rw [hbrought.others.others d hne]
    refine hs.others d (Table.find?_eq_none.mpr fun r hr => ?_)
    exact hd r ((hrows r).mpr (Or.inl hr))
  case objects =>
    intro d
    rw [hbrought.others.objects]
    exact hs.objects d

/-- Only the symbols are brought into the symbol vault. -/
theorem perform_symbols (hnumbered : Numbered bundle.rows) {call : SessionCall}
    (hcall : call.IsStep) (hne : call ≠ .importSymbols) {u : Unit}
    (h : Returns (perform options hosts bundle call) s u s') (hopen : s.session.closed = false) :
    s'.machine.world.vaults.symbols = s.machine.world.vaults.symbols := by
  cases hcall with
  | importCustomer =>
    rw [(importCustomer_brought hnumbered h).vaults]
  | importCase =>
    rw [(importCase_brought h).vaults]
  | importGrant =>
    rw [(importGrant_brought hnumbered h).vaults]
  | stageDump dumpId =>
    unfold perform at h
    simp only [returns_bind, returns_pure] at h
    obtain ⟨disposition, s₁, hstage, -, rfl⟩ := h
    obtain ⟨_, _, row, -, -, hbrought⟩ := (stageDump_returns hopen hstage).brought
    exact hbrought.others.symbols
  | importSymbols => exact absurd rfl hne

/-- A step keeps the session open for the next one, and what was laid. -/
theorem perform_laid (hnumbered : Numbered bundle.rows) {call : SessionCall} (hcall : call.IsStep)
    {u : Unit} (h : Returns (perform options hosts bundle call) s u s')
    (hopen : s.session.closed = false) (hs : Laid options bundle s.session s.machine) :
    s'.session.closed = false ∧ Laid options bundle s'.session s'.machine := by
  cases hcall with
  | importCustomer =>
    have hbrought := importCustomer_brought hnumbered h
    exact ⟨hbrought.closed.trans hopen, hbrought.laid hs⟩
  | importCase =>
    have hbrought := importCase_brought h
    exact ⟨hbrought.closed.trans hopen, hbrought.laid hs⟩
  | importGrant =>
    have hbrought := importGrant_brought hnumbered h
    exact ⟨hbrought.closed.trans hopen, hbrought.laid hs⟩
  | stageDump dumpId =>
    unfold perform at h
    simp only [returns_bind, returns_pure] at h
    obtain ⟨disposition, s₁, hstage, -, rfl⟩ := h
    have hstaged := stageDump_returns hopen hstage
    refine ⟨?_, hstaged.laid hs⟩
    rw [hstaged.session]
    exact hopen
  | importSymbols =>
    unfold perform at h
    simp only [returns_bind, returns_pure] at h
    obtain ⟨n, s₁, hsymbols, -, rfl⟩ := h
    obtain ⟨-, hquiet, -, imported, hsession⟩ := importSymbols_returns hsymbols
    rw [hsession]
    have hp := hs.progress
    exact ⟨hopen, hs.of_quiet hquiet ⟨hp.customers, hp.cases, hp.grants, hp.dumps⟩⟩

end Steps

/-! ## Sessions that were finished -/

/-- The calls of a session: a begin, steps in some order, and the end. -/
def sessionRun (options : EngineOptions) (hosts : Nat → Host) (bundle : OpenBundle)
    (calls : List SessionCall) : Step Unit :=
  Prog.forEach (perform options hosts bundle) (.begin :: calls ++ [.finish])

section Finished

variable {options : EngineOptions} {hosts : Nat → Host} {bundle : OpenBundle} {s' : Importing}

/-- **A finished session** has all rows, and all staged bytes, as the bundle has them. -/
theorem sessionRun_returns (hvalid : bundle.manifest.Valid) (hnumbered : Numbered bundle.rows)
    {calls : List SessionCall} (hcalls : ∀ c ∈ calls, c.IsStep) {n : Nat} {u : Unit}
    (h : Returns (sessionRun options hosts bundle calls) ⟨⟨World.fresh, n⟩, {}, {}⟩ u s') :
    Complete options bundle s'.machine.world.ledger ∧
      (∃ v, Laid options bundle v s'.machine) ∧
        (.importSymbols ∉ calls → s'.machine.world.vaults.symbols = .empty) := by
  unfold sessionRun at h
  rw [List.cons_append] at h
  simp only [forEach, returns_bind, returns_forEach_append, returns_pure] at h
  obtain ⟨_, s₁, hbegin, s₂, hsteps, _, s₃, hfinish, -, rfl⟩ := h
  obtain ⟨-, -, hquiet, hvaults, -, importId, hsession⟩ := beginStep_returns hbegin
  -- nothing was brought in so far
  have hlaid₁ : Laid options bundle s₁.session s₁.machine := by
    have hfresh : Laid options bundle s₁.session ⟨World.fresh, n⟩ :=
      ⟨progress_fresh _ _ _ (by rw [hsession]; exact ⟨rfl, rfl, rfl, rfl⟩),
        fun row hrow => absurd hrow Table.not_mem_empty, fun _ _ => rfl, fun _ => rfl⟩
    exact hfresh.of_quiet hquiet hfresh.progress
  have hlaid₂ := returns_forEach _ hsteps
    (fun done s => (s.session.closed = false ∧ Laid options bundle s.session s.machine) ∧
      (.importSymbols ∉ done → s.machine.world.vaults.symbols = .empty))
    ⟨⟨by rw [hsession], hlaid₁⟩, fun _ => by rw [hvaults]; rfl⟩
    (fun done c rest s s' hc hs hstep => by
      have hcall := hcalls c (by rw [hc]; simp)
      refine ⟨perform_laid hnumbered hcall hstep hs.1.1 hs.1.2, fun hnot => ?_⟩
      rw [List.mem_append, List.mem_singleton, not_or] at hnot
      rw [perform_symbols hnumbered hcall (Ne.symm hnot.2) hstep hs.1.1]
      exact hs.2 hnot.1)
  obtain ⟨-, hall, hquiet', hvaults', -⟩ := finish_returns hfinish
  have hlaid₃ := hlaid₂.1.2.of_quiet hquiet' hlaid₂.1.2.progress
  refine ⟨complete_of_allStepped hvalid hlaid₃.progress hall, ⟨_, hlaid₃⟩, fun hnot => ?_⟩
  rw [hvaults']
  exact hlaid₂.2 hnot

end Finished

/-- A table whose records are those of a list has the rows of these records. -/
theorem mem_iff_of_perm {ρ κ α : Type} [DecidableEq κ] [Keyed ρ κ] {t : Table ρ} {record : ρ → α}
    {records : List α} (hinj : Function.Injective record) (h : (t.rows.map record).Perm records)
    {r : ρ} : r ∈ t ↔ record r ∈ records := by
  rw [← h.mem_iff, List.mem_map]
  constructor
  · intro hr
    exact ⟨r, hr, rfl⟩
  · rintro ⟨r', hr', heq⟩
    rw [← hinj heq]
    exact hr'

/-- The bundle has one row, and one content, for an identifier. -/
theorem ImportedAs.unique {sha256 : Bytes → Sha256} {bundle : OpenBundle} {row row' : DumpRow}
    {bytes bytes' : Option Bytes} (h : ImportedAs sha256 bundle row bytes)
    (h' : ImportedAs sha256 bundle row' bytes') (hid : row.dumpId = row'.dumpId) :
    row = row' ∧ bytes = bytes' := by
  obtain ⟨declared, b, hdeclared, hfirst, himported, hdownload⟩ := h
  obtain ⟨declared', b', hdeclared', hfirst', himported', hdownload'⟩ := h'
  rw [hid] at hdeclared hfirst
  rw [hdeclared] at hdeclared'
  cases hdeclared'
  rw [hfirst] at hfirst'
  cases hfirst'
  have heq := himported.symm.trans himported'
  simp only [Prod.mk.injEq] at heq
  obtain ⟨hrecord, hblob, hbytes⟩ := heq
  exact ⟨dumpRow_ext hrecord hblob (hdownload.trans hdownload'.symm), hbytes⟩

/-- The rows of two targets are the same, and so are the bytes that their vaults have for dumps. -/
structure SameTarget (w w' : World) : Prop where
  customers : w.ledger.customers.sorted = w'.ledger.customers.sorted
  cases : w.ledger.cases.sorted = w'.ledger.cases.sorted
  grants : w.ledger.grants.sorted = w'.ledger.grants.sorted
  dumps : w.ledger.dumps.sorted = w'.ledger.dumps.sorted
  staged : ∀ d, (w.vaults.dumps.staging.find? d).map (fun f => (f.isOpen, f.bytes)) =
    (w'.vaults.dumps.staging.find? d).map fun f => (f.isOpen, f.bytes)
  objects : ∀ d, w.vaults.dumps.objects.find? d = w'.vaults.dumps.objects.find? d

section Same

variable {options : EngineOptions} {bundle : OpenBundle} {v v' : SessionVariables}
  {m m' : Machine}

theorem mem_dumps_of_laid (hc : Complete options bundle m.world.ledger)
    (hl : Laid options bundle v m) (hc' : Complete options bundle m'.world.ledger)
    (hl' : Laid options bundle v' m') {row : DumpRow} (hrow : row ∈ m.world.ledger.dumps) :
    row ∈ m'.world.ledger.dumps := by
  have hid : row.dumpId ∈ m'.world.ledger.dumps.rows.map DumpRow.dumpId := by
    rw [hc'.dumps.mem_iff, ← hc.dumps.mem_iff]
    exact List.mem_map_of_mem hrow
  obtain ⟨row', hrow', heq⟩ := List.mem_map.mp hid
  obtain ⟨bytes, himported, -⟩ := hl.dumps row hrow
  obtain ⟨bytes', himported', -⟩ := hl'.dumps row' hrow'
  rw [(himported.unique himported' heq.symm).1]
  exact hrow'

theorem content_of_stagingIs {s : ObjectStore DumpId} {d : DumpId} {bytes : Option Bytes}
    (h : StagingIs s d bytes) :
    (s.staging.find? d).map (fun f => (f.isOpen, f.bytes)) = bytes.map fun b => (false, b) := by
  cases bytes with
  | none =>
    rw [show s.staging.find? d = none from h]
    rfl
  | some bytes =>
    obtain ⟨f, hf, hclosed, rfl⟩ := h
    rw [hf, Option.map_some, hclosed]
    rfl

theorem sameTarget_of_laid (hc : Complete options bundle m.world.ledger)
    (hl : Laid options bundle v m) (hc' : Complete options bundle m'.world.ledger)
    (hl' : Laid options bundle v' m') : SameTarget m.world m'.world := by
  have hdumps (row : DumpRow) : row ∈ m.world.ledger.dumps ↔ row ∈ m'.world.ledger.dumps :=
    ⟨mem_dumps_of_laid hc hl hc' hl', mem_dumps_of_laid hc' hl' hc hl⟩
  constructor
  case customers =>
    refine Table.sorted_eq_of_mem_iff fun r => ?_
    rw [mem_iff_of_perm customerRecord_injective hc.customers,
      mem_iff_of_perm customerRecord_injective hc'.customers]
  case cases =>
    refine Table.sorted_eq_of_mem_iff fun r => ?_
    rw [mem_iff_of_perm caseRecord_injective hc.cases,
      mem_iff_of_perm caseRecord_injective hc'.cases]
  case grants =>
    refine Table.sorted_eq_of_mem_iff fun r => ?_
    rw [mem_iff_of_perm grantRecord_injective hc.grants,
      mem_iff_of_perm grantRecord_injective hc'.grants]
  case dumps => exact Table.sorted_eq_of_mem_iff hdumps
  case staged =>
    intro d
    cases hd : m.world.ledger.dumps.find? d with
    | none =>
      have hd' : m'.world.ledger.dumps.find? d = none := by
        rw [Table.find?_eq_none] at hd ⊢
        exact fun row hrow => hd row ((hdumps row).mpr hrow)
      rw [hl.others d hd, hl'.others d hd']
    | some row =>
      obtain ⟨hrow, rfl⟩ := Table.find?_eq_some.mp hd
      obtain ⟨bytes, himported, hstaging⟩ := hl.dumps row hrow
      obtain ⟨bytes', himported', hstaging'⟩ := hl'.dumps row ((hdumps row).mp hrow)
      rw [show key row = row.dumpId from rfl, content_of_stagingIs hstaging, content_of_stagingIs hstaging',
        (himported.unique himported' rfl).2]
  case objects => exact fun d => (hl.objects d).trans (hl'.objects d).symm

end Same

/-- **The order of the steps does not matter**: two sessions over one bundle that were finished,
each on a fresh target, have the same rows and the same bytes, whatever steps they made in which
order, and whatever their hosts answered. Artifacts of symbols get new identifiers each time. -/
theorem import_order {options : EngineOptions} {bundleOptions : ImportBundleOptions}
    {bundle : OpenBundle} (hopen : openBundle options.digests.sha256 bundleOptions = .ok bundle)
    {hosts hosts' : Nat → Host} {calls calls' : List SessionCall} (hcalls : ∀ c ∈ calls, c.IsStep)
    (hcalls' : ∀ c ∈ calls', c.IsStep) {n n' : Nat} {u u' : Unit} {s s' : Importing}
    (h : Returns (sessionRun options hosts bundle calls) ⟨⟨World.fresh, n⟩, {}, {}⟩ u s)
    (h' : Returns (sessionRun options hosts' bundle calls') ⟨⟨World.fresh, n'⟩, {}, {}⟩ u' s') :
    SameTarget s.machine.world s'.machine.world ∧
      (.importSymbols ∉ calls → .importSymbols ∉ calls' →
        s.machine.world.vaults.symbols = s'.machine.world.vaults.symbols) := by
  obtain ⟨-, ⟨bytes, hparse⟩, -⟩ := openBundle_eq_ok hopen
  have hvalid := valid_of_parse hparse
  have hnumbered := numbered_of_open hopen
  obtain ⟨hcomplete, ⟨v, hlaid⟩, hsymbols⟩ := sessionRun_returns hvalid hnumbered hcalls h
  obtain ⟨hcomplete', ⟨v', hlaid'⟩, hsymbols'⟩ := sessionRun_returns hvalid hnumbered hcalls' h'
  refine ⟨sameTarget_of_laid hcomplete hlaid hcomplete' hlaid', fun hnot hnot' => ?_⟩
  rw [hsymbols hnot, hsymbols' hnot']

namespace Sample

/-- The rows of the small bundle, and then its dumps. -/
def rowCalls (dumpIds : List DumpId) : List SessionCall :=
  [.importCustomer customer.customerId.text, .importCase caseRow.caseId.text] ++
    dumpIds.map .stageDump

theorem isStep_rowCalls (dumpIds : List DumpId) : ∀ c ∈ rowCalls dumpIds, c.IsStep := by
  intro c hc
  rcases List.mem_append.mp hc with hc | hc
  · rcases List.mem_pair.mp hc with rfl | rfl
    · exact .importCustomer _
    · exact .importCase _
  · obtain ⟨dumpId, -, rfl⟩ := List.mem_map.mp hc
    exact .stageDump dumpId

/-- A session over the small bundle. -/
def rowSession (dumpIds : List DumpId) : Except Thrown Unit × Importing :=
  sessionRun options hosts (standIn [available, deleted] [77, 68, 77, 80]) (rowCalls dumpIds)
    ⟨⟨World.fresh, 0⟩, {}, {}⟩

theorem returns_rowSession {bundle : OpenBundle}
    (hsame : SameContent bundle (standIn [available, deleted] [77, 68, 77, 80]))
    {dumpIds : List DumpId} (hdone : (rowSession dumpIds).1.isOk = true) :
    Returns (sessionRun options hosts bundle (rowCalls dumpIds)) ⟨⟨World.fresh, 0⟩, {}, {}⟩ ()
      (rowSession dumpIds).2 := by
  have hrun : sessionRun options hosts bundle (rowCalls dumpIds) ⟨⟨World.fresh, 0⟩, {}, {}⟩ =
      rowSession dumpIds := by
    have hperform : perform options hosts bundle =
        perform options hosts (standIn [available, deleted] [77, 68, 77, 80]) :=
      funext (perform_congr hsame)
    unfold rowSession sessionRun
    rw [hperform]
  unfold Returns
  rw [hrun]
  cases hresult : (rowSession dumpIds).1 with
  | error e =>
    rw [hresult] at hdone
    cases hdone
  | ok u => exact Prod.ext hresult rfl

end Sample

/-- The dumps of the small bundle, in both orders. -/
theorem import_order_sample :
    SameTarget (Sample.rowSession [Sample.availableId, Sample.deletedId]).2.machine.world
      (Sample.rowSession [Sample.deletedId, Sample.availableId]).2.machine.world := by
  obtain ⟨archive, bundle, hopen, hsame⟩ := Sample.opens_true
  have hfirst := Sample.returns_rowSession hsame
    (by decide +kernel : (Sample.rowSession [Sample.availableId, Sample.deletedId]).1.isOk = true)
  have hsecond := Sample.returns_rowSession hsame
    (by decide +kernel : (Sample.rowSession [Sample.deletedId, Sample.availableId]).1.isOk = true)
  have hsteps := Sample.isStep_rowCalls
  exact (@import_order Sample.options _ _ hopen _ _ _ _ (hsteps _) (hsteps _) _ _ _ _ _ _ hfirst
    hsecond).1

end DumpLedger.ImportSession
