import DumpLedger.Properties.BundleAcceptance
import DumpLedger.Properties.ImportSteps

/-!
# How far an import has come

The steps of a session may be called in any order. What has been brought in so far is counted by
the variables of the session, and every row of the target is one of the bundle.

* `Progress` — the invariant
* `importCustomer_brought` and its like — a step that returned has gone one row further
* `stageDump_returns` — the row of a dump, and its bytes, as the bundle has them
-/

namespace DumpLedger.ImportSession

open Lib Vocabulary Prog

/-! ## Programs of an import -/

section Programs

variable {options : EngineOptions} {hosts : Nat → Host} {m m' : Machine} {s s' : Importing}

theorem returns_drive {α : Type} {x : Driver α} {a : α} :
    Returns (drive x) s a s' ↔ ∃ m', Returns x s.machine a m' ∧ s' = { s with machine := m' } := by
  unfold Returns drive
  rcases x s.machine with ⟨_ | b, m₁⟩
  · simp
  · simp only [Prod.mk.injEq, Except.ok.injEq]
    constructor
    · rintro ⟨rfl, rfl⟩
      exact ⟨m₁, ⟨rfl, rfl⟩, rfl⟩
    · rintro ⟨m', ⟨rfl, rfl⟩, rfl⟩
      exact ⟨rfl, rfl⟩

theorem returns_getSession {v : SessionVariables} :
    Returns getSession s v s' ↔ v = s.session ∧ s' = s := by
  rw [getSession, returns_gets]
  exact and_congr eq_comm eq_comm

theorem returns_setSession {f : SessionVariables → SessionVariables} {u : Unit} :
    Returns (setSession f) s u s' ↔ s' = { s with session := f s.session } :=
  returns_modify

theorem returns_requirePhase {phase : SessionPhase} {u : Unit} :
    Returns (requirePhase phase) s u s' ↔ s.session.phase = phase ∧ s' = s := by
  rw [requirePhase, returns_bind]
  constructor
  · rintro ⟨v, s₁, hv, h⟩
    obtain ⟨rfl, rfl⟩ := returns_getSession.mp hv
    split at h
    · next hphase =>
      obtain ⟨-, rfl⟩ := returns_pure.mp h
      exact ⟨hphase, rfl⟩
    · exact absurd h returns_throw
  · rintro ⟨hphase, rfl⟩
    refine ⟨s'.session, s', returns_getSession.mpr ⟨rfl, rfl⟩, ?_⟩
    rw [if_pos hphase]
    exact returns_pure.mpr ⟨rfl, rfl⟩

theorem returns_engineExecute {command : Command} {receipt : TransitionReceipt} :
    Returns (engineExecute options hosts command) m receipt m' ↔
      (execute options (hosts m.calls) m.world command).1 = .receipt receipt ∧
        m' = ⟨(execute options (hosts m.calls) m.world command).2, m.calls + 1⟩ := by
  unfold Returns engineExecute
  rcases execute options (hosts m.calls) m.world command with ⟨_ | _, w⟩
  · simp [eq_comm]
  · simp

/-- A command whose success is required has been executed. -/
theorem executed_of_returns {command : Command} {receipt : TransitionSuccess}
    (h : Returns (requireExecuted options hosts command) m receipt m') :
    Executed options (hosts m.calls) m.world command m'.world := by
  rw [requireExecuted, returns_bind] at h
  obtain ⟨answer, m₁, hexecute, h⟩ := h
  obtain ⟨hanswer, rfl⟩ := returns_engineExecute.mp hexecute
  cases answer with
  | success =>
    obtain ⟨-, rfl⟩ := returns_pure.mp h
    exact ⟨by rw [hanswer]; rfl, rfl⟩
  | failure => exact absurd h returns_throw

theorem returns_vaultPerform {op : StorageOp} {u : Unit}
    (h : Returns (vaultPerform hosts op) m u m') :
    (hosts m.calls).storageFault = none ∧
      ∃ v, op.run (hosts m.calls).nowMs m.world.vaults = .ok v ∧
        m' = ⟨{ m.world with vaults := v }, m.calls + 1⟩ := by
  have h' : (op.perform (hosts m.calls).storageFault (hosts m.calls).nowMs m.world.vaults).1 =
        .ok u ∧
      m' = ⟨{ m.world with vaults :=
        (op.perform (hosts m.calls).storageFault (hosts m.calls).nowMs m.world.vaults).2 },
        m.calls + 1⟩ := by
    unfold Returns vaultPerform at h
    simpa only [Prod.mk.injEq, eq_comm] using h
  obtain ⟨hok, hm⟩ := h'
  obtain ⟨hfault, hrun⟩ := StorageOp.perform_eq_ok.mp (Prod.ext hok rfl)
  exact ⟨hfault, _, hrun, hm⟩

theorem returns_vaultCall {run : Int → Vaults → Except Thrown Vaults} {u : Unit}
    (h : Returns (vaultCall hosts run) m u m') :
    ∃ v, run (hosts m.calls).nowMs m.world.vaults = .ok v ∧
      m' = ⟨{ m.world with vaults := v }, m.calls + 1⟩ := by
  unfold Returns vaultCall at h
  dsimp only at h
  split at h
  · cases h
  · cases h
  · cases h
  · next v _ hrun =>
    cases h
    exact ⟨v, hrun, rfl⟩

end Programs

/-! ## The invariant -/

/-- So many rows were brought in, each of them from where `source` says. -/
structure Brought {ρ κ : Type} [DecidableEq κ] [Keyed ρ κ] (count : Nat) (table : Table ρ)
    (source : ρ → Prop) : Prop where
  count : count = table.rows.length
  source : ∀ row ∈ table, source row

namespace Brought

variable {ρ κ : Type} [DecidableEq κ] [Keyed ρ κ] {count : Nat} {table : Table ρ}
  {source : ρ → Prop}

theorem empty : Brought 0 (Table.empty : Table ρ) source :=
  ⟨rfl, fun _ h => absurd h Table.not_mem_empty⟩

theorem insert (h : Brought count table source) {row : ρ} (hfree : table.find? (key row) = none)
    (hrow : source row) : Brought (count + 1) (table.insert row hfree) source where
  count := by
    show count + 1 = (table.rows ++ [row]).length
    rw [List.length_append, h.count, List.length_singleton]
  source r hr := by
    rcases Table.mem_insert.mp hr with hr | rfl
    · exact h.source r hr
    · exact hrow

end Brought

/-- What the variables of a session have counted is in the target, and comes from the bundle. -/
structure Progress (options : EngineOptions) (bundle : OpenBundle) (v : SessionVariables)
    (r : Records) : Prop where
  customers : Brought v.steppedCustomers.length r.customers fun row =>
    customerRecord row ∈ bundle.rows.customers
  cases : Brought v.steppedCases.length r.cases fun row => caseRecord row ∈ bundle.rows.cases
  grants : Brought v.steppedGrants.length r.grants fun row =>
    ∃ g, grantRecord g ∈ bundle.rows.grants ∧
      row = grantImported g (fingerprintMismatch options bundle)
  dumps : Brought v.steppedDumps.length r.dumps fun row =>
    row.dumpId ∈ bundle.manifest.dumps.map ExportManifestDump.dumpId

/-- The records that are read of a bundle have all their numbers. -/
structure Numbered (rows : BundleRows) : Prop where
  customers : ∀ c ∈ rows.customers, c.customerNo.isSome = true
  grants : ∀ g ∈ rows.grants, g.maxUploads.isSome = true ∧ g.uploadsUsed.isSome = true

theorem progress_fresh (options : EngineOptions) (bundle : OpenBundle) (v : SessionVariables)
    (hv : v.steppedCustomers = [] ∧ v.steppedCases = [] ∧ v.steppedGrants = [] ∧
      v.steppedDumps = []) : Progress options bundle v (recordsOf World.fresh.ledger) := by
  obtain ⟨hcustomers, hcases, hgrants, hdumps⟩ := hv
  constructor
  case customers => rw [hcustomers]; exact .empty
  case cases => rw [hcases]; exact .empty
  case grants => rw [hgrants]; exact .empty
  case dumps => rw [hdumps]; exact .empty

theorem lastWithId_eq_some {α : Type} {id : α → String} {rows : List α} {k : String} {a : α}
    (h : lastWithId id rows k = some a) : a ∈ rows ∧ id a = k := by
  obtain ⟨hmem, hid⟩ := mem_of_find?_reverse h
  exact ⟨hmem, of_decide_eq_true hid⟩

section Rows

variable {options : EngineOptions} {hosts : Nat → Host} {bundle : OpenBundle} {s s' : Importing}

/-- The rows of the target. -/
def Importing.records (s : Importing) : Records := recordsOf s.machine.world.ledger

/-- A step that brings in one row has executed one command, and counted the row. -/
theorem returns_rowStep {α : Type} {kind k : String} {row : Option α}
    {stepped : SessionVariables → List String} {command : α → Command}
    {add : SessionVariables → SessionVariables} {u : Unit}
    (h : Returns (rowStep options hosts kind row k stepped command add) s u s') :
    s.session.phase = .began ∧ k ∉ stepped s.session ∧ ∃ record w', row = some record ∧
      Executed options (hosts s.machine.calls) s.machine.world (command record) w' ∧
      s'.machine.world = w' ∧ s'.session = add s.session ∧ s'.counters = s.counters := by
  unfold rowStep at h
  rw [returns_bind] at h
  obtain ⟨_, s₁, hphase, h⟩ := h
  obtain ⟨hphase, rfl⟩ := returns_requirePhase.mp hphase
  cases row with
  | none => exact absurd h returns_throw
  | some record =>
    simp only [returns_bind] at h
    obtain ⟨v, s₂, hv, h⟩ := h
    obtain ⟨rfl, rfl⟩ := returns_getSession.mp hv
    split at h
    · exact absurd h returns_throw
    · next hnew =>
      simp only [returns_bind] at h
      obtain ⟨receipt, s₃, hdrive, h⟩ := h
      obtain ⟨m', hexecuted, rfl⟩ := returns_drive.mp hdrive
      have hs' := returns_setSession.mp h
      exact ⟨hphase, hnew, record, m'.world, rfl, executed_of_returns hexecuted,
        by rw [hs'], by rw [hs'], by rw [hs']⟩

/-- What a step for one row of a table keeps: all but the rows, and the list of what was done. -/
structure RowBrought (options : EngineOptions) (bundle : OpenBundle) (s s' : Importing) :
    Prop where
  progress : Progress options bundle s.session s.records →
    Progress options bundle s'.session s'.records
  dumps : s'.records.dumps = s.records.dumps
  vaults : s'.machine.world.vaults = s.machine.world.vaults
  phase : s'.session.phase = s.session.phase
  closed : s'.session.closed = s.session.closed
  steppedDumps : s'.session.steppedDumps = s.session.steppedDumps
  counters : s'.counters = s.counters

theorem importCustomer_brought (hnumbered : Numbered bundle.rows) {customerId : String} {u : Unit}
    (h : Returns (importCustomer options hosts bundle customerId) s u s') :
    RowBrought options bundle s s' := by
  obtain ⟨-, -, record, w', hrecord, hexecuted, rfl, hsession, hcounters⟩ := returns_rowStep h
  have hmem := (lastWithId_eq_some hrecord).1
  obtain ⟨row, hrow, hfree, hrecords, hvaults⟩ :=
    executed_importCustomer hexecuted (hnumbered.customers record hmem)
  have hdumps : s'.records.dumps = s.records.dumps := by
    unfold Importing.records
    rw [hrecords]
  refine ⟨fun hp => ?_, hdumps, hvaults, by rw [hsession], by rw [hsession], by rw [hsession],
    hcounters⟩
  unfold Importing.records
  rw [hsession, hrecords]
  refine ⟨?_, hp.cases, hp.grants, hp.dumps⟩
  exact hp.customers.insert hfree (by rw [hrow]; exact hmem)

theorem importCase_brought {caseId : String} {u : Unit}
    (h : Returns (importCase options hosts bundle caseId) s u s') :
    RowBrought options bundle s s' := by
  obtain ⟨-, -, record, w', hrecord, hexecuted, rfl, hsession, hcounters⟩ := returns_rowStep h
  have hmem := (lastWithId_eq_some hrecord).1
  obtain ⟨row, hrow, hfree, hrecords, hvaults⟩ := executed_importCase hexecuted
  have hdumps : s'.records.dumps = s.records.dumps := by
    unfold Importing.records
    rw [hrecords]
  refine ⟨fun hp => ?_, hdumps, hvaults, by rw [hsession], by rw [hsession], by rw [hsession],
    hcounters⟩
  unfold Importing.records
  rw [hsession, hrecords]
  refine ⟨hp.customers, ?_, hp.grants, hp.dumps⟩
  exact hp.cases.insert hfree (by rw [hrow]; exact hmem)

theorem importGrant_brought (hnumbered : Numbered bundle.rows) {grantId : String} {u : Unit}
    (h : Returns (importGrant options hosts bundle grantId) s u s') :
    RowBrought options bundle s s' := by
  obtain ⟨-, -, record, w', hrecord, hexecuted, rfl, hsession, hcounters⟩ := returns_rowStep h
  have hmem := (lastWithId_eq_some hrecord).1
  obtain ⟨hmax, hused⟩ := hnumbered.grants record hmem
  have hforced : (if fingerprintMismatch options bundle = true then some "revoked"
      else none : Option String).isSome = fingerprintMismatch options bundle := by
    cases fingerprintMismatch options bundle <;> rfl
  obtain ⟨row, hrow, hfree, hrecords, hvaults⟩ := executed_importGrant hexecuted hmax hused
  have hdumps : s'.records.dumps = s.records.dumps := by
    unfold Importing.records
    rw [hrecords]
  refine ⟨fun hp => ?_, hdumps, hvaults, by rw [hsession], by rw [hsession], by rw [hsession],
    hcounters⟩
  unfold Importing.records
  rw [hsession, hrecords]
  refine ⟨hp.customers, hp.cases, ?_, hp.dumps⟩
  refine hp.grants.insert hfree ⟨row, ?_, ?_⟩
  · rw [hrow]
    exact hmem
  · rw [hforced]

end Rows

/-! ## Dumps -/

/-- The bytes that a bundle has for a row, if they have the size and the hash of the row. -/
def carriedBytes (sha256 : Bytes → Sha256) (bundle : OpenBundle) (b : BundleDumpRow) :
    Option Bytes :=
  match entryNamed bundle.entries (dumpEntryName b.dumpId), b.byteSize, b.sha256 with
  | some entry, some byteSize, some digest =>
    let bytes := (entry.chunks bundle.source).values.flatten
    if entry.size = byteSize ∧ (sha256 bytes).text = digest then some bytes else none
  | _, _, _ => none

/-- The record of a staged dump, as the target has it. -/
def sealedRecord (b : BundleDumpRow) : ImportDumpRecord :=
  { stagedRecord b (b.byteSize.getD 0) (b.sha256.getD "") with phase := "sealed" }

/-- What the target gets for a declared dump: its columns, where its bytes are, and these. -/
def importedDump (sha256 : Bytes → Sha256) (bundle : OpenBundle) (declared : ExportManifestDump)
    (b : BundleDumpRow) : ImportDumpRecord × BlobState × Option Bytes :=
  match declared.phase with
  | .available =>
    match carriedBytes sha256 bundle b with
    | some bytes => (sealedRecord b, .staging, some bytes)
    | none => (mismatchTombstone b, .none, none)
  | phase => (tombstoneRecord b phase, .none, none)

/-- The first row of a dump. -/
def firstRow (bundle : OpenBundle) (dumpId : DumpId) : Option BundleDumpRow :=
  bundle.rows.dumps.find? fun row => decide (row.dumpId = dumpId)

/-- A row of the target, with its bytes, is what the bundle has. -/
def ImportedAs (sha256 : Bytes → Sha256) (bundle : OpenBundle) (row : DumpRow)
    (bytes : Option Bytes) : Prop :=
  ∃ declared b, declaredDump bundle.manifest row.dumpId = some declared ∧
    firstRow bundle row.dumpId = some b ∧
    importedDump sha256 bundle declared b = (dumpRecord row, row.blobState, bytes) ∧
    row.downloadable = false

/-- The staging file under an identifier is closed and has these bytes, or there is none. -/
def StagingIs (s : ObjectStore DumpId) (dumpId : DumpId) : Option Bytes → Prop
  | some bytes => ∃ f, s.staging.find? dumpId = some f ∧ f.isOpen = false ∧ f.bytes = bytes
  | none => s.staging.find? dumpId = none

/-- Only the staging file of one dump has changed. -/
structure OnlyStaging (v v' : Vaults) (dumpId : DumpId) : Prop where
  symbols : v'.symbols = v.symbols
  objects : v'.dumps.objects = v.dumps.objects
  others : ∀ d, d ≠ dumpId → v'.dumps.staging.find? d = v.dumps.staging.find? d

theorem OnlyStaging.refl (v : Vaults) (dumpId : DumpId) : OnlyStaging v v dumpId :=
  ⟨rfl, rfl, fun _ _ => rfl⟩

theorem OnlyStaging.trans {v v' v'' : Vaults} {dumpId : DumpId} (h : OnlyStaging v v' dumpId)
    (h' : OnlyStaging v' v'' dumpId) : OnlyStaging v v'' dumpId :=
  ⟨h'.symbols.trans h.symbols, h'.objects.trans h.objects, fun d hd =>
    (h'.others d hd).trans (h.others d hd)⟩

section Staging

variable {v : Vaults} {s' : ObjectStore DumpId} {dumpId : DumpId} {nowMs : Int} {bytes : Bytes}

theorem onlyStaging_createStaging (h : v.dumps.createStaging nowMs dumpId = .ok s') :
    v.dumps.staging.find? dumpId = none ∧
      (∃ f, s'.staging.find? dumpId = some f ∧ f.bytes = []) ∧
        OnlyStaging v { v with dumps := s' } dumpId := by
  obtain ⟨hfree, rfl⟩ := ObjectStore.createStaging_eq_ok.mp h
  exact ⟨hfree, ⟨_, Table.find?_insert_self hfree, rfl⟩, rfl, rfl, fun d hd =>
    Table.find?_insert_ne (h := hfree) (Ne.symm hd)⟩

theorem onlyStaging_append (h : v.dumps.append nowMs dumpId bytes = .ok s')
    {f : StagingFile DumpId} (hf : v.dumps.staging.find? dumpId = some f) :
    (∃ f', s'.staging.find? dumpId = some f' ∧ f'.bytes = f.bytes ++ bytes) ∧
      OnlyStaging v { v with dumps := s' } dumpId := by
  obtain ⟨f', hf', -, rfl⟩ := ObjectStore.append_eq_ok.mp h
  rw [hf] at hf'
  cases hf'
  constructor
  · refine ⟨{ f with bytes := f.bytes ++ bytes, modifiedAt := nowMs }, ?_, rfl⟩
    dsimp only
    rw [Table.find?_updateKey_self hf]
  · refine ⟨rfl, rfl, fun d hd => ?_⟩
    dsimp only
    rw [Table.find?_updateKey_ne (Ne.symm hd)]

theorem onlyStaging_syncAndClose (h : v.dumps.syncAndClose dumpId = .ok s')
    {f : StagingFile DumpId} (hf : v.dumps.staging.find? dumpId = some f) :
    StagingIs s' dumpId (some f.bytes) ∧ OnlyStaging v { v with dumps := s' } dumpId := by
  obtain ⟨f', hf', rfl⟩ := ObjectStore.syncAndClose_eq_ok.mp h
  rw [hf] at hf'
  cases hf'
  constructor
  · refine ⟨{ f with isOpen := false }, ?_, rfl, rfl⟩
    dsimp only
    rw [Table.find?_updateKey_self hf]
  · refine ⟨rfl, rfl, fun d hd => ?_⟩
    dsimp only
    rw [Table.find?_updateKey_ne (Ne.symm hd)]

theorem onlyStaging_removeStaging :
    StagingIs (v.dumps.removeStaging dumpId) dumpId none ∧
      OnlyStaging v { v with dumps := v.dumps.removeStaging dumpId } dumpId :=
  ⟨ObjectStore.find?_removeStaging.trans (if_pos rfl), rfl, rfl, fun _ hd =>
    ObjectStore.find?_removeStaging.trans (if_neg hd)⟩

end Staging

/-- The phase of a dump that was just brought in. -/
def ImportDumpDisposition.phase : ImportDumpDisposition → DumpPhase
  | staged => .sealed
  | mismatch | tombstoneRejected => .rejected
  | tombstoneDeleted => .deleted

section Dumps

variable {options : EngineOptions} {hosts : Nat → Host} {bundle : OpenBundle} {m m' : Machine}
  {dumpId : DumpId}

/-- A step on the staging file of a dump, as a driver makes it. -/
theorem vaultCall_dumps {f : Int → ObjectStore DumpId → Except Thrown (ObjectStore DumpId)}
    {u : Unit}
    (h : Returns (vaultCall hosts fun nowMs v => do return { v with dumps := ← f nowMs v.dumps })
      m u m') :
    ∃ s, f (hosts m.calls).nowMs m.world.vaults.dumps = .ok s ∧
      m'.world = { m.world with vaults := { m.world.vaults with dumps := s } } := by
  obtain ⟨v, hv, rfl⟩ := returns_vaultCall h
  simp only [bind_eq_ok, pure_eq_ok] at hv
  obtain ⟨s, hs, rfl⟩ := hv
  exact ⟨s, hs, rfl⟩

/-- **Bytes that were staged** are in a closed file that was not there before. -/
theorem stageBytes_returns {chunks : Tar.Yields Bytes} {digest : String}
    (h : Returns (stageBytes options hosts dumpId chunks) m digest m') :
    digest = (options.digests.sha256 chunks.values.flatten).text ∧
      m'.world.ledger = m.world.ledger ∧
      m.world.vaults.dumps.staging.find? dumpId = none ∧
      StagingIs m'.world.vaults.dumps dumpId (some chunks.values.flatten) ∧
      OnlyStaging m.world.vaults m'.world.vaults dumpId := by
  rw [stageBytes, returns_bind] at h
  obtain ⟨_, m₁, hcreate, h⟩ := h
  obtain ⟨-, v, hrun, rfl⟩ := returns_vaultPerform hcreate
  simp only [StorageOp.run, bind_eq_ok, pure_eq_ok] at hrun
  obtain ⟨created, hcreated, rfl⟩ := hrun
  obtain ⟨hfree, hfile, honly⟩ := onlyStaging_createStaging hcreated
  have hbody := returns_of_rethrow (fun e s₁ hhandler => ?_) h
  · simp only [returns_bind] at hbody
    obtain ⟨_, m₂, happends, _, m₃, hthrown, _, m₄, hsync, hdigest⟩ := hbody
    obtain ⟨-, rfl⟩ := returns_lift.mp hthrown
    obtain ⟨rfl, rfl⟩ := returns_pure.mp hdigest
    -- the file has the chunks that were written so far
    have hwritten := returns_forEach _ happends
      (fun done m' => m'.world.ledger = m.world.ledger ∧
        (∃ f, m'.world.vaults.dumps.staging.find? dumpId = some f ∧ f.bytes = done.flatten) ∧
        OnlyStaging m.world.vaults m'.world.vaults dumpId)
      ⟨rfl, hfile, honly⟩
      (fun done chunk rest m₁ m₂ _ hdone hstep => by
        obtain ⟨hledger, ⟨f, hf, hbytes⟩, honly⟩ := hdone
        obtain ⟨s, happend, hworld⟩ := vaultCall_dumps
          (f := fun nowMs s => s.append nowMs dumpId chunk) hstep
        obtain ⟨⟨f', hf', hbytes'⟩, honly'⟩ := onlyStaging_append happend hf
        rw [hworld]
        refine ⟨hledger, ⟨f', hf', ?_⟩, honly.trans honly'⟩
        rw [hbytes', hbytes, List.flatten_append, List.flatten_singleton])
    obtain ⟨hledger, ⟨f, hf, hbytes⟩, honly⟩ := hwritten
    obtain ⟨s, hsync, hworld⟩ := vaultCall_dumps (f := fun _ s => s.syncAndClose dumpId) hsync
    obtain ⟨hstaging, honly'⟩ := onlyStaging_syncAndClose hsync hf
    rw [hbytes] at hstaging
    rw [hworld]
    exact ⟨rfl, hledger, hfree, hstaging, honly.trans honly'⟩
  · rw [returns_bind] at hhandler
    obtain ⟨_, _, -, hthrow⟩ := hhandler
    exact returns_throw hthrow

/-- What a dump has become that a step has brought in, with the bytes it has now. -/
structure BroughtDump (m m' : Machine) (dumpId : DumpId) (disposition : ImportDumpDisposition)
    (imported : ImportDumpRecord × BlobState × Option Bytes) (row : DumpRow) : Prop where
  columns : imported.1 = dumpRecord row ∧ imported.2.1 = row.blobState ∧ row.downloadable = false
  id : row.dumpId = dumpId
  phase : row.phase = disposition.phase
  records : ∃ hfree : m.world.ledger.dumps.find? row.dumpId = none,
    recordsOf m'.world.ledger =
      { recordsOf m.world.ledger with dumps := m.world.ledger.dumps.insert row hfree }
  staging : m.world.vaults.dumps.staging.find? dumpId = none →
    StagingIs m'.world.vaults.dumps dumpId imported.2.2
  others : OnlyStaging m.world.vaults m'.world.vaults dumpId

theorem dumpId_of_record {row : DumpRow} {record : ImportDumpRecord}
    (h : dumpRecord row = record) (hid : record.dumpId = dumpId.text) : row.dumpId = dumpId :=
  Identifier.ext ((congrArg ImportDumpRecord.dumpId h).trans hid)

theorem phase_of_record {row : DumpRow} {record : ImportDumpRecord} {phase : DumpPhase}
    (h : dumpRecord row = record) (hphase : record.phase = text phase) : row.phase = phase :=
  text_injective ((congrArg ImportDumpRecord.phase h).trans hphase)

/-- The step up to the command: no row, and at most the staging file of the dump. -/
structure Staged (m m₁ : Machine) (dumpId : DumpId) (bytes : Option Bytes) : Prop where
  ledger : m₁.world.ledger = m.world.ledger
  staging : m.world.vaults.dumps.staging.find? dumpId = none →
    StagingIs m₁.world.vaults.dumps dumpId bytes
  others : OnlyStaging m.world.vaults m₁.world.vaults dumpId

theorem Staged.refl : Staged m m dumpId none :=
  ⟨rfl, fun h => h, .refl _ _⟩

/-- The row of a dump whose bytes were staged. -/
theorem Staged.importStaged {m₁ : Machine} {b : BundleDumpRow} {byteSize : Nat} {sha256 : String}
    {bytes : Bytes} {receipt : TransitionSuccess} (hstaged : Staged m m₁ b.dumpId (some bytes))
    (h : Returns (requireExecuted options hosts
      (.importDumpStaged (stagedRecord b byteSize sha256))) m₁ receipt m') :
    ∃ row, BroughtDump m m' b.dumpId .staged
      ({ stagedRecord b byteSize sha256 with phase := "sealed" }, .staging, some bytes) row := by
  obtain ⟨row, hrecord, hblob, hdownload, hfree, hrecords, hvaults⟩ :=
    executed_importStaged (executed_of_returns h)
  refine ⟨row, ⟨hrecord.symm, hblob.symm, hdownload⟩, dumpId_of_record hrecord rfl,
    phase_of_record hrecord rfl, ?_, ?_, ?_⟩
  · rw [← hstaged.ledger]
    exact ⟨hfree, hrecords⟩
  · rw [hvaults]
    exact hstaged.staging
  · rw [hvaults]
    exact hstaged.others

/-- The row of a dump without bytes. -/
theorem Staged.importTombstone {m₁ : Machine} {record : ImportDumpRecord}
    {disposition : ImportDumpDisposition} {receipt : TransitionSuccess}
    (hstaged : Staged m m₁ dumpId none) (hid : record.dumpId = dumpId.text)
    (hphase : record.phase = text disposition.phase) (hother : record.phase ≠ "available")
    (h : Returns (requireExecuted options hosts (.importDumpStaged record)) m₁ receipt m') :
    ∃ row, BroughtDump m m' dumpId disposition (record, .none, none) row := by
  obtain ⟨row, hrecord, hblob, hdownload, hfree, hrecords, hvaults⟩ :=
    executed_importTombstone (executed_of_returns h) hother
  refine ⟨row, ⟨hrecord.symm, hblob.symm, hdownload⟩, dumpId_of_record hrecord hid,
    phase_of_record hrecord hphase, ?_, ?_, ?_⟩
  · rw [← hstaged.ledger]
    exact ⟨hfree, hrecords⟩
  · rw [hvaults]
    exact hstaged.staging
  · rw [hvaults]
    exact hstaged.others

/-- **Staging an available dump**: its bytes are staged if they have the recorded size and hash,
and otherwise the dump is a tombstone without bytes. -/
theorem stageAvailable_returns {b : BundleDumpRow} {byteSize size : Nat} {sha256 : String}
    {chunks : Tar.Yields Bytes} {disposition : ImportDumpDisposition}
    (h : Returns (stageAvailable options hosts b byteSize sha256 size chunks) m disposition m') :
    ∃ row, BroughtDump m m' b.dumpId disposition
      (if size = byteSize ∧ (options.digests.sha256 chunks.values.flatten).text = sha256 then
        ({ stagedRecord b byteSize sha256 with phase := "sealed" }, .staging,
          some chunks.values.flatten)
      else (mismatchTombstone b, .none, none)) row := by
  have hother : (mismatchTombstone b).phase ≠ "available" := by
    show ("rejected" : String) ≠ "available"
    decide
  unfold stageAvailable at h
  by_cases hsize : size = byteSize
  · rw [if_pos hsize] at h
    simp only [returns_bind, returns_map] at h
    obtain ⟨digest, m₁, ⟨sha, hbytes, rfl⟩, h⟩ := h
    obtain ⟨rfl, hledger, -, hstaging, honly⟩ := stageBytes_returns hbytes
    have hstaged : Staged m m₁ b.dumpId (some chunks.values.flatten) :=
      ⟨hledger, fun _ => hstaging, honly⟩
    by_cases hsha : (options.digests.sha256 chunks.values.flatten).text = sha256
    · rw [if_pos (congrArg some hsha)] at h
      rw [if_pos ⟨hsize, hsha⟩]
      obtain ⟨receipt, m₂, hexecuted, hdone⟩ := returns_bind.mp h
      obtain ⟨rfl, rfl⟩ := returns_pure.mp hdone
      exact hstaged.importStaged hexecuted
    · rw [if_neg (fun hsome => hsha (Option.some.inj hsome)), if_pos Option.isSome_some] at h
      rw [if_neg (fun hm => hsha hm.2)]
      simp only [returns_bind] at h
      obtain ⟨_, m₂, hremove, receipt, m₃, hexecuted, hdone⟩ := h
      obtain ⟨rfl, rfl⟩ := returns_pure.mp hdone
      -- what was staged is removed
      obtain ⟨-, v, hrun, rfl⟩ := returns_vaultPerform hremove
      cases hrun
      have hremoved : Staged m
          ⟨{ m₁.world with vaults :=
            { m₁.world.vaults with dumps := m₁.world.vaults.dumps.removeStaging b.dumpId } },
            m₁.calls + 1⟩ b.dumpId none :=
        ⟨hledger, fun _ => onlyStaging_removeStaging.1, honly.trans onlyStaging_removeStaging.2⟩
      exact hremoved.importTombstone rfl rfl hother hexecuted
  · rw [if_neg hsize] at h
    rw [if_neg (fun hm => hsize hm.1)]
    simp only [returns_bind, returns_pure] at h
    obtain ⟨_, _, ⟨rfl, rfl⟩, h⟩ := h
    simp only [reduceCtorEq, if_false, Option.isSome_none, Bool.false_eq_true, returns_bind,
      returns_pure] at h
    obtain ⟨receipt, m₂, hexecuted, rfl, rfl⟩ := h
    exact Staged.refl.importTombstone rfl rfl hother hexecuted

/-- **A dump that was brought in** is what its declaration and its first row say. -/
theorem dispositionDump_returns {v : SessionVariables} (hopen : v.closed = false)
    {declared : ExportManifestDump} {b : BundleDumpRow} {disposition : ImportDumpDisposition}
    (h : Returns (dispositionDump options hosts bundle v declared b) m disposition m') :
    ∃ row, BroughtDump m m' b.dumpId disposition
      (importedDump options.digests.sha256 bundle declared b) row := by
  have hchunks (entry : Tar.TarEntry) :
      sourceChunks bundle v entry = entry.chunks bundle.source := by
    unfold sourceChunks
    rw [hopen, if_neg (by simp)]
  unfold dispositionDump at h
  unfold importedDump
  generalize declared.phase = phase at h ⊢
  cases phase with
  | available =>
    dsimp only at h ⊢
    unfold carriedBytes
    split at h
    · next entry byteSize sha256 hentry hsize hsha =>
      rw [hchunks] at h
      obtain ⟨row, hrow⟩ := stageAvailable_returns h
      refine ⟨row, ?_⟩
      simp only [hentry, hsize, hsha]
      by_cases hmatch : entry.size = byteSize ∧
          (options.digests.sha256 (entry.chunks bundle.source).values.flatten).text = sha256
      · rw [if_pos hmatch] at hrow
        simp only [if_pos hmatch]
        simpa only [sealedRecord, hsize, hsha, Option.getD_some] using hrow
      · rw [if_neg hmatch] at hrow
        simp only [if_neg hmatch]
        exact hrow
    · exact absurd h returns_throw
  | rejected =>
    dsimp only at h ⊢
    simp only [if_true, returns_bind, returns_pure] at h
    obtain ⟨receipt, m₁, hexecuted, rfl, rfl⟩ := h
    exact Staged.refl.importTombstone rfl rfl
      (show text DumpPhase.rejected ≠ "available" by decide) hexecuted
  | deleted =>
    dsimp only at h ⊢
    simp only [reduceCtorEq, if_false, returns_bind, returns_pure] at h
    obtain ⟨receipt, m₁, hexecuted, rfl, rfl⟩ := h
    exact Staged.refl.importTombstone rfl rfl
      (show text DumpPhase.deleted ≠ "available" by decide) hexecuted

end Dumps

/-- What a session has done with a dump. -/
structure StagedDump (options : EngineOptions) (bundle : OpenBundle) (s s' : Importing)
    (dumpId : DumpId) (disposition : ImportDumpDisposition) : Prop where
  began : s.session.phase = .began
  fresh : dumpId ∉ s.session.steppedDumps
  session : s'.session =
    { s.session with steppedDumps := dumpId :: s.session.steppedDumps }
  counters : s'.counters = s.counters
  brought : ∃ declared b row, declaredDump bundle.manifest dumpId = some declared ∧
    firstRow bundle dumpId = some b ∧
    BroughtDump s.machine s'.machine dumpId disposition
      (importedDump options.digests.sha256 bundle declared b) row

theorem stageDump_returns {options : EngineOptions} {hosts : Nat → Host} {bundle : OpenBundle}
    {s s' : Importing} {dumpId : DumpId} {disposition : ImportDumpDisposition}
    (hopen : s.session.closed = false)
    (h : Returns (stageDump options hosts bundle dumpId) s disposition s') :
    StagedDump options bundle s s' dumpId disposition := by
  unfold stageDump at h
  rw [returns_bind] at h
  obtain ⟨_, s₁, hphase, h⟩ := h
  obtain ⟨hbegan, rfl⟩ := returns_requirePhase.mp hphase
  split at h
  · exact absurd h returns_throw
  · next declared hdeclared =>
    obtain ⟨v, s₂, hv, h⟩ := returns_bind.mp h
    obtain ⟨rfl, rfl⟩ := returns_getSession.mp hv
    split at h
    · exact absurd h returns_throw
    · next hfresh =>
      split at h
      · exact absurd h returns_throw
      · next b hb =>
        simp only [returns_bind, returns_pure] at h
        obtain ⟨d, s₃, hdrive, _, s₄, hset, rfl, rfl⟩ := h
        obtain ⟨m', hm', rfl⟩ := returns_drive.mp hdrive
        rw [returns_setSession] at hset
        obtain ⟨row, hrow⟩ := dispositionDump_returns hopen hm'
        have hid : b.dumpId = dumpId := by
          have hsome := List.find?_some hb
          exact of_decide_eq_true hsome
        rw [hid] at hrow
        subst hset
        exact ⟨hbegan, hfresh, rfl, rfl, declared, b, row, hdeclared, hb, hrow⟩

end DumpLedger.ImportSession
