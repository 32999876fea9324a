import DumpLedger.Http.SymbolServer
import DumpLedger.Properties.StorePaths
import DumpLedger.Properties.Symbols

/-!
# What the symbol server keeps

A row of an artifact comes from one request, whose bytes are in the vault until the artifact is
purged. The bytes of an open request are those in its staging file.

* `Quiet` — a step that adds no row but those of `new`, and touches no staging file but its own
* `Serving`, `serving_step` — the invariant, and that each step keeps it
-/

namespace DumpLedger.Symbols

open Lib SqliteLedger Vocabulary

/-! ## Transactions -/

section Transactions

variable {sha256 : Bytes → Sha256} {l l' : SqliteLedger} {op : LedgerOp} {event : EventIdentity}
  {r : LedgerResult}

theorem resolvesTo_insert {row : ModuleRow} {a : SymbolArtifactRow} {i : SymbolIdentity}
    {kind : SymbolArtifactKind} (h : l.modules.find? (key row) = none)
    (hmodules : l'.modules = l.modules.insert row h) (hr : l.resolvesTo a i kind) :
    l'.resolvesTo a i kind := by
  obtain ⟨hkind, m, hm, hi⟩ := hr
  refine ⟨hkind, m, ?_, hi⟩
  rw [hmodules]
  exact Table.find?_insert_of_some hm

/-- The row that a sealed artifact gets. -/
def sealedRow (sha256 : Bytes → Sha256) (insert : SymbolArtifactInsert) (event : EventIdentity) :
    SymbolArtifactRow :=
  ⟨insert.artifactId, moduleIdFor sha256 insert.identity, insert.kind, insert.byteSize,
    insert.sha256, event.occurredAt⟩

theorem resolvesTo_sealed {insert : SymbolArtifactInsert}
    {product version : Option (BoundedText 200)} {arch : Option (BoundedText 64)}
    {createdAt : IsoTimestamp}
    (h : l.modules.find? (key (ModuleRow.ofIdentity (moduleIdFor sha256 insert.identity)
      insert.kind insert.identity product version arch createdAt)) = none)
    (hmodules : l'.modules = l.modules.insert _ h) :
    l'.resolvesTo (sealedRow sha256 insert event) insert.identity insert.kind := by
  have hfind := Table.find?_insert_self h
  rw [← hmodules] at hfind
  exact ⟨rfl, _, hfind, ModuleRow.identity_ofIdentity.trans (if_pos rfl)⟩

/-- **A row after a transaction was there before and resolves as before, or was sealed by it.** -/
theorem rows_run (ht : SymbolTables sha256 l) (h : op.run sha256 event l = .ok (r, l'))
    {a : SymbolArtifactRow} (ha : a ∈ l'.symbolArtifacts) :
    (a ∈ l.symbolArtifacts ∧ ∀ i kind, l.resolvesTo a i kind → l'.resolvesTo a i kind) ∨
      ∃ insert, op = .sealSymbolArtifact insert ∧ a = sealedRow sha256 insert event ∧
        l'.resolvesTo a insert.identity insert.kind := by
  have hchange := (run_changes h).symbols
  generalize hmodules : l'.modules = modules at hchange
  generalize hartifacts : l'.symbolArtifacts = artifacts at hchange
  cases hchange with
  | same =>
    rw [hartifacts] at ha
    refine Or.inl ⟨ha, ?_⟩
    rintro i kind ⟨hkind, m, hm, hi⟩
    exact ⟨hkind, m, by rw [hmodules]; exact hm, hi⟩
  | «sealed» insert hop =>
    subst hop
    simp only [LedgerOp.run, LedgerOp.withResult_eq_ok] at h
    obtain ⟨out, hseal, -⟩ := h
    rcases sealSymbolArtifact_rows ht hseal with ⟨-, -, rfl⟩ | ⟨-, -, -, -, hrows⟩
    · exact Or.inl ⟨ha, fun _ _ hr => hr⟩
    · obtain ⟨⟨hm, hmod⟩, ⟨hfree, hart⟩⟩ := hrows
      rw [hart, Table.mem_insert] at ha
      rcases ha with ha | rfl
      · exact Or.inl ⟨ha, fun _ _ hr => resolvesTo_insert hm hmod hr⟩
      · exact Or.inr ⟨insert, rfl, rfl, resolvesTo_sealed hm hmod⟩
  | purged artifactId hop =>
    subst hop
    simp only [LedgerOp.run, LedgerOp.noResult_eq_ok] at h
    obtain ⟨b, -, hmem, hmod, hart⟩ := purgeSymbolArtifact_rows ht h.1
    rw [hart, Table.mem_delete, decide_eq_false_iff_not] at ha
    refine Or.inl ⟨ha.1, ?_⟩
    rintro i kind ⟨hkind, m, hm, hi⟩
    refine ⟨hkind, m, ?_, hi⟩
    have hne : m.moduleId ≠ b.moduleId := by
      intro he
      have hid : m.moduleId = a.moduleId := Table.key_of_find? hm
      exact ha.2 (by rw [ht.single a ha.1 b hmem (hid.symm.trans he)])
    rw [hmod, Table.find?_delete, Option.mem_def.mp hm, Option.mem_def, Option.filter_some,
      decide_eq_false hne]
    rfl

end Transactions

/-! ## Commands -/

section Commands

variable {options : EngineOptions} {host : Host} {w : World} {command : Command}
  {x : SymbolArtifactId}

/-- An object stays until it is removed. -/
theorem object_run {op : StorageOp} {nowMs : Int} {v v' : Vaults} {bytes : Bytes}
    (h : op.run nowMs v = .ok v') (hne : op ≠ .removeSymbol x)
    (ho : v.symbols.object? x = some bytes) : v'.symbols.object? x = some bytes := by
  by_cases hid : op.symbolId? = some x
  · cases op with
    | removeSymbol a =>
      cases hid
      exact absurd rfl hne
    | createSymbolStaging a =>
      simp only [StorageOp.run, bind_eq_ok, pure_eq_ok] at h
      obtain ⟨s, hs, rfl⟩ := h
      obtain ⟨-, rfl⟩ := ObjectStore.createStaging_eq_ok.mp hs
      exact ho
    | removeSymbolStaging a =>
      cases h
      exact ho
    | promoteSymbol a =>
      simp only [StorageOp.run, bind_eq_ok, pure_eq_ok] at h
      obtain ⟨s, hs, rfl⟩ := h
      rcases ObjectStore.promote_eq_ok.mp hs with ⟨-, -, rfl⟩ | ⟨f, -, -, hfree, rfl⟩
      · exact ho
      · cases hid
        rw [ObjectStore.object?, hfree] at ho
        cases ho
    | createStaging | removeStaging | promote | remove => cases hid
  · rw [ObjectStore.object?, (StorageOp.run_same_symbols h hid).2]
    exact ho

theorem find?_removed (symbols : ObjectStore SymbolArtifactId) (x : SymbolArtifactId) :
    (symbols.removeStaging x).staging.find? x = none :=
  ObjectStore.find?_removeStaging.trans (if_pos rfl)

/-- No operation but its creation makes a staging file. -/
theorem staging_run {op : StorageOp} {nowMs : Int} {v v' : Vaults}
    {f : StagingFile SymbolArtifactId} (h : op.run nowMs v = .ok v')
    (hne : ∀ a, op ≠ .createSymbolStaging a) (hf : v'.symbols.staging.find? x = some f) :
    v.symbols.staging.find? x = some f := by
  by_cases hid : op.symbolId? = some x
  · cases op with
    | createSymbolStaging a => exact absurd rfl (hne a)
    | removeSymbolStaging a | removeSymbol a =>
      cases h
      cases hid
      cases hf.symm.trans (find?_removed v.symbols x)
    | promoteSymbol a =>
      cases hid
      simp only [StorageOp.run, bind_eq_ok, pure_eq_ok] at h
      obtain ⟨s, hs, rfl⟩ := h
      rcases ObjectStore.promote_eq_ok.mp hs with ⟨-, -, rfl⟩ | ⟨g, _, _, _, rfl⟩
      · exact hf
      · cases hf.symm.trans (find?_removed v.symbols x)
    | createStaging | removeStaging | promote | remove => cases hid
  · rw [← (StorageOp.run_same_symbols h hid).1]
    exact hf

theorem stores_removeSymbol (h : command.Stores host (.removeSymbol x)) :
    command = .purgeSymbol x.text := by
  cases h
  rfl

theorem stores_createSymbolStaging (h : command.Stores host (.createSymbolStaging x)) :
    x = host.symbolId ∧ ∃ kind, command = .ingestSymbol kind := by
  cases h
  exact ⟨rfl, _, rfl⟩

theorem execute_tables (ht : SymbolTables options.digests.sha256 w.ledger) :
    SymbolTables options.digests.sha256 (execute options host w command).2.ledger := by
  rcases execute_ledger options host w command with h | ⟨p, op, r, -, -, hrun, -⟩
  · rw [h]
    exact ht
  · exact symbolTables_run ht hrun

theorem execute_rows (ht : SymbolTables options.digests.sha256 w.ledger)
    (hseal : command.type ≠ .sealSymbol) {a : SymbolArtifactRow}
    (ha : a ∈ (execute options host w command).2.ledger.symbolArtifacts) :
    a ∈ w.ledger.symbolArtifacts ∧ ∀ i kind, w.ledger.resolvesTo a i kind →
      (execute options host w command).2.ledger.resolvesTo a i kind := by
  rcases execute_ledger options host w command with h | ⟨p, op, r, hp, hop, hrun, -⟩
  · rw [h] at ha ⊢
    exact ⟨ha, fun _ _ hr => hr⟩
  · rcases rows_run ht hrun ha with hold | ⟨insert, rfl, -⟩
    · exact hold
    · exact absurd (plan_action hp hop).symm (fun he => hseal he)

theorem execute_object {bytes : Bytes} (hne : command ≠ .purgeSymbol x.text)
    (ho : w.vaults.symbols.object? x = some bytes) :
    (execute options host w command).2.vaults.symbols.object? x = some bytes := by
  have hs := execute_symbols options host w command
  generalize (execute options host w command).2.vaults.symbols = symbols at hs ⊢
  cases hs with
  | kept => exact ho
  | done hop hrun =>
    refine object_run hrun ?_ ho
    rintro rfl
    exact hne (stores_removeSymbol hop)

theorem execute_staging {f : StagingFile SymbolArtifactId}
    (hne : x = host.symbolId → ∀ kind, command ≠ .ingestSymbol kind)
    (hf : (execute options host w command).2.vaults.symbols.staging.find? x = some f) :
    w.vaults.symbols.staging.find? x = some f := by
  have hs := execute_symbols options host w command
  generalize (execute options host w command).2.vaults.symbols = symbols at hs hf
  cases hs with
  | kept => exact hf
  | @done op v' hop hrun =>
    by_cases hcreate : ∃ a, op = .createSymbolStaging a
    · obtain ⟨a, rfl⟩ := hcreate
      obtain ⟨rfl, kind, rfl⟩ := stores_createSymbolStaging hop
      by_cases hx : x = host.symbolId
      · exact absurd rfl (hne hx kind)
      · rw [← (StorageOp.run_same_symbols hrun fun he => hx (Option.some.inj he).symm).1]
        exact hf
    · exact staging_run hrun (fun a he => hcreate ⟨a, he⟩) hf

end Commands

/-! ## Quiet steps -/

/-- An artifact that was there before still resolves, and if it is the one under `x` it has its
object. -/
structure Kept (x : Option SymbolArtifactId) (w w' : World) (a : SymbolArtifactRow) : Prop where
  member : a ∈ w.ledger.symbolArtifacts
  resolves : ∀ i kind, w.ledger.resolvesTo a i kind → w'.ledger.resolvesTo a i kind
  object : some a.artifactId = x → ∀ bytes, w.vaults.symbols.object? a.artifactId = some bytes →
    w'.vaults.symbols.object? a.artifactId = some bytes

/-- The rows are old ones or `new`, and no staging file but `own` appears or is written. -/
structure Quiet (x : Option SymbolArtifactId) (own : SymbolArtifactId → Prop)
    (new : SymbolArtifactRow → Prop) (w w' : World) : Prop where
  rows : ∀ a ∈ w'.ledger.symbolArtifacts, new a ∨ Kept x w w' a
  staging : ∀ id, ¬ own id → ∀ f, w'.vaults.symbols.staging.find? id = some f →
    ∃ f₀, w.vaults.symbols.staging.find? id = some f₀ ∧ f.bytes = f₀.bytes

/-- A step that adds no row, or touches no staging file. -/
def nothing {α : Type} (_ : α) : Prop := False

section Quietness

variable {options : EngineOptions} {host : Host} {command : Command} {x : Option SymbolArtifactId}
  {own : SymbolArtifactId → Prop} {new : SymbolArtifactRow → Prop} {w w' w'' : World}

theorem Quiet.refl : Quiet x own new w w where
  rows _ ha := Or.inr ⟨ha, fun _ _ h => h, fun _ _ h => h⟩
  staging _ _ f hf := ⟨f, hf, rfl⟩

theorem Quiet.trans (h : Quiet x own nothing w w') (h' : Quiet x own new w' w'') :
    Quiet x own new w w'' where
  rows a ha := by
    rcases h'.rows a ha with hnew | hkept'
    · exact Or.inl hnew
    · rcases h.rows a hkept'.member with hnew | hkept
      · exact hnew.elim
      · exact Or.inr ⟨hkept.member, fun i kind hi => hkept'.resolves i kind (hkept.resolves i kind hi),
          fun hid bytes ho => hkept'.object hid bytes (hkept.object hid bytes ho)⟩
  staging id hid f hf := by
    obtain ⟨f', hf', hbytes'⟩ := h'.staging id hid f hf
    obtain ⟨f₀, hf₀, hbytes⟩ := h.staging id hid f' hf'
    exact ⟨f₀, hf₀, hbytes'.trans hbytes⟩

theorem quiet_reopen : Quiet x own new w w.reopen where
  rows _ ha := Or.inr ⟨ha, fun _ _ h => h, fun _ _ h => h⟩
  staging id _ f hf := by
    have hfind : (w.vaults.symbols.staging.find? id).map (fun f => { f with isOpen := false }) =
        some f := ObjectStore.find?_reopen.symm.trans hf
    obtain ⟨f₀, hf₀, rfl⟩ := Option.map_eq_some_iff.mp hfind
    exact ⟨f₀, hf₀, rfl⟩

/-- A command that seals nothing and does not purge `x`. -/
theorem quiet_execute (ht : SymbolTables options.digests.sha256 w.ledger)
    (hseal : command.type ≠ .sealSymbol)
    (hpurge : ∀ id, some id = x → command ≠ .purgeSymbol id.text)
    (hown : (∃ kind, command = .ingestSymbol kind) → own host.symbolId) :
    Quiet x own new w (execute options host w command).2 where
  rows a ha := by
    obtain ⟨hmem, hr⟩ := execute_rows ht hseal ha
    exact Or.inr ⟨hmem, hr, fun hid bytes ho => execute_object (hpurge _ hid) ho⟩
  staging id hid f hf := by
    refine ⟨f, execute_staging (fun he kind hkind => ?_) hf, rfl⟩
    rw [he] at hid
    exact hid (hown ⟨kind, hkind⟩)

theorem quiet_settle {out : Outcome × World} (h : Quiet x own nothing w out.2) :
    Quiet x own nothing w (settle out) := by
  obtain ⟨outcome, w'⟩ := out
  cases outcome with
  | receipt _ => exact h
  | crashed => exact h.trans quiet_reopen

/-- The writes of one request. -/
theorem quiet_symbols {id : SymbolArtifactId} {symbols : ObjectStore SymbolArtifactId}
    (hobjects : symbols.objects = w.vaults.symbols.objects)
    (hstaging : ∀ id', id' ≠ id → symbols.staging.find? id' = w.vaults.symbols.staging.find? id') :
    Quiet x (· = id) new w { w with vaults := { w.vaults with symbols } } where
  rows a ha := by
    refine Or.inr ⟨ha, fun _ _ h => h, fun _ bytes ho => ?_⟩
    show symbols.object? a.artifactId = some bytes
    rw [ObjectStore.object?, hobjects]
    exact ho
  staging id' hid f hf := ⟨f, (hstaging id' hid).symm.trans hf, rfl⟩

/-- A purge that nothing disturbs leaves no row of the artifact. -/
theorem quiet_purge {id : SymbolArtifactId} (ht : SymbolTables options.digests.sha256 w.ledger)
    (hu : host.Undisturbed w) :
    Quiet (some id) own new w (execute options host w (.purgeSymbol id.text)).2 := by
  by_cases hrow : ∃ a ∈ w.ledger.symbolArtifacts, a.artifactId = id
  · obtain ⟨b, hb, rfl⟩ := hrow
    obtain ⟨receipt, l', hrows, hexec⟩ := execute_purge ht hu hb
    refine ⟨?_, ?_⟩
    · intro a ha
      have hold := execute_rows ht (fun he => by cases he) ha
      refine Or.inr ⟨hold.1, hold.2, ?_⟩
      intro hid
      rw [hexec] at ha
      have hmem : a ∈ l'.symbolArtifacts := ha
      rw [hrows.artifacts, Table.mem_delete, decide_eq_false_iff_not] at hmem
      exact absurd (Option.some.inj hid) hmem.2
    · intro id _ f hf
      exact ⟨f, execute_staging (fun _ _ he => by cases he) hf, rfl⟩
  · have hsame : (execute options host w (.purgeSymbol id.text)).2 = w := by
      unfold execute
      cases hplan : plan options host w (.purgeSymbol id.text) with
      | error e => rfl
      | ok p =>
        obtain ⟨t, -, hat⟩ := plan_eq_ok.mp hplan
        obtain ⟨id', hid', hat⟩ := bind_eq_ok.mp hat
        obtain ⟨_, hguard, -⟩ := bind_eq_ok.mp hat
        have hfound := guardThat_eq_ok.mp hguard
        rw [findSymbolArtifactById_ne_none ht] at hfound
        have hx : id' = id := Identifier.ext (parseIdentifier_eq_ok.mp hid')
        rw [hx] at hfound
        exact absurd hfound hrow
    rw [hsame]
    exact Quiet.refl

end Quietness

/-! ## The commands of a request -/

section Requests

variable {options : EngineOptions} {host : Host} {w w' : World} {x : SymbolArtifactId}

/-- A staging file that was created is empty. -/
theorem execute_ingest {kind : String} {receipt : TransitionSuccess}
    (h : execute options host w (.ingestSymbol kind) = (.receipt (.success receipt), w')) :
    receipt.artifactId = some host.symbolId ∧
      ∃ hfree : w.vaults.symbols.staging.find? host.symbolId = none,
        w' = { w with vaults := { w.vaults with symbols :=
          { w.vaults.symbols with
            staging := w.vaults.symbols.staging.insert ⟨host.symbolId, [], true, host.nowMs⟩
              hfree } } } := by
  have hok : (execute options host w (.ingestSymbol kind)).1.succeeded = true := by rw [h]; rfl
  obtain ⟨p, r, hplan, hop, htx, hreceipt⟩ := execute_succeeded hok
  rw [h] at hop htx hreceipt
  obtain ⟨t, -, hat⟩ := plan_eq_ok.mp hplan
  obtain ⟨_, -, hp⟩ := bind_eq_ok.mp hat
  cases pure_eq_ok.mp hp
  rcases transaction_eq_ok.mp htx with ⟨-, rfl, hledger⟩ | ⟨op, hnone, -⟩
  · cases hreceipt
    rcases operation_eq_ok.mp hop with ⟨hnone, -⟩ | ⟨op, hsome, -, hrun⟩
    · cases hnone
    · cases hsome
      obtain ⟨symbols, hcreate, hvaults⟩ := bind_eq_ok.mp hrun
      obtain ⟨hfree, rfl⟩ := ObjectStore.createStaging_eq_ok.mp hcreate
      refine ⟨rfl, hfree, ?_⟩
      obtain ⟨l, v⟩ := w'
      obtain rfl : l = w.ledger := hledger
      obtain rfl := pure_eq_ok.mp hvaults
      rfl
  · cases hnone

/-- A staging file that could not be created is not there. -/
theorem execute_ingest_refused {kind : String} {action : LifecycleAction} {error : StableError}
    (h : execute options (openingHost host) w (.ingestSymbol kind) =
      (.receipt (.failure action error), w')) : w' = w := by
  have hc := execute_cases options (openingHost host) w (.ingestSymbol kind)
  rw [h] at hc
  cases hc with
  | refused _ => rfl
  | @storageThrew p op e v hplan hop hperform =>
    obtain ⟨t, -, hat⟩ := plan_eq_ok.mp hplan
    obtain ⟨_, -, hp⟩ := bind_eq_ok.mp hat
    cases pure_eq_ok.mp hp
    cases hop
    unfold StorageOp.perform openingHost at hperform
    cases hfault : host.storageFault with
    | some fault =>
      rw [hfault] at hperform
      obtain ⟨-, rfl⟩ := Prod.mk.inj hperform
      rfl
    | none =>
      rw [hfault] at hperform
      dsimp only [Option.map_none] at hperform
      generalize StorageOp.run _ _ _ = out at hperform
      cases out with
      | error e =>
        obtain ⟨-, rfl⟩ := Prod.mk.inj hperform
        rfl
      | ok v' => cases hperform
  | @rolledBack p v e hplan hstored hcrash htx =>
    obtain ⟨t, -, hat⟩ := plan_eq_ok.mp hplan
    obtain ⟨_, -, hp⟩ := bind_eq_ok.mp hat
    cases pure_eq_ok.mp hp
    cases htx

/-- What a request starts with. -/
structure Opened (g : Ingest) : Prop where
  kind : symbolKindForFilename g.originalName = some g.kind
  byteSize : g.byteSize = 0
  received : g.received = []
  failed : g.failed = none

/-- How the first part of a request ends. -/
inductive Begun (options : EngineOptions) (host : Host) (w : World) :
    Option (Except HttpErrorCode Ingest) × World → Prop
  | refused (code : HttpErrorCode) : Begun options host w (some (.error code), w)
  | died {kind : String} {w' : World}
      (h : execute options (openingHost host) w (.ingestSymbol kind) = (.crashed, w')) :
      Begun options host w (none, w')
  | opened {kind : String} {receipt : TransitionSuccess} {g : Ingest} {w' : World}
      (h : execute options (openingHost host) w (.ingestSymbol kind) =
        (.receipt (.success receipt), w'))
      (hid : g.artifactId = host.symbolId) (hg : Opened g) :
      Begun options host w (some (.ok g), w')

theorem beginIngest_cases (options : EngineOptions) (host : Host) (w : World)
    (request : IngestRequest) : Begun options host w (beginIngest options host w request) := by
  unfold beginIngest
  cases hname : decodeSymbolFilenameBase64url request.filename with
  | error e => exact .refused _
  | ok originalName =>
    dsimp only
    cases hkind : symbolKindForFilename originalName with
    | none => exact .refused _
    | some kind =>
      dsimp only
      by_cases hlarge : ∃ contentLength ∈ request.contentLength, maxSymbolBytes < contentLength
      · rw [if_pos hlarge]
        exact .refused _
      · rw [if_neg hlarge]
        cases hexec : execute options (openingHost host) w (.ingestSymbol (text kind)) with
        | mk outcome w' =>
          cases outcome with
          | crashed => exact .died hexec
          | receipt receipt =>
            cases receipt with
            | failure action error =>
              rw [execute_ingest_refused hexec]
              exact .refused _
            | success receipt =>
              have hid := (execute_ingest hexec).1
              dsimp only
              rw [hid]
              exact .opened hexec rfl ⟨hkind, rfl, rfl, rfl⟩

theorem assertSymbolIdentity_eq_ok {kind : SymbolArtifactKind} {file id : String}
    {i : SymbolIdentity} :
    assertSymbolIdentity kind file id = .ok i ↔ i.name.text = file ∧ i.id.text = id := by
  have hpair : (∃ name : BoundedText 255, name.text = file ∧ ∃ id' : BoundedText 64,
      id'.text = id ∧ (⟨name, id'⟩ : SymbolIdentity) = i) ↔
        i.name.text = file ∧ i.id.text = id := by
    constructor
    · rintro ⟨name, hname, id', hid, rfl⟩
      exact ⟨hname, hid⟩
    · rintro ⟨hname, hid⟩
      exact ⟨i.name, hname, i.id, hid, rfl⟩
  cases kind <;>
    simpa only [assertSymbolIdentity, bind_eq_ok, assertText_eq_ok, pure_eq_ok] using hpair

/-- What the checks of `SealSymbol` made of the fields. -/
theorem checkSealSymbol_sealFields {g : Ingest} {identity : SymbolIngestIdentity}
    {insert : SymbolArtifactInsert}
    (h : checkSealSymbol (sealFields options g identity) = .ok insert) :
    insert.artifactId = g.artifactId ∧ insert.kind = g.kind ∧
      insert.identity.name.text = identity.file ∧ insert.identity.id.text = identity.id ∧
      insert.sha256 = options.digests.sha256 g.received ∧ (insert.byteSize : Nat) = g.byteSize := by
  simp only [checkSealSymbol, bind_eq_ok, pure_eq_ok] at h
  obtain ⟨a, ha, d, hd, n, hn, _, -, _, -, _, -, _, -, i, hi, rfl⟩ := h
  have hid : a = g.artifactId := Identifier.ext (parseIdentifier_eq_ok.mp ha)
  have hsha : d = options.digests.sha256 g.received := Sha256.ext (assertSha256_eq_ok.mp hd)
  have hsize : (n : Nat) = g.byteSize := by
    unfold assertPositiveBigint at hn
    by_cases hpos : 0 < (sealFields options g identity).byteSize
    · rw [dif_pos hpos] at hn
      cases hn
      exact Int.toNat_natCast g.byteSize
    · rw [dif_neg hpos] at hn
      cases hn
  obtain ⟨hname, hidentity⟩ := assertSymbolIdentity_eq_ok.mp hi
  exact ⟨hid, rfl, hname, hidentity, hsha, hsize⟩

/-- What a `SealSymbol` that wrote rows has done. -/
structure SealedNew (options : EngineOptions) (w w' : World) (receipt : TransitionSuccess)
    (insert : SymbolArtifactInsert) (event : EventIdentity) (artifact : StoredSymbolArtifact) :
    Prop where
  free : w.ledger.findSymbolArtifact insert.identity insert.kind = none
  rows : sealSymbolArtifact options.digests.sha256 w.ledger insert event =
    .ok ((artifact, false), w'.ledger)
  object : w.vaults.symbols.promote insert.artifactId = .ok w'.vaults.symbols
  artifactId : receipt.artifactId = some insert.artifactId
  deduplicated : receipt.deduplicated = some false

/-- What a `SealSymbol` of a stored identity has done. -/
structure SealedAgain (w w' : World) (receipt : TransitionSuccess)
    (insert : SymbolArtifactInsert) (existing : StoredSymbolArtifact) : Prop where
  stored : w.ledger.findSymbolArtifact insert.identity insert.kind = some existing
  ledger : w'.ledger = w.ledger
  staging : w'.vaults.symbols = w.vaults.symbols.removeStaging insert.artifactId
  artifactId : receipt.artifactId = some existing.artifactId
  deduplicated : receipt.deduplicated = some true

theorem execute_seal {fields : SealSymbolFields} {receipt : TransitionSuccess}
    (h : execute options host w (.sealSymbol fields) = (.receipt (.success receipt), w')) :
    ∃ insert, checkSealSymbol fields = .ok insert ∧
      ((∃ event artifact, SealedNew options w w' receipt insert event artifact) ∨
        ∃ existing, SealedAgain w w' receipt insert existing) := by
  have hok : (execute options host w (.sealSymbol fields)).1.succeeded = true := by rw [h]; rfl
  obtain ⟨p, r, hplan, hop, htx, hreceipt⟩ := execute_succeeded hok
  rw [h] at hop htx hreceipt
  obtain ⟨t, -, hat⟩ := plan_eq_ok.mp hplan
  obtain ⟨insert, hcheck, hp⟩ := bind_eq_ok.mp hat
  have hp := pure_eq_ok.mp hp
  refine ⟨insert, hcheck, ?_⟩
  cases hfind : w.ledger.findSymbolArtifact insert.identity insert.kind with
  | some existing =>
    rw [sealSymbolPlan_some hfind] at hp
    subst hp
    rcases transaction_eq_ok.mp htx with ⟨-, rfl, hledger⟩ | ⟨op, hnone, -⟩
    · cases hreceipt
      rcases operation_eq_ok.mp hop with ⟨hnone, -⟩ | ⟨op, hsome, -, hrun⟩
      · cases hnone
      · cases hsome
        have hvaults := congrArg Vaults.symbols (Except.ok.inj hrun)
        exact Or.inr ⟨existing, hfind, hledger, hvaults.symm, rfl, rfl⟩
    · cases hnone
  | none =>
    rw [sealSymbolPlan_none hfind] at hp
    subst hp
    rcases transaction_eq_ok.mp htx with ⟨hnone, -⟩ | ⟨op, hsome, -, hrun⟩
    · cases hnone
    · cases hsome
      rw [LedgerOp.run, LedgerOp.withResult_eq_ok] at hrun
      obtain ⟨⟨artifact, deduplicated⟩, hseal, rfl⟩ := hrun
      rcases sealSymbolArtifact_ok_cases hseal with ⟨hsome, -⟩ | ⟨-, rfl, _, _, -, -, _, -, -, hid⟩
      · rw [hfind] at hsome
        cases hsome
      · cases hreceipt
        rcases operation_eq_ok.mp hop with ⟨hnone, -⟩ | ⟨op, hsome, -, hrun⟩
        · cases hnone
        · cases hsome
          obtain ⟨symbols, hpromote, hvaults⟩ := bind_eq_ok.mp hrun
          have hvaults := pure_eq_ok.mp hvaults
          exact Or.inl ⟨_, artifact, hfind, hseal, by rw [hpromote, ← hvaults],
            congrArg some hid, rfl⟩

/-! ## The end of a request -/

/-- The staging file is closed, and nothing else has changed. -/
structure Synced (w w' : World) (id : SymbolArtifactId) (f : StagingFile SymbolArtifactId) :
    Prop where
  found : w.vaults.symbols.staging.find? id = some f
  closed : w'.vaults.symbols.staging.find? id = some { f with isOpen := false }
  others : ∀ id', id' ≠ id →
    w'.vaults.symbols.staging.find? id' = w.vaults.symbols.staging.find? id'
  objects : w'.vaults.symbols.objects = w.vaults.symbols.objects
  ledger : w'.ledger = w.ledger

theorem synced_of_syncAndClose {id : SymbolArtifactId} {symbols : ObjectStore SymbolArtifactId}
    (h : w.vaults.symbols.syncAndClose id = .ok symbols) :
    ∃ f, Synced w { w with vaults := { w.vaults with symbols } } id f := by
  obtain ⟨f, hf, rfl⟩ := ObjectStore.syncAndClose_eq_ok.mp h
  refine ⟨f, hf, ?_, ?_, rfl, rfl⟩
  · dsimp only
    rw [Table.find?_updateKey_self hf]
  · intro id' hne
    dsimp only
    rw [Table.find?_updateKey_ne (Ne.symm hne)]

/-- How the last part of a request ends. -/
inductive Completed (options : EngineOptions) (hosts : EndHosts) (w : World) (g : Ingest)
    (faults : StagedFaults) : Option IngestAnswer × World → Prop
  | syncThrew (e : Thrown) (h : faults.sync = true ∨
      w.vaults.symbols.staging.find? g.artifactId = none) :
      Completed options hosts w g faults (some (.thrown e), w)
  | openThrew {w' : World} {f : StagingFile SymbolArtifactId} (hsync : faults.sync = false)
      (hw : Synced w w' g.artifactId f) (h : faults.opening = true) :
      Completed options hosts w g faults (some (.thrown ioError), w')
  | readThrew {w' : World} {f : StagingFile SymbolArtifactId} {e : Thrown}
      (hsync : faults.sync = false) (hw : Synced w w' g.artifactId f)
      (hopen : faults.opening = false) (h : stagedIdentity g f.bytes faults.reading = .error e) :
      Completed options hosts w g faults (some (.thrown e), w')
  | unreadable {w' : World} {f : StagingFile SymbolArtifactId} (hsync : faults.sync = false)
      (hw : Synced w w' g.artifactId f) (hopen : faults.opening = false)
      (h : stagedIdentity g f.bytes faults.reading = .ok none) :
      Completed options hosts w g faults
        (failIngest options hosts.failing w' g .symbolIdentityUnreadable)
  | sealing {w' : World} {f : StagingFile SymbolArtifactId} {identity : SymbolIngestIdentity}
      (hsync : faults.sync = false) (hw : Synced w w' g.artifactId f)
      (hopen : faults.opening = false)
      (h : stagedIdentity g f.bytes faults.reading = .ok (some identity)) :
      Completed options hosts w g faults (sealIngest options hosts.sealing w' g identity)

theorem completeIngest_cases (options : EngineOptions) (hosts : EndHosts) (w : World) (g : Ingest)
    (faults : StagedFaults) :
    Completed options hosts w g faults (completeIngest options hosts w g faults) := by
  unfold completeIngest
  by_cases hsync : faults.sync = true
  · rw [if_pos hsync]
    exact .syncThrew _ (Or.inl hsync)
  rw [if_neg hsync]
  have hsync := Bool.eq_false_iff.mpr hsync
  cases hclose : w.vaults.symbols.syncAndClose g.artifactId with
  | error e =>
    refine .syncThrew _ (Or.inr ?_)
    cases hf : w.vaults.symbols.staging.find? g.artifactId with
    | none => rfl
    | some f => cases hclose.symm.trans (ObjectStore.syncAndClose_eq_ok.mpr ⟨f, hf, rfl⟩)
  | ok symbols =>
    obtain ⟨f, hw⟩ := synced_of_syncAndClose hclose
    dsimp only
    by_cases hopen : faults.opening = true
    · rw [if_pos hopen]
      exact .openThrew hsync hw hopen
    rw [if_neg hopen]
    have hopen := Bool.eq_false_iff.mpr hopen
    have hstaged : symbols.staged? g.artifactId = some f.bytes := by
      have hclosed : symbols.staging.find? g.artifactId = some { f with isOpen := false } :=
        hw.closed
      rw [ObjectStore.staged?, hclosed]
      rfl
    rw [hstaged]
    dsimp only
    cases hidentity : stagedIdentity g f.bytes faults.reading with
    | error e => exact .readThrew hsync hw hopen hidentity
    | ok o =>
      cases o with
      | none => exact .unreadable hsync hw hopen hidentity
      | some identity => exact .sealing hsync hw hopen hidentity

theorem failIngest_world (options : EngineOptions) (host : Host) (w : World) (g : Ingest)
    (code : HttpErrorCode) :
    (failIngest options host w g code).2 =
        (execute options host w (.failSymbol g.artifactId.text)).2 ∧
      ∀ answer, (failIngest options host w g code).1 = some answer → answer = .error code := by
  unfold failIngest
  cases execute options host w (.failSymbol g.artifactId.text) with
  | mk outcome w' =>
    cases outcome with
    | receipt receipt => exact ⟨rfl, fun _ h => (Option.some.inj h).symm⟩
    | crashed => exact ⟨rfl, fun _ h => by cases h⟩

/-- How the sealing of a request is answered. -/
inductive Sealing (options : EngineOptions) (g : Ingest) (identity : SymbolIngestIdentity) :
    Outcome × World → Option IngestAnswer × World → Prop
  | crashed {w' : World} : Sealing options g identity (.crashed, w') (none, w')
  | refused {action : LifecycleAction} {error : StableError} {w' : World} :
      Sealing options g identity (.receipt (.failure action error), w')
        (some (.error .storageUnavailable), w')
  | created {receipt : TransitionSuccess} {artifactId : SymbolArtifactId} {w' : World}
      (h : receipt.artifactId = some artifactId) :
      Sealing options g identity (.receipt (.success receipt), w')
        (some (.created ⟨artifactId, g.kind, identity, g.byteSize,
          options.digests.sha256 g.received, decide (receipt.deduplicated = some true)⟩), w')

theorem sealIngest_cases (options : EngineOptions) (host : Host) (w : World) (g : Ingest)
    (identity : SymbolIngestIdentity) :
    Sealing options g identity (execute options host w (.sealSymbol (sealFields options g identity)))
      (sealIngest options host w g identity) := by
  unfold sealIngest
  cases hexec : execute options host w (.sealSymbol (sealFields options g identity)) with
  | mk outcome w' =>
    cases outcome with
    | crashed => exact .crashed
    | receipt receipt =>
      cases receipt with
      | failure action error => exact .refused
      | success receipt =>
        have hid : ∃ artifactId, receipt.artifactId = some artifactId := by
          obtain ⟨insert, -, ⟨_, _, hnew⟩ | ⟨_, hagain⟩⟩ := execute_seal hexec
          · exact ⟨_, hnew.artifactId⟩
          · exact ⟨_, hagain.artifactId⟩
        obtain ⟨artifactId, hid⟩ := hid
        dsimp only
        rw [hid]
        exact .created hid

end Requests

end DumpLedger.Symbols
