import DumpLedger.Properties.SymbolServing

/-!
# What an ingest request leaves behind

A request that is refused should leave no staging file, and the stored symbols as they were. One
that is answered with `201` has stored the identity of its bytes, or found it stored.

Every exit of the handler removes the staging file but the last: `SealSymbol` checks the name and
the annotations when the bytes have landed, and a refusal there is only answered.

* `Clean` — what each part of a request has to leave behind
* `Tidy` — when the last part of a request does so
-/

namespace DumpLedger.Symbols

open Lib SqliteLedger Vocabulary

/-! ## What is left -/

/-- The stored symbols are as they were. -/
structure SameSymbols (w w' : World) : Prop where
  artifacts : w'.ledger.symbolArtifacts = w.ledger.symbolArtifacts
  modules : w'.ledger.modules = w.ledger.modules
  objects : w'.vaults.symbols.objects = w.vaults.symbols.objects

/-- The artifact that an answer tells of is stored. -/
inductive StoredAs (w w' : World) (g : Ingest) (r : SymbolIngestResponse) : Prop
  /-- It is new, and its bytes are those that were received. -/
  | new {i : SymbolIdentity} {artifact : StoredSymbolArtifact}
      (hname : i.name.text = r.identity.file) (hid : i.id.text = r.identity.id)
      (hfind : w'.ledger.findSymbolArtifact i g.kind = some artifact)
      (hartifact : artifact.artifactId = r.artifactId) (hown : r.artifactId = g.artifactId)
      (hobject : w'.vaults.symbols.object? g.artifactId = some g.received)
      (hnew : r.deduplicated = false)
  /-- It was stored before. -/
  | earlier {i : SymbolIdentity} {existing : StoredSymbolArtifact}
      (hname : i.name.text = r.identity.file) (hid : i.id.text = r.identity.id)
      (hfind : w.ledger.findSymbolArtifact i g.kind = some existing)
      (hartifact : existing.artifactId = r.artifactId) (hsame : SameSymbols w w')
      (hearlier : r.deduplicated = true)

/-- What a request that was answered leaves behind. -/
structure NoResidue (w w' : World) (g : Ingest) (answer : IngestAnswer) : Prop where
  staging : w'.vaults.symbols.staging.find? g.artifactId = none
  outcome :
    (∃ r, answer = .created r ∧ stagedIdentity g g.received none = .ok (some r.identity) ∧
      StoredAs w w' g r) ∨
    (∀ r, answer ≠ .created r) ∧ SameSymbols w w'

/-- What the parts of a request leave behind. -/
def Clean (options : EngineOptions) (s : SymbolServer) : SymbolStep → Prop
  | .post host request =>
    SameSymbols s.world (s.post options host request).world ∧
      ∀ code, (beginIngest options host s.world request).1 = some (.error code) →
        (s.post options host request).world = s.world
  | .chunk nowMs id bytes fault =>
    SameSymbols s.world (s.step options (.chunk nowMs id bytes fault)).world
  | .stop host id => ∀ g answer, s.ingests id = some g →
    (stopIngest options host s.world g).1 = some answer →
      NoResidue s.world (stopIngest options host s.world g).2 g answer
  | .complete hosts id faults => ∀ g answer, s.ingests id = some g → g.failed = none →
    (completeIngest options hosts s.world g faults).1 = some answer →
      NoResidue s.world (completeIngest options hosts s.world g faults).2 g answer
  | _ => True

/-! ## When -/

/-- A staging file can be removed. -/
structure RemovesStaging (host : Host) : Prop where
  clock : ∃ occurredAt : IsoTimestamp, occurredAt.text = host.now
  storage : host.storageFault = none

/-- The removals of staging files succeed, and the process lives. -/
def Removes (s : SymbolServer) : SymbolStep → Prop
  | .stop host _ => RemovesStaging host
  | .complete hosts id _ => RemovesStaging hosts.failing ∧ hosts.failing.crash = false ∧
    hosts.sealing.crash = false ∧
    ∀ g (i : SymbolIdentity) (existing : StoredSymbolArtifact), s.ingests id = some g →
      stagedIdentity g g.received none = .ok (some ⟨i.name.text, i.id.text⟩) →
      s.world.ledger.findSymbolArtifact i g.kind = some existing → hosts.sealing.storageFault = none
  | _ => True

/-- The name and the annotations that `SealSymbol` lets through. -/
structure WithinBounds (g : Ingest) : Prop where
  name : utf16Length g.originalName ≤ 255
  product : ∀ v ∈ g.product, isBoundedText 200 v = true
  version : ∀ v ∈ g.version, isBoundedText 200 v = true
  arch : ∀ v ∈ g.arch, isBoundedText 64 v = true

/-- A new artifact can be stored. -/
structure Promotable (options : EngineOptions) (host : Host) (w : World) (id : SymbolArtifactId)
    (i : SymbolIdentity) : Prop where
  storage : host.storageFault = none
  ledger : host.ledgerFault = false
  event : w.ledger.auditEvents.find? host.auditId = none
  module : w.ledger.modules.find? (moduleIdFor options.digests.sha256 i) = none
  row : w.ledger.symbolArtifacts.find? id = none
  object : w.vaults.symbols.objects.find? id = none

/-- A staged file with this identity can be sealed. -/
structure Sealable (options : EngineOptions) (host : Host) (w : World) (g : Ingest)
    (identity : SymbolIngestIdentity) : Prop where
  clock : ∃ occurredAt : IsoTimestamp, occurredAt.text = host.now
  bounds : WithinBounds g
  promotable : ∀ i : SymbolIdentity, i.name.text = identity.file → i.id.text = identity.id →
    w.ledger.findSymbolArtifact i g.kind = none → Promotable options host w g.artifactId i

/-- The staged bytes can be read, and sealed if they have an identity. -/
structure Readable (options : EngineOptions) (host : Host) (w : World) (g : Ingest)
    (faults : StagedFaults) : Prop where
  sync : faults.sync = false
  opening : faults.opening = false
  reading : ¬ StagedReadFails g g.received faults.reading
  sealable : ∀ identity, stagedIdentity g g.received none = .ok (some identity) →
    Sealable options host w g identity

/-- **When the end of a request leaves nothing behind.** -/
def Tidy (options : EngineOptions) (s : SymbolServer) : SymbolStep → Prop
  | .complete hosts id faults => ∀ g, s.ingests id = some g → g.failed = none →
    s.world.vaults.symbols.staging.find? id = none ∨
      Readable options hosts.sealing s.world g faults
  | _ => True

/-! ## The checks of the seal -/

section Checks

variable {options : EngineOptions} {g : Ingest} {identity : SymbolIngestIdentity}

theorem isBoundedText_iff {maximum : Nat} {s : String} :
    isBoundedText maximum s = true ↔ s ≠ "" ∧ utf16Length s ≤ maximum ∧ '\x00' ∉ s.toList := by
  simp only [isBoundedText, Bool.and_eq_true, decide_eq_true_eq, Bool.not_eq_true',
    List.contains_eq_mem, decide_eq_false_iff_not, and_assoc]

/-- The grammar of the store counts characters, the engine counts code units. -/
theorem isBoundedText_name (hsegment : storeSegmentProblem (utf16 g.originalName) = none) :
    isBoundedText 255 g.originalName = true ↔ utf16Length g.originalName ≤ 255 := by
  rw [isBoundedText_iff]
  refine ⟨fun h => h.2.1, fun h => ⟨?_, h, ?_⟩⟩
  · intro hempty
    rw [hempty] at hsegment
    cases hsegment
  · intro hnul
    have hbasename := isBasenameSegment_iff.mpr hsegment
    have hmem : (0 : CodeUnit) ∈ utf16 g.originalName :=
      List.mem_flatMap.mpr ⟨_, hnul, List.mem_singleton_self _⟩
    have hcontrol : hasControlCharacter (utf16 g.originalName) = true :=
      List.any_eq_true.mpr ⟨_, hmem, rfl⟩
    unfold isBasenameSegment at hbasename
    simp [hcontrol] at hbasename

theorem isBoundedText_id {id : String} (h : IsStoreId id) : isBoundedText 64 id = true := by
  have hascii : ∀ c ∈ id.toList, c.toNat < 128 := by
    intro c hc
    have := isUpperHex_bounds (h.digits c hc)
    omega
  have hminimum := h.minimum
  rw [isBoundedText_iff]
  refine ⟨?_, ?_, ?_⟩
  · rintro rfl
    simp at hminimum
  · rw [← length_utf16, length_utf16_ascii hascii]
    exact h.maximum
  · intro hnul
    cases h.digits _ hnul

theorem forOption_assertText {o : Option String} {name : String} {maximum : Nat} :
    (∃ b, (forOption o fun v => assertText v name maximum) = .ok b) ↔
      ∀ v ∈ o, isBoundedText maximum v = true := by
  simp only [forOption_eq_ok, assertText_eq_ok]
  constructor
  · rintro ⟨b, ⟨rfl, -⟩ | ⟨v, t, rfl, rfl, -⟩⟩
    · intro v hv
      cases hv
    · intro v hv
      cases hv
      exact t.valid
  · intro h
    cases o with
    | none => exact ⟨none, Or.inl ⟨rfl, rfl⟩⟩
    | some v => exact ⟨_, Or.inr ⟨v, ⟨v, h v rfl⟩, rfl, rfl, rfl⟩⟩

/-- Bytes with an identity are not empty. -/
theorem received_pos {staged : Bytes} {fault : Option Nat}
    (h : stagedIdentity g staged fault = .ok (some identity)) : 0 < staged.length := by
  unfold stagedIdentity at h
  cases hkind : g.kind with
  | pdb =>
    rw [hkind] at h
    obtain ⟨parsed, hparsed, h⟩ := bind_eq_ok.mp h
    obtain ⟨pdb, rfl, -⟩ := Option.map_eq_some_iff.mp (pure_eq_ok.mp h)
    obtain ⟨-, hrun⟩ := identityOrUndefined_eq_some hparsed
    obtain ⟨s, directory, hused⟩ := used_of_run (run_of_fst hrun)
    have hsuper := hused.read.1
    have hge := hsuper.blockSize_ge
    have hle := hsuper.blockSize_le
    unfold msfMinBlockSize at hge
    omega
  | exe =>
    rw [hkind] at h
    obtain ⟨parsed, hparsed, h⟩ := bind_eq_ok.mp h
    obtain ⟨image, rfl, -⟩ := Option.map_eq_some_iff.mp (pure_eq_ok.mp h)
    obtain ⟨-, hrun⟩ := identityOrUndefined_eq_some hparsed
    have hrun := run_of_fst hrun
    unfold parsePeIdentityFrom at hrun
    obtain ⟨_, t, -, hrun⟩ := run_bind_eq_some hrun
    obtain ⟨_, t', hguard, -⟩ := run_bind_eq_some hrun
    rw [answers_guard t] at hguard
    have hle := guard_eq_some (Except.ok.inj (Prod.mk.inj hguard).1)
    omega

/-- **What `SealSymbol` can still refuse** are the name and the annotations. -/
theorem checkSealSymbol_isOk (hn : Named g identity) (hpos : 0 < g.byteSize) :
    (∃ insert, checkSealSymbol (sealFields options g identity) = .ok insert) ↔ WithinBounds g := by
  have hname := @isBoundedText_name g hn.segment
  constructor
  · rintro ⟨insert, h⟩
    have hidentity := checkSealSymbol_sealFields h
    simp only [checkSealSymbol, bind_eq_ok, pure_eq_ok] at h
    obtain ⟨_, -, _, -, _, -, product, hp, version, hv, arch, ha, _⟩ := h
    refine ⟨hname.mp ?_, forOption_assertText.mp ⟨product, hp⟩,
      forOption_assertText.mp ⟨version, hv⟩, forOption_assertText.mp ⟨arch, ha⟩⟩
    rw [← hn.file, ← hidentity.2.2.1]
    exact insert.identity.name.valid
  · intro hb
    obtain ⟨product, hp⟩ := (@forOption_assertText _ "product" _).mpr hb.product
    obtain ⟨version, hv⟩ := (@forOption_assertText _ "version" _).mpr hb.version
    obtain ⟨arch, ha⟩ := (@forOption_assertText _ "arch" _).mpr hb.arch
    have hfile : isBoundedText 255 identity.file = true := by
      rw [hn.file]
      exact hname.mpr hb.name
    have hsize : ∃ n, assertPositiveBigint g.byteSize "byteSize" = .ok n := by
      unfold assertPositiveBigint
      rw [dif_pos (by exact_mod_cast hpos)]
      exact ⟨_, rfl⟩
    obtain ⟨n, hn'⟩ := hsize
    have hauth : ∃ a, (forOption (some (text g.ingestAuth)) parseSymbolIngestAuthChannel) =
        .ok a := by
      cases g.ingestAuth <;> exact ⟨_, rfl⟩
    obtain ⟨auth, hauth⟩ := hauth
    simp only [checkSealSymbol, bind_eq_ok, pure_eq_ok]
    exact ⟨_, _, parseIdentifier_eq_ok.mpr rfl, _, assertSha256_eq_ok.mpr rfl, n, hn', product, hp,
      version, hv, arch, ha, auth, hauth, ⟨⟨_, hfile⟩, ⟨_, isBoundedText_id hn.id⟩⟩,
      assertSymbolIdentity_eq_ok.mpr ⟨rfl, rfl⟩, rfl⟩

end Checks

/-! ## Sealing -/

/-- The world at the end of a request, with the bytes that were received in its staging file. -/
structure Staged (options : EngineOptions) (w : World) (g : Ingest)
    (identity : SymbolIngestIdentity) : Prop where
  tables : SymbolTables options.digests.sha256 w.ledger
  size : g.byteSize = g.received.length
  parsed : stagedIdentity g g.received none = .ok (some identity)
  file : ∃ f, w.vaults.symbols.staging.find? g.artifactId = some f ∧ f.isOpen = false ∧
    f.bytes = g.received

section Sealing

variable {options : EngineOptions} {host : Host} {w w' : World} {g : Ingest}
  {identity : SymbolIngestIdentity}

theorem SameSymbols.refl : SameSymbols w w := ⟨rfl, rfl, rfl⟩

theorem SameSymbols.trans {w'' : World} (h : SameSymbols w w') (h' : SameSymbols w' w'') :
    SameSymbols w w'' :=
  ⟨h'.artifacts.trans h.artifacts, h'.modules.trans h.modules, h'.objects.trans h.objects⟩

/-- The plan of a seal whose fields are in order. -/
theorem Staged.planned (h : Staged options w g identity) (hclock : ∃ t : IsoTimestamp,
    t.text = host.now) (hbounds : WithinBounds g) :
    ∃ t insert, checkSealSymbol (sealFields options g identity) = .ok insert ∧
      plan options host w (.sealSymbol (sealFields options g identity)) =
        .ok (sealSymbolPlan host w t insert) := by
  obtain ⟨t, ht⟩ := hclock
  have hpos : 0 < g.byteSize := by
    rw [h.size]
    exact received_pos h.parsed
  obtain ⟨insert, hcheck⟩ := (checkSealSymbol_isOk (stagedIdentity_named h.parsed) hpos).mpr hbounds
  exact ⟨t, insert, hcheck, plan_sealSymbol options w ht hcheck⟩

/-- Both stores do their part, and the process lives. -/
theorem succeeded_of_done {command : Command} {p : Plan} {v : Vaults} {r : LedgerResult}
    {l : SqliteLedger} (hplan : plan options host w command = .ok p)
    (hstored : (p.twoStore options host).operation w.vaults = (.ok (), v))
    (hcrash : host.crash = false)
    (htx : (p.twoStore options host).transaction w.ledger = .ok (r, l)) :
    (execute options host w command).1.succeeded = true := by
  rw [execute_of_done hplan hstored hcrash htx]
  rfl

/-- The staging file becomes the object, or is there still. -/
theorem promote_found {id : SymbolArtifactId} {f : StagingFile SymbolArtifactId}
    {symbols : ObjectStore SymbolArtifactId} (hf : w.vaults.symbols.staging.find? id = some f)
    (h : w.vaults.symbols.promote id = .ok symbols) :
    ∃ hfree : w.vaults.symbols.objects.find? id = none,
      symbols = { w.vaults.symbols.removeStaging id with
        objects := w.vaults.symbols.objects.insert ⟨id, f.bytes⟩ hfree } := by
  rcases ObjectStore.promote_eq_ok.mp h with ⟨hnone, -⟩ | ⟨f', hf', -, hfree, hsymbols⟩
  · cases hf.symm.trans hnone
  · cases hf.symm.trans hf'
    exact ⟨hfree, hsymbols⟩

/-- A promotion adds an object. -/
theorem promoted_objects_ne {id : SymbolArtifactId} {f : StagingFile SymbolArtifactId}
    {symbols : ObjectStore SymbolArtifactId} (hf : w.vaults.symbols.staging.find? id = some f)
    (h : w.vaults.symbols.promote id = .ok symbols) :
    symbols.objects ≠ w.vaults.symbols.objects := by
  obtain ⟨hfree, hsymbols⟩ := promote_found hf h
  intro hsame
  have hinsert : symbols.objects.find? id = some ⟨id, f.bytes⟩ := by
    rw [hsymbols]
    exact Table.find?_insert_self hfree
  rw [hsame, hfree] at hinsert
  cases hinsert

/-- **Sealing succeeds** when the process lives and `Sealable` holds. -/
theorem Staged.succeeded (h : Staged options w g identity)
    (hs : Sealable options host w g identity) (hcrash : host.crash = false)
    (hremove : ∀ i : SymbolIdentity, i.name.text = identity.file → i.id.text = identity.id →
      w.ledger.findSymbolArtifact i g.kind ≠ none → host.storageFault = none) :
    (execute options host w (.sealSymbol (sealFields options g identity))).1.succeeded = true := by
  obtain ⟨t, insert, hcheck, hplan⟩ := h.planned hs.clock hs.bounds
  obtain ⟨hid, hkind, hname, hidentity, -⟩ := checkSealSymbol_sealFields hcheck
  obtain ⟨f, hf, hclosed, -⟩ := h.file
  rw [← hid] at hf
  cases hfind : w.ledger.findSymbolArtifact insert.identity insert.kind with
  | some existing =>
    have hstorage : host.storageFault = none := by
      refine hremove insert.identity hname hidentity ?_
      rw [← hkind, hfind]
      exact Option.some_ne_none existing
    rw [sealSymbolPlan_some hfind] at hplan
    exact succeeded_of_done hplan (operation_eq_ok.mpr (Or.inr ⟨_, rfl, hstorage, rfl⟩)) hcrash
      (transaction_eq_ok.mpr (Or.inl ⟨rfl, rfl, rfl⟩))
  | none =>
    have hst : Promotable options host w insert.artifactId insert.identity := by
      rw [hid]
      refine hs.promotable insert.identity hname hidentity ?_
      rw [← hkind]
      exact hfind
    rw [sealSymbolPlan_none hfind] at hplan
    have hpromote := ObjectStore.promote_eq_ok.mpr (Or.inr ⟨f, hf, hclosed, hst.object, rfl⟩)
    obtain ⟨artifact, l', hseal⟩ :=
      sealSymbolArtifact_new (host.event t) h.tables hfind hst.module hst.row hst.event
    have hrun : (LedgerOp.sealSymbolArtifact insert).run options.digests.sha256 (host.event t)
        w.ledger = .ok (.artifact artifact false, l') := by
      rw [LedgerOp.run, LedgerOp.withResult_eq_ok]
      exact ⟨(artifact, false), hseal, rfl⟩
    exact succeeded_of_done hplan
      (operation_eq_ok.mpr (Or.inr ⟨_, rfl, hst.storage, bind_eq_ok.mpr ⟨_, hpromote, rfl⟩⟩)) hcrash
      (transaction_eq_ok.mpr (Or.inr ⟨_, rfl, hst.ledger, hrun⟩))

/-- What a `SealSymbol` that succeeded has met. -/
theorem Staged.sealable (h : Staged options w g identity)
    (hok : (execute options host w (.sealSymbol (sealFields options g identity))).1.succeeded =
      true) : Sealable options host w g identity := by
  obtain ⟨p, r, hplan, hop, htx, -⟩ := execute_succeeded hok
  generalize (execute options host w (.sealSymbol (sealFields options g identity))).2 = w'
    at hop htx
  obtain ⟨t, hclock, hat⟩ := plan_eq_ok.mp hplan
  obtain ⟨insert, hcheck, hp⟩ := bind_eq_ok.mp hat
  have hp := pure_eq_ok.mp hp
  obtain ⟨hid, hkind, hname, hidentity, -⟩ := checkSealSymbol_sealFields hcheck
  obtain ⟨f, hf, -⟩ := h.file
  have hpos : 0 < g.byteSize := by
    rw [h.size]
    exact received_pos h.parsed
  refine ⟨⟨t, hclock⟩,
    (checkSealSymbol_isOk (stagedIdentity_named h.parsed) hpos).mp ⟨insert, hcheck⟩, ?_⟩
  intro i hi hi' hnone
  have hsame : i = insert.identity := by
    cases i
    exact congrArg₂ SymbolIdentity.mk (BoundedText.ext (hi.trans hname.symm))
      (BoundedText.ext (hi'.trans hidentity.symm))
  rw [hsame, ← hkind] at hnone
  rw [hsame]
  rw [sealSymbolPlan_none hnone] at hp
  subst hp
  rcases operation_eq_ok.mp hop with ⟨hop, -⟩ | ⟨op, hop, hstorage, hrun⟩
  · cases hop
  cases hop
  rcases transaction_eq_ok.mp htx with ⟨hop, -⟩ | ⟨op, hop, hledger, hseal⟩
  · cases hop
  cases hop
  rw [LedgerOp.run, LedgerOp.withResult_eq_ok] at hseal
  obtain ⟨⟨artifact, deduplicated⟩, hseal, -⟩ := hseal
  obtain ⟨symbols, hpromote, -⟩ := bind_eq_ok.mp hrun
  rw [hid] at hpromote
  obtain ⟨hobject, -⟩ := promote_found hf hpromote
  rcases sealSymbolArtifact_ok_cases hseal with ⟨hsome, -⟩ | ⟨-, -, l₁, l₂, h₁, h₂, hevent, -⟩
  · rw [hnone] at hsome
    cases hsome
  · rcases insertModule_eq_ok.mp h₁ with ⟨hex, -⟩ | ⟨-, hmodule, rfl⟩
    · exact absurd hex (insertModule_of_not_stored h.tables hnone)
    · obtain ⟨-, -, hrow, rfl⟩ := insertSymbolArtifact_eq_ok.mp h₂
      rw [hid] at hrow
      exact ⟨hstorage, hledger, hevent, hmodule, hrow, hobject⟩

/-- **A seal that is refused leaves the staging file, or an object without an artifact.** -/
theorem Staged.residue (h : Staged options w g identity) {action : LifecycleAction}
    {error : StableError}
    (hexec : execute options host w (.sealSymbol (sealFields options g identity)) =
      (.receipt (.failure action error), w'))
    (hremove : ∀ i : SymbolIdentity, i.name.text = identity.file → i.id.text = identity.id →
      w.ledger.findSymbolArtifact i g.kind ≠ none → host.storageFault = none)
    (hstaging : w'.vaults.symbols.staging.find? g.artifactId = none) : ¬ SameSymbols w w' := by
  obtain ⟨f, hf, -⟩ := h.file
  have hthere : ∀ {w'' : World}, w''.vaults.symbols = w.vaults.symbols →
      ¬ w''.vaults.symbols.staging.find? g.artifactId = none := by
    intro w'' hsame hnone
    rw [hsame, hf] at hnone
    cases hnone
  have hplanned : ∀ {p : Plan}, plan options host w (.sealSymbol (sealFields options g identity)) =
      .ok p → ∃ t insert, p = sealSymbolPlan host w t insert ∧ insert.artifactId = g.artifactId ∧
        (w.ledger.findSymbolArtifact insert.identity insert.kind ≠ none →
          host.storageFault = none) := by
    intro p hplan
    obtain ⟨t, -, hat⟩ := plan_eq_ok.mp hplan
    obtain ⟨insert, hcheck, hp⟩ := bind_eq_ok.mp hat
    obtain ⟨hid, hkind, hname, hidentity, -⟩ := checkSealSymbol_sealFields hcheck
    refine ⟨t, insert, (pure_eq_ok.mp hp).symm, hid, ?_⟩
    intro hstored
    rw [hkind] at hstored
    exact hremove insert.identity hname hidentity hstored
  have hc := execute_cases options host w (.sealSymbol (sealFields options g identity))
  rw [hexec] at hc
  cases hc with
  | refused _ => exact absurd hstaging (hthere rfl)
  | @storageThrew p op e v hplan hop hperform =>
    obtain ⟨t, insert, rfl, hid, hnofault⟩ := hplanned hplan
    cases hfind : w.ledger.findSymbolArtifact insert.identity insert.kind with
    | some existing =>
      -- a removal that may not fail
      rw [hfind] at hnofault
      have hnofault := hnofault (Option.some_ne_none existing)
      rw [sealSymbolPlan_some hfind] at hop
      cases hop
      rw [hnofault] at hperform
      cases hperform
    | none =>
      rw [sealSymbolPlan_none hfind] at hop
      cases hop
      rcases StorageOp.perform_cases hperform with hrun | ⟨rfl, -⟩
      · obtain ⟨symbols, hpromote, hv⟩ := bind_eq_ok.mp hrun
        cases pure_eq_ok.mp hv
        rw [hid] at hpromote
        exact fun hsame => promoted_objects_ne hf hpromote hsame.objects
      · exact absurd hstaging (hthere rfl)
  | @rolledBack p v e hplan hstored hcrash htx =>
    obtain ⟨t, insert, rfl, hid, -⟩ := hplanned hplan
    cases hfind : w.ledger.findSymbolArtifact insert.identity insert.kind with
    | some existing =>
      rw [sealSymbolPlan_some hfind] at htx
      cases htx
    | none =>
      rw [sealSymbolPlan_none hfind] at hstored ⊢
      rcases operation_eq_ok.mp hstored with ⟨hop, -⟩ | ⟨op, hop, -, hrun⟩
      · cases hop
      · cases hop
        obtain ⟨symbols, hpromote, hv⟩ := bind_eq_ok.mp hrun
        cases pure_eq_ok.mp hv
        rw [hid] at hpromote
        exact fun hsame => promoted_objects_ne hf hpromote hsame.objects

/-- What a seal that succeeded is answered with is stored. -/
theorem Staged.noResidue (h : Staged options w g identity) {receipt : TransitionSuccess}
    {artifactId : SymbolArtifactId}
    (hexec : execute options host w (.sealSymbol (sealFields options g identity)) =
      (.receipt (.success receipt), w'))
    (hreceipt : receipt.artifactId = some artifactId) :
    NoResidue w w' g (.created ⟨artifactId, g.kind, identity, g.byteSize,
      options.digests.sha256 g.received, decide (receipt.deduplicated = some true)⟩) := by
  obtain ⟨insert, hcheck, hcases⟩ := execute_seal hexec
  obtain ⟨hid, hkind, hname, hidentity, -⟩ := checkSealSymbol_sealFields hcheck
  obtain ⟨f, hf, -, hbytes⟩ := h.file
  rcases hcases with ⟨event, artifact, hnew⟩ | ⟨existing, hagain⟩
  · have hpromote := hnew.object
    rw [hid] at hpromote
    obtain ⟨hfree, hsymbols⟩ := promote_found hf hpromote
    have hartifact : artifactId = insert.artifactId :=
      Option.some.inj (hreceipt.symm.trans hnew.artifactId)
    rcases sealSymbolArtifact_rows h.tables hnew.rows with ⟨-, hfalse, -⟩ | ⟨-, -, hfind, hown, -⟩
    · cases hfalse
    · refine ⟨?_, Or.inl ⟨_, rfl, h.parsed, ?_⟩⟩
      · rw [hsymbols]
        exact find?_removed _ _
      · refine .new hname hidentity (hkind ▸ hfind) (hown.trans hartifact.symm)
          (hartifact.trans hid) ?_ ?_
        · rw [hsymbols, ← hbytes]
          exact congrArg (Option.map StoredObject.bytes) (Table.find?_insert_self hfree)
        · rw [hnew.deduplicated]
          rfl
  · refine ⟨?_, Or.inl ⟨_, rfl, h.parsed, ?_⟩⟩
    · rw [hagain.staging, hid]
      exact find?_removed _ _
    · refine .earlier hname hidentity (hkind ▸ hagain.stored)
        (Option.some.inj (hagain.artifactId.symm.trans hreceipt)) ⟨?_, ?_, ?_⟩ ?_
      · rw [hagain.ledger]
      · rw [hagain.ledger]
      · rw [hagain.staging]
        rfl
      · rw [hagain.deduplicated]
        rfl

end Sealing

/-! ## The parts of a request -/

section Parts

variable {options : EngineOptions} {host : Host} {s : SymbolServer} {w w' : World} {g : Ingest}
  {answer : IngestAnswer}

/-- A command that neither seals nor purges. -/
theorem execute_sameSymbols {command : Command} (hseal : command.type ≠ .sealSymbol)
    (hpurge : command.type ≠ .purgeSymbol) :
    SameSymbols w (execute options host w command).2 := by
  have hobjects : (execute options host w command).2.vaults.symbols.objects =
      w.vaults.symbols.objects := by
    have hs := execute_symbols options host w command
    generalize (execute options host w command).2.vaults.symbols = symbols at hs ⊢
    cases hs with
    | kept => rfl
    | done hop hrun =>
      cases hop with
      | beginUpload | promoteObject =>
        obtain ⟨_, -, hv⟩ := bind_eq_ok.mp hrun
        cases pure_eq_ok.mp hv
        rfl
      | failUpload | finishPurge | failSymbol =>
        cases hrun
        rfl
      | ingestSymbol =>
        obtain ⟨symbols, hcreate, hv⟩ := bind_eq_ok.mp hrun
        cases pure_eq_ok.mp hv
        obtain ⟨-, rfl⟩ := ObjectStore.createStaging_eq_ok.mp hcreate
        rfl
      | sealStored | sealNew => exact absurd rfl hseal
      | purgeSymbol => exact absurd rfl hpurge
  rcases execute_ledger options host w command with hl | ⟨p, op, r, hp, hop, hrun, -⟩
  · exact ⟨by rw [hl], by rw [hl], hobjects⟩
  · have haction := plan_action hp hop
    have hchange := (run_changes hrun).symbols
    generalize (execute options host w command).2 = w' at hobjects hrun hchange ⊢
    generalize hmodules : w'.ledger.modules = modules at hchange
    generalize hartifacts : w'.ledger.symbolArtifacts = artifacts at hchange
    cases hchange with
    | same => exact ⟨hartifacts, hmodules, hobjects⟩
    | «sealed» insert hop' =>
      subst hop'
      exact absurd haction.symm hseal
    | purged artifactId hop' =>
      subst hop'
      exact absurd haction.symm hpurge

theorem sameSymbols_reopen : SameSymbols w w.reopen := ⟨rfl, rfl, rfl⟩

theorem sameSymbols_post (options : EngineOptions) (s : SymbolServer) (host : Host)
    (request : IngestRequest) : SameSymbols s.world (s.post options host request).world := by
  have hsame : ∀ kind, SameSymbols s.world
      (execute options (openingHost host) s.world (.ingestSymbol kind)).2 := fun kind =>
    execute_sameSymbols (fun he => by cases he) (fun he => by cases he)
  have hcases := beginIngest_cases options host s.world request
  unfold SymbolServer.post
  generalize beginIngest options host s.world request = out at hcases
  cases hcases with
  | refused code => exact .refl
  | @died kind w' hexec =>
    have hsame := hsame kind
    rw [hexec] at hsame
    exact hsame.trans sameSymbols_reopen
  | @opened kind receipt g w' hexec hid hg =>
    have hsame := hsame kind
    rw [hexec] at hsame
    exact hsame

/-- A request that is refused before a byte has come has changed nothing. -/
theorem post_refused {request : IngestRequest} {code : HttpErrorCode}
    (h : (beginIngest options host s.world request).1 = some (.error code)) :
    (s.post options host request).world = s.world := by
  have hcases := beginIngest_cases options host s.world request
  unfold SymbolServer.post
  generalize beginIngest options host s.world request = out at hcases h
  cases hcases with
  | refused code => rfl
  | died _ => cases h
  | opened _ _ _ => cases h

theorem sameSymbols_append {nowMs : Int} {id : SymbolArtifactId} {bytes : Bytes}
    {symbols : ObjectStore SymbolArtifactId}
    (h : w.vaults.symbols.append nowMs id bytes = .ok symbols) :
    SameSymbols w { w with vaults := { w.vaults with symbols } } := by
  obtain ⟨f, -, -, rfl⟩ := ObjectStore.append_eq_ok.mp h
  exact ⟨rfl, rfl, rfl⟩

theorem sameSymbols_chunk (options : EngineOptions) (s : SymbolServer) (nowMs : Int)
    (id : SymbolArtifactId) (bytes : Bytes) (fault : Option Nat) :
    SameSymbols s.world (s.step options (.chunk nowMs id bytes fault)).world := by
  rw [SymbolServer.step]
  rcases withIngest_cases s id (s.chunk nowMs bytes fault) with hsame | ⟨g, hg, hfailed, hnext⟩
  · rw [hsame]
    exact .refl
  · rw [hnext]
    have hcases := receiveChunk_cases s.world g nowMs bytes fault
    unfold SymbolServer.chunk
    generalize receiveChunk s.world g nowMs bytes fault = out at hcases
    cases hcases with
    | failed _ _ _ _ => exact .refl
    | partly _ _ _ _ happ => exact sameSymbols_append happ
    | whole _ happ => exact sameSymbols_append happ

theorem execute_answers {command : Command} (hcrash : host.crash = false) :
    ∃ receipt, (execute options host w command).1 = .receipt receipt := by
  have hc := execute_cases options host w command
  generalize execute options host w command = out at hc
  obtain ⟨outcome, w'⟩ := out
  cases hc with
  | crashed _ _ hcrash' => cases hcrash.symm.trans hcrash'
  | refused _ | storageThrew _ _ _ | committed _ _ _ _ | rolledBack _ _ _ _ => exact ⟨_, rfl⟩

theorem failIngest_answers (hcrash : host.crash = false) (code : HttpErrorCode) :
    (failIngest options host w g code).1 = some (.error code) := by
  obtain ⟨receipt, hreceipt⟩ :=
    @execute_answers options host w (.failSymbol g.artifactId.text) hcrash
  unfold failIngest
  generalize execute options host w (.failSymbol g.artifactId.text) = out at hreceipt
  obtain ⟨outcome, w'⟩ := out
  subst hreceipt
  rfl

/-- `FailSymbol` removes the staging file, even when the process dies then. -/
theorem execute_failSymbol (hr : RemovesStaging host) (id : SymbolArtifactId) :
    (execute options host w (.failSymbol id.text)).2.vaults.symbols =
      w.vaults.symbols.removeStaging id := by
  obtain ⟨t, ht⟩ := hr.clock
  have hplan : plan options host w (.failSymbol id.text) = .ok
      { event := host.event t, storage := some (.removeSymbolStaging id),
        receipt := { action := .failSymbol, occurredAt := t } } :=
    plan_eq_ok.mpr ⟨t, ht, bind_eq_ok.mpr ⟨id, parseIdentifier_eq_ok.mpr rfl, rfl⟩⟩
  have hc := execute_cases options host w (.failSymbol id.text)
  generalize execute options host w (.failSymbol id.text) = out at hc
  obtain ⟨outcome, w'⟩ := out
  cases hc with
  | refused hplan' => cases hplan.symm.trans hplan'
  | storageThrew hplan' hop hperform =>
    cases hplan.symm.trans hplan'
    cases hop
    rw [hr.storage] at hperform
    cases hperform
  | crashed hplan' hstored _ | committed hplan' hstored _ _ | rolledBack hplan' hstored _ _ =>
    cases hplan.symm.trans hplan'
    rcases operation_eq_ok.mp hstored with ⟨hop, -⟩ | ⟨op, hop, -, hrun⟩
    · cases hop
    · cases hop
      cases hrun
      rfl

theorem noResidue_failIngest (hr : RemovesStaging host) {code : HttpErrorCode}
    (h : (failIngest options host w g code).1 = some answer) :
    NoResidue w (failIngest options host w g code).2 g answer := by
  obtain ⟨hworld, hanswer⟩ := failIngest_world options host w g code
  rw [hworld, hanswer answer h]
  refine ⟨?_, Or.inr ⟨?_, ?_⟩⟩
  · rw [execute_failSymbol hr]
    exact find?_removed _ _
  · intro r he
    cases he
  · exact execute_sameSymbols (fun he => by cases he) (fun he => by cases he)

/-- The closing of a staging file is no change to what is stored. -/
theorem Synced.noResidue_iff {w₀ : World} {f : StagingFile SymbolArtifactId}
    (h : Synced w₀ w g.artifactId f) : NoResidue w w' g answer ↔ NoResidue w₀ w' g answer := by
  have hsame : SameSymbols w w' ↔ SameSymbols w₀ w' := by
    constructor
    · rintro ⟨ha, hm, ho⟩
      exact ⟨ha.trans (by rw [h.ledger]), hm.trans (by rw [h.ledger]), ho.trans h.objects⟩
    · rintro ⟨ha, hm, ho⟩
      exact ⟨ha.trans (by rw [h.ledger]), hm.trans (by rw [h.ledger]), ho.trans h.objects.symm⟩
  have hstored : ∀ r, StoredAs w w' g r ↔ StoredAs w₀ w' g r := by
    intro r
    constructor
    · intro hs
      cases hs with
      | new hname hid hfind hartifact hown hobject hnew =>
        exact .new hname hid hfind hartifact hown hobject hnew
      | earlier hname hid hfind hartifact hsymbols hearlier =>
        exact .earlier hname hid (h.ledger ▸ hfind) hartifact (hsame.mp hsymbols) hearlier
    · intro hs
      cases hs with
      | new hname hid hfind hartifact hown hobject hnew =>
        exact .new hname hid hfind hartifact hown hobject hnew
      | earlier hname hid hfind hartifact hsymbols hearlier =>
        exact .earlier hname hid (h.ledger ▸ hfind) hartifact (hsame.mpr hsymbols) hearlier
  constructor
  · rintro ⟨hstaging, ⟨r, ha, hparsed, hr⟩ | ⟨ha, hsymbols⟩⟩
    · exact ⟨hstaging, Or.inl ⟨r, ha, hparsed, (hstored r).mp hr⟩⟩
    · exact ⟨hstaging, Or.inr ⟨ha, hsame.mp hsymbols⟩⟩
  · rintro ⟨hstaging, ⟨r, ha, hparsed, hr⟩ | ⟨ha, hsymbols⟩⟩
    · exact ⟨hstaging, Or.inl ⟨r, ha, hparsed, (hstored r).mpr hr⟩⟩
    · exact ⟨hstaging, Or.inr ⟨ha, hsame.mpr hsymbols⟩⟩

theorem Synced.sealable_iff {w₀ : World} {f : StagingFile SymbolArtifactId}
    {identity : SymbolIngestIdentity} (h : Synced w₀ w g.artifactId f) :
    Sealable options host w g identity ↔ Sealable options host w₀ g identity := by
  have hpromotable : ∀ i, Promotable options host w g.artifactId i ↔
      Promotable options host w₀ g.artifactId i := by
    intro i
    constructor
    · rintro ⟨hs, hl, he, hm, hr, ho⟩
      rw [h.ledger] at he hm hr
      exact ⟨hs, hl, he, hm, hr, h.objects ▸ ho⟩
    · rintro ⟨hs, hl, he, hm, hr, ho⟩
      rw [← h.ledger] at he hm hr
      exact ⟨hs, hl, he, hm, hr, h.objects ▸ ho⟩
  constructor
  · rintro ⟨hc, hb, hs⟩
    refine ⟨hc, hb, fun i hi hi' hnone => (hpromotable i).mp (hs i hi hi' ?_)⟩
    rw [h.ledger]
    exact hnone
  · rintro ⟨hc, hb, hs⟩
    refine ⟨hc, hb, fun i hi hi' hnone => (hpromotable i).mpr (hs i hi hi' ?_)⟩
    rw [← h.ledger]
    exact hnone

/-- **The seal of a request leaves nothing behind if and only if it succeeds.** -/
theorem Staged.noResidue_iff {identity : SymbolIngestIdentity}
    (h : Staged options w g identity) (hcrash : host.crash = false)
    (hremove : ∀ i : SymbolIdentity, i.name.text = identity.file → i.id.text = identity.id →
      w.ledger.findSymbolArtifact i g.kind ≠ none → host.storageFault = none) :
    ∃ answer, (sealIngest options host w g identity).1 = some answer ∧
      (NoResidue w (sealIngest options host w g identity).2 g answer ↔
        Sealable options host w g identity) := by
  have hcases := sealIngest_cases options host w g identity
  have hanswers := @execute_answers options host w (.sealSymbol (sealFields options g identity))
    hcrash
  have hsucceeded := fun hs => h.succeeded hs hcrash hremove
  have hsealable : (execute options host w
      (.sealSymbol (sealFields options g identity))).1.succeeded = true →
        Sealable options host w g identity := h.sealable
  cases hexec : execute options host w (.sealSymbol (sealFields options g identity)) with
  | mk outcome w' =>
    rw [hexec] at hcases hanswers hsucceeded hsealable
    generalize sealIngest options host w g identity = out at hcases
    cases hcases with
    | crashed =>
      obtain ⟨receipt, hreceipt⟩ := hanswers
      cases hreceipt
    | refused =>
      refine ⟨_, rfl, fun hno => ?_, fun hs => ?_⟩
      · rcases hno.outcome with ⟨r, hr, -⟩ | ⟨-, hsame⟩
        · cases hr
        · exact absurd hsame (h.residue hexec hremove hno.staging)
      · cases hsucceeded hs
    | created hreceipt =>
      exact ⟨_, rfl, fun _ => hsealable rfl, fun _ => h.noResidue hexec hreceipt⟩

/-- The end of a request whose bytes are those in its staging file. -/
theorem completed_noResidue_iff (ht : SymbolTables options.digests.sha256 s.world.ledger)
    (hfed : Fed s.world g) (hg : s.ingests g.artifactId = some g) (hfailed : g.failed = none)
    {hosts : EndHosts} {faults : StagedFaults}
    (hr : Removes s (.complete hosts g.artifactId faults)) :
    ∃ answer, (completeIngest options hosts s.world g faults).1 = some answer ∧
      (NoResidue s.world (completeIngest options hosts s.world g faults).2 g answer ↔
        s.world.vaults.symbols.staging.find? g.artifactId = none ∨
          Readable options hosts.sealing s.world g faults) := by
  obtain ⟨hremoves, hfailing, hsealing, hdrops⟩ := hr
  obtain ⟨hsize, -, hbytes⟩ := hfed.whole hfailed
  -- a file that is left behind is no longer open
  have hleft : ∀ {w' : World} {f : StagingFile SymbolArtifactId} {answer : IngestAnswer},
      Synced s.world w' g.artifactId f → ¬ NoResidue s.world w' g answer := by
    intro w' f answer hw hno
    cases hw.closed.symm.trans hno.staging
  have hfound : ∀ {w' : World} {f : StagingFile SymbolArtifactId},
      Synced s.world w' g.artifactId f →
        s.world.vaults.symbols.staging.find? g.artifactId ≠ none := by
    intro w' f hw hnone
    cases hw.found.symm.trans hnone
  have hcases := completeIngest_cases options hosts s.world g faults
  generalize completeIngest options hosts s.world g faults = out at hcases
  cases hcases with
  | syncThrew e h =>
    refine ⟨_, rfl, fun hno => Or.inl hno.staging, fun htidy => ?_⟩
    have hnone : s.world.vaults.symbols.staging.find? g.artifactId = none := by
      rcases h with hsync | hnone
      · rcases htidy with hnone | hreadable
        · exact hnone
        · cases hreadable.sync.symm.trans hsync
      · exact hnone
    refine ⟨hnone, Or.inr ⟨?_, .refl⟩⟩
    intro r he
    cases he
  | openThrew hsync hw h =>
    refine ⟨_, rfl, fun hno => absurd hno (hleft hw), fun htidy => ?_⟩
    rcases htidy with hnone | hreadable
    · exact absurd hnone (hfound hw)
    · cases hreadable.opening.symm.trans h
  | @readThrew w' f e hsync hw hopen h =>
    refine ⟨_, rfl, fun hno => absurd hno (hleft hw), fun htidy => ?_⟩
    rcases htidy with hnone | hreadable
    · exact absurd hnone (hfound hw)
    · rw [hbytes f hw.found] at h
      exact absurd (stagedIdentity_eq_error.mp ⟨e, h⟩) hreadable.reading
  | @unreadable w' f hsync hw hopen h =>
    rw [hbytes f hw.found] at h
    have hanswer :=
      @failIngest_answers options hosts.failing w' g hfailing .symbolIdentityUnreadable
    refine ⟨_, hanswer, fun _ => Or.inr ⟨hsync, hopen, ?_, ?_⟩, fun _ => ?_⟩
    · intro hfails
      obtain ⟨e, he⟩ := stagedIdentity_eq_error.mpr hfails
      cases h.symm.trans he
    · intro identity hidentity
      cases (stagedIdentity_of_ok h).symm.trans hidentity
    · exact hw.noResidue_iff.mp (noResidue_failIngest hremoves hanswer)
  | @sealing w' f identity hsync hw hopen h =>
    rw [hbytes f hw.found] at h
    have hparsed := stagedIdentity_of_ok h
    have hstaged : Staged options w' g identity := by
      refine ⟨?_, hsize, hparsed, _, hw.closed, rfl, hbytes f hw.found⟩
      rw [hw.ledger]
      exact ht
    have hremove : ∀ i : SymbolIdentity, i.name.text = identity.file → i.id.text = identity.id →
        w'.ledger.findSymbolArtifact i g.kind ≠ none → hosts.sealing.storageFault = none := by
      intro i hi hi' hstored
      obtain ⟨existing, hexisting⟩ := Option.ne_none_iff_exists'.mp hstored
      rw [hw.ledger] at hexisting
      refine hdrops g i existing hg ?_ hexisting
      rw [hi, hi']
      exact hparsed
    obtain ⟨answer, hanswer, hiff⟩ := hstaged.noResidue_iff hsealing hremove
    refine ⟨answer, hanswer, ?_⟩
    rw [← hw.noResidue_iff, hiff, hw.sealable_iff]
    constructor
    · intro hsealable
      refine Or.inr ⟨hsync, hopen, ?_, ?_⟩
      · intro hfails
        obtain ⟨e, he⟩ := stagedIdentity_eq_error.mpr hfails
        cases h.symm.trans he
      · intro identity' hidentity'
        cases hparsed.symm.trans hidentity'
        exact hsealable
    · rintro (hnone | hreadable)
      · exact absurd hnone (hfound hw)
      · exact hreadable.sealable identity hparsed

end Parts

/-- **An ingest request leaves nothing behind** but what it was answered with if and only if the
staged bytes can be read to their end and `SealSymbol` refuses nothing when they have an identity.
This holds in every state of the server. -/
theorem ingest_leaves_no_residue {options : EngineOptions} {steps : List SymbolStep}
    {e : SymbolStep} (hr : Removes (served options steps) e) :
    Clean options (served options steps) e ↔ Tidy options (served options steps) e := by
  have h : Serving options none (served options steps) := by
    refine invariant_run (fun s e hi => serving_step hi ?_) serving_start
    intro id hid
    cases hid
  generalize served options steps = s at h hr
  cases e with
  | post host request =>
    exact ⟨fun _ => trivial, fun _ => ⟨sameSymbols_post options s host request,
      fun _ => post_refused⟩⟩
  | chunk nowMs id bytes fault =>
    exact ⟨fun _ => trivial, fun _ => sameSymbols_chunk options s nowMs id bytes fault⟩
  | stop host id =>
    exact ⟨fun _ => trivial, fun _ g answer _ hanswer => noResidue_failIngest hr hanswer⟩
  | complete hosts id faults =>
    constructor
    · intro hclean g hg hfailed
      obtain ⟨rfl, hfed⟩ := h.fed id g hg
      obtain ⟨answer, hanswer, hiff⟩ := completed_noResidue_iff h.tables hfed hg hfailed hr
      exact hiff.mp (hclean g answer hg hfailed hanswer)
    · intro htidy g answer hg hfailed hanswer
      obtain ⟨rfl, hfed⟩ := h.fed id g hg
      obtain ⟨answer', hanswer', hiff⟩ := completed_noResidue_iff h.tables hfed hg hfailed hr
      cases hanswer.symm.trans hanswer'
      exact hiff.mpr (htidy g hg hfailed)
  | delete | other | restart => exact ⟨fun _ => trivial, fun _ => trivial⟩

namespace Sample

/-- The image has arrived, with an annotation that says which product it is of. -/
def openSteps (product : Option String) : List SymbolStep :=
  [.post (DumpLedger.Sample.host 0) { request with product },
    .chunk 1767225600000 artifactId image none]

def ending : SymbolStep :=
  .complete ⟨DumpLedger.Sample.host 1, DumpLedger.Sample.host 2⟩ artifactId ⟨false, false, none⟩

theorem removesStaging_host (n : Fin 10) : RemovesStaging (DumpLedger.Sample.host n) :=
  ⟨⟨⟨"2026-01-01T00:00:00.000Z", by decide⟩, rfl⟩, rfl⟩

theorem removes_ending (s : SymbolServer) : Removes s ending :=
  ⟨removesStaging_host 2, rfl, rfl, fun _ _ _ _ _ _ => rfl⟩

end Sample

/-- At the end of a request without annotations. -/
theorem ingest_leaves_no_residue_image :
    Clean DumpLedger.Sample.options (served DumpLedger.Sample.options (Sample.openSteps none))
        Sample.ending ↔
      Tidy DumpLedger.Sample.options (served DumpLedger.Sample.options (Sample.openSteps none))
        Sample.ending :=
  ingest_leaves_no_residue (Sample.removes_ending _)

/-- A request whose product is the empty text is refused when the image has been staged, and the
staging file stays. -/
theorem ingest_leaves_residue :
    Removes (served DumpLedger.Sample.options (Sample.openSteps (some ""))) Sample.ending ∧
      ¬ Clean DumpLedger.Sample.options
        (served DumpLedger.Sample.options (Sample.openSteps (some ""))) Sample.ending := by
  refine ⟨Sample.removes_ending _, fun hclean => ?_⟩
  have hopen : ∃ g ∈ (served DumpLedger.Sample.options
      (Sample.openSteps (some ""))).ingests Sample.artifactId, g.failed = none ∧
        g.artifactId = Sample.artifactId ∧
        (completeIngest DumpLedger.Sample.options
          ⟨DumpLedger.Sample.host 1, DumpLedger.Sample.host 2⟩
          (served DumpLedger.Sample.options (Sample.openSteps (some ""))).world g
          ⟨false, false, none⟩).1 = some (.error .storageUnavailable) ∧
        (completeIngest DumpLedger.Sample.options
          ⟨DumpLedger.Sample.host 1, DumpLedger.Sample.host 2⟩
          (served DumpLedger.Sample.options (Sample.openSteps (some ""))).world g
          ⟨false, false, none⟩).2.vaults.symbols.staging.contains Sample.artifactId = true := by
    decide +kernel
  obtain ⟨g, hg, hfailed, hid, hanswer, hstaging⟩ := hopen
  have hno := (hclean g _ hg hfailed hanswer).staging
  rw [hid] at hno
  cases hstaging.symm.trans (Table.contains_eq_false.mpr hno)

end DumpLedger.Symbols
