import DumpLedger.Properties.SymbolServer

/-!
# What is stored is served

Every artifact that the ingest route has stored is there for the debuggers, under the name of its
file and its identifier in either case, with the bytes that were received, until it is purged.
-/

namespace DumpLedger.Symbols

open Lib SqliteLedger Vocabulary

/-! ## The invariant -/

/-- The bytes of an open request are those in its staging file. -/
structure Fed (w : World) (g : Ingest) : Prop where
  kind : symbolKindForFilename g.originalName = some g.kind
  whole : g.failed = none → g.byteSize = g.received.length ∧ g.byteSize ≤ maxSymbolBytes ∧
    ∀ f, w.vaults.symbols.staging.find? g.artifactId = some f → f.bytes = g.received

/-- A row that a request was answered for. -/
structure Recorded (w : World) (a : SymbolArtifactRow) (g : Ingest) (r : SymbolIngestResponse) :
    Prop where
  artifact : r.artifactId = a.artifactId
  new : r.deduplicated = false
  parsed : stagedIdentity g g.received none = .ok (some r.identity)
  resolves : ∃ i : SymbolIdentity, i.name.text = r.identity.file ∧ i.id.text = r.identity.id ∧
    w.ledger.resolvesTo a i a.kind
  kind : symbolKindForFilename g.originalName = some a.kind
  size : g.received.length ≤ maxSymbolBytes

/-- The row has its request, and the bytes of the one under `x` are in the vault. -/
def StoredFrom (x : Option SymbolArtifactId) (answers : List (Ingest × IngestAnswer)) (w : World)
    (a : SymbolArtifactRow) : Prop :=
  ∃ g r, (g, IngestAnswer.created r) ∈ answers ∧ Recorded w a g r ∧
    (some a.artifactId = x → w.vaults.symbols.object? a.artifactId = some g.received)

structure Serving (options : EngineOptions) (x : Option SymbolArtifactId) (s : SymbolServer) :
    Prop where
  tables : SymbolTables options.digests.sha256 s.world.ledger
  fed : ∀ id g, s.ingests id = some g → g.artifactId = id ∧ Fed s.world g
  rows : ∀ a ∈ s.world.ledger.symbolArtifacts, StoredFrom x s.answers s.world a

section Keeping

variable {options : EngineOptions} {x : Option SymbolArtifactId} {id : SymbolArtifactId}
  {s s' : SymbolServer} {w w' : World}
  {g : Ingest} {own : SymbolArtifactId → Prop} {new : SymbolArtifactRow → Prop}

theorem serving_start : Serving options x .start where
  tables := symbolTables_fresh
  fed _ _ h := by cases h
  rows _ h := absurd h Table.not_mem_empty

theorem StoredFrom.kept {answers answers' : List (Ingest × IngestAnswer)} {a : SymbolArtifactRow}
    (h : StoredFrom x answers w a) (hk : Kept x w w' a) (ha : ∀ p ∈ answers, p ∈ answers') :
    StoredFrom x answers' w' a := by
  obtain ⟨g, r, hmem, hr, hobject⟩ := h
  obtain ⟨i, hname, hid, hres⟩ := hr.resolves
  exact ⟨g, r, ha _ hmem,
    { hr with resolves := ⟨i, hname, hid, hk.resolves i a.kind hres⟩ },
    fun he => hk.object he _ (hobject he)⟩

theorem Fed.quiet (h : Fed w g) (hq : Quiet x own new w w') (hown : ¬ own g.artifactId) :
    Fed w' g where
  kind := h.kind
  whole hf := by
    obtain ⟨hsize, hmax, hbytes⟩ := h.whole hf
    refine ⟨hsize, hmax, ?_⟩
    intro f hfind
    obtain ⟨f₀, hf₀, hsame⟩ := hq.staging _ hown f hfind
    rw [hsame]
    exact hbytes f₀ hf₀

/-- What a step has to show besides being quiet. -/
theorem Serving.step (h : Serving options x s) (hq : Quiet x own new s.world s'.world)
    (ht : SymbolTables options.digests.sha256 s'.world.ledger)
    (hfed : ∀ id g, s'.ingests id = some g →
      ¬ own id ∧ s.ingests id = some g ∨ g.artifactId = id ∧ Fed s'.world g)
    (hans : ∀ p ∈ s.answers, p ∈ s'.answers)
    (hnew : ∀ a, new a → StoredFrom x s'.answers s'.world a) : Serving options x s' where
  tables := ht
  fed id g hg := by
    rcases hfed id g hg with ⟨hown, hold⟩ | hnew
    · obtain ⟨hid, hf⟩ := h.fed id g hold
      refine ⟨hid, hf.quiet hq ?_⟩
      rw [hid]
      exact hown
    · exact hnew
  rows a ha := by
    rcases hq.rows a ha with ha | hkept
    · exact hnew a ha
    · exact (h.rows a hkept.member).kept hkept hans

/-- The process has died. -/
theorem Serving.restarted (h : Serving options x s) (hq : Quiet x own nothing s.world w)
    (ht : SymbolTables options.digests.sha256 w.ledger) :
    Serving options x (s.restarted w) := by
  have hq' : Quiet x own nothing s.world w.reopen := hq.trans quiet_reopen
  refine h.step hq' ht ?_ (fun _ hp => hp) ?_
  · intro id g hg
    cases hg
  · intro a ha
    exact ha.elim

/-- The step leaves the open requests alone. -/
theorem Serving.world (h : Serving options x s) (hq : Quiet x nothing nothing s.world w)
    (ht : SymbolTables options.digests.sha256 w.ledger) :
    Serving options x { s with world := w } := by
  refine h.step hq ht ?_ (fun _ hp => hp) (fun _ ha => ha.elim)
  intro id g hg
  exact Or.inl ⟨fun hn => hn.elim, hg⟩

end Keeping

/-! ## Each step keeps it -/

section Steps

variable {options : EngineOptions} {x : Option SymbolArtifactId} {s : SymbolServer} {w : World}
  {g : Ingest}

/-- A quiet command of the server. -/
theorem Serving.command (h : Serving options x s) (host : Host) {command : Command}
    (hseal : command.type ≠ .sealSymbol)
    (hpurge : ∀ id, some id = x → command ≠ .purgeSymbol id.text)
    (hingest : command.type ≠ .ingestSymbol) :
    Quiet x nothing nothing s.world (execute options host s.world command).2 ∧
      SymbolTables options.digests.sha256 (execute options host s.world command).2.ledger := by
  refine ⟨quiet_execute h.tables hseal hpurge ?_, execute_tables h.tables⟩
  rintro ⟨kind, rfl⟩
  exact absurd rfl hingest

theorem serving_post (h : Serving options x s) (host : Host) (request : IngestRequest) :
    Serving options x (s.post options host request) := by
  have hquiet : ∀ kind, Quiet x (· = host.symbolId) nothing s.world
      (execute options (openingHost host) s.world (.ingestSymbol kind)).2 := fun kind =>
    quiet_execute h.tables (fun he => by cases he) (fun _ _ he => by cases he) fun _ => rfl
  have htables : ∀ kind, SymbolTables options.digests.sha256
      (execute options (openingHost host) s.world (.ingestSymbol kind)).2.ledger := fun kind =>
    execute_tables h.tables
  have hcases := beginIngest_cases options host s.world request
  unfold SymbolServer.post
  generalize beginIngest options host s.world request = out at hcases
  cases hcases with
  | refused code => exact h
  | @died kind w' hexec =>
    have hq := hquiet kind
    have ht := htables kind
    rw [hexec] at hq ht
    exact h.restarted hq ht
  | @opened kind receipt g w' hexec hid hg =>
    have hq := hquiet kind
    have ht := htables kind
    rw [hexec] at hq ht
    obtain ⟨-, hfree, hw⟩ := execute_ingest hexec
    refine h.step hq ht ?_ (fun _ hp => hp) fun _ ha => ha.elim
    intro id g' hg'
    by_cases he : id = g.artifactId
    · subst he
      have hgg : some g = some g' := (Function.update_self g.artifactId (some g) s.ingests).symm.trans
        hg'
      cases hgg
      refine Or.inr ⟨rfl, hg.kind, fun _ => ?_⟩
      rw [hg.byteSize, hg.received]
      refine ⟨rfl, Nat.zero_le _, ?_⟩
      intro f hf
      have hcreated : w'.vaults.symbols.staging.find? host.symbolId =
          some ⟨host.symbolId, [], true, host.nowMs⟩ := by
        rw [hw]
        exact Table.find?_insert_self hfree
      have hf : w'.vaults.symbols.staging.find? g.artifactId = some f := hf
      rw [hid, hcreated] at hf
      cases hf
      rfl
    · have hold : s.ingests id = some g' := (Function.update_of_ne he (some g) s.ingests).symm.trans
        hg'
      exact Or.inl ⟨fun hown => he (hown.trans hid.symm), hold⟩

/-- The next part of an open request, of which no write has failed. -/
theorem withIngest_cases (s : SymbolServer) (id : SymbolArtifactId) (next : Ingest → SymbolServer) :
    s.withIngest id next = s ∨
      ∃ g, s.ingests id = some g ∧ g.failed = none ∧ s.withIngest id next = next g := by
  unfold SymbolServer.withIngest
  cases hg : s.ingests id with
  | none => exact Or.inl rfl
  | some g =>
    dsimp only
    by_cases hfailed : g.failed = none
    · rw [if_pos hfailed]
      exact Or.inr ⟨g, rfl, hfailed, rfl⟩
    · rw [if_neg hfailed]
      exact Or.inl rfl

/-- How a chunk is received. -/
inductive Received (w : World) (g : Ingest) (chunk : Bytes) : Ingest × World → Prop
  | failed {g' : Ingest} (hid : g'.artifactId = g.artifactId) (hkind : g'.kind = g.kind)
      (hname : g'.originalName = g.originalName) (hfailed : g'.failed ≠ none) :
      Received w g chunk (g', w)
  | partly {g' : Ingest} {nowMs : Int} {written : Bytes} {symbols : ObjectStore SymbolArtifactId}
      (hid : g'.artifactId = g.artifactId) (hkind : g'.kind = g.kind)
      (hname : g'.originalName = g.originalName) (hfailed : g'.failed ≠ none)
      (happ : w.vaults.symbols.append nowMs g.artifactId written = .ok symbols) :
      Received w g chunk (g', { w with vaults := { w.vaults with symbols } })
  | whole {nowMs : Int} {symbols : ObjectStore SymbolArtifactId}
      (hsize : g.byteSize + chunk.length ≤ maxSymbolBytes)
      (happ : w.vaults.symbols.append nowMs g.artifactId chunk = .ok symbols) :
      Received w g chunk
        ({ g with byteSize := g.byteSize + chunk.length, received := g.received ++ chunk },
          { w with vaults := { w.vaults with symbols } })

theorem receiveChunk_cases (w : World) (g : Ingest) (nowMs : Int) (chunk : Bytes)
    (fault : Option Nat) : Received w g chunk (receiveChunk w g nowMs chunk fault) := by
  unfold receiveChunk
  by_cases hlarge : maxSymbolBytes < g.byteSize + chunk.length
  · rw [if_pos hlarge]
    exact .failed rfl rfl rfl (Option.some_ne_none _)
  · rw [if_neg hlarge]
    cases fault with
    | some written =>
      dsimp only
      cases happ : w.vaults.symbols.append nowMs g.artifactId (chunk.take written) with
      | error e => exact .failed rfl rfl rfl (Option.some_ne_none _)
      | ok symbols => exact .partly rfl rfl rfl (Option.some_ne_none _) happ
    | none =>
      dsimp only
      cases happ : w.vaults.symbols.append nowMs g.artifactId chunk with
      | error e => exact .failed rfl rfl rfl (Option.some_ne_none _)
      | ok symbols => exact .whole (Nat.not_lt.mp hlarge) happ

theorem quiet_append {nowMs : Int} {id : SymbolArtifactId} {bytes : Bytes}
    {symbols : ObjectStore SymbolArtifactId}
    (h : w.vaults.symbols.append nowMs id bytes = .ok symbols) :
    Quiet x (· = id) nothing w { w with vaults := { w.vaults with symbols } } := by
  obtain ⟨f, -, -, rfl⟩ := ObjectStore.append_eq_ok.mp h
  refine quiet_symbols rfl ?_
  intro id' hne
  dsimp only
  rw [Table.find?_updateKey_ne (Ne.symm hne)]

/-- The entry of one request is replaced. -/
theorem updated_cases {ingests : SymbolArtifactId → Option Ingest} {id id' : SymbolArtifactId}
    {o : Option Ingest} {g : Ingest} (h : Function.update ingests id o id' = some g) :
    id' = id ∧ o = some g ∨ id' ≠ id ∧ ingests id' = some g := by
  by_cases he : id' = id
  · subst he
    rw [Function.update_self] at h
    exact Or.inl ⟨rfl, h⟩
  · rw [Function.update_of_ne he] at h
    exact Or.inr ⟨he, h⟩

theorem serving_chunk (h : Serving options x s) {id : SymbolArtifactId}
    (hg : s.ingests id = some g) (hfailed : g.failed = none) (nowMs : Int) (chunk : Bytes)
    (fault : Option Nat) : Serving options x (s.chunk nowMs chunk fault g) := by
  obtain ⟨rfl, hfed⟩ := h.fed id g hg
  have hcases := receiveChunk_cases s.world g nowMs chunk fault
  unfold SymbolServer.chunk
  generalize receiveChunk s.world g nowMs chunk fault = out at hcases
  cases hcases with
  | @failed g' hid hkind hname hfail =>
    have hq : Quiet x (· = g.artifactId) nothing s.world s.world := Quiet.refl
    refine h.step hq h.tables ?_ (fun _ hp => hp) fun _ ha => ha.elim
    intro id g₁ hg₁
    rcases updated_cases hg₁ with ⟨rfl, hsome⟩ | ⟨hne, hold⟩
    · cases hsome
      exact Or.inr ⟨hid, by rw [hname, hkind]; exact hfed.kind, fun hnone => absurd hnone hfail⟩
    · exact Or.inl ⟨hne, hold⟩
  | @partly g' nowMs' written symbols hid hkind hname hfail happ =>
    refine h.step (quiet_append happ) h.tables ?_ (fun _ hp => hp) fun _ ha => ha.elim
    intro id g₁ hg₁
    rcases updated_cases hg₁ with ⟨rfl, hsome⟩ | ⟨hne, hold⟩
    · cases hsome
      exact Or.inr ⟨hid, by rw [hname, hkind]; exact hfed.kind, fun hnone => absurd hnone hfail⟩
    · exact Or.inl ⟨hne, hold⟩
  | @whole nowMs' symbols hsize happ =>
    refine h.step (quiet_append happ) h.tables ?_ (fun _ hp => hp) fun _ ha => ha.elim
    intro id g₁ hg₁
    rcases updated_cases hg₁ with ⟨rfl, hsome⟩ | ⟨hne, hold⟩
    · cases hsome
      refine Or.inr ⟨rfl, hfed.kind, fun _ => ?_⟩
      obtain ⟨hlength, -, hbytes⟩ := hfed.whole hfailed
      refine ⟨?_, hsize, ?_⟩
      · show g.byteSize + chunk.length = (g.received ++ chunk).length
        rw [List.length_append, hlength]
      · intro f hf
        obtain ⟨f₀, hf₀, -, hsymbols⟩ := ObjectStore.append_eq_ok.mp happ
        have hf : symbols.staging.find? g.artifactId = some f := hf
        rw [hsymbols, Table.find?_updateKey_self hf₀] at hf
        cases hf
        show f₀.bytes ++ chunk = g.received ++ chunk
        rw [hbytes f₀ hf₀]
    · exact Or.inl ⟨hne, hold⟩

/-- A request is through. What was stored by it is answered for. -/
theorem Serving.ended (h : Serving options x s)
    {out : Option IngestAnswer × World} {new : SymbolArtifactRow → Prop}
    (hq : Quiet x (· = g.artifactId) new s.world out.2)
    (ht : SymbolTables options.digests.sha256 out.2.ledger)
    (hdied : out.1 = none → ∀ a, ¬ new a)
    (hnew : ∀ answer, out.1 = some answer → ∀ a, new a →
      StoredFrom x (s.answers ++ [(g, answer)]) out.2 a) :
    Serving options x (s.ended g out) := by
  obtain ⟨o, w'⟩ := out
  unfold SymbolServer.ended
  cases o with
  | none =>
    have hq' : Quiet x (· = g.artifactId) nothing s.world w' := by
      refine ⟨?_, hq.staging⟩
      intro a ha
      rcases hq.rows a ha with hnewA | hkept
      · exact absurd hnewA (hdied rfl a)
      · exact Or.inr hkept
    exact h.restarted hq' ht
  | some answer =>
    refine h.step hq ht ?_ (fun _ hp => List.mem_append_left _ hp) (hnew answer rfl)
    intro id g' hg'
    rcases updated_cases hg' with ⟨-, hsome⟩ | ⟨hne, hold⟩
    · cases hsome
    · exact Or.inl ⟨hne, hold⟩

theorem Serving.ended_quiet (h : Serving options x s) {out : Option IngestAnswer × World}
    (hq : Quiet x (· = g.artifactId) nothing s.world out.2)
    (ht : SymbolTables options.digests.sha256 out.2.ledger) : Serving options x (s.ended g out) :=
  h.ended hq ht (fun _ _ ha => ha.elim) fun _ _ _ ha => ha.elim

theorem Quiet.mono {own own' : SymbolArtifactId → Prop} {new : SymbolArtifactRow → Prop}
    {w' : World} (h : Quiet x own new w w') (hown : ∀ id, own id → own' id) :
    Quiet x own' new w w' :=
  ⟨h.rows, fun id hid => h.staging id fun ho => hid (hown id ho)⟩

theorem quiet_synced {w' : World} {id : SymbolArtifactId} {f : StagingFile SymbolArtifactId}
    {own : SymbolArtifactId → Prop} {new : SymbolArtifactRow → Prop} (h : Synced w w' id f) :
    Quiet x own new w w' where
  rows a ha := by
    rw [h.ledger] at ha
    refine Or.inr ⟨ha, fun _ _ hr => ?_, fun _ bytes ho => ?_⟩
    · rw [h.ledger]
      exact hr
    · rw [ObjectStore.object?, h.objects]
      exact ho
  staging id' _ f' hf' := by
    by_cases he : id' = id
    · subst he
      rw [h.closed] at hf'
      cases hf'
      exact ⟨f, h.found, rfl⟩
    · rw [h.others id' he] at hf'
      exact ⟨f', hf', rfl⟩

theorem quiet_failIngest (ht : SymbolTables options.digests.sha256 w.ledger) (host : Host)
    (g : Ingest) (code : HttpErrorCode) :
    Quiet x (· = g.artifactId) nothing w (failIngest options host w g code).2 ∧
      SymbolTables options.digests.sha256 (failIngest options host w g code).2.ledger := by
  rw [(failIngest_world options host w g code).1]
  exact ⟨quiet_execute ht (fun he => by cases he) (fun _ _ he => by cases he)
    (fun he => by obtain ⟨_, he⟩ := he; cases he), execute_tables ht⟩

theorem serving_fail (h : Serving options x s) {w' : World}
    (hq : Quiet x (· = g.artifactId) nothing s.world w')
    (ht : SymbolTables options.digests.sha256 w'.ledger) (host : Host) (code : HttpErrorCode) :
    Serving options x (s.ended g (failIngest options host w' g code)) := by
  obtain ⟨hq', ht'⟩ := @quiet_failIngest options x w' ht host g code
  exact h.ended_quiet (hq.trans hq') ht'

theorem serving_stop (h : Serving options x s) (host : Host) (id : SymbolArtifactId) :
    Serving options x (s.stop options host id) := by
  unfold SymbolServer.stop
  cases hg : s.ingests id with
  | none => exact h
  | some g =>
    obtain ⟨rfl, -⟩ := h.fed id g hg
    exact serving_fail h Quiet.refl h.tables host _

/-- The row that the sealing of a request adds. -/
def SealedRow (g : Ingest) (out : Option IngestAnswer × World)
    (a : SymbolArtifactRow) : Prop :=
  ∃ r, out.1 = some (.created r) ∧ Recorded out.2 a g r ∧
    out.2.vaults.symbols.object? a.artifactId = some g.received

theorem quiet_sealIngest (ht : SymbolTables options.digests.sha256 w.ledger) (host : Host)
    {f : StagingFile SymbolArtifactId} {identity : SymbolIngestIdentity}
    (hf : w.vaults.symbols.staging.find? g.artifactId = some f) (hbytes : f.bytes = g.received)
    (hkind : symbolKindForFilename g.originalName = some g.kind)
    (hsize : g.received.length ≤ maxSymbolBytes)
    (hidentity : stagedIdentity g g.received none = .ok (some identity)) :
    Quiet x nothing (SealedRow g (sealIngest options host w g identity)) w
        (sealIngest options host w g identity).2 ∧
      SymbolTables options.digests.sha256 (sealIngest options host w g identity).2.ledger := by
  have hcases := sealIngest_cases options host w g identity
  have htables : SymbolTables options.digests.sha256 (execute options host w
      (.sealSymbol (sealFields options g identity))).2.ledger := execute_tables ht
  have hledger := execute_ledger options host w (.sealSymbol (sealFields options g identity))
  have hstaging : ∀ id f, (execute options host w
      (.sealSymbol (sealFields options g identity))).2.vaults.symbols.staging.find? id = some f →
        w.vaults.symbols.staging.find? id = some f := fun id f hf =>
    execute_staging (fun _ _ he => by cases he) hf
  have hobject : ∀ id bytes, w.vaults.symbols.object? id = some bytes → (execute options host w
      (.sealSymbol (sealFields options g identity))).2.vaults.symbols.object? id = some bytes :=
    fun id bytes ho => execute_object (fun he => by cases he) ho
  generalize hexec : execute options host w (.sealSymbol (sealFields options g identity)) = out
    at hcases htables hledger hstaging hobject
  generalize sealIngest options host w g identity = answered at hcases
  have hsame : answered.2 = out.2 := by cases hcases <;> rfl
  rw [hsame]
  refine ⟨⟨?_, fun id _ f' hf' => ⟨f', hstaging id f' hf', rfl⟩⟩, htables⟩
  intro a ha
  rcases hledger with hl | ⟨p, op, result, hp, hop, hrun, hout⟩
  · rw [hl] at ha
    refine Or.inr ⟨ha, fun _ _ hr => ?_, fun _ => hobject _⟩
    rw [hl]
    exact hr
  · obtain ⟨outcome, w'⟩ := out
    obtain rfl := hout
    obtain ⟨insert, hcheck, ⟨event, artifact, hnew⟩ | ⟨existing, hagain⟩⟩ := execute_seal hexec
    · obtain ⟨hid, hinsertKind, hname, hinsertId, -, -⟩ := checkSealSymbol_sealFields hcheck
      have hseal : (LedgerOp.sealSymbolArtifact insert).run options.digests.sha256 event w.ledger =
          .ok (.artifact artifact false, w'.ledger) := by
        rw [LedgerOp.run, LedgerOp.withResult_eq_ok]
        exact ⟨(artifact, false), hnew.rows, rfl⟩
      rcases rows_run ht hseal ha with hold | ⟨insert', hop', rfl, hresolves⟩
      · exact Or.inr ⟨hold.1, hold.2, fun _ => hobject _⟩
      · cases hop'
        refine Or.inl ?_
        generalize hanswer : (Outcome.receipt (.success (p.receipt.withResult result)), w') = pair
          at hcases
        cases hcases with
        | crashed => cases hanswer
        | refused => cases hanswer
        | @created receipt artifactId w'' hartifact =>
          cases hanswer
          rw [hnew.artifactId, Option.some.injEq] at hartifact
          refine ⟨_, rfl, ⟨hartifact.symm, ?_, hidentity, ⟨_, hname, hinsertId, hresolves⟩, ?_,
            hsize⟩, ?_⟩
          · rw [hnew.deduplicated]
            rfl
          · exact hkind.trans (congrArg some hinsertKind.symm)
          · -- the staging file became the object
            have hpromote := hnew.object
            rw [hid] at hpromote
            show w'.vaults.symbols.object? insert.artifactId = some g.received
            rw [hid]
            rcases ObjectStore.promote_eq_ok.mp hpromote with ⟨hnone, -⟩ | ⟨f', hf', -, hfree, hw⟩
            · cases hf.symm.trans hnone
            · cases hf.symm.trans hf'
              rw [hw, ← hbytes]
              exact congrArg (Option.map StoredObject.bytes) (Table.find?_insert_self hfree)
    · rw [hagain.ledger] at ha
      refine Or.inr ⟨ha, fun _ _ hr => ?_, fun _ => hobject _⟩
      rw [hagain.ledger]
      exact hr

theorem serving_complete (h : Serving options x s) (hg : s.ingests g.artifactId = some g)
    (hfailed : g.failed = none) (hosts : EndHosts) (faults : StagedFaults) :
    Serving options x (s.ended g (completeIngest options hosts s.world g faults)) := by
  obtain ⟨-, hkind, hwhole⟩ := h.fed _ _ hg
  obtain ⟨hlength, hmax, hbytes⟩ := hwhole hfailed
  have hcases := completeIngest_cases options hosts s.world g faults
  generalize completeIngest options hosts s.world g faults = out at hcases
  have htables : ∀ {w' f}, Synced s.world w' g.artifactId f →
      SymbolTables options.digests.sha256 w'.ledger := by
    intro w' f hw
    rw [hw.ledger]
    exact h.tables
  cases hcases with
  | syncThrew e _ =>
    exact h.ended_quiet Quiet.refl h.tables
  | openThrew _ hw _ =>
    exact h.ended_quiet (quiet_synced hw) (htables hw)
  | readThrew _ hw _ _ =>
    exact h.ended_quiet (quiet_synced hw) (htables hw)
  | unreadable _ hw _ _ => exact serving_fail h (quiet_synced hw) (htables hw) _ _
  | @sealing w' f identity _ hw _ hidentity =>
    have hreceived : f.bytes = g.received := hbytes f hw.found
    rw [hreceived] at hidentity
    obtain ⟨hq, ht⟩ := @quiet_sealIngest options x w' g (htables hw) hosts.sealing _ identity
      hw.closed hreceived hkind (hlength ▸ hmax) (stagedIdentity_of_ok hidentity)
    refine h.ended ((quiet_synced hw).trans (hq.mono fun _ hn => hn.elim)) ht ?_ ?_
    · rintro hnone a ⟨r, hr, -⟩
      rw [hnone] at hr
      cases hr
    · rintro answer hanswer a ⟨r, hr, hrecorded, hobject⟩
      rw [hanswer, Option.some.injEq] at hr
      subst hr
      refine ⟨g, r, List.mem_append_right _ (List.mem_singleton_self _), hrecorded, ?_⟩
      exact fun _ => hobject

/-- A purge of the artifact under `x` is not cut short. -/
def PurgesThrough (x : SymbolArtifactId) (s : SymbolServer) : SymbolStep → Prop
  | .delete host artifactId => artifactId = x.text → host.Undisturbed s.world
  | _ => True

theorem serving_delete (h : Serving options x s) (host : Host) (artifactId : String)
    (hpurge : ∀ id, some id = x → PurgesThrough id s (.delete host artifactId)) :
    Serving options x (s.delete options host artifactId) := by
  unfold SymbolServer.delete deleteSymbol
  cases hid : parseSymbolArtifactId artifactId with
  | error e => exact h
  | ok id =>
    have htext := parseIdentifier_eq_ok.mp hid
    have hq : Quiet x nothing nothing s.world
        (execute options host s.world (.purgeSymbol id.text)).2 := by
      by_cases hx : some id = x
      · subst hx
        exact quiet_purge h.tables (hpurge id rfl htext.symm)
      · refine quiet_execute h.tables (fun he => by cases he) ?_ ?_
        · intro id' hid' he
          injection he with he
          exact hx ((congrArg some (Identifier.ext he)).trans hid')
        · rintro ⟨kind, he⟩
          cases he
    have ht : SymbolTables options.digests.sha256
        (execute options host s.world (.purgeSymbol id.text)).2.ledger := execute_tables h.tables
    dsimp only
    generalize execute options host s.world (.purgeSymbol id.text) = out at hq ht
    obtain ⟨outcome, w'⟩ := out
    cases outcome with
    | crashed => exact h.restarted hq ht
    | receipt receipt =>
      cases receipt with
      | success receipt => exact h.world hq ht
      | failure action error => exact h.world hq ht

theorem serving_other (h : Serving options x s) (host : Host) (command : Command) :
    Serving options x (s.other options host command) := by
  unfold SymbolServer.other
  by_cases hsymbols : command.type ∈ symbolActions
  · rw [if_pos hsymbols]
    exact h
  · rw [if_neg hsymbols]
    have hne : ∀ action ∈ symbolActions, command.type ≠ action := by
      rintro action hmem rfl
      exact hsymbols hmem
    obtain ⟨hq, ht⟩ := h.command host (hne _ (by decide))
      (fun _ _ he => hne .purgeSymbol (by decide) (by rw [he]; rfl)) (hne _ (by decide))
    generalize execute options host s.world command = out at hq ht
    obtain ⟨outcome, w'⟩ := out
    cases outcome with
    | crashed => exact h.restarted hq ht
    | receipt receipt => exact h.world hq ht

/-- **Each step keeps the invariant.** -/
theorem serving_step (h : Serving options x s) {e : SymbolStep}
    (hpurge : ∀ id, some id = x → PurgesThrough id s e) :
    Serving options x (s.step options e) := by
  cases e with
  | post host request => exact serving_post h host request
  | chunk nowMs id bytes fault =>
    rcases withIngest_cases s id (s.chunk nowMs bytes fault) with hsame | ⟨g, hg, hfailed, hnext⟩
    · rw [SymbolServer.step, hsame]
      exact h
    · rw [SymbolServer.step, hnext]
      exact serving_chunk h hg hfailed nowMs bytes fault
  | stop host id => exact serving_stop h host id
  | complete hosts id faults =>
    rcases withIngest_cases s id
      (fun g => s.ended g (completeIngest options hosts s.world g faults)) with
      hsame | ⟨g, hg, hfailed, hnext⟩
    · rw [SymbolServer.step, hsame]
      exact h
    · rw [SymbolServer.step, hnext]
      obtain ⟨rfl, -⟩ := h.fed id g hg
      exact serving_complete h hg hfailed hosts faults
  | delete host artifactId => exact serving_delete h host artifactId hpurge
  | other host command => exact serving_other h host command
  | restart =>
    have hq : Quiet x nothing nothing s.world s.world := Quiet.refl
    exact h.restarted hq h.tables

end Steps

/-! ## What debuggers get -/

theorem flatten_readerStream (bytes : Bytes) (position : Nat) :
    (readerStream bytes position).flatten = bytes.drop position := by
  fun_induction readerStream bytes position with
  | case1 position hmore length ih =>
    rw [List.flatten_cons, ih, window, ← List.drop_drop]
    exact List.take_append_drop length (bytes.drop position)
  | case2 position hmore => exact (List.drop_eq_nil_iff.mpr (Nat.not_lt.mp hmore)).symm

/-- An artifact with a name and an identifier is served under them, and nowhere else. -/
structure Fetched (w : World) (a : SymbolArtifactRow) (name id : String) (bytes : Bytes) : Prop where
  served : ∀ spelling : String, spelling.toUpper = id.toUpper →
    ∃ opened, getSymbol w name spelling name = .ok opened ∧ opened.artifactId = a.artifactId ∧
      opened.byteSize = bytes.length ∧ opened.stream.flatten = bytes
  only : ∀ name' id' file opened, getSymbol w name' id' file = .ok opened →
    opened.artifactId = a.artifactId → name' = name ∧ id'.toUpper = id.toUpper ∧ file = name
  path : ∃ path, encodeStorePath (utf16 name) (utf16 id) = .ok path ∧
    decodeStorePath path = some ⟨utf16 name, utf16 id, utf16 name⟩

section Fetching

variable {options : EngineOptions} {x : Option SymbolArtifactId} {s : SymbolServer}

/-- The name tells the kind, and so at most one artifact has a name and an identifier. -/
theorem Serving.unique (h : Serving options x s) {a b : SymbolArtifactRow}
    (ha : a ∈ s.world.ledger.symbolArtifacts) (hb : b ∈ s.world.ledger.symbolArtifacts)
    {name id : String} (hna : s.world.ledger.storedAt a name id)
    (hnb : s.world.ledger.storedAt b name id) : a = b := by
  have hkind : ∀ c ∈ s.world.ledger.symbolArtifacts, s.world.ledger.storedAt c name id →
      symbolKindForFilename name = some c.kind ∧
        ∃ i : SymbolIdentity, i.name.text = name ∧ i.id.text = id ∧
          s.world.ledger.resolvesTo c i c.kind := by
    rintro c hc ⟨m, hm, i, hi, rfl, rfl⟩
    obtain ⟨g, r, -, hr, -⟩ := h.rows c hc
    obtain ⟨i', hname, -, -, m', hm', hi'⟩ := hr.resolves
    cases (Option.mem_def.mp hm).symm.trans hm'
    cases (Option.mem_def.mp hi).symm.trans hi'
    refine ⟨?_, i, rfl, rfl, rfl, m, hm, hi⟩
    rw [hname, (stagedIdentity_named hr.parsed).file]
    exact hr.kind
  obtain ⟨hka, i, hiname, hiid, hra⟩ := hkind a ha hna
  obtain ⟨hkb, j, hjname, hjid, hrb⟩ := hkind b hb hnb
  have hsame : a.kind = b.kind := Option.some.inj (hka.symm.trans hkb)
  have hij : i = j := by
    cases i
    cases j
    exact congrArg₂ SymbolIdentity.mk (BoundedText.ext (hiname.trans hjname.symm))
      (BoundedText.ext (hiid.trans hjid.symm))
  subst hij
  rw [← hsame] at hrb
  exact h.tables.unique ha hb hra hrb

theorem Serving.find (h : Serving options x s) {a : SymbolArtifactRow}
    (ha : a ∈ s.world.ledger.symbolArtifacts) {name id : String}
    (hn : s.world.ledger.storedAt a name id) :
    ∃ artifact, s.world.ledger.findSymbolArtifactByStorePath name id = some artifact ∧
      artifact.artifactId = a.artifactId := by
  obtain ⟨m, hjoin, -⟩ := h.tables.joined_isSome ha
  refine ⟨StoredSymbolArtifact.ofRows a m, ?_, rfl⟩
  unfold findSymbolArtifactByStorePath
  cases hfind : s.world.ledger.symbolArtifacts.sorted.find?
      fun b => decide (s.world.ledger.storedAt b name id) with
  | none =>
    have hnone := List.find?_eq_none.mp hfind a (Table.mem_sorted.mpr ha)
    exact absurd (decide_eq_true hn) hnone
  | some b =>
    have hb := Table.mem_sorted.mp (List.mem_of_find?_eq_some hfind)
    have hnb : s.world.ledger.storedAt b name id := by simpa using List.find?_some hfind
    rw [h.unique hb ha hnb hn]
    exact hjoin

theorem storedAt_of_find {l : SqliteLedger} {name id : String} {artifact : StoredSymbolArtifact}
    (h : l.findSymbolArtifactByStorePath name id = some artifact) :
    ∃ b ∈ l.symbolArtifacts, l.storedAt b name id ∧ artifact.artifactId = b.artifactId := by
  obtain ⟨b, hfind, hjoin⟩ := Option.bind_eq_some_iff.mp h
  obtain ⟨m, -, rfl⟩ := Option.map_eq_some_iff.mp hjoin
  exact ⟨b, Table.mem_sorted.mp (List.mem_of_find?_eq_some hfind),
    by simpa using List.find?_some hfind, rfl⟩

theorem fetched_of_recorded (h : Serving options x s) {a : SymbolArtifactRow} {g : Ingest}
    {r : SymbolIngestResponse} (ha : a ∈ s.world.ledger.symbolArtifacts)
    (hr : Recorded s.world a g r)
    (hobject : s.world.vaults.symbols.object? a.artifactId = some g.received) :
    Fetched s.world a r.identity.file r.identity.id g.received := by
  obtain ⟨hfile, hsegment, hstore⟩ := stagedIdentity_named hr.parsed
  obtain ⟨i, hname, hid, -, m, hm, hi⟩ := hr.resolves
  have hsegment' : storeSegmentProblem (utf16 r.identity.file) = none := by
    rw [hfile]
    exact hsegment
  have hstored : s.world.ledger.storedAt a r.identity.file r.identity.id :=
    ⟨m, hm, i, hi, hname, hid⟩
  have hbasename := isBasenameSegment_iff.mpr hsegment'
  refine ⟨?_, ?_, ?_⟩
  · intro spelling hspelling
    rw [hstore.toUpper] at hspelling
    have hdebugId := isDebugId_of_toUpper hstore hspelling
    obtain ⟨artifact, hfind, hartifact⟩ := h.find ha hstored
    have hsize : ¬ maxSafeInteger < g.received.length := by
      have hmax := hr.size
      unfold maxSymbolBytes at hmax
      unfold maxSafeInteger
      omega
    refine ⟨⟨a.artifactId, g.received.length, readerStream g.received 0⟩, ?_, rfl, rfl, ?_⟩
    · unfold getSymbol
      rw [if_neg (by simp [hbasename, hdebugId]), if_neg (by simp), hspelling]
      unfold openSymbolArtifact
      rw [hfind]
      simp only [bind, Option.bind_some, hartifact, hobject, pure, if_neg hsize]
    · exact flatten_readerStream g.received 0
  · intro name' id' file opened hget hopened
    unfold getSymbol at hget
    split at hget
    · cases hget
    · split at hget
      · cases hget
      · next hfile' =>
        split at hget
        · cases hget
        · next artifact hopen =>
          split at hget
          · cases hget
          · cases hget
            unfold openSymbolArtifact at hopen
            simp only [bind, Option.bind_eq_some_iff, pure, Option.some.injEq] at hopen
            obtain ⟨found, hfind, bytes, -, rfl⟩ := hopen
            obtain ⟨b, hb, hnb, hbid⟩ := storedAt_of_find hfind
            have hba : b = a := Table.eq_of_key hb ha (hbid.symm.trans hopened)
            subst hba
            obtain ⟨m', hm', j, hj, rfl, hjid⟩ := hnb
            cases (Option.mem_def.mp hm).symm.trans hm'
            cases (Option.mem_def.mp hi).symm.trans hj
            refine ⟨hname, ?_, ?_⟩
            · rw [← hjid, hid, hstore.toUpper]
            · rw [← hname]
              exact not_not.mp hfile'
  · refine decodeStorePath_encode hsegment' (isDebugId_of_toUpper hstore hstore.toUpper)

end Fetching

/-- **What the ingest route stores can be fetched.** In every run of the server, an artifact that is
stored comes from a request; it is served with the bytes of that request, unless a purge of it has
been cut short. -/
theorem stored_symbols_served {options : EngineOptions} {steps : List SymbolStep}
    {a : SymbolArtifactRow}
    (hpurge : Along (fun s e => s.step options e) (PurgesThrough a.artifactId) .start steps)
    (ha : a ∈ (served options steps).world.ledger.symbolArtifacts) :
    ∃ g r, (g, IngestAnswer.created r) ∈ (served options steps).answers ∧
      Recorded (served options steps).world a g r ∧
      Fetched (served options steps).world a r.identity.file r.identity.id g.received := by
  have h : Serving options (some a.artifactId) (served options steps) := by
    refine invariant_along (fun s e hi hc => serving_step hi ?_) serving_start hpurge
    intro id hid
    cases hid
    exact hc
  obtain ⟨g, r, hmem, hr, hobject⟩ := h.rows a ha
  exact ⟨g, r, hmem, hr, fetched_of_recorded h ha hr (hobject rfl)⟩

namespace Sample

def request : IngestRequest where
  filename := some "YXBwLmV4ZQ"
  contentLength := none
  ingestAuth := .token
  product := none
  version := none
  arch := none

def artifactId : SymbolArtifactId := (DumpLedger.Sample.host 0).symbolId

/-- The image is sent in one chunk. -/
def imageSteps : List SymbolStep :=
  [.post (DumpLedger.Sample.host 0) request, .chunk 1767225600000 artifactId image none,
    .complete ⟨DumpLedger.Sample.host 1, DumpLedger.Sample.host 2⟩ artifactId ⟨false, false, none⟩]

end Sample

/-- The image of a program is stored and served. -/
theorem stored_symbols_served_image :
    ∃ a g r, (g, IngestAnswer.created r) ∈
        (served DumpLedger.Sample.options Sample.imageSteps).answers ∧
      Recorded (served DumpLedger.Sample.options Sample.imageSteps).world a g r ∧
      Fetched (served DumpLedger.Sample.options Sample.imageSteps).world a r.identity.file
        r.identity.id g.received := by
  have hrow : (served DumpLedger.Sample.options
      Sample.imageSteps).world.ledger.symbolArtifacts.contains Sample.artifactId = true := by
    decide +kernel
  obtain ⟨a, ha, -⟩ := Table.contains_iff.mp hrow
  exact ⟨a, stored_symbols_served ⟨trivial, trivial, trivial, trivial⟩ ha⟩

end DumpLedger.Symbols
