import DumpLedger.Properties.ImportProgress

/-!
# The other parts of an import

The symbols and the trail change neither a row nor an object of a dump. The completion of a dump
moves its row on, and no other.

* `importSymbols_returns`, `beginStep_returns`, `finish_returns` — the quiet parts
* `completeStaged_returns` — the phase of a dump that was completed
-/

namespace DumpLedger.ImportSession

open Lib Vocabulary Prog

/-! ## Quiet programs -/

/-- Neither a row nor an object of a dump has changed. -/
structure Quiet (m m' : Machine) : Prop where
  records : recordsOf m'.world.ledger = recordsOf m.world.ledger
  dumps : ∀ d, ObjectStore.SameObjects m.world.vaults.dumps m'.world.vaults.dumps d

theorem Quiet.refl (m : Machine) : Quiet m m :=
  ⟨rfl, fun _ => .refl _ _⟩

theorem Quiet.trans {m m' m'' : Machine} (h : Quiet m m') (h' : Quiet m' m'') : Quiet m m'' :=
  ⟨h'.records.trans h.records, fun d => (h.dumps d).trans (h'.dumps d)⟩

section Quiet

variable {options : EngineOptions} {hosts : Nat → Host} {m₀ : Machine}

theorem keeps_engineExecute {command : Command} (hquiet : QuietCommand command) :
    Keeps (Quiet m₀) (fun _ => True) (engineExecute options hosts command) fun _ => True := by
  intro m hm
  obtain ⟨hrecords, hdumps⟩ := execute_quiet options (hosts m.calls) m.world hquiet
  unfold wp engineExecute
  generalize execute options (hosts m.calls) m.world command = out at hrecords hdumps ⊢
  rcases out with ⟨_ | _, w⟩
  · exact ⟨hm.trans ⟨hrecords, hdumps⟩, trivial⟩
  · exact ⟨hm.trans ⟨hrecords, hdumps⟩, trivial⟩

theorem keeps_requireExecuted {command : Command} (hquiet : QuietCommand command) :
    Keeps (Quiet m₀) (fun _ => True) (requireExecuted options hosts command) fun _ => True := by
  refine Keeps.bind (keeps_engineExecute hquiet) ?_
  intro receipt _
  cases receipt with
  | success => exact Keeps.pure trivial
  | failure => exact Keeps.throw trivial

/-- A step on the staging file of an artifact. -/
theorem keeps_symbolCall
    {f : Int → ObjectStore SymbolArtifactId → Except Thrown (ObjectStore SymbolArtifactId)} :
    Keeps (Quiet m₀) (fun _ => True)
      (vaultCall hosts fun nowMs v => do return { v with symbols := ← f nowMs v.symbols })
      fun _ => True := by
  intro m hm
  have hkept {v' : Vaults} (hv : v'.dumps = m.world.vaults.dumps) :
      Quiet m₀ ⟨{ m.world with vaults := v' }, m.calls + 1⟩ := by
    refine hm.trans ⟨rfl, fun d => ?_⟩
    show ObjectStore.SameObjects m.world.vaults.dumps v'.dumps d
    rw [hv]
    exact .refl _ _
  have hdumps {v' : Vaults}
      (h : (do return { m.world.vaults with
        symbols := ← f (hosts m.calls).nowMs m.world.vaults.symbols }) = Except.ok v') :
      v'.dumps = m.world.vaults.dumps := by
    simp only [bind_eq_ok, pure_eq_ok] at h
    obtain ⟨_, -, rfl⟩ := h
    rfl
  unfold wp vaultCall
  dsimp only
  split
  · next heq =>
    split at heq
    · cases heq
    · cases heq
    · cases heq
    · next hv =>
      cases heq
      exact ⟨hkept (hdumps hv), trivial⟩
  · next heq =>
    split at heq
    · cases heq
      exact ⟨hkept rfl, trivial⟩
    · cases heq
      exact ⟨hkept rfl, trivial⟩
    · next hv =>
      cases heq
      exact ⟨hkept (hdumps hv), trivial⟩
    · cases heq

theorem keeps_receiveSymbol {symbol : ExportManifestSymbol} {artifactId : SymbolArtifactId}
    {chunks : Tar.Yields Bytes} :
    Keeps (Quiet m₀) (fun _ => True) (receiveSymbol options hosts symbol artifactId chunks)
      fun _ => True := by
  refine Keeps.bind (Keeps.foldEach chunks.values (fun _ _ => True) ?_ trivial) ?_
  · intro done chunk rest byteSize _ _
    unfold receiveSymbolChunk
    dsimp only
    split
    · exact Keeps.throw trivial
    · refine Keeps.bind (keeps_symbolCall (f := fun nowMs s => s.append nowMs artifactId chunk)) ?_
      exact fun _ _ => Keeps.pure trivial
  · intro byteSize _
    refine Keeps.bind (Keeps.lift (P := fun _ => True) (fun _ _ => trivial) fun _ _ => trivial) ?_
    intro _ _
    refine Keeps.bind (Keeps.lift (P := fun _ => True) (fun _ _ => trivial) fun _ _ => trivial) ?_
    intro _ _
    refine Keeps.bind (Keeps.lift (P := fun _ => True) (fun _ _ => trivial) fun _ _ => trivial) ?_
    intro _ _
    exact keeps_symbolCall (f := fun _ s => s.syncAndClose artifactId)

theorem Quiet.call {m : Machine} (hm : Quiet m₀ m) : Quiet m₀ { m with calls := m.calls + 1 } :=
  ⟨hm.records, hm.dumps⟩

theorem keeps_checkStagedIdentity {symbol : ExportManifestSymbol} {artifactId : SymbolArtifactId} :
    Keeps (Quiet m₀) (fun _ => True) (checkStagedIdentity hosts symbol artifactId)
      fun _ => True := by
  refine Keeps.bind (P := fun _ => True) ?_ ?_
  · intro m hm
    unfold wp openStagedSymbol
    dsimp only
    split
    · next heq =>
      split at heq <;> cases heq
      exact ⟨hm.call, trivial⟩
    · next heq =>
      split at heq <;> cases heq
      exact ⟨hm.call, trivial⟩
  · intro staged _
    cases staged with
    | none => exact Keeps.throw trivial
    | some bytes =>
      refine Keeps.bind (P := fun _ => True) ?_ ?_
      · intro m hm
        unfold wp stagedPdbIdentity
        dsimp only
        split
        · next heq =>
          split at heq
          · cases heq
            exact ⟨hm.call, trivial⟩
          · split at heq <;> cases heq <;> exact ⟨hm.call, trivial⟩
        · next heq =>
          split at heq
          · cases heq
          · split at heq <;> cases heq
      · intro identity _
        exact Keeps.lift (fun _ _ => trivial) fun _ _ => trivial

theorem keeps_importSymbolEntry {symbol : ExportManifestSymbol} {chunks : Tar.Yields Bytes} :
    Keeps (Quiet m₀) (fun _ => True) (importSymbolEntry options hosts symbol chunks)
      fun _ => True := by
  refine Keeps.bind (keeps_requireExecuted (.ingestSymbol _)) ?_
  intro begun _
  split
  · exact Keeps.throw trivial
  · next artifactId _ =>
    refine Keeps.tryCatch (Keeps.bind keeps_receiveSymbol fun _ _ =>
      Keeps.bind keeps_checkStagedIdentity fun _ _ =>
        Keeps.bind (keeps_requireExecuted (.sealSymbol _)) fun _ _ => Keeps.pure trivial) ?_
    -- what was begun is failed, and that may fail as well
    intro e _
    refine Keeps.bind (P := fun _ => True) (Keeps.tryCatch
      (Keeps.bind (keeps_engineExecute (.failSymbol _)) fun _ _ => Keeps.pure trivial)
      fun _ _ => Keeps.pure trivial) ?_
    exact fun _ _ => Keeps.throw trivial

end Quiet

/-! ## The quiet steps -/

section Steps

variable {options : EngineOptions} {hosts : Nat → Host} {bundle : OpenBundle} {s s' : Importing}

/-- The symbols leave the rows and the dumps alone. -/
theorem importSymbols_returns {n : Nat}
    (h : Returns (importSymbols options hosts bundle) s n s') :
    s.session.phase = .began ∧ Quiet s.machine s'.machine ∧ s'.counters = s.counters ∧
      ∃ symbolsImported, s'.session = { s.session with symbolsImported } := by
  unfold importSymbols at h
  dsimp only at h
  simp only [returns_bind, returns_pure] at h
  obtain ⟨_, s₁, hphase, v, s₂, hv, _, s₃, hdrive, _, s₄, hset, -, rfl⟩ := h
  obtain ⟨hbegan, rfl⟩ := returns_requirePhase.mp hphase
  obtain ⟨rfl, rfl⟩ := returns_getSession.mp hv
  obtain ⟨m', hm', rfl⟩ := returns_drive.mp hdrive
  rw [returns_setSession] at hset
  subst hset
  have hkeeps : Keeps (Quiet s₂.machine) (fun _ => True)
      (Prog.forEach (importDeclaredSymbol options hosts bundle s₂.session)
        (declaredSymbols bundle.manifest)) fun _ => True := by
    refine Keeps.forEach _ fun symbol _ => ?_
    unfold importDeclaredSymbol
    split
    · exact Keeps.throw trivial
    · exact keeps_importSymbolEntry
  exact ⟨hbegan, (hkeeps.returns (Quiet.refl _) hm').1, rfl, _, rfl⟩

/-- The commands that are about the trail only. -/
inductive TrailCommand : Command → Prop
  | beginImport (digest : String) (counts : RawImportCounts) :
      TrailCommand (.beginImport digest counts)
  | importAuditEvent (record : ImportAuditEventRecord) : TrailCommand (.importAuditEvent record)
  | finishImport (importId : String) (summary : RawImportSummary) :
      TrailCommand (.finishImport importId summary)

theorem vaults_of_trail {w w' : World} {host : Host} {command : Command}
    (htrail : TrailCommand command) (h : Executed options host w command w') :
    w'.vaults = w.vaults := by
  obtain ⟨p, occurredAt, hplan, hvaults, -⟩ := h.transaction
  refine hvaults ?_
  cases htrail with
  | beginImport =>
    simp only [planAt, planBeginImport, bind_eq_ok, pure_eq_ok] at hplan
    obtain ⟨_, -, _, -, rfl⟩ := hplan
    rfl
  | importAuditEvent =>
    simp only [planAt, planImportAuditEvent, bind_eq_ok, pure_eq_ok] at hplan
    obtain ⟨_, -, rfl⟩ := hplan
    rfl
  | finishImport =>
    simp only [planAt, planFinishImport, bind_eq_ok, pure_eq_ok] at hplan
    obtain ⟨_, -, _, -, rfl⟩ := hplan
    rfl

theorem isEmpty_of_executed {w w' : World} {host : Host} {digest : String}
    {counts : RawImportCounts} (h : Executed options host w (.beginImport digest counts) w') :
    w.ledger.isEmpty = true := by
  obtain ⟨p, occurredAt, hplan, -, hrun⟩ := h.transaction
  simp only [planAt, planBeginImport, bind_eq_ok, pure_eq_ok] at hplan
  obtain ⟨_, -, _, -, rfl⟩ := hplan
  obtain ⟨r, hrun⟩ := hrun _ rfl
  exact (SqliteLedger.beginImport_eq_ok.mp (LedgerOp.noResult_eq_ok.mp hrun).1).1

/-- A session begins on an empty ledger. -/
theorem beginStep_returns {u : Unit} (h : Returns (beginStep options hosts bundle) s u s') :
    s.session.phase = .open ∧ s.machine.world.ledger.isEmpty = true ∧
      Quiet s.machine s'.machine ∧ s'.machine.world.vaults = s.machine.world.vaults ∧
      s'.counters = s.counters ∧ ∃ importId, s'.session =
        { s.session with engineImportId := some importId, phase := .began } := by
  unfold beginStep at h
  simp only [returns_bind] at h
  obtain ⟨_, s₁, hphase, begun, s₂, hdrive, h⟩ := h
  obtain ⟨hopen, rfl⟩ := returns_requirePhase.mp hphase
  obtain ⟨m', hm', rfl⟩ := returns_drive.mp hdrive
  split at h
  · exact absurd h returns_throw
  · next importId _ =>
    rw [returns_setSession] at h
    subst h
    have hquiet := ((keeps_requireExecuted (.beginImport _ _)).returns
      (Quiet.refl s₁.machine) hm').1
    have hexecuted := executed_of_returns hm'
    exact ⟨hopen, isEmpty_of_executed hexecuted, hquiet, vaults_of_trail (.beginImport _ _) hexecuted,
      rfl, importId, rfl⟩

/-- The end of an import is reached when every row was brought in. -/
theorem finish_returns {u : Unit} (h : Returns (finish options hosts bundle) s u s') :
    s.session.phase = .began ∧ allStepped bundle s.session = true ∧
      Quiet s.machine s'.machine ∧ s'.machine.world.vaults = s.machine.world.vaults ∧
      s'.counters = s.counters := by
  unfold finish at h
  simp only [returns_bind] at h
  obtain ⟨_, s₁, hphase, v, s₂, hv, h⟩ := h
  obtain ⟨hbegan, rfl⟩ := returns_requirePhase.mp hphase
  obtain ⟨rfl, rfl⟩ := returns_getSession.mp hv
  split at h
  · exact absurd h returns_throw
  · split at h
    · exact absurd h returns_throw
    · next hall =>
      split at h
      · exact absurd h returns_throw
      · simp only [returns_bind] at h
        obtain ⟨n, s₃, hreplay, receipt, s₄, hfinish, _, s₅, hset, hcleanup⟩ := h
        obtain ⟨m₁, hm₁, rfl⟩ := returns_drive.mp hreplay
        obtain ⟨m₂, hm₂, rfl⟩ := returns_drive.mp hfinish
        rw [returns_setSession] at hset
        subst hset
        rw [cleanup, returns_setSession] at hcleanup
        subst hcleanup
        have hkeeps : Keeps (Quiet s₂.machine) (fun _ => True)
            (Prog.foldEach (replayEvent options hosts bundle) 0 bundle.rows.auditEvents)
            fun _ => True := by
          refine Keeps.foldEach _ (fun _ _ => True) ?_ trivial
          intro done event rest replayed _ _
          unfold replayEvent
          split
          · exact Keeps.bind (keeps_requireExecuted (.importAuditEvent _)) fun _ _ =>
              Keeps.pure trivial
          · exact Keeps.pure trivial
        have hquiet := (hkeeps.returns (Quiet.refl _) hm₁).1
        have hquiet' := ((keeps_requireExecuted (.finishImport _ _)).returns
          (Quiet.refl m₁) hm₂).1
        have hreplayed := returns_foldEach _ hm₁
          (fun _ _ m => m.world.vaults = s₂.machine.world.vaults) rfl
          fun _ event _ _ _ _ _ _ hvaults hstep => by
            unfold replayEvent at hstep
            split at hstep
            · rw [returns_bind] at hstep
              obtain ⟨receipt, m₃, hexecuted, hdone⟩ := hstep
              obtain ⟨-, rfl⟩ := returns_pure.mp hdone
              exact (vaults_of_trail (.importAuditEvent _) (executed_of_returns hexecuted)).trans
                hvaults
            · obtain ⟨-, rfl⟩ := returns_pure.mp hstep
              exact hvaults
        have hvaults := vaults_of_trail (.finishImport _ _) (executed_of_returns hm₂)
        exact ⟨hbegan, by simpa using hall, hquiet.trans hquiet', hvaults.trans hreplayed, rfl⟩

end Steps

/-! ## The completion of a dump -/

/-- The rows of a table, moved on at one identifier. -/
structure MovedAt (dumpId : DumpId) (t t' : Table DumpRow) : Prop where
  ids : t'.rows.map DumpRow.dumpId = t.rows.map DumpRow.dumpId
  others : ∀ row ∈ t', row.dumpId ≠ dumpId → row ∈ t

theorem MovedAt.refl (dumpId : DumpId) (t : Table DumpRow) : MovedAt dumpId t t :=
  ⟨rfl, fun _ h _ => h⟩

theorem MovedAt.trans {dumpId : DumpId} {t t' t'' : Table DumpRow} (h : MovedAt dumpId t t')
    (h' : MovedAt dumpId t' t'') : MovedAt dumpId t t'' :=
  ⟨h'.ids.trans h.ids, fun row hrow hne => h.others row (h'.others row hrow hne) hne⟩

theorem movedAt_updateKey {dumpId : DumpId} {t : Table DumpRow} {f : DumpRow → DumpRow}
    {hf : ∀ r, key (f r) = key r} : MovedAt dumpId t (t.updateKey dumpId f hf) where
  ids := by
    show (t.rows.map _).map DumpRow.dumpId = _
    rw [List.map_map]
    refine List.map_congr_left fun r _ => ?_
    show DumpRow.dumpId (if _ then f r else r) = _
    split
    · exact hf r
    · rfl
  others row hrow hne := by
    rcases Table.of_mem_update hrow with ⟨hmem, -⟩ | ⟨r, -, hk, rfl⟩
    · exact hmem
    · exact absurd ((hf r).trans (of_decide_eq_true hk)) hne

section Completion

variable {options : EngineOptions} {hosts : Nat → Host} {m m' : Machine} {dumpId : DumpId}

/-- What a command of a completion leaves: its row moved on. -/
structure MovedBy (m m' : Machine) (dumpId : DumpId) (phase : DumpPhase → Prop) : Prop where
  records : ∃ t', recordsOf m'.world.ledger = { recordsOf m.world.ledger with dumps := t' } ∧
    MovedAt dumpId m.world.ledger.dumps t' ∧ ∀ row ∈ t', row.dumpId = dumpId → phase row.phase

theorem MovedBy.trans {m'' : Machine} {phase phase' : DumpPhase → Prop}
    (h : MovedBy m m' dumpId phase) (h' : MovedBy m' m'' dumpId phase') :
    MovedBy m m'' dumpId phase' := by
  obtain ⟨t, hrecords, hmoved, -⟩ := h.records
  obtain ⟨t', hrecords', hmoved', hphase⟩ := h'.records
  have hdumps : m'.world.ledger.dumps = t := congrArg Records.dumps hrecords
  rw [hdumps] at hmoved'
  exact ⟨⟨t', by rw [hrecords', hrecords], hmoved.trans hmoved', hphase⟩⟩

theorem movedBy_executed {command : Command} {m₀ : DumpMove} {host : Host}
    (phase : DumpPhase → Prop) (hcommand : CompletionMove dumpId command m₀)
    (hphase : ∀ m t d, CompletionMove dumpId command m → phase (m.apply t d).phase)
    (h : Executed options host m.world command m'.world) : MovedBy m m' dumpId phase := by
  obtain ⟨move, t, d, hmove, hd, -, hrecords⟩ := executed_completion hcommand h
  refine ⟨⟨_, hrecords, movedAt_updateKey, ?_⟩⟩
  intro row hrow hid
  rcases (Table.mem_updateKey hd).mp hrow with rfl | ⟨-, hne⟩
  · exact hphase move t d hmove
  · exact absurd hid hne

theorem movedBy_refused (h : m'.world.ledger = m.world.ledger) :
    MovedBy m m' dumpId fun _ => True := by
  refine ⟨⟨m.world.ledger.dumps, ?_, .refl _ _, fun _ _ _ => trivial⟩⟩
  rw [h]
  rfl

theorem executed_of_requireOk {receipt : TransitionReceipt} {command : Command} {m₁ : Machine}
    {u : Unit} (hexecute : Returns (engineExecute options hosts command) m receipt m₁)
    (h : Returns (requireOk receipt) m₁ u m') :
    Executed options (hosts m.calls) m.world command m'.world := by
  obtain ⟨hanswer, rfl⟩ := returns_engineExecute.mp hexecute
  cases receipt with
  | success =>
    obtain ⟨-, rfl⟩ := returns_pure.mp h
    exact ⟨by rw [hanswer]; rfl, rfl⟩
  | failure => exact absurd h returns_throw

theorem returns_executeWith {command : Command} {u : Unit}
    (h : Returns (executeWith options hosts requireOk command) m u m') :
    Executed options (hosts m.calls) m.world command m'.world := by
  rw [executeWith, returns_bind] at h
  obtain ⟨receipt, m₁, hexecute, h⟩ := h
  exact executed_of_requireOk hexecute h

/-- **A dump that was completed** is available or rejected, as the answer says. -/
theorem completeStaged_returns {phase : DumpPhase}
    (h : Returns (completeStaged options hosts dumpId) m phase m') :
    (phase = .available ∨ phase = .rejected) ∧ MovedBy m m' dumpId (· = phase) := by
  unfold completeStaged at h
  simp only [returns_bind] at h
  obtain ⟨_, m₁, hpromote, _, m₂, hquarantine, h⟩ := h
  have hmoved : MovedBy m m₂ dumpId fun _ => True :=
    (movedBy_executed (fun _ => True) .promoteObject (fun _ _ _ _ => trivial)
      (returns_executeWith hpromote)).trans
      (movedBy_executed _ .markQuarantined (fun _ _ _ _ => trivial)
        (returns_executeWith hquarantine))
  unfold acceptOrReject at h
  rw [returns_bind] at h
  obtain ⟨receipt, m₃, haccept, h⟩ := h
  obtain ⟨hanswer, hm₃⟩ := returns_engineExecute.mp haccept
  cases receipt with
  | success =>
    obtain ⟨rfl, rfl⟩ := returns_pure.mp h
    have hexecuted : Executed options (hosts m₂.calls) m₂.world (.acceptDump dumpId.text)
        m₃.world := ⟨by rw [hanswer]; rfl, by rw [hm₃]⟩
    refine ⟨Or.inl rfl, hmoved.trans (movedBy_executed _ (.acceptDump .unknown []) ?_ hexecuted)⟩
    intro move t d hmove
    cases hmove
    rfl
  | failure action error =>
    have hrefused : m₃.world.ledger = m₂.world.ledger := by
      rw [hm₃]
      refine ledger_of_failed ?_
      rw [hanswer]
      exact Bool.false_ne_true
    -- the inspection says that the dump is to be rejected
    have hrejected : ∃ m₄ u, Returns (executeWith options hosts requireOk
        (.rejectDump dumpId.text)) m₃ u m₄ ∧ phase = .rejected ∧ m' = m₄ := by
      dsimp only at h
      split at h
      · rw [returns_bind] at h
        obtain ⟨_, _, hthrow, -⟩ := h
        exact absurd hthrow returns_throw
      · simp only [returns_bind, returns_pure] at h
        obtain ⟨receipt, m₄, hreject, _, m₅, hrequire, hphase, rfl⟩ := h
        exact ⟨m₅, (), by rw [executeWith, returns_bind]; exact ⟨_, _, hreject, hrequire⟩,
          hphase.symm, rfl⟩
    obtain ⟨m₄, u, hreject, rfl, rfl⟩ := hrejected
    refine ⟨Or.inr rfl, (hmoved.trans (movedBy_refused hrefused)).trans
      (movedBy_executed _ (.rejectDump "") ?_ (returns_executeWith hreject))⟩
    intro move t d hmove
    cases hmove
    rfl

end Completion

end DumpLedger.ImportSession
