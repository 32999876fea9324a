import DumpLedger.Engine.Execute

/-!
# What a command does to the vaults

A command works on the objects under one identifier at most: the one it names, or the one
it draws. `Command.Stores` says which operation that is.

* `planAt_stores` — a plan has no storage operation but its command's
* `StorageOp.run_same_dumps`, `StorageOp.run_same_symbols` — everything else is untouched
-/

namespace DumpLedger

open Lib

/-! ## The identifier of an operation -/

namespace StorageOp

def dumpId? : StorageOp → Option DumpId
  | createStaging d | removeStaging d | promote d | remove d => some d
  | _ => none

def symbolId? : StorageOp → Option SymbolArtifactId
  | createSymbolStaging a | removeSymbolStaging a | promoteSymbol a | removeSymbol a => some a
  | _ => none

variable {op : StorageOp} {nowMs : Int} {v v' : Vaults}

theorem run_same_dumps {d : DumpId} (h : op.run nowMs v = .ok v') (hne : op.dumpId? ≠ some d) :
    ObjectStore.SameObjects v.dumps v'.dumps d := by
  have hid : ∀ id, op.dumpId? = some id → d ≠ id := fun id hid he => hne (by rw [hid, he])
  cases op with
  | createStaging id =>
    simp only [run, bind_eq_ok, pure_eq_ok] at h
    obtain ⟨_, h, rfl⟩ := h
    exact ObjectStore.sameObjects_createStaging h (hid id rfl)
  | removeStaging id =>
    cases h
    exact ObjectStore.sameObjects_removeStaging (hid id rfl)
  | promote id =>
    simp only [run, bind_eq_ok, pure_eq_ok] at h
    obtain ⟨_, h, rfl⟩ := h
    exact ObjectStore.sameObjects_promote h (hid id rfl)
  | remove id =>
    cases h
    exact ObjectStore.sameObjects_remove (hid id rfl)
  | createSymbolStaging | promoteSymbol =>
    simp only [run, bind_eq_ok, pure_eq_ok] at h
    obtain ⟨_, -, rfl⟩ := h
    exact .refl _ _
  | removeSymbolStaging | removeSymbol =>
    cases h
    exact .refl _ _

theorem run_same_symbols {a : SymbolArtifactId} (h : op.run nowMs v = .ok v')
    (hne : op.symbolId? ≠ some a) : ObjectStore.SameObjects v.symbols v'.symbols a := by
  have hid : ∀ id, op.symbolId? = some id → a ≠ id := fun id hid he => hne (by rw [hid, he])
  cases op with
  | createSymbolStaging id =>
    simp only [run, bind_eq_ok, pure_eq_ok] at h
    obtain ⟨_, h, rfl⟩ := h
    exact ObjectStore.sameObjects_createStaging h (hid id rfl)
  | removeSymbolStaging id =>
    cases h
    exact ObjectStore.sameObjects_removeStaging (hid id rfl)
  | promoteSymbol id =>
    simp only [run, bind_eq_ok, pure_eq_ok] at h
    obtain ⟨_, h, rfl⟩ := h
    exact ObjectStore.sameObjects_promote h (hid id rfl)
  | removeSymbol id =>
    cases h
    exact ObjectStore.sameObjects_remove (hid id rfl)
  | createStaging | promote =>
    simp only [run, bind_eq_ok, pure_eq_ok] at h
    obtain ⟨_, -, rfl⟩ := h
    exact .refl _ _
  | removeStaging | remove =>
    cases h
    exact .refl _ _

end StorageOp

/-! ## The operation of a command -/

/-- The storage operation a command comes to, if it comes to one. -/
inductive Command.Stores (host : Host) : Command → StorageOp → Prop
  | beginUpload {secret name : String} :
      Stores host (.beginUpload secret name) (.createStaging host.dumpId)
  | failUpload (d : DumpId) : Stores host (.failUpload d.text) (.removeStaging d)
  | promoteObject (d : DumpId) : Stores host (.promoteObject d.text) (.promote d)
  | finishPurge (d : DumpId) : Stores host (.finishPurge d.text) (.remove d)
  | ingestSymbol {kind : String} :
      Stores host (.ingestSymbol kind) (.createSymbolStaging host.symbolId)
  | sealStored {fields : SealSymbolFields} (a : SymbolArtifactId) (h : fields.artifactId = a.text) :
      Stores host (.sealSymbol fields) (.removeSymbolStaging a)
  | sealNew {fields : SealSymbolFields} (a : SymbolArtifactId) (h : fields.artifactId = a.text) :
      Stores host (.sealSymbol fields) (.promoteSymbol a)
  | failSymbol (a : SymbolArtifactId) : Stores host (.failSymbol a.text) (.removeSymbolStaging a)
  | purgeSymbol (a : SymbolArtifactId) : Stores host (.purgeSymbol a.text) (.removeSymbol a)

/-- The undo of a plan is on the identifier a command drew or brings in. -/
inductive Command.Undoes (host : Host) : Command → DumpId → Prop
  | beginUpload {secret name : String} : Undoes host (.beginUpload secret name) host.dumpId
  | importDumpStaged {record : ImportDumpRecord} (d : DumpId) (h : record.dumpId = d.text) :
      Undoes host (.importDumpStaged record) d

/-- What a plan does to the vaults is what its command stands for. -/
structure Plan.StoresFor (command : Command) (host : Host) (p : Plan) : Prop where
  storage : ∀ op, p.storage = some op → command.Stores host op
  compensation : ∀ d, p.compensation = some d → command.Undoes host d

section Plans

variable {options : EngineOptions} {host : Host} {w : World} {occurredAt : IsoTimestamp}

theorem Plan.StoresFor.of_none {command : Command} {p : Plan} (hs : p.storage = none)
    (hc : p.compensation = none) : p.StoresFor command host where
  storage _ h := by cases hs.symm.trans h
  compensation _ h := by cases hc.symm.trans h

theorem Plan.StoresFor.of_some {command : Command} {p : Plan} {op : StorageOp}
    (hs : p.storage = some op) (hc : p.compensation = none) (h : command.Stores host op) :
    p.StoresFor command host where
  storage _ h' := by
    cases hs.symm.trans h'
    exact h
  compensation _ h := by cases hc.symm.trans h

theorem checkSealSymbol_artifactId {fields : SealSymbolFields} {insert : SymbolArtifactInsert}
    (h : checkSealSymbol fields = .ok insert) : insert.artifactId.text = fields.artifactId := by
  simp only [checkSealSymbol, bind_eq_ok, pure_eq_ok, parseSymbolArtifactId,
    parseIdentifier_eq_ok] at h
  obtain ⟨_, hid, _, -, _, -, _, -, _, -, _, -, _, -, _, -, rfl⟩ := h
  exact hid

/-- **A command stores nothing but its own object.** -/
theorem planAt_stores (command : Command) :
    Ensures (planAt options host w occurredAt command) (Plan.StoresFor command host) := by
  cases command with
  | beginUpload grantSecret originalName =>
    unfold planAt planBeginUpload
    repeat refine .bind fun _ _ => ?_
    refine .ok ⟨fun _ h => ?_, fun _ h => ?_⟩
    · cases h
      exact .beginUpload
    · cases h
      exact .beginUpload
  | failUpload dumpId =>
    refine .bind fun d hd => .bind fun _ _ => .ok (.of_some rfl rfl ?_)
    rw [← parseIdentifier_eq_ok.mp hd]
    exact .failUpload d
  | promoteObject dumpId =>
    refine .bind fun d hd => .bind fun _ _ => .ok (.of_some rfl rfl ?_)
    rw [← parseIdentifier_eq_ok.mp hd]
    exact .promoteObject d
  | finishPurge dumpId =>
    refine .bind fun d hd => .bind fun _ _ => .ok (.of_some rfl rfl ?_)
    rw [← parseIdentifier_eq_ok.mp hd]
    exact .finishPurge d
  | acceptDump dumpId =>
    unfold planAt planAcceptDump
    repeat refine .bind fun _ _ => ?_
    split
    · exact .error
    · exact .ok (.of_none rfl rfl)
  | rejectDump dumpId =>
    unfold planAt planRejectDump
    repeat refine .bind fun _ _ => ?_
    split
    · exact .error
    · exact .ok (.of_none rfl rfl)
  | recordAnalysis =>
    unfold planAt planRecordAnalysis recordAnalysisPlan
    repeat refine .bind fun _ _ => ?_
    split <;> exact .ok (.of_none rfl rfl)
  | ingestSymbol kind => exact .bind fun _ _ => .ok (.of_some rfl rfl .ingestSymbol)
  | sealSymbol fields =>
    refine .bind fun insert hinsert => ?_
    have hid := checkSealSymbol_artifactId hinsert
    unfold sealSymbolPlan
    split
    · exact .ok (.of_some rfl rfl (.sealStored _ hid.symm))
    · exact .ok (.of_some rfl rfl (.sealNew _ hid.symm))
  | failSymbol artifactId =>
    refine .bind fun a ha => .ok (.of_some rfl rfl ?_)
    rw [← parseIdentifier_eq_ok.mp ha]
    exact .failSymbol a
  | purgeSymbol artifactId =>
    refine .bind fun a ha => .bind fun _ _ => .ok (.of_some rfl rfl ?_)
    rw [← parseIdentifier_eq_ok.mp ha]
    exact .purgeSymbol a
  | importDumpStaged record =>
    refine .bind fun d hd => ?_
    repeat refine .bind fun _ _ => ?_
    split
    · unfold planImportStaged
      split
      · refine .bind fun _ _ => .ok ⟨nofun, fun _ h => ?_⟩
        cases h
        exact .importDumpStaged d (parseIdentifier_eq_ok.mp hd).symm
      · exact .error
    · unfold planImportTombstone
      repeat refine .bind fun _ _ => ?_
      exact .ok (.of_none rfl rfl)
  | _ =>
    simp only [planAt, planCreateCustomer, planCreateCase, planCase, planIssueGrant, planGrantEnd,
      planSealUpload, planMarkQuarantined, planAuthorizeDownload, planSetRetention, planBeginPurge,
      planBeginImport, planImportCustomer, planImportCase, planImportGrant, planImportAuditEvent,
      planFinishImport]
    repeat refine .bind fun _ _ => ?_
    exact .ok (.of_none rfl rfl)

theorem plan_stores {command : Command} {p : Plan} (h : plan options host w command = .ok p) :
    p.StoresFor command host := by
  obtain ⟨_, -, h⟩ := plan_eq_ok.mp h
  exact planAt_stores command p h

end Plans

/-! ## The dump vault after a command -/

section Dumps

variable {options : EngineOptions} {host : Host} {w : World} {command : Command} {d : DumpId}

/-- What a command may do to the objects of a dump is its storage operation, or its undo. -/
theorem execute_sameObjects (hstores : ∀ op, command.Stores host op → op.dumpId? ≠ some d)
    (hundoes : ∀ id, ¬ command.Undoes host id) :
    ObjectStore.SameObjects w.vaults.dumps (execute options host w command).2.vaults.dumps d := by
  have hstored : ∀ {p : Plan} {v : Vaults}, plan options host w command = .ok p →
      Stored p host w.vaults v → ObjectStore.SameObjects w.vaults.dumps v.dumps d := by
    intro p v hplan hs
    cases hs with
    | kept => exact .refl _ _
    | done hop hrun =>
      exact StorageOp.run_same_dumps hrun (hstores _ ((plan_stores hplan).storage _ hop))
  have hc := execute_cases options host w command
  generalize execute options host w command = out at hc ⊢
  obtain ⟨outcome, w'⟩ := out
  cases hc with
  | refused _ => exact .refl _ _
  | storageThrew hplan hop hperform => exact hstored hplan (stored_of_perform hop hperform)
  | crashed hplan hop _ => exact hstored hplan (stored_of_operation hop)
  | committed hplan hop _ _ => exact hstored hplan (stored_of_operation hop)
  | @rolledBack p v e hplan hop _ _ =>
    have hnone : p.compensation = none := by
      cases hcomp : p.compensation with
      | none => rfl
      | some id => exact absurd ((plan_stores hplan).compensation id hcomp) (hundoes id)
    have hundo : (p.twoStore options host).undo v = v := by simp only [Plan.twoStore, hnone]
    rw [hundo]
    exact hstored hplan (stored_of_operation hop)

end Dumps

/-! ## The symbol vault after a command -/

section Symbols

variable {options : EngineOptions} {host : Host} {w : World} {command : Command}

/-- The symbol vault before a command, or after its storage operation. -/
inductive SymbolsStored (host : Host) (command : Command) (v : Vaults) :
    ObjectStore SymbolArtifactId → Prop
  | kept : SymbolsStored host command v v.symbols
  | done {op : StorageOp} {v' : Vaults} (hop : command.Stores host op)
      (hrun : op.run host.nowMs v = .ok v') : SymbolsStored host command v v'.symbols

theorem symbolsStored {p : Plan} {v v' : Vaults} (hplan : plan options host w command = .ok p)
    (h : Stored p host v v') : SymbolsStored host command v v'.symbols := by
  cases h with
  | kept => exact .kept
  | done hop hrun => exact .done ((plan_stores hplan).storage _ hop) hrun

/-- The undo of a plan is on the dump vault. -/
theorem symbols_undo {p : Plan} {v : Vaults} :
    ((p.twoStore options host).undo v).symbols = v.symbols := by
  cases hc : p.compensation <;> simp only [Plan.twoStore, hc]

theorem execute_symbols (options : EngineOptions) (host : Host) (w : World) (command : Command) :
    SymbolsStored host command w.vaults (execute options host w command).2.vaults.symbols := by
  have hc := execute_cases options host w command
  generalize execute options host w command = out at hc ⊢
  obtain ⟨outcome, w'⟩ := out
  cases hc with
  | refused _ => exact .kept
  | storageThrew hplan hop hperform => exact symbolsStored hplan (stored_of_perform hop hperform)
  | crashed hplan hstored _ => exact symbolsStored hplan (stored_of_operation hstored)
  | committed hplan hstored _ _ => exact symbolsStored hplan (stored_of_operation hstored)
  | rolledBack hplan hstored _ _ =>
    dsimp only
    rw [symbols_undo]
    exact symbolsStored hplan (stored_of_operation hstored)

end Symbols

end DumpLedger
