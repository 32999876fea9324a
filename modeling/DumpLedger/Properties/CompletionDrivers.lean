import DumpLedger.Properties.Completion
import DumpLedger.Recovery.Completion

/-!
# The completion drivers agree

The upload post-processor, startup recovery and an import complete a dump, each in its own way.
They come to the same row and the same object, and what a crash leaves of one of them is taken
to its end by another.

* `stage_of_reached` — a reachable dump with exactly one object is on its way
* `keeps_processUpload`, `keeps_completeStaged`, `keeps_reconcile` — a driver keeps what its
  calls keep, also when it fails
* `processUpload_wp`, `completeStaged_wp`, `reconcile_over` — without faults it gets to an end
* `completion_drivers_agree` — all of it together, after any number of crashes
-/

namespace DumpLedger

open Lib

/-! ## Reachable dumps -/

/-- What the ledger says is promoted is in the vault. -/
def Vaulted (w : World) : Prop :=
  ∀ d ∈ w.ledger.dumps, d.phase = .sealed → d.blobState = .vault →
    w.vaults.dumps.objects.contains d.dumpId = true

section Reachable

variable {options : EngineOptions} {host : Host} {w : World} {command : Command} {e : Event}
  {p : Plan} {v v' : Vaults} {id : DumpId} {op : StorageOp} {nowMs : Int}

theorem objects_of_run (h : op.run nowMs v = .ok v')
    (hid : v.dumps.objects.contains id = true) :
    v'.dumps.objects.contains id = true ∨ op = .remove id := by
  by_cases hop : op.dumpId? = some id
  · cases op <;> cases hop
    · obtain ⟨s, hs, hv⟩ := bind_eq_ok.mp h
      cases hv
      obtain ⟨_, rfl⟩ := ObjectStore.createStaging_eq_ok.mp hs
      exact Or.inl hid
    · cases h
      exact Or.inl hid
    · obtain ⟨s, hs, hv⟩ := bind_eq_ok.mp h
      cases hv
      rcases ObjectStore.promote_eq_ok.mp hs with ⟨-, -, rfl⟩ | ⟨f, -, -, _, rfl⟩
      · exact Or.inl hid
      · exact Or.inl (by simp [hid])
    · exact Or.inr rfl
  · have hsame := StorageOp.run_same_dumps h hop
    exact Or.inl (hsame.contains.2.trans hid)

/-- An object is removed by the purge of a dump that is being deleted. -/
theorem plan_remove (hplan : plan options host w command = .ok p)
    (hop : p.storage = some (.remove id)) :
    ∃ d, w.ledger.dumps.find? id = some d ∧ d.phase = .deleting := by
  have hstores := (plan_stores hplan).storage _ hop
  cases hstores with
  | finishPurge =>
    obtain ⟨t, -, h⟩ := plan_eq_ok.mp hplan
    obtain ⟨k, hk, h⟩ := bind_eq_ok.mp h
    obtain ⟨d, hd, h⟩ := bind_eq_ok.mp h
    cases h
    cases hop
    obtain ⟨hd, hphase⟩ := requirePhase_eq_ok.mp hd
    exact ⟨d, hd, hphase⟩

theorem objects_of_stored (hplan : plan options host w command = .ok p)
    (h : Stored p host w.vaults v) (hid : w.vaults.dumps.objects.contains id = true) :
    v.dumps.objects.contains id = true ∨
      ∃ d, w.ledger.dumps.find? id = some d ∧ d.phase = .deleting := by
  cases h with
  | kept => exact Or.inl hid
  | done hop hrun =>
    rcases objects_of_run hrun hid with h | rfl
    · exact Or.inl h
    · exact Or.inr (plan_remove hplan hop)

theorem objects_undo : ((p.twoStore options host).undo v).dumps.objects = v.dumps.objects := by
  cases hc : p.compensation <;> simp only [Plan.twoStore, hc, ObjectStore.objects_removeStaging]

variable (options host command) in
theorem objects_of_execute (hid : w.vaults.dumps.objects.contains id = true) :
    (execute options host w command).2.vaults.dumps.objects.contains id = true ∨
      ∃ d, w.ledger.dumps.find? id = some d ∧ d.phase = .deleting := by
  have hc := execute_cases options host w command
  generalize execute options host w command = out at hc ⊢
  obtain ⟨outcome, w'⟩ := out
  cases hc with
  | refused _ => exact Or.inl hid
  | storageThrew hplan hop hperform =>
    exact objects_of_stored hplan (stored_of_perform hop hperform) hid
  | crashed hplan hstored _ => exact objects_of_stored hplan (stored_of_operation hstored) hid
  | committed hplan hstored _ _ =>
    exact objects_of_stored hplan (stored_of_operation hstored) hid
  | rolledBack hplan hstored _ _ =>
    dsimp only
    rw [objects_undo]
    exact objects_of_stored hplan (stored_of_operation hstored) hid

theorem objects_onDumps {x : Except Thrown (ObjectStore DumpId)}
    (h : ∀ s, x = .ok s → s.objects = w.vaults.dumps.objects) :
    (w.onDumps x).vaults.dumps.objects = w.vaults.dumps.objects := by
  cases x with
  | error => rfl
  | ok s => exact h s rfl

/-- **No event removes the object of a dump that is not being deleted.** -/
theorem objects_of_step (options : EngineOptions) (e : Event)
    (hid : w.vaults.dumps.objects.contains id = true) :
    (step options w e).vaults.dumps.objects.contains id = true ∨
      ∃ d, w.ledger.dumps.find? id = some d ∧ d.phase = .deleting := by
  cases e with
  | command host command =>
    rcases objects_of_execute options host command hid with h | h
    · refine Or.inl ?_
      generalize hout : execute options host w command = out at h
      obtain ⟨outcome, w'⟩ := out
      simp only [step, hout]
      cases outcome <;> exact h
    · exact Or.inr h
  | append nowMs dumpId bytes =>
    refine Or.inl ?_
    simp only [step]
    rw [objects_onDumps]
    · exact hid
    · intro s hs
      obtain ⟨f, -, -, rfl⟩ := ObjectStore.append_eq_ok.mp hs
      rfl
  | syncAndClose dumpId =>
    refine Or.inl ?_
    simp only [step]
    rw [objects_onDumps]
    · exact hid
    · intro s hs
      obtain ⟨f, -, rfl⟩ := ObjectStore.syncAndClose_eq_ok.mp hs
      rfl
  | stageImport nowMs dumpId =>
    refine Or.inl ?_
    simp only [step]
    split
    · exact hid
    · rw [objects_onDumps]
      · exact hid
      · intro s hs
        obtain ⟨_, rfl⟩ := ObjectStore.createStaging_eq_ok.mp hs
        rfl
  | dropImport dumpId =>
    refine Or.inl ?_
    simp only [step]
    split <;> exact hid
  | appendSymbol | syncAndCloseSymbol =>
    refine Or.inl ?_
    simp only [step, World.dumps_onSymbols]
    exact hid
  | reopen => exact Or.inl hid

/-- Only `PromoteObject` makes a sealed dump one that is in the vault. -/
theorem vaulted_of_run {sha256 : Bytes → Sha256} {op : LedgerOp} {event : EventIdentity}
    {l l' : SqliteLedger} {r : LedgerResult} (htracked : ∀ d ∈ l.dumps, Tracked d)
    (h : op.run sha256 event l = .ok (r, l')) {d : DumpRow} (hd : d ∈ l'.dumps)
    (hphase : d.phase = .sealed) (hblob : d.blobState = .vault) :
    d ∈ l.dumps ∨ op = .recordPromoted d.dumpId := by
  have hch := (run_changes h).dumps
  generalize l'.dumps = dumps at hch hd
  cases hch with
  | same => exact Or.inl hd
  | inserted row _ hnew _ =>
    rcases Table.mem_insert.mp hd with hd | rfl
    · exact Or.inl hd
    · cases hnew with
      | received => cases hphase
      | staged => cases hblob
      | @tombstone record _ =>
        have hp : record.phase.phase = .sealed := hphase
        cases hrecord : record.phase <;> rw [hrecord] at hp <;> cases hp
  | moved d₀ m hop hd₀ hguard =>
    rcases (Table.mem_updateKey hd₀).mp hd with rfl | ⟨hd, -⟩
    · rw [DumpMove.apply_dumpId]
      have hold := htracked d₀ (Table.mem_of_find? hd₀)
      cases m with
      | recordPromoted =>
        cases op <;> cases hop
        exact Or.inr rfl
      | sealUpload =>
        -- the bytes of a received dump are in its staging file
        have hp : d₀.phase = .receiving := by simpa [DumpMove.guard] using hguard
        have hb : d₀.blobState = .vault := hblob
        rw [hold.receiving hp] at hb
        cases hb
      | setRetention purgeAt =>
        have hp : d₀.phase = .sealed := hphase
        simp [DumpMove.guard, hp] at hguard
      | _ => cases hphase
    · exact Or.inl hd

/-- **What the ledger calls promoted stays in the vault.** -/
theorem vaulted_step (htracked : ∀ d ∈ w.ledger.dumps, Tracked d) (h : Vaulted w) (e : Event) :
    Vaulted (step options w e) := by
  intro d hd hphase hblob
  have hkept (hd : d ∈ w.ledger.dumps) :
      (step options w e).vaults.dumps.objects.contains d.dumpId = true := by
    rcases objects_of_step options e (h d hd hphase hblob) with hobject | ⟨d', hd', hdeleting⟩
    · exact hobject
    · have hfind : w.ledger.dumps.find? d.dumpId = some d := Table.find?_key hd
      rw [hfind] at hd'
      cases hd'
      rw [hphase] at hdeleting
      cases hdeleting
  rcases step_ledger options w e with hsame | ⟨host, command, p, op, r, hc⟩
  · rw [hsame] at hd
    exact hkept hd
  · rcases vaulted_of_run htracked hc.run hd hphase hblob with hd | rfl
    · exact hkept hd
    · -- the command that records a promotion has made it
      have hdone : (execute options host w command).1.succeeded = true := by
        rw [hc.outcome]
        rfl
      obtain ⟨p', r', hplan, hstored, -, hout⟩ := execute_succeeded hdone
      rw [hc.plan] at hplan
      cases hplan
      rw [hc.event]
      simp only [step, settle, hout]
      have hstorage := plan_recordPromoted hc.plan hc.ledger
      rcases operation_eq_ok.mp hstored with ⟨hnone, -⟩ | ⟨op', hop', -, hrun⟩
      · rw [hstorage] at hnone
        cases hnone
      · rw [hstorage] at hop'
        cases hop'
        obtain ⟨s, hpromote, hv⟩ := bind_eq_ok.mp hrun
        rw [← Except.ok.inj hv]
        rcases ObjectStore.promote_eq_ok.mp hpromote with ⟨-, hobject, rfl⟩ | ⟨f, -, -, _, rfl⟩
        · exact hobject
        · simp

theorem reached_vaulted (options : EngineOptions) (events : List Event) :
    Vaulted (reached options events) := by
  have hboth : (∀ d ∈ (reached options events).ledger.dumps, Tracked d) ∧
      Vaulted (reached options events) := by
    induction events using List.reverseRecOn with
    | nil =>
      exact ⟨reached_tracked options [], fun d hd => absurd hd Table.not_mem_empty⟩
    | append_singleton events e ih =>
      refine ⟨reached_tracked options _, ?_⟩
      rw [reached_concat]
      exact vaulted_step ih.1 ih.2 e
  exact hboth.2

/-- The bytes of a dump are exactly one object. A staging file is closed: both callers that seal
a dump have closed it before. -/
def OneObject (s : ObjectStore DumpId) (dumpId : DumpId) (bytes : Bytes) : Prop :=
  InStaging s dumpId bytes ∨ InVault s dumpId bytes

theorem inVault_of_contains {s : ObjectStore DumpId} {bytes : Bytes}
    (h : OneObject s id bytes) (hobject : s.objects.contains id = true) :
    InVault s id bytes := by
  rcases h with h | h
  · rw [Table.contains, h.2] at hobject
    cases hobject
  · exact h

/-- **A reachable dump that is sealed or quarantined and has one object is on its way.** -/
theorem stage_of_reached {events : List Event} {d : DumpRow} {bytes : Bytes}
    (outcome : InspectionOutcome)
    (h : Along (step options) DrawsNewDumps World.fresh events)
    (hd : d ∈ (reached options events).ledger.dumps)
    (hphase : d.phase = .sealed ∨ d.phase = .quarantined)
    (hone : OneObject (reached options events).vaults.dumps d.dumpId bytes) :
    Stage outcome bytes d d (reached options events).vaults.dumps := by
  have htracked := reached_tracked options events d hd
  rcases hphase with hphase | hphase
  · obtain ⟨hblob | hblob, hsha, -⟩ := htracked.sealed hphase
    · exact .sealed hphase hblob hsha rfl rfl hone
    · have hobject := reached_vaulted options events d hd hphase hblob
      exact .promoted hphase hblob hsha rfl rfl (inVault_of_contains hone hobject)
  · obtain ⟨hblob, hsha, -⟩ := htracked.quarantined hphase
    refine .quarantined hphase hblob hsha rfl rfl ?_
    rcases hone with ⟨⟨f, hf, -⟩, -⟩ | hobject
    · have hnone := reached_sealedOff h d hd hphase
      rw [Table.contains, hf] at hnone
      cases hnone
    · exact hobject

end Reachable

/-! ## What a driver keeps -/

/-- What recovery relies on, for every dump. -/
structure Sound (w : World) : Prop where
  linked : Linked w.ledger
  tracked : ∀ d ∈ w.ledger.dumps, Tracked d
  sealedOff : SealedOff w

section Sound

variable {options : EngineOptions} {inspector : Option Bytes → InspectionOutcome} {id : DumpId}
  {w w' : World}

theorem Sound.reopen (h : Sound w) : Sound w.reopen := by
  refine ⟨h.linked, h.tracked, ?_⟩
  intro d hd hphase
  rw [← h.sealedOff d hd hphase]
  exact ObjectStore.contains_reopen

/-- What a death at the end of a command hides. -/
theorem Sound.of_settle {out : Outcome × World} (h : Sound (settle out)) : Sound out.2 := by
  obtain ⟨outcome, w⟩ := out
  cases outcome with
  | receipt => exact h
  | crashed =>
    refine ⟨h.linked, h.tracked, ?_⟩
    intro d hd hphase
    rw [← h.sealedOff d hd hphase]
    exact ObjectStore.contains_reopen.symm

theorem Sound.step {e : Event} (h : Sound w) (he : DrawsNewDumps w e) :
    Sound (step options w e) :=
  ⟨ledger_step (I := Linked) (fun _ _ _ _ _ => run_linked) h.linked,
    ledger_step (I := fun l => ∀ d ∈ l.dumps, Tracked d) (fun _ _ _ _ _ => run_tracked) h.tracked,
    sealedOff_step h.sealedOff he⟩

theorem DriverCall.sound (hcall : DriverCall options inspector id w w') (h : Sound w) :
    Sound w' := by
  cases hcall with
  | executed host command hcommand =>
    refine Sound.of_settle (h.step (e := .command host command) ?_)
    cases hcommand <;> exact trivial
  | performed op fault nowMs hop =>
    refine ⟨h.linked, h.tracked, ?_⟩
    intro d hd hphase
    have hnone := h.sealedOff d hd hphase
    generalize hout : op.perform fault nowMs w.vaults = out
    obtain ⟨result, v⟩ := out
    rcases StorageOp.perform_cases hout with hrun | ⟨rfl, -⟩
    · -- a removal brings no staging file
      cases hop with
      | removeStaging k _ | remove k _ =>
        cases hrun
        simp [ObjectStore.contains_removeStaging, hnone]
    · exact hnone

end Sound

/-- Every call of a driver keeps `I`. -/
def KeptByCalls (options : EngineOptions) (inspector : Option Bytes → InspectionOutcome)
    (id : DumpId) (I : World → Prop) : Prop :=
  ∀ w w', DriverCall options inspector id w w' → I w → I w'

/-- The driver keeps `I`, also when it throws. -/
def DriverKeeps {α : Type} (I : World → Prop) (x : Driver α) : Prop :=
  Prog.Keeps (fun m : Machine => I m.world) (fun _ : Thrown => True) x fun _ => True

section Drivers

variable {options : EngineOptions} {inspector : Option Bytes → InspectionOutcome} {id : DumpId}
  {I : World → Prop} {hosts : Nat → Host}

theorem DriverKeeps.pure {α : Type} {a : α} : DriverKeeps I (Pure.pure a : Driver α) :=
  Prog.Keeps.pure trivial

theorem DriverKeeps.throw {α : Type} {e : Thrown} :
    DriverKeeps I (MonadExcept.throw e : Driver α) :=
  Prog.Keeps.throw trivial

theorem DriverKeeps.bind {α β : Type} {x : Driver α} {f : α → Driver β} (h : DriverKeeps I x)
    (hf : ∀ a, DriverKeeps I (f a)) : DriverKeeps I (x >>= f) :=
  Prog.Keeps.bind h fun a _ => hf a

theorem DriverKeeps.read {α β : Type} {f : Machine → α} {g : α → Driver β}
    (h : ∀ m, I m.world → DriverKeeps I (g (f m))) : DriverKeeps I (Prog.gets f >>= g) := by
  refine Prog.Keeps.bind (P := fun a => DriverKeeps I (g a)) (Prog.Keeps.gets fun m hm => h m hm) ?_
  intro a ha
  exact ha

theorem DriverKeeps.lift {α : Type} {x : Except Thrown α} : DriverKeeps I (Prog.lift x) :=
  Prog.Keeps.lift (fun _ _ => trivial) fun _ _ => trivial

theorem keeps_requireProcessed (receipt : TransitionReceipt) :
    DriverKeeps I (requireProcessed receipt) := by
  cases receipt with
  | success => exact .pure
  | failure => exact .throw

theorem keeps_requireOk (receipt : TransitionReceipt) : DriverKeeps I (requireOk receipt) := by
  cases receipt with
  | success => exact .pure
  | failure => exact .throw

theorem keeps_requireSuccess (receipt : TransitionReceipt) :
    DriverKeeps I (requireSuccess receipt) := by
  cases receipt with
  | success => exact .pure
  | failure => exact .throw

section Calls

variable (hI : KeptByCalls options inspector id I)
  (hinspect : ∀ n, (hosts n).inspect = fun _ bytes => inspector bytes)

include hI hinspect

theorem keeps_engineExecute {command : Command} (hcommand : DriverCommand id command) :
    DriverKeeps I (engineExecute options hosts command) := by
  intro m hm
  have hkept := hI _ _ (.executed (hosts m.calls) command hcommand (hinspect _)) hm
  unfold Prog.wp engineExecute
  generalize execute options (hosts m.calls) m.world command = out at hkept
  obtain ⟨outcome, w⟩ := out
  cases outcome with
  | receipt => exact ⟨hkept, trivial⟩
  | crashed => exact ⟨hkept, trivial⟩

omit hinspect in
theorem keeps_vaultPerform {op : StorageOp} (hop : DriverRemoval id op) :
    DriverKeeps I (vaultPerform hosts op) := by
  intro m hm
  have hkept := hI _ _
    (.performed op (hosts m.calls).storageFault (hosts m.calls).nowMs hop) hm
  unfold Prog.wp vaultPerform
  generalize op.perform (hosts m.calls).storageFault (hosts m.calls).nowMs m.world.vaults = out
    at hkept
  obtain ⟨result, v⟩ := out
  cases result with
  | ok => exact ⟨hkept, trivial⟩
  | error => exact ⟨hkept, trivial⟩

/-! ### The upload post-processor and an import -/

theorem keeps_executeWith {require : TransitionReceipt → Driver Unit}
    (hrequire : ∀ receipt, DriverKeeps I (require receipt)) {command : Command}
    (hcommand : DriverCommand id command) :
    DriverKeeps I (executeWith options hosts require command) :=
  (keeps_engineExecute hI hinspect hcommand).bind hrequire

theorem keeps_acceptOrReject {require : TransitionReceipt → Driver Unit}
    (hrequire : ∀ receipt, DriverKeeps I (require receipt)) (dumpId : DumpId) :
    DriverKeeps I (acceptOrReject options hosts require dumpId) := by
  refine (keeps_engineExecute hI hinspect (.acceptDump _)).bind fun accepted => ?_
  have hreject : DriverKeeps I (do
      let rejected ← engineExecute options hosts (.rejectDump dumpId.text)
      require rejected
      return DumpPhase.rejected) :=
    (keeps_engineExecute hI hinspect (.rejectDump _)).bind fun rejected =>
      (hrequire rejected).bind fun _ => .pure
  cases accepted with
  | success receipt => exact .pure
  | failure action error =>
    dsimp only
    split
    · exact (hrequire _).bind fun _ => hreject
    · exact hreject

theorem keeps_processQuarantined (dumpId : DumpId) :
    DriverKeeps I (processQuarantined options hosts dumpId) := by
  refine .read fun m _ => ?_
  cases m.world.ledger.dumps.find? dumpId with
  | none => exact .throw
  | some dump =>
    dsimp only
    split
    · exact keeps_acceptOrReject hI hinspect keeps_requireProcessed dumpId
    · exact .throw

theorem keeps_processSealed (dumpId : DumpId) (blobState : BlobState) :
    DriverKeeps I (processSealed options hosts dumpId blobState) := by
  have hrequire := @keeps_requireProcessed I
  unfold processSealed
  split
  · exact (keeps_executeWith hI hinspect hrequire (.promoteObject _)).bind fun _ =>
      keeps_executeWith hI hinspect hrequire (.markQuarantined _)
  · exact keeps_executeWith hI hinspect hrequire (.markQuarantined _)

theorem keeps_processUpload (dumpId : String) :
    DriverKeeps I (processUpload options hosts dumpId) := by
  refine DriverKeeps.lift.bind fun dumpId => .read fun m _ => ?_
  cases m.world.ledger.dumps.find? dumpId with
  | none => exact .throw
  | some dump =>
    have hquarantined := keeps_processQuarantined hI hinspect dumpId
    cases hphase : dump.phase <;> simp only [hphase]
    case available | rejected => exact .pure
    case «sealed» =>
      exact (keeps_processSealed hI hinspect dumpId dump.blobState).bind fun _ => hquarantined
    all_goals exact hquarantined

theorem keeps_completeStaged (dumpId : DumpId) :
    DriverKeeps I (completeStaged options hosts dumpId) := by
  have hrequire := @keeps_requireOk I
  exact (keeps_executeWith hI hinspect hrequire (.promoteObject _)).bind fun _ =>
    (keeps_executeWith hI hinspect hrequire (.markQuarantined _)).bind fun _ =>
      keeps_acceptOrReject hI hinspect hrequire dumpId

/-! ### Recovery -/

theorem keeps_executeRequired {command : Command} (hcommand : DriverCommand id command) :
    DriverKeeps I (executeRequired options hosts command) :=
  (keeps_engineExecute hI hinspect hcommand).bind keeps_requireSuccess

theorem keeps_inspectQuarantined (dumpId : DumpId) :
    DriverKeeps I (inspectQuarantined options hosts dumpId) := by
  refine (keeps_engineExecute hI hinspect (.acceptDump _)).bind fun accepted => ?_
  have hreject : DriverKeeps I (do
      let rejected ← engineExecute options hosts (.rejectDump dumpId.text)
      requireSuccess rejected
      return ReconciliationOutcome.rejected) :=
    (keeps_engineExecute hI hinspect (.rejectDump _)).bind fun rejected =>
      (keeps_requireSuccess rejected).bind fun _ => .pure
  cases accepted with
  | success receipt => exact .pure
  | failure action error =>
    dsimp only
    split
    · exact (keeps_requireSuccess _).bind fun _ => hreject
    · exact hreject

omit hinspect in
theorem keeps_removeOrphan (recovery : ReconciliationOptions) {known : List DumpId}
    (hknown : id ∈ known) (orphan : DumpId) :
    DriverKeeps I (removeOrphan hosts recovery known orphan) := by
  unfold removeOrphan
  by_cases horphan : orphan ∈ known
  · rw [if_pos horphan]
    exact .pure
  rw [if_neg horphan]
  refine .read fun m _ => ?_
  have hne : orphan ≠ id := by
    intro he
    rw [he] at horphan
    exact horphan hknown
  cases m.world.vaults.dumps.stagingModifiedAt orphan with
  | none => exact .pure
  | some modified =>
    dsimp only
    split
    · exact (keeps_vaultPerform hI (.removeStaging orphan hne)).bind fun _ => .pure
    · exact .pure

theorem keeps_reconcileSealed (dump : DumpRow) (presence : VaultPresence) :
    DriverKeeps I (reconcileSealed options hosts dump presence) := by
  have hend : DriverKeeps I (do
      executeRequired options hosts (.markQuarantined dump.dumpId.text)
      let outcome ← inspectQuarantined options hosts dump.dumpId
      return [(⟨dump.dumpId, outcome, "resumed sealed dump promotion and inspection"⟩ :
        ReconciliationAction)]) :=
    (keeps_executeRequired hI hinspect (.markQuarantined _)).bind fun _ =>
      (keeps_inspectQuarantined hI hinspect _).bind fun _ => .pure
  unfold reconcileSealed
  split
  · exact .pure
  · split
    · exact (keeps_executeRequired hI hinspect (.promoteObject _)).bind fun _ => hend
    · split
      · exact .pure
      · exact hend

/-- A row of the snapshot by which recovery takes no step back for the dump `id`. -/
def Handled (I : World → Prop) (id : DumpId) (dump : DumpRow) : Prop :=
  dump.dumpId ≠ id ∨ dump.phase = .sealed ∨ dump.phase = .quarantined ∨
    ((dump.phase = .available ∨ dump.phase = .rejected) ∧
      ∀ w, I w → ∃ bytes, InVault w.vaults.dumps dump.dumpId bytes)

/-- The step for a dump other than `id` names that dump only. -/
theorem keeps_reconcileDump_other {dump : DumpRow} (hne : dump.dumpId ≠ id) :
    DriverKeeps I (reconcileDump options hosts dump) := by
  have htext : dump.dumpId.text ≠ id.text := fun h => hne (Identifier.ext h)
  refine .read fun m _ => ?_
  cases dump.phase <;> dsimp only
  case receiving =>
    exact (keeps_vaultPerform hI (.removeStaging _ hne)).bind fun _ =>
      (keeps_executeRequired hI hinspect (.failUpload _ htext)).bind fun _ => .pure
  case «sealed» => exact keeps_reconcileSealed hI hinspect dump _
  case quarantined =>
    split
    · exact .pure
    · exact (keeps_inspectQuarantined hI hinspect _).bind fun _ => .pure
  case available =>
    split
    · exact (keeps_executeRequired hI hinspect (.beginPurge _ htext)).bind fun _ =>
        (keeps_executeRequired hI hinspect (.finishPurge _ htext)).bind fun _ => .pure
    · exact .pure
  case rejected =>
    split
    · exact (keeps_vaultPerform hI (.removeStaging _ hne)).bind fun _ => .pure
    · exact .pure
  case deleting =>
    exact (keeps_executeRequired hI hinspect (.finishPurge _ htext)).bind fun _ => .pure
  case deleted =>
    split
    · exact (keeps_vaultPerform hI (.remove _ hne)).bind fun _ => .pure
    · exact .pure

theorem keeps_reconcileDump {dump : DumpRow} (h : Handled I id dump) :
    DriverKeeps I (reconcileDump options hosts dump) := by
  rcases h with hne | hphase | hphase | ⟨hphase, hobject⟩
  · exact keeps_reconcileDump_other hI hinspect hne
  · refine .read fun m _ => ?_
    rw [hphase]
    exact keeps_reconcileSealed hI hinspect dump _
  · refine .read fun m _ => ?_
    rw [hphase]
    dsimp only
    split
    · exact .pure
    · exact (keeps_inspectQuarantined hI hinspect _).bind fun _ => .pure
  · -- the object is there, and no staging file
    refine .read fun m hm => ?_
    obtain ⟨bytes, hnone, hstored⟩ := hobject m.world hm
    have hstaging : (m.world.vaults.dumps.inspectPresence dump.dumpId).staging = false :=
      Table.contains_eq_false.mpr hnone
    have hvault : (m.world.vaults.dumps.inspectPresence dump.dumpId).vault = true := by
      obtain ⟨o, ho, -⟩ := Option.map_eq_some_iff.mp hstored
      exact Table.contains_of_find? ho
    rcases hphase with hphase | hphase
    · simp only [hphase, hvault, Bool.true_eq_false, if_false]
      exact .pure
    · simp only [hphase, hstaging, Bool.false_eq_true, if_false]
      exact .pure

/-- **A pass keeps what its calls keep**, when the snapshot has the dump `id` and is `Handled`. -/
theorem keeps_reconcile (recovery : ReconciliationOptions) {m : Machine} (hm : I m.world)
    (hknown : m.world.ledger.dumps.contains id = true)
    (hrows : ∀ dump ∈ m.world.ledger.dumps, Handled I id dump) :
    I (reconcile options hosts recovery m).2.world := by
  have hin : id ∈ m.world.ledger.dumps.sorted.map DumpRow.dumpId := by
    obtain ⟨dump, hdump, hid⟩ := Table.contains_iff.mp hknown
    exact List.mem_map.mpr ⟨dump, Table.mem_sorted.mpr hdump, hid⟩
  have hpass : DriverKeeps I (do
      let orphans ← Prog.collect
        (removeOrphan hosts recovery (m.world.ledger.dumps.sorted.map DumpRow.dumpId))
        m.world.vaults.dumps.listStagingIds
      let actions ← Prog.collect (reconcileDump options hosts) m.world.ledger.dumps.sorted
      return orphans ++ actions) := by
    refine DriverKeeps.bind (Prog.Keeps.collect _ fun orphan _ =>
      keeps_removeOrphan hI recovery hin orphan) fun orphans => ?_
    refine DriverKeeps.bind (Prog.Keeps.collect _ fun dump hdump =>
      keeps_reconcileDump hI hinspect (hrows dump (Table.mem_sorted.mp hdump))) fun actions => ?_
    exact .pure
  exact hpass.state hm

end Calls

end Drivers

/-! ## On the way -/

/-- The dump `d`, somewhere on its way. -/
structure OnWay (inspector : Option Bytes → InspectionOutcome) (bytes : Bytes) (d : DumpRow)
    (w : World) : Prop where
  sound : Sound w
  stage : ∃ r, w.ledger.dumps.find? d.dumpId = some r ∧
    Stage (inspector (some bytes)) bytes d r w.vaults.dumps

/-- The dump `d` as its inspection asks for, with its bytes in the vault. -/
def CompletedAs (outcome : InspectionOutcome) (bytes : Bytes) (d : DumpRow) (w : World) : Prop :=
  ∃ r, w.ledger.dumps.find? d.dumpId = some r ∧ r.result = completed d outcome ∧
    InVault w.vaults.dumps d.dumpId bytes

section Way

variable {options : EngineOptions} {inspector : Option Bytes → InspectionOutcome} {bytes : Bytes}
  {d : DumpRow} {hosts : Nat → Host} {w w' : World} {m : Machine}

theorem keptByCalls_onWay :
    KeptByCalls options inspector d.dumpId (OnWay inspector bytes d) := by
  intro w w' hcall h
  obtain ⟨r, hr, hstage⟩ := h.stage
  obtain ⟨r', hr', hstage', -⟩ := hcall.stage hr hstage
  exact ⟨hcall.sound h.sound, r', hr', hstage'⟩

theorem keptByCalls_completedAs :
    KeptByCalls options inspector d.dumpId fun w =>
      Sound w ∧ CompletedAs (inspector (some bytes)) bytes d w := by
  intro w w' hcall h
  obtain ⟨hsound, r, hr, hresult, hobject⟩ := h
  obtain ⟨r', hr', hstage', hsame⟩ := hcall.stage hr (.finished hresult hobject)
  have hsame := hsame hresult
  subst hsame
  refine ⟨hcall.sound hsound, r', hr', hresult, ?_⟩
  cases hstage' with
  | «sealed» hphase | promoted hphase | quarantined hphase =>
    rcases phase_of_completed hresult with hp | hp <;> rw [hphase] at hp <;> cases hp
  | finished _ hobject' => exact hobject'

theorem OnWay.reopen (h : OnWay inspector bytes d w) : OnWay inspector bytes d w.reopen := by
  obtain ⟨r, hr, hstage⟩ := h.stage
  exact ⟨h.sound.reopen, r, hr, hstage.reopen⟩

/-- On its way, a dump whose phase is an end is completed. -/
theorem OnWay.completedAs {r : DumpRow} (h : OnWay inspector bytes d w)
    (hr : w.ledger.dumps.find? d.dumpId = some r)
    (hphase : r.phase = .available ∨ r.phase = .rejected ∨ r.phase = .deleted) :
    CompletedAs (inspector (some bytes)) bytes d w := by
  obtain ⟨r', hr', hstage⟩ := h.stage
  rw [hr] at hr'
  cases hr'
  cases hstage with
  | «sealed» hp | promoted hp | quarantined hp => simp [hp] at hphase
  | finished hresult hobject => exact ⟨r, hr, hresult, hobject⟩

theorem OnWay.known (h : OnWay inspector bytes d w) :
    w.ledger.dumps.contains d.dumpId = true := by
  obtain ⟨r, hr, -⟩ := h.stage
  exact Table.contains_of_find? hr

/-- The row of another dump, or this one. -/
theorem eq_of_snapshot {r dump : DumpRow} (hr : w.ledger.dumps.find? d.dumpId = some r)
    (hdump : dump ∈ w.ledger.dumps) : dump.dumpId ≠ d.dumpId ∨ dump = r := by
  by_cases hid : dump.dumpId = d.dumpId
  · refine Or.inr (Table.eq_of_key hdump (Table.mem_of_find? hr) ?_)
    exact hid.trans (Table.key_of_find? hr).symm
  · exact Or.inl hid

/-- **A pass of recovery, however it ends, leaves the dump on its way.** -/
theorem OnWay.reconcile (h : OnWay inspector bytes d m.world)
    (hinspect : ∀ n, (hosts n).inspect = fun _ bytes => inspector bytes)
    (recovery : ReconciliationOptions) :
    OnWay inspector bytes d (DumpLedger.reconcile options hosts recovery m).2.world := by
  obtain ⟨r, hr, hstage⟩ := h.stage
  have hgoing (hphase : r.phase = .sealed ∨ r.phase = .quarantined) :
      OnWay inspector bytes d (DumpLedger.reconcile options hosts recovery m).2.world := by
    refine keeps_reconcile keptByCalls_onWay hinspect recovery h h.known ?_
    intro dump hdump
    rcases eq_of_snapshot hr hdump with hne | rfl
    · exact Or.inl hne
    · rcases hphase with hphase | hphase
      · exact Or.inr (Or.inl hphase)
      · exact Or.inr (Or.inr (Or.inl hphase))
  cases hstage with
  | «sealed» hphase => exact hgoing (Or.inl hphase)
  | promoted hphase => exact hgoing (Or.inl hphase)
  | quarantined hphase => exact hgoing (Or.inr hphase)
  | finished hresult hobject =>
    -- a completed dump stays completed, so its object is there when the pass comes to it
    have hI : KeptByCalls options inspector d.dumpId fun w =>
        Sound w ∧ CompletedAs (inspector (some bytes)) bytes d w := keptByCalls_completedAs
    have hdone := keeps_reconcile hI hinspect recovery (m := m)
      ⟨h.sound, r, hr, hresult, hobject⟩ h.known ?_
    · obtain ⟨hsound, r', hr', hresult', hobject'⟩ := hdone
      exact ⟨hsound, r', hr', .finished hresult' hobject'⟩
    · intro dump hdump
      rcases eq_of_snapshot hr hdump with hne | rfl
      · exact Or.inl hne
      · refine Or.inr (Or.inr (Or.inr ⟨phase_of_completed hresult, ?_⟩))
        intro w hw
        obtain ⟨-, r', -, -, hobject'⟩ := hw
        have hid : dump.dumpId = d.dumpId := Table.key_of_find? hr
        rw [hid]
        exact ⟨bytes, hobject'⟩

/-- A crash in the middle of a driver, and a restart: any driver, any number of times, in hosts
that fail wherever they like. -/
inductive Interrupted (options : EngineOptions) (inspector : Option Bytes → InspectionOutcome)
    (dumpId : DumpId) (w : World) : World → Prop
  | started : Interrupted options inspector dumpId w w
  | process {w' : World} (h : Interrupted options inspector dumpId w w') (hosts : Nat → Host)
      (hinspect : ∀ n, (hosts n).inspect = fun _ bytes => inspector bytes) :
      Interrupted options inspector dumpId w
        (processUpload options hosts dumpId.text ⟨w', 0⟩).2.world.reopen
  | completeStaged {w' : World} (h : Interrupted options inspector dumpId w w')
      (hosts : Nat → Host)
      (hinspect : ∀ n, (hosts n).inspect = fun _ bytes => inspector bytes) :
      Interrupted options inspector dumpId w
        (completeStaged options hosts dumpId ⟨w', 0⟩).2.world.reopen
  | reconcile {w' : World} (h : Interrupted options inspector dumpId w w') (hosts : Nat → Host)
      (hinspect : ∀ n, (hosts n).inspect = fun _ bytes => inspector bytes)
      (recovery : ReconciliationOptions) :
      Interrupted options inspector dumpId w
        (reconcile options hosts recovery ⟨w'.reopen, 0⟩).2.world.reopen

theorem OnWay.interrupted (hi : Interrupted options inspector d.dumpId w w')
    (h : OnWay inspector bytes d w) : OnWay inspector bytes d w' := by
  induction hi with
  | started => exact h
  | @process w' _ hosts hinspect ih =>
    have hkept : DriverKeeps (OnWay inspector bytes d)
        (processUpload options hosts d.dumpId.text) :=
      keeps_processUpload keptByCalls_onWay hinspect _
    exact (hkept.state (s := ⟨w', 0⟩) ih).reopen
  | @completeStaged w' _ hosts hinspect ih =>
    have hkept : DriverKeeps (OnWay inspector bytes d) (completeStaged options hosts d.dumpId) :=
      keeps_completeStaged keptByCalls_onWay hinspect _
    exact (hkept.state (s := ⟨w', 0⟩) ih).reopen
  | @reconcile w' _ hosts hinspect recovery ih =>
    exact (OnWay.reconcile (m := ⟨w'.reopen, 0⟩) ih.reopen hinspect recovery).reopen

end Way

/-! ## Without faults -/

/-- The dump has come to an end. -/
def Over (dumpId : DumpId) (w : World) : Prop :=
  ∃ r, w.ledger.dumps.find? dumpId = some r ∧ (r.phase = .available ∨ r.phase = .rejected)

section Progress

variable {options : EngineOptions} {inspector : Option Bytes → InspectionOutcome} {bytes : Bytes}
  {d r : DumpRow} {hosts : Nat → Host} {limit : Nat} {m : Machine}
  {require : TransitionReceipt → Driver Unit}

theorem wp_executeWith (hrequire : ∀ success, require (.success success) = pure ())
    {command : Command} {dumpId : DumpId} {mv : DumpMove} {w' : World}
    {Q : Unit → Machine → Prop} {E : Thrown → Machine → Prop}
    (hx : ExecutedMove options (hosts m.calls) m.world command dumpId mv w') :
    Prog.wp (executeWith options hosts require command) Q E m ↔ Q () ⟨w', m.calls + 1⟩ := by
  obtain ⟨receipt, hexec⟩ := hx.executes
  rw [executeWith, Prog.wp_bind, wp_engineExecute hexec, hrequire, Prog.wp_pure]

variable (options) in
theorem acceptOrReject_wp (hrequire : ∀ success, require (.success success) = pure ())
    (hs : Steady hosts inspector) (hr : Ready hosts limit m) (hcalls : m.calls + 2 ≤ limit)
    (hd : m.world.ledger.dumps.find? r.dumpId = some r) (hphase : r.phase = .quarantined)
    (hblob : r.blobState = .vault) (hsha : r.sha256.isSome = true) :
    Prog.wp (acceptOrReject options hosts require r.dumpId)
      (fun _ m' => Over r.dumpId m'.world) (fun _ _ => False) m := by
  have hu := hr.undisturbed hs (by omega)
  rw [acceptOrReject, Prog.wp_bind]
  cases hout : inspector (m.world.vaults.dumps.object? r.dumpId) with
  | accepted coverage facts =>
    obtain ⟨l', hx⟩ := execute_acceptDump options hu hr.linked hd hphase hblob hsha
      (hs.inspection.trans hout)
    obtain ⟨receipt, hexec⟩ := hx.executes
    obtain ⟨t, hrow⟩ := hx.row hd
    rw [wp_engineExecute hexec, Prog.wp_pure]
    exact ⟨_, hrow, Or.inl rfl⟩
  | rejected error =>
    obtain ⟨message, hexec⟩ := execute_acceptDump_rejected options hu hd hphase
      (hs.inspection.trans hout)
    rw [wp_engineExecute hexec]
    -- the refusal is the one of the inspection, so the dump is rejected in a second call
    have hr' : Ready hosts limit ⟨m.world, m.calls + 1⟩ := hr.call (v := m.world.vaults)
    have hu' := hr'.undisturbed hs (by simp only; omega)
    obtain ⟨l', hx⟩ := execute_rejectDump options hu' hr'.linked hd hphase hblob
      (hs.inspection.trans hout)
    obtain ⟨receipt, hexec'⟩ := hx.executes
    obtain ⟨t, hrow⟩ := hx.row hd
    simp only [ne_eq, not_true_eq_false, if_false, Prog.wp_bind, Prog.wp_pure]
    rw [wp_engineExecute hexec', hrequire, Prog.wp_pure]
    exact ⟨_, hrow, Or.inr rfl⟩

/-- One object is in one place only, and nobody writes to it. -/
theorem OneObject.place {s : ObjectStore DumpId} {dumpId : DumpId} (h : OneObject s dumpId bytes) :
    s.staging.contains dumpId ≠ s.objects.contains dumpId ∧
      ∀ f, s.staging.find? dumpId = some f → f.isOpen = false := by
  rcases h with ⟨⟨f, hf, hfile, -⟩, hnone⟩ | ⟨hnone, hobject⟩
  · refine ⟨by simp [Table.contains, hf, hnone], ?_⟩
    intro f' hf'
    rw [hf] at hf'
    cases hf'
    exact hfile
  · obtain ⟨o, ho, -⟩ := Option.map_eq_some_iff.mp hobject
    refine ⟨by simp [Table.contains, ho, hnone], ?_⟩
    intro f hf
    rw [hnone] at hf
    cases hf

theorem contains_inVault {s : ObjectStore DumpId} {dumpId : DumpId} (h : InVault s dumpId bytes) :
    s.objects.contains dumpId = true ∧ s.staging.contains dumpId = false := by
  obtain ⟨o, ho, -⟩ := Option.map_eq_some_iff.mp h.2
  exact ⟨Table.contains_of_find? ho, Table.contains_eq_false.mpr h.1⟩

/-- A continuation that ends every quarantined dump. -/
def EndsQuarantined (hosts : Nat → Host) (limit : Nat) (dumpId : DumpId)
    (next : Driver DumpPhase) : Prop :=
  ∀ m r, Ready hosts limit m → m.calls + 2 ≤ limit → r.dumpId = dumpId →
    m.world.ledger.dumps.find? r.dumpId = some r → r.phase = .quarantined →
      r.blobState = .vault → r.sha256.isSome = true →
        Prog.wp next (fun _ m' => Over dumpId m'.world) (fun _ _ => False) m

variable (options) in
theorem endsQuarantined_acceptOrReject
    (hrequire : ∀ success, require (.success success) = pure ()) (hs : Steady hosts inspector)
    (dumpId : DumpId) :
    EndsQuarantined hosts limit dumpId (acceptOrReject options hosts require dumpId) := by
  intro m r hr hcalls hid hd hphase hblob hsha
  subst hid
  exact acceptOrReject_wp options hrequire hs hr hcalls hd hphase hblob hsha

variable (options) in
theorem endsQuarantined_processQuarantined (hs : Steady hosts inspector) (dumpId : DumpId) :
    EndsQuarantined hosts limit dumpId (processQuarantined options hosts dumpId) := by
  intro m r hr hcalls hid hd hphase hblob hsha
  subst hid
  rw [processQuarantined, Prog.wp_bind, Prog.wp_gets, hd]
  simp only [hphase, if_true]
  exact acceptOrReject_wp options (fun _ => rfl) hs hr hcalls hd hphase hblob hsha

section Sequences

variable {next : Driver DumpPhase}

variable (options) in
/-- `MarkQuarantined`, and what comes after it. -/
theorem quarantineNext_wp (hrequire : ∀ success, require (.success success) = pure ())
    (hs : Steady hosts inspector) (hnext : EndsQuarantined hosts limit r.dumpId next)
    (hr : Ready hosts limit m) (hcalls : m.calls + 3 ≤ limit)
    (hd : m.world.ledger.dumps.find? r.dumpId = some r) (hphase : r.phase = .sealed)
    (hblob : r.blobState = .vault) (hsha : r.sha256.isSome = true)
    (hobject : m.world.vaults.dumps.objects.contains r.dumpId = true)
    (hstaging : m.world.vaults.dumps.staging.contains r.dumpId = false) :
    Prog.wp (executeWith options hosts require (.markQuarantined r.dumpId.text))
      (fun _ m' => Prog.wp next (fun _ m' => Over r.dumpId m'.world) (fun _ _ => False) m')
      (fun _ _ => False) m := by
  obtain ⟨l', hx⟩ := execute_markQuarantined options (hr.undisturbed hs (by omega)) hr.linked hd
    hphase hblob hsha hobject hstaging
  obtain ⟨t, hrow⟩ := hx.row hd
  rw [wp_executeWith hrequire hx]
  exact hnext _ (DumpMove.markQuarantined.apply t r) (hr.move hx) (by simp only; omega) rfl hrow
    rfl hblob hsha

variable (options) in
/-- `PromoteObject`, `MarkQuarantined`, and what comes after them. -/
theorem promoteNext_wp (hrequire : ∀ success, require (.success success) = pure ())
    (hs : Steady hosts inspector) (hnext : EndsQuarantined hosts limit r.dumpId next)
    (hr : Ready hosts limit m) (hcalls : m.calls + 4 ≤ limit)
    (hd : m.world.ledger.dumps.find? r.dumpId = some r) (hphase : r.phase = .sealed)
    (hblob : r.blobState = .staging) (hsha : r.sha256.isSome = true)
    (hplace : OneObject m.world.vaults.dumps r.dumpId bytes) :
    Prog.wp (executeWith options hosts require (.promoteObject r.dumpId.text))
      (fun _ m' => Prog.wp (executeWith options hosts require (.markQuarantined r.dumpId.text))
        (fun _ m' => Prog.wp next (fun _ m' => Over r.dumpId m'.world) (fun _ _ => False) m')
        (fun _ _ => False) m')
      (fun _ _ => False) m := by
  obtain ⟨hone, hclosed⟩ := OneObject.place hplace
  obtain ⟨s, hpromote, hobject, hstaging⟩ := promote_sealed hone hclosed
  obtain ⟨l', hx⟩ := execute_promoteObject options (hr.undisturbed hs (by omega)) hr.linked hd
    hphase hblob hpromote
  obtain ⟨t, hrow⟩ := hx.row hd
  rw [wp_executeWith hrequire hx]
  exact quarantineNext_wp options (r := DumpMove.recordPromoted.apply t r) hrequire hs hnext
    (hr.move hx) (by simp only; omega) hrow hphase rfl hsha hobject hstaging

end Sequences

variable (options) in
/-- **The post-processor takes a dump on its way to an end.** -/
theorem processUpload_wp (hs : Steady hosts inspector) (hr : Ready hosts limit m)
    (hcalls : m.calls + 4 ≤ limit) (h : OnWay inspector bytes d m.world) :
    Prog.wp (processUpload options hosts d.dumpId.text) (fun _ m' => Over d.dumpId m'.world)
      (fun _ _ => False) m := by
  obtain ⟨r, hd, hstage⟩ := h.stage
  have hid : r.dumpId = d.dumpId := Table.key_of_find? hd
  have hparse : parseDumpId d.dumpId.text = .ok d.dumpId := parseIdentifier_eq_ok.mpr rfl
  rw [processUpload, Prog.wp_bind, hparse, Prog.wp_lift_ok, Prog.wp_bind, Prog.wp_gets, hd]
  rw [← hid] at hd ⊢
  have hnext : EndsQuarantined hosts limit r.dumpId (processQuarantined options hosts r.dumpId) :=
    endsQuarantined_processQuarantined options hs r.dumpId
  cases hphase : r.phase with
  | «sealed» =>
    obtain ⟨hsha, -, -, hplace⟩ := hstage.of_sealed hphase
    rw [← hid] at hplace
    simp only [hphase, Prog.wp_bind, processSealed]
    rcases hplace with ⟨hblob, hplace⟩ | ⟨hblob, hobject⟩
    · rw [if_pos hblob, Prog.wp_bind]
      exact promoteNext_wp options (fun _ => rfl) hs hnext hr hcalls hd hphase hblob hsha hplace
    · rw [if_neg (by simp [hblob])]
      obtain ⟨hobject, hstaging⟩ := contains_inVault hobject
      exact quarantineNext_wp options (fun _ => rfl) hs hnext hr (by omega) hd hphase hblob hsha
        hobject hstaging
  | quarantined =>
    have hq := hstage.of_quarantined hphase
    simp only [hphase]
    exact hnext m r hr (by omega) rfl hd hphase hq.blobState hq.sha256
  | available =>
    simp only [hphase, Prog.wp_pure]
    exact ⟨r, hd, Or.inl hphase⟩
  | rejected =>
    simp only [hphase, Prog.wp_pure]
    exact ⟨r, hd, Or.inr hphase⟩
  | receiving | deleting | deleted =>
    cases hstage with
    | «sealed» hp | promoted hp | quarantined hp => simp [hp] at hphase
    | finished hresult =>
      rcases phase_of_completed hresult with hp | hp <;> simp [hp] at hphase

variable (options) in
/-- **An import takes a dump that it has staged to an end.** -/
theorem completeStaged_wp (hs : Steady hosts inspector) (hr : Ready hosts limit m)
    (hcalls : m.calls + 4 ≤ limit) (h : OnWay inspector bytes d m.world)
    (hd : m.world.ledger.dumps.find? d.dumpId = some r) (hphase : r.phase = .sealed)
    (hblob : r.blobState = .staging) :
    Prog.wp (completeStaged options hosts d.dumpId) (fun _ m' => Over d.dumpId m'.world)
      (fun _ _ => False) m := by
  obtain ⟨r', hd', hstage⟩ := h.stage
  rw [hd] at hd'
  cases hd'
  have hid : r.dumpId = d.dumpId := Table.key_of_find? hd
  have hrequire : ∀ success, requireOk (.success success) = pure () := fun _ => rfl
  obtain ⟨hsha, -, -, ⟨-, hplace⟩ | ⟨hvault, -⟩⟩ := hstage.of_sealed hphase
  · rw [← hid] at hd hplace ⊢
    simp only [completeStaged, Prog.wp_bind]
    exact promoteNext_wp options hrequire hs
      (endsQuarantined_acceptOrReject options hrequire hs r.dumpId) hr hcalls hd hphase hblob hsha
      hplace
  · rw [hblob] at hvault
    cases hvault

/-- The one object of a dump on its way is where its row says it is. -/
theorem not_stuck_of_stage {w : World} {outcome : InspectionOutcome} (hid : r.dumpId = d.dumpId)
    (h : Stage outcome bytes d r w.vaults.dumps) : ¬ Stuck w r := by
  rintro (⟨hphase, hstuck⟩ | ⟨hphase, hnone⟩)
  · obtain ⟨-, -, -, ⟨hblob, hplace⟩ | ⟨hblob, hobject⟩⟩ := h.of_sealed hphase
    · rw [hid] at hstuck
      rcases hstuck with hboth | ⟨hother, -⟩
      · exact (OneObject.place hplace).1 hboth
      · exact hother hblob
    · obtain ⟨hobject, hstaging⟩ := contains_inVault hobject
      rw [hid] at hstuck
      simp [hblob, hobject, hstaging] at hstuck
  · have hobject := (contains_inVault (h.of_quarantined hphase).inVault).1
    rw [hid, hobject] at hnone
    cases hnone

variable (options) in
/-- **A pass of recovery takes a dump on its way to an end.** -/
theorem reconcile_over (hs : Steady hosts inspector) (hr : Ready hosts limit m)
    (hcalls : m.calls + passCalls m.world ≤ limit) (h : OnWay inspector bytes d m.world)
    (hclosed : ∀ f ∈ m.world.vaults.dumps.staging, f.isOpen = false)
    (recovery : ReconciliationOptions) :
    Prog.wp (reconcile options hosts recovery)
      (fun _ m' => ∃ r, m'.world.ledger.dumps.find? d.dumpId = some r ∧
        (r.phase = .available ∨ r.phase = .rejected ∨ r.phase = .deleted))
      (fun _ _ => False) m := by
  obtain ⟨r, hd, hstage⟩ := h.stage
  have hid : r.dumpId = d.dumpId := Table.key_of_find? hd
  have hrecoverable : ∀ d ∈ m.world.ledger.dumps, Recoverable m.world d := by
    intro e he
    exact ⟨Table.find?_key he, h.sound.tracked e he, h.sound.sealedOff e he,
      fun f hf => hclosed f (Table.mem_of_find? hf)⟩
  have hfree : ¬ Stuck m.world r := not_stuck_of_stage hid hstage
  refine Prog.wp_mono (reconcile_wp options recovery hs hr hcalls hrecoverable) ?_
    fun _ _ he => he
  rintro _ m'' ⟨m', orphans, rest, -, hswept, hpassed⟩
  obtain ⟨r', hr', -, ⟨-, hended⟩ | ⟨hstuck, -⟩⟩ :=
    settled_of_pass [] hswept hpassed (Table.mem_of_find? hd)
  · rw [hid] at hr'
    refine ⟨r', hr', ?_⟩
    rcases hended with ⟨hp, -⟩ | ⟨hp, -⟩ | ⟨hp, -⟩
    · exact Or.inl hp
    · exact Or.inr (Or.inl hp)
    · exact Or.inr (Or.inr hp)
  · exact absurd hstuck hfree

end Progress

/-! ## The drivers agree -/

/-- The driver succeeds from `w`, and leaves the dump as its inspection asks for. -/
def Completes {α : Type} (x : Driver α) (outcome : InspectionOutcome) (bytes : Bytes) (d : DumpRow)
    (w : World) : Prop :=
  ∃ a m, x ⟨w, 0⟩ = (.ok a, m) ∧ CompletedAs outcome bytes d m.world

section Agreement

variable {options : EngineOptions} {inspector : Option Bytes → InspectionOutcome} {bytes : Bytes}
  {d : DumpRow} {hosts : Nat → Host} {w : World}

theorem completes_of_over {α : Type} {x : Driver α}
    (hwp : Prog.wp x
      (fun _ m' => ∃ r, m'.world.ledger.dumps.find? d.dumpId = some r ∧
        (r.phase = .available ∨ r.phase = .rejected ∨ r.phase = .deleted))
      (fun _ _ => False) ⟨w, 0⟩)
    (hway : OnWay inspector bytes d (x ⟨w, 0⟩).2.world) :
    Completes x (inspector (some bytes)) bytes d w := by
  obtain ⟨a, m, hrun, r, hr, hphase⟩ := Prog.wp_ok_iff.mp hwp
  rw [hrun] at hway
  exact ⟨a, m, hrun, hway.completedAs hr hphase⟩

theorem Over.ended {dumpId : DumpId} (h : Over dumpId w) :
    ∃ r, w.ledger.dumps.find? dumpId = some r ∧
      (r.phase = .available ∨ r.phase = .rejected ∨ r.phase = .deleted) := by
  obtain ⟨r, hr, hphase | hphase⟩ := h
  · exact ⟨r, hr, Or.inl hphase⟩
  · exact ⟨r, hr, Or.inr (Or.inl hphase)⟩

theorem passCalls_ge (h : OnWay inspector bytes d w) : 4 ≤ passCalls w := by
  obtain ⟨r, hr, -⟩ := h.stage
  have hin := Table.mem_sorted.mpr (Table.mem_of_find? hr)
  have hpos := List.length_pos_of_mem hin
  unfold passCalls
  omega

/-- **The completion drivers agree and are resumable.** A reachable dump that is sealed or
quarantined and has exactly one object is completed in the same way by the post-processor and by
recovery, and by an import that has just staged it; and however many drivers were interrupted
before, the post-processor and recovery still come to that end. -/
theorem completion_drivers_agree {events : List Event} {recovery : ReconciliationOptions}
    (h : Along (step options) DrawsNewDumps World.fresh events)
    (hd : d ∈ (reached options events).ledger.dumps)
    (hphase : d.phase = .sealed ∨ d.phase = .quarantined)
    (hone : OneObject (reached options events).vaults.dumps d.dumpId bytes)
    (hinterrupted : Interrupted options inspector d.dumpId (reached options events) w)
    (hs : Steady hosts inspector)
    (hevents : DrawsNewEvents hosts 0 (passCalls w.reopen) w.ledger) :
    Completes (processUpload options hosts d.dumpId.text) (inspector (some bytes)) bytes d w ∧
      Completes (reconcile options hosts recovery) (inspector (some bytes)) bytes d w.reopen ∧
        ∀ r, w.ledger.dumps.find? d.dumpId = some r → r.phase = .sealed →
          r.blobState = .staging →
            Completes (completeStaged options hosts d.dumpId) (inspector (some bytes)) bytes d w := by
  have hreached : Sound (reached options events) :=
    ⟨reached_linked events, reached_tracked options events, reached_sealedOff h⟩
  have hway : OnWay inspector bytes d w := OnWay.interrupted hinterrupted
    ⟨hreached, d, Table.find?_key hd, stage_of_reached _ h hd hphase hone⟩
  have hready : Ready hosts (passCalls w.reopen) ⟨w, 0⟩ := ⟨hway.sound.linked, hevents⟩
  have hcalls := passCalls_ge hway.reopen
  refine ⟨?_, ?_, fun r hr hsealed hstaging => ?_⟩
  · have hkept : DriverKeeps (OnWay inspector bytes d) (processUpload options hosts d.dumpId.text) :=
      keeps_processUpload keptByCalls_onWay hs.inspect _
    refine completes_of_over ?_ (hkept.state (s := ⟨w, 0⟩) hway)
    exact Prog.wp_mono (processUpload_wp options hs hready (by simpa using hcalls) hway)
      (fun _ _ hover => hover.ended) fun _ _ he => he
  · have hclosed : ∀ f ∈ w.reopen.vaults.dumps.staging, f.isOpen = false := by
      intro f hf
      obtain ⟨_, -, rfl⟩ := Option.map_eq_some_iff.mp
        (ObjectStore.find?_reopen.symm.trans (Table.find?_key hf))
      rfl
    have hready' : Ready hosts (passCalls w.reopen) ⟨w.reopen, 0⟩ := ⟨hway.sound.linked, hevents⟩
    refine completes_of_over ?_
      (OnWay.reconcile (m := ⟨w.reopen, 0⟩) hway.reopen hs.inspect recovery)
    exact reconcile_over options hs hready' (Nat.le_of_eq (Nat.zero_add _)) hway.reopen hclosed
      recovery
  · have hkept : DriverKeeps (OnWay inspector bytes d) (completeStaged options hosts d.dumpId) :=
      keeps_completeStaged keptByCalls_onWay hs.inspect _
    refine completes_of_over ?_ (hkept.state (s := ⟨w, 0⟩) hway)
    exact Prog.wp_mono
      (completeStaged_wp options hs hready (by simpa using hcalls) hway hr hsealed hstaging)
      (fun _ _ hover => hover.ended) fun _ _ he => he

end Agreement

namespace Sample

/-- The process dies in every command. -/
def dyingHosts (_ : Nat) : Host := { host 5 with crash := true }

/-- The post-processor died between the promotion and its record. -/
def interruptedWorld : World :=
  (processUpload options dyingHosts "dump_00000000000000000000000001"
    ⟨reached options sealedRun, 0⟩).2.world.reopen

end Sample

/-- A dump whose post-processing was interrupted is completed either way. -/
theorem completion_drivers_agree_interrupted :
    ∃ d,
      Completes (processUpload Sample.options Sample.restartHosts d.dumpId.text)
          (.rejected "not a minidump") [77, 68, 77, 80] d Sample.interruptedWorld ∧
        Completes (reconcile Sample.options Sample.restartHosts ⟨1767225600000, 3600000⟩)
          (.rejected "not a minidump") [77, 68, 77, 80] d Sample.interruptedWorld.reopen := by
  have hrow : ((reached Sample.options Sample.sealedRun).ledger.dumps.find?
      (Sample.host 3).dumpId).map DumpRow.phase = some .sealed := by
    decide
  obtain ⟨d, hd, hphase⟩ := Option.map_eq_some_iff.mp hrow
  have hid : d.dumpId = (Sample.host 3).dumpId := Table.key_of_find? hd
  have hstaged : ((reached Sample.options Sample.sealedRun).vaults.dumps.staging.find?
      (Sample.host 3).dumpId).map (fun f => (f.isOpen, f.bytes)) =
        some (false, [77, 68, 77, 80]) := by
    decide
  obtain ⟨f, hf, hfile⟩ := Option.map_eq_some_iff.mp hstaged
  have hone : OneObject (reached Sample.options Sample.sealedRun).vaults.dumps d.dumpId
      [77, 68, 77, 80] := by
    rw [hid]
    refine Or.inl ⟨⟨f, hf, congrArg Prod.fst hfile, congrArg Prod.snd hfile⟩, ?_⟩
    decide
  have hinterrupted : Interrupted Sample.options (fun _ => .rejected "not a minidump") d.dumpId
      (reached Sample.options Sample.sealedRun) Sample.interruptedWorld := by
    rw [hid]
    exact .process .started Sample.dyingHosts fun _ => rfl
  have hcalls : passCalls Sample.interruptedWorld.reopen = 4 := by
    decide +kernel
  have hagree := @completion_drivers_agree _ _ _ _ _ _ _ ⟨1767225600000, 3600000⟩ ?_
    (Table.mem_of_find? hd) (Or.inl hphase) hone hinterrupted Sample.steady_restartHosts ?_
  · exact ⟨d, hagree.1, hagree.2.1⟩
  · refine ⟨trivial, trivial, trivial, ?_, trivial, trivial, trivial, trivial⟩
    show (run (step Sample.options) World.fresh (Sample.uploadRun.take 3)).ledger.dumps.contains
      (Sample.host 3).dumpId = false
    decide
  · rw [hcalls]
    refine ⟨fun n _ hn => ?_, fun i j _ hij hj => ?_⟩
    · have hfresh : ∀ n < 4, Sample.interruptedWorld.ledger.auditEvents.find?
          (Sample.restartHosts n).auditId = none := by
        decide
      exact hfresh n hn
    · exact Sample.restartHosts_distinct j hj i hij

end DumpLedger
