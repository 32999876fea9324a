import DumpLedger.Intake.UploadSession
import DumpLedger.Properties.Failure
import DumpLedger.Properties.Grants

/-!
# How an upload ends

While its bytes arrive an upload has an open staging file with what was hashed so far, and nothing
else that happens touches that file. The seal records what was hashed; a compensation that succeeds
needs nothing to be known of the upload before it.

* `step_staged` — what other requests do leaves the staging file alone
* `receive_ends` — an upload that began is sealed, or rejected, or reported as an integrity failure
-/

namespace DumpLedger

open Lib SqliteLedger

/-! ## What other requests do -/

/-- The commands that work on the staging file of a dump. -/
def Command.worksOn (d : DumpId) : Command → Prop
  | .failUpload id | .promoteObject id | .finishPurge id => id = d.text
  | .importDumpStaged record => record.dumpId = d.text
  | _ => False

/-- An event of a process that goes on living, and not about the staging file of `d`. -/
def Event.spares (d : DumpId) : Event → Prop
  | .command host c => host.crash = false ∧ ¬ c.worksOn d
  | .append _ id _ | .syncAndClose id | .stageImport _ id | .dropImport id => id ≠ d
  | .appendSymbol _ _ _ | .syncAndCloseSymbol _ => True
  | .reopen => False

section Frame

variable {options : EngineOptions} {host : Host} {w : World} {command : Command} {d : DumpId}
  {f : StagingFile DumpId}

theorem staged_of_stores {op : StorageOp} {v v' : Vaults} (hop : command.Stores host op)
    (hrun : op.run host.nowMs v = .ok v') (hf : v.dumps.staging.find? d = some f)
    (h : ¬ command.worksOn d) : v'.dumps.staging.find? d = some f := by
  by_cases hid : op.dumpId? = some d
  · cases hop with
    | beginUpload =>
      -- the identifier that was drawn is taken
      cases hid
      simp only [StorageOp.run, bind_eq_ok, pure_eq_ok] at hrun
      obtain ⟨s, hs, -⟩ := hrun
      obtain ⟨hfree, -⟩ := ObjectStore.createStaging_eq_ok.mp hs
      rw [hf] at hfree
      cases hfree
    | failUpload | promoteObject | finishPurge =>
      cases hid
      exact absurd rfl h
    | _ => cases hid
  · rw [(StorageOp.run_same_dumps hrun hid).1]
    exact hf

theorem execute_staged (hf : w.vaults.dumps.staging.find? d = some f) (h : ¬ command.worksOn d) :
    (execute options host w command).2.vaults.dumps.staging.find? d = some f := by
  have hstored : ∀ {p : Plan} {v : Vaults}, plan options host w command = .ok p →
      Stored p host w.vaults v → v.dumps.staging.find? d = some f := by
    intro p v hplan hs
    cases hs with
    | kept => exact hf
    | done hop hrun => exact staged_of_stores ((plan_stores hplan).storage _ hop) hrun hf h
  by_cases hrefused : (execute options host w command).1.refused = true
  · obtain ⟨-, hv⟩ := execute_refused hrefused
    generalize (execute options host w command).2.vaults = v' at hv ⊢
    cases hv with
    | untouched => exact hf
    | left hop hrun _ => exact staged_of_stores hop hrun hf h
    | takenBack hrun =>
      simp only [StorageOp.run, bind_eq_ok, pure_eq_ok] at hrun
      obtain ⟨s, hs, rfl⟩ := hrun
      exact (ObjectStore.sameObjects_created_removed hs).1.trans hf
    | dropped himport hid =>
      rw [himport] at h
      refine (ObjectStore.sameObjects_removeStaging fun he => h ?_).1.trans hf
      rw [he]
      exact hid
  · have hc := execute_cases options host w command
    generalize execute options host w command = out at hrefused hc ⊢
    obtain ⟨outcome, w'⟩ := out
    cases hc with
    | refused _ => exact absurd rfl hrefused
    | storageThrew _ _ _ => exact absurd rfl hrefused
    | rolledBack _ _ _ _ => exact absurd rfl hrefused
    | crashed hplan hop _ => exact hstored hplan (stored_of_operation hop)
    | committed hplan hop _ _ => exact hstored hplan (stored_of_operation hop)

theorem onDumps_staged {x : Except Thrown (ObjectStore DumpId)}
    (hf : w.vaults.dumps.staging.find? d = some f)
    (hx : ∀ s, x = .ok s → ObjectStore.SameObjects w.vaults.dumps s d) :
    (w.onDumps x).vaults.dumps.staging.find? d = some f := by
  cases x with
  | error e => exact hf
  | ok s => exact (hx s rfl).1.trans hf

/-- **The staging file of an upload is its own.** -/
theorem step_staged {e : Event} (hf : w.vaults.dumps.staging.find? d = some f)
    (h : e.spares d) : (step options w e).vaults.dumps.staging.find? d = some f := by
  cases e with
  | command host command =>
    have hstaged := @execute_staged options host w command d f hf h.2
    have halive : (execute options host w command).1 ≠ .crashed := execute_ne_crashed h.1
    rw [step]
    generalize execute options host w command = out at hstaged halive ⊢
    obtain ⟨outcome, w'⟩ := out
    cases outcome with
    | crashed => exact absurd rfl halive
    | receipt r => exact hstaged
  | append nowMs id bytes =>
    exact onDumps_staged hf fun s hs => ObjectStore.sameObjects_append hs (Ne.symm h)
  | syncAndClose id =>
    exact onDumps_staged hf fun s hs => ObjectStore.sameObjects_syncAndClose hs (Ne.symm h)
  | stageImport nowMs id =>
    rw [step]
    split
    · exact hf
    · exact onDumps_staged hf fun s hs =>
        ObjectStore.sameObjects_createStaging hs (Ne.symm (show id ≠ d from h))
  | dropImport id =>
    rw [step]
    split
    · exact hf
    · refine onDumps_staged hf fun s hs => ?_
      cases hs
      exact ObjectStore.sameObjects_removeStaging (Ne.symm (show id ≠ d from h))
  | appendSymbol nowMs id bytes =>
    rw [step, World.dumps_onSymbols]
    exact hf
  | syncAndCloseSymbol id =>
    rw [step, World.dumps_onSymbols]
    exact hf
  | reopen => exact h.elim

end Frame

namespace UploadSession

/-! ## The three commands of an upload -/

section Commands

variable {options : EngineOptions} {host : Host} {w : World} {d : DumpId}

/-- What an upload that begins has: a grant, and an empty file that is open. -/
structure Begun (options : EngineOptions) (w w' : World) (d : DumpId) (grantSecret : String)
    (maxBytes : ℕ+) : Prop where
  grant : ∃ g, w.ledger.findGrantByDigest (options.digests.digestSecret grantSecret).bounded =
    some g ∧ g.maxBytes = maxBytes
  file : ∃ f, w'.vaults.dumps.staging.find? d = some f ∧ f.isOpen = true ∧ f.bytes = []

theorem begun_of_execute {grantSecret originalName : String} {receipt : TransitionSuccess}
    (h : (execute options host w (.beginUpload grantSecret originalName)).1 =
      .receipt (.success receipt)) :
    receipt.dumpId = some host.dumpId ∧ ∃ maxBytes, receipt.maxBytes = some maxBytes ∧
      Begun options w (execute options host w (.beginUpload grantSecret originalName)).2
        host.dumpId grantSecret maxBytes := by
  have hsucceeded : (execute options host w
      (.beginUpload grantSecret originalName)).1.succeeded = true := by
    rw [h]
    rfl
  obtain ⟨p, r, hplan, hstored, htx, hout⟩ := execute_succeeded hsucceeded
  obtain ⟨t, -, hplan⟩ := plan_eq_ok.mp hplan
  simp only [planAt, planBeginUpload, bind_eq_ok, assertText_eq_ok, orThrow_eq_ok,
    guardThat_eq_ok, pure_eq_ok] at hplan
  obtain ⟨secret, rfl, name, -, g, hg, -, -, -, -, -, -, rfl⟩ := hplan
  obtain ⟨hnone, -⟩ | ⟨op, hop, -, hrun⟩ := transaction_eq_ok.mp htx
  · cases hnone
  cases hop
  obtain ⟨-, rfl⟩ := LedgerOp.noResult_eq_ok.mp hrun
  obtain ⟨hnone, -⟩ | ⟨op, hop, -, hrun⟩ := operation_eq_ok.mp hstored
  · cases hnone
  cases hop
  simp only [StorageOp.run, bind_eq_ok, pure_eq_ok] at hrun
  obtain ⟨s, hs, hv⟩ := hrun
  obtain ⟨hfree, rfl⟩ := ObjectStore.createStaging_eq_ok.mp hs
  rw [hout] at h
  cases h
  refine ⟨rfl, g.maxBytes, rfl, ⟨g, hg, rfl⟩, ⟨host.dumpId, [], true, host.nowMs⟩, ?_, rfl, rfl⟩
  rw [← hv]
  exact Table.find?_insert_self (h := hfree)

theorem sealed_of_execute {byteSize : Nat} {sha256 : Sha256}
    (h : (execute options host w (.sealUpload d.text byteSize sha256.text)).1.succeeded = true) :
    (execute options host w (.sealUpload d.text byteSize sha256.text)).2.vaults = w.vaults ∧
      ∃ row, (execute options host w
          (.sealUpload d.text byteSize sha256.text)).2.ledger.dumps.find? d = some row ∧
        row.phase = .sealed ∧ row.byteSize = some byteSize ∧ row.sha256 = some sha256 := by
  obtain ⟨p, r, hplan, hstored, htx, -⟩ := execute_succeeded h
  generalize (execute options host w (.sealUpload d.text byteSize sha256.text)).2 = w'
    at hstored htx ⊢
  obtain ⟨t, -, hplan⟩ := plan_eq_ok.mp hplan
  simp only [planAt, planSealUpload, bind_eq_ok, guardThat_eq_ok, pure_eq_ok, parseDumpId,
    parseIdentifier_eq_ok, assertSha256_eq_ok] at hplan
  obtain ⟨d', hd', row, hrow, -, -, n, hn, digest, hdigest, rfl⟩ := hplan
  obtain rfl : d' = d := Identifier.ext hd'
  obtain rfl : digest = sha256 := Sha256.ext hdigest
  obtain rfl : n = byteSize := by
    rw [assertNonnegativeBigint_coe] at hn
    cases hn
    rfl
  obtain ⟨-, hv⟩ | ⟨op, hop, -⟩ := operation_eq_ok.mp hstored
  swap
  · cases hop
  obtain ⟨hnone, -⟩ | ⟨op, hop, -, hrun⟩ := transaction_eq_ok.mp htx
  · cases hnone
  cases hop
  refine ⟨hv, ?_⟩
  obtain ⟨-, -, -, row, hrow⟩ :=
    transitionDump_only (LedgerOp.noResult_eq_ok.mp hrun).1
  exact ⟨_, hrow, rfl, rfl, rfl⟩

theorem rejected_of_execute
    (h : (execute options host w (.failUpload d.text)).1.succeeded = true) :
    (execute options host w (.failUpload d.text)).2.vaults.dumps.staging.find? d = none ∧
      ∃ row, (execute options host w (.failUpload d.text)).2.ledger.dumps.find? d = some row ∧
        row.phase = .rejected := by
  obtain ⟨p, r, hplan, hstored, htx, -⟩ := execute_succeeded h
  generalize (execute options host w (.failUpload d.text)).2 = w' at hstored htx ⊢
  obtain ⟨t, -, hplan⟩ := plan_eq_ok.mp hplan
  simp only [planAt, planFailUpload, bind_eq_ok, pure_eq_ok, parseDumpId,
    parseIdentifier_eq_ok] at hplan
  obtain ⟨d', hd', row, -, rfl⟩ := hplan
  obtain rfl : d' = d := Identifier.ext hd'
  obtain ⟨hnone, -⟩ | ⟨op, hop, -, hrun⟩ := operation_eq_ok.mp hstored
  · cases hnone
  cases hop
  obtain ⟨hnone, -⟩ | ⟨op, hop, -, hcommit⟩ := transaction_eq_ok.mp htx
  · cases hnone
  cases hop
  have hv : w'.vaults = { w.vaults with dumps := w.vaults.dumps.removeStaging d' } :=
    (Except.ok.inj hrun).symm
  constructor
  · rw [hv, ObjectStore.find?_removeStaging, if_pos rfl]
  · obtain ⟨-, -, -, row, hrow⟩ :=
      transitionDump_only (LedgerOp.noResult_eq_ok.mp hcommit).1
    exact ⟨_, hrow, rfl⟩

end Commands

/-! ## The parts of a session -/

/-- The bytes of the chunks, in order. -/
def PipelineStep.received : PipelineStep → Bytes
  | .chunk bytes _ _ => bytes
  | .elsewhere _ => []

def ByteSource.received (source : ByteSource) : Bytes :=
  source.steps.flatMap PipelineStep.received

/-- Whatever else happens during an upload spares its staging file. -/
def ByteSource.Spares (source : ByteSource) (d : DumpId) : Prop :=
  ∀ event, .elsewhere event ∈ source.steps → event.spares d

/-- The staging file of an upload, and the count, agree with what was hashed. -/
structure Streaming (d : DumpId) (w : Written) (m : Machine) : Prop where
  file : ∃ f, m.world.vaults.dumps.staging.find? d = some f ∧ f.isOpen = true ∧ f.bytes = w.hashed
  count : w.byteSize = w.hashed.length

/-- What a receipt says of the dump: the row and the staging file hold what was received. -/
structure SealedAs (options : EngineOptions) (source : ByteSource) (receipt : UploadReceipt)
    (m : Machine) : Prop where
  row : ∃ row, m.world.ledger.dumps.find? receipt.dumpId = some row ∧ row.phase = .sealed ∧
    row.byteSize = some receipt.byteSize ∧ row.sha256 = some receipt.sha256
  file : ∃ f, m.world.vaults.dumps.staging.find? receipt.dumpId = some f ∧
    f.bytes = source.received ∧ receipt.sha256 = options.digests.sha256 f.bytes
  size : receipt.byteSize = source.received.length

/-- The last thing that happened was a `FailUpload`, with or without success. -/
def Failed (options : EngineOptions) (hosts : Nat → Host) (d : DumpId) (ok : Bool) (m : Machine) :
    Prop :=
  ∃ n w receipt, (execute options (hosts n) w (.failUpload d.text)).1 = .receipt receipt ∧
    receipt.ok = ok ∧ m.world = (execute options (hosts n) w (.failUpload d.text)).2

section Parts

variable {options : EngineOptions} {hosts : Nat → Host} {m : Machine} {d : DumpId} {maxBytes : ℕ+}
  {written : Written}

theorem wp_lifecycleExecute {command : Command} {Q : TransitionReceipt → Machine → Prop}
    {E : ReceiveThrown → Machine → Prop}
    (hreceipt : ∀ receipt, (execute options (hosts m.calls) m.world command).1 =
      .receipt receipt → Q receipt
        ⟨(execute options (hosts m.calls) m.world command).2, m.calls + 1⟩)
    (hdied : ∀ m', (hosts m.calls).crash = true → E .died m') :
    Prog.wp (lifecycleExecute options hosts command) Q E m := by
  have halive := @execute_ne_crashed options (hosts m.calls) m.world command
  unfold Prog.wp lifecycleExecute engineExecute
  generalize execute options (hosts m.calls) m.world command = out at hreceipt halive ⊢
  obtain ⟨outcome, w⟩ := out
  cases outcome with
  | receipt receipt => exact hreceipt receipt rfl
  | crashed =>
    refine hdied _ ?_
    by_contra h
    exact halive (Bool.eq_false_iff.mpr h) rfl

theorem streaming_append (nowMs : Int) (bytes : Bytes) (h : Streaming d written m) :
    ∃ s, m.world.vaults.dumps.append nowMs d bytes = .ok s ∧
      Streaming d ⟨written.byteSize + bytes.length, written.hashed ++ bytes⟩
        (onStaging m (.ok s)) := by
  obtain ⟨⟨f, hf, hopen, hbytes⟩, hcount⟩ := h
  obtain ⟨s, hs, hafter⟩ := ObjectStore.append_open nowMs bytes hf hopen
  refine ⟨s, hs, ⟨_, hafter, hopen, ?_⟩, ?_⟩
  · show f.bytes ++ bytes = written.hashed ++ bytes
    rw [hbytes]
  · show written.byteSize + bytes.length = (written.hashed ++ bytes).length
    rw [List.length_append, hcount]

/-- One step of the pipeline. -/
theorem wp_write {s : PipelineStep} (h : Streaming d written m)
    (hbound : written.byteSize ≤ maxBytes)
    (hspares : ∀ event, s = .elsewhere event → event.spares d) :
    Prog.wp (write options d maxBytes written s)
      (fun w' m' => Streaming d w' m' ∧ w'.byteSize ≤ maxBytes ∧
        w'.hashed = written.hashed ++ s.received)
      (fun e _ => e ≠ .died) m := by
  cases s with
  | elsewhere event =>
    rw [write, Prog.wp_bind, Prog.wp_modify, Prog.wp_pure]
    obtain ⟨⟨f, hf, hopen, hbytes⟩, hcount⟩ := h
    refine ⟨⟨⟨f, ?_, hopen, hbytes⟩, hcount⟩, hbound, (List.append_nil _).symm⟩
    exact step_staged hf (hspares event rfl)
  | chunk bytes nowMs fault =>
    rw [write]
    by_cases hlimit : (maxBytes : Nat) < written.byteSize + bytes.length
    · rw [if_pos hlimit, Prog.wp_throw]
      intro he
      cases he
    · rw [if_neg hlimit, Prog.wp_bind]
      cases fault with
      | some n =>
        intro he
        cases he
      | none =>
        obtain ⟨s, hs, hstreaming⟩ := streaming_append nowMs bytes h
        simp only [Prog.wp, appendChunk, hs]
        exact ⟨hstreaming, Nat.le_of_not_lt hlimit, rfl⟩

/-- **The whole pipeline**: when it comes to its end, the file has all that was received. -/
theorem wp_boundedPipeline {source : ByteSource} (h : Streaming d ⟨0, []⟩ m)
    (hspares : source.Spares d) :
    Prog.wp (boundedPipeline options d maxBytes source)
      (fun w' m' => Streaming d w' m' ∧ w'.byteSize ≤ maxBytes ∧ w'.hashed = source.received)
      (fun e _ => e ≠ .died) m := by
  rw [boundedPipeline, Prog.wp_bind]
  refine Prog.wp_mono (Prog.wp_foldEach source.steps
    (I := fun done w' m' => Streaming d w' m' ∧ w'.byteSize ≤ maxBytes ∧
      w'.hashed = done.flatMap PipelineStep.received) ?_ ⟨h, Nat.zero_le _, rfl⟩) ?_
    fun _ _ he => he
  · rintro done s rest w' m' hsteps ⟨hstreaming, hbound, hhashed⟩
    refine Prog.wp_mono (wp_write hstreaming hbound fun event he => hspares event ?_) ?_
      fun _ _ he => he
    · rw [hsteps, ← he]
      simp
    · rintro w'' m'' ⟨hstreaming', hbound', hhashed'⟩
      refine ⟨hstreaming', hbound', ?_⟩
      rw [hhashed', hhashed, List.flatMap_append, List.flatMap_singleton]
  · intro w' m' hI
    by_cases hfinished : source.finished = true
    · rw [if_pos hfinished, Prog.wp_pure]
      exact hI
    · rw [if_neg hfinished, Prog.wp_throw]
      intro he
      cases he

theorem wp_closeStaging {fault : Option StorageFault} (h : Streaming d written m) :
    Prog.wp (closeStaging d fault)
      (fun _ m' => m'.calls = m.calls ∧ ∃ f, m'.world.vaults.dumps.staging.find? d = some f ∧
        f.bytes = written.hashed)
      (fun e _ => e ≠ .died) m := by
  obtain ⟨⟨f, hf, -, hbytes⟩, -⟩ := h
  obtain ⟨s, hs, hclosed⟩ := ObjectStore.syncAndClose_there hf
  unfold Prog.wp closeStaging
  rw [hs]
  cases fault with
  | some fault =>
    cases fault <;>
    · intro he
      cases he
  | none =>
    exact ⟨rfl, _, hclosed, hbytes⟩

/-- The compensation, and what is reported with it. -/
theorem wp_abandon {code : IntakeErrorCode} {Q : UploadReceipt → Machine → Prop}
    {E : ReceiveThrown → Machine → Prop}
    (hrejected : ∀ m', Failed options hosts d true m' → E (.intakeError code) m')
    (hfailed : ∀ m', Failed options hosts d false m' → E (.intakeError .integrityFailure) m')
    (hdied : ∀ m', (∃ n, (hosts n).crash = true) → E .died m') :
    Prog.wp (abandon options hosts d code) Q E m := by
  rw [abandon, fail, Prog.wp_bind, Prog.wp_bind]
  refine wp_lifecycleExecute (fun receipt hreceipt => ?_) fun m' hcrash => hdied m' ⟨_, hcrash⟩
  rw [Prog.wp_pure]
  cases receipt with
  | success r =>
    rw [TransitionReceipt.ok, if_pos rfl, Prog.wp_throw]
    exact hrejected _ ⟨_, _, _, hreceipt, rfl, rfl⟩
  | failure action error =>
    rw [TransitionReceipt.ok, if_neg Bool.false_ne_true, Prog.wp_throw]
    exact hfailed _ ⟨_, _, _, hreceipt, rfl, rfl⟩

/-- What was tried: a receipt says what is sealed. -/
theorem wp_transfer {source : ByteSource} {closing : Option StorageFault}
    (h : Streaming d ⟨0, []⟩ m) (hspares : source.Spares d) :
    Prog.wp (transfer options hosts d maxBytes source closing)
      (fun receipt m' => receipt.dumpId = d ∧ receipt.byteSize ≤ maxBytes ∧
        SealedAs options source receipt m')
      (fun e _ => e = .died → ∃ n, (hosts n).crash = true) m := by
  rw [transfer, Prog.wp_bind]
  refine Prog.wp_mono (wp_boundedPipeline h hspares) ?_ fun e _ he hdied => absurd hdied he
  rintro written m₁ ⟨hstreaming, hbound, hhashed⟩
  rw [Prog.wp_bind]
  refine Prog.wp_mono (wp_closeStaging hstreaming) ?_ fun e _ he hdied => absurd hdied he
  rintro - m₂ ⟨-, f, hf, hbytes⟩
  dsimp only [«seal»]
  rw [Prog.wp_bind, Prog.wp_bind]
  refine wp_lifecycleExecute (fun receipt hreceipt => ?_) fun _ hcrash _ => ⟨_, hcrash⟩
  rw [Prog.wp_pure]
  cases receipt with
  | failure action error =>
    rw [TransitionReceipt.ok, if_neg Bool.false_ne_true, Prog.wp_throw]
    intro he
    cases he
  | success r =>
    rw [TransitionReceipt.ok, if_pos rfl, Prog.wp_pure]
    obtain ⟨hvaults, row, hrow, hphase, hsize, hsha⟩ := sealed_of_execute (by
      rw [hreceipt]
      rfl)
    have hall : f.bytes = source.received := hbytes.trans hhashed
    refine ⟨rfl, hbound, ⟨row, hrow, hphase, hsize, hsha⟩, ⟨f, ?_, hall, ?_⟩, ?_⟩
    · rw [hvaults]
      exact hf
    · show options.digests.sha256 written.hashed = _
      rw [hbytes]
    · show written.byteSize = _
      rw [hstreaming.count, hhashed]

end Parts

/-! ## The whole session -/

/-- How `receive` ends, for an upload under the identifier that the first host drew. -/
inductive Ended (options : EngineOptions) (hosts : Nat → Host) (input : ReceiveUpload)
    (m : Machine) : Except ReceiveThrown UploadReceipt × Machine → Prop
  /-- There is no upload: the command that begins it was refused. -/
  | notBegun {code : IntakeErrorCode} {m' : Machine}
      (h : (execute options (hosts m.calls) m.world
        (.beginUpload input.grantSecret input.originalName)).1.succeeded = false) :
      Ended options hosts input m (.error (.intakeError code), m')
  | «sealed» {receipt : UploadReceipt} {g : GrantRow} {m' : Machine}
      (hid : receipt.dumpId = (hosts m.calls).dumpId)
      (hgrant : m.world.ledger.findGrantByDigest
        (options.digests.digestSecret input.grantSecret).bounded = some g)
      (hlimit : receipt.byteSize ≤ g.maxBytes)
      (hsealed : SealedAs options input.bytes receipt m') :
      Ended options hosts input m (.ok receipt, m')
  | rejected {code : IntakeErrorCode} {row : DumpRow} {m' : Machine}
      (hfailed : Failed options hosts (hosts m.calls).dumpId true m')
      (hrow : m'.world.ledger.dumps.find? (hosts m.calls).dumpId = some row)
      (hphase : row.phase = .rejected)
      (hstaging : m'.world.vaults.dumps.staging.find? (hosts m.calls).dumpId = none) :
      Ended options hosts input m (.error (.intakeError code), m')
  /-- The compensation itself failed. -/
  | integrityFailure {m' : Machine}
      (hfailed : Failed options hosts (hosts m.calls).dumpId false m') :
      Ended options hosts input m (.error (.intakeError .integrityFailure), m')
  /-- There is no process any more that could report anything. -/
  | died {m' : Machine} (h : ∃ n, (hosts n).crash = true) :
      Ended options hosts input m (.error .died, m')

section Session

variable {options : EngineOptions} {hosts : Nat → Host} {m : Machine} {input : ReceiveUpload}

theorem ended_of_rejected {code : IntakeErrorCode} {m' : Machine}
    (h : Failed options hosts (hosts m.calls).dumpId true m') :
    Ended options hosts input m (.error (.intakeError code), m') := by
  obtain ⟨n, w, receipt, hreceipt, hok, hworld⟩ := h
  have hsucceeded : (execute options (hosts n) w
      (.failUpload (hosts m.calls).dumpId.text)).1.succeeded = true := by
    rw [hreceipt]
    exact hok
  obtain ⟨hstaging, row, hrow, hphase⟩ := rejected_of_execute hsucceeded
  rw [← hworld] at hstaging hrow
  exact .rejected ⟨n, w, receipt, hreceipt, hok, hworld⟩ hrow hphase hstaging

theorem wp_abandon_ended {code : IntakeErrorCode} {m' : Machine} :
    Prog.wp (abandon options hosts (hosts m.calls).dumpId code)
      (fun receipt m'' => Ended options hosts input m (.ok receipt, m''))
      (fun e m'' => Ended options hosts input m (.error e, m'')) m' :=
  wp_abandon (fun _ h => ended_of_rejected h) (fun _ h => .integrityFailure h) fun _ h => .died h

theorem wp_receive (closing : Option StorageFault)
    (hspares : input.bytes.Spares (hosts m.calls).dumpId) :
    Prog.wp (receive options hosts input closing)
      (fun receipt m' => Ended options hosts input m (.ok receipt, m'))
      (fun e m' => Ended options hosts input m (.error e, m')) m := by
  rw [receive, «begin», Prog.wp_bind, Prog.wp_bind]
  refine wp_lifecycleExecute (fun receipt hreceipt => ?_) fun _ hcrash => .died ⟨_, hcrash⟩
  cases receipt with
  | failure action error =>
    rw [Prog.wp_pure, Prog.wp_throw]
    exact .notBegun (by rw [hreceipt]; rfl)
  | success r =>
    obtain ⟨hid, maxBytes, hmax, ⟨g, hg, hlimit⟩, f, hf, hopen, hbytes⟩ :=
      begun_of_execute hreceipt
    simp only [hid, hmax, Prog.wp_pure]
    rw [receiveInto]
    split
    · exact wp_abandon_ended
    · rw [Prog.wp_tryCatch]
      have hstreaming : Streaming (hosts m.calls).dumpId ⟨0, []⟩
          ⟨(execute options (hosts m.calls) m.world
            (.beginUpload input.grantSecret input.originalName)).2, m.calls + 1⟩ :=
        ⟨⟨f, hf, hopen, hbytes⟩, rfl⟩
      refine Prog.wp_mono (wp_transfer hstreaming hspares) ?_ ?_
      · rintro receipt m' ⟨hdump, hbound, hsealed⟩
        rw [← hlimit] at hbound
        exact .sealed hdump hg hbound hsealed
      · intro e m' hdied
        cases e with
        | died => exact .died (hdied rfl)
        | _ => exact wp_abandon_ended

end Session

/-- **An upload that began always comes to a definite end.** -/
theorem receive_ends (options : EngineOptions) (hosts : Nat → Host) (m : Machine)
    (input : ReceiveUpload) (closing : Option StorageFault)
    (hspares : input.bytes.Spares (hosts m.calls).dumpId) :
    Ended options hosts input m (receive options hosts input closing m) := by
  have h := @wp_receive options hosts m input closing hspares
  unfold Prog.wp at h
  generalize receive options hosts input closing m = out at h ⊢
  obtain ⟨result, m'⟩ := out
  cases result with
  | ok receipt => exact h
  | error e => exact h

end UploadSession

namespace Sample

open UploadSession

/-- Two chunks, and a case that is taken up between them. -/
def twoChunks : ReceiveUpload where
  grantSecret := "0123456789abcdefghijklmnop"
  originalName := "crash.dmp"
  contentLength := some 4
  bytes :=
    { steps := [.chunk [77, 68] 0 none,
        .elsewhere (.command (host 9) (.startInvestigation "case_00000000000000000000000001")),
        .chunk [77, 80] 0 none]
      finished := true }

/-- The process after a grant was issued. -/
def afterGrant : Machine := ⟨reached options (uploadRun.take 3), 0⟩

def uploadHosts (n : Nat) : Host := host (Fin.ofNat 10 (3 + n))

end Sample

open Sample in
theorem UploadSession.receive_ends_two_chunks :
    (receive options uploadHosts twoChunks none afterGrant).1.isOk = true ∧
      Ended options uploadHosts twoChunks afterGrant
        (receive options uploadHosts twoChunks none afterGrant) := by
  refine ⟨by decide, receive_ends options uploadHosts afterGrant twoChunks none ?_⟩
  intro event hevent
  simp only [twoChunks, List.mem_cons, List.not_mem_nil, or_false, reduceCtorEq, false_or,
    PipelineStep.elsewhere.injEq] at hevent
  subst hevent
  exact ⟨rfl, fun h => h⟩

end DumpLedger
