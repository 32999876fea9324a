import DumpLedger.Engine.Run

/-!
# Lifecycle evidence

What a dump's row says in each phase. `Evidence` is the part a reader of the row relies
on; `Tracked` adds what it takes to keep that along the moves: a dump on its way is not
checked yet, and its size is known from the seal on.

* `tracked_apply` — every move keeps it
* `reached_tracked` — so every dump of every reachable ledger has it
* `lifecycle_evidence` — with the case link and the finality of deletion
-/

namespace DumpLedger

open Lib

structure Evidence (d : DumpRow) : Prop where
  downloadable : d.downloadable = true ↔ d.phase = .available
  available : d.phase = .available →
    d.blobState = .vault ∧ d.sha256.isSome = true ∧ d.byteSize.isSome = true ∧
      d.validation = .valid ∧ d.coverage.isSome = true ∧ d.inspectionError = none
  sealed : d.phase = .sealed →
    (d.blobState = .staging ∨ d.blobState = .vault) ∧ d.sha256.isSome = true ∧
      d.byteSize.isSome = true
  quarantined : d.phase = .quarantined →
    d.blobState = .vault ∧ d.sha256.isSome = true ∧ d.validation = .notChecked
  deleted : d.phase = .deleted → d.blobState = .none

/-- The evidence, and what its preservation needs. -/
structure Tracked (d : DumpRow) : Prop extends Evidence d where
  receiving : d.phase = .receiving → d.blobState = .staging
  unchecked : d.phase = .receiving ∨ d.phase = .sealed → d.validation = .notChecked
  sized : d.phase = .quarantined → d.byteSize.isSome = true

/-! ## Preservation -/

section Preservation

variable {d : DumpRow} {now : IsoTimestamp}

/-- **Every move of the lifecycle keeps the evidence.** -/
theorem tracked_apply {m : DumpMove} (h : Tracked d) (hguard : m.guard d = true) :
    Tracked (m.apply now d) := by
  cases m with
  | sealUpload byteSize sha256 =>
    have hp : d.phase = .receiving := by simpa [DumpMove.guard] using hguard
    have hdl : d.downloadable = false := by simpa [hp] using h.downloadable
    refine ⟨⟨?_, ?_, ?_, ?_, ?_⟩, ?_, ?_, ?_⟩ <;> simp [DumpMove.apply, hdl, h.receiving hp, h.unchecked (.inl hp)]
  | failUpload =>
    refine ⟨⟨?_, ?_, ?_, ?_, ?_⟩, ?_, ?_, ?_⟩ <;> simp [DumpMove.apply]
  | recordPromoted =>
    obtain ⟨hp, -⟩ : d.phase = .sealed ∧ d.blobState = .staging := by
      simpa [DumpMove.guard] using hguard
    have hdl : d.downloadable = false := by simpa [hp] using h.downloadable
    obtain ⟨-, hsha, hsize⟩ := h.sealed hp
    refine ⟨⟨?_, ?_, ?_, ?_, ?_⟩, ?_, ?_, ?_⟩ <;> simp [DumpMove.apply, hp, hdl, hsha, hsize, h.unchecked (.inr hp)]
  | markQuarantined =>
    obtain ⟨hp, hblob, hsha⟩ :
        d.phase = .sealed ∧ d.blobState = .vault ∧ d.sha256.isSome = true := by
      simpa [DumpMove.guard] using hguard
    have hdl : d.downloadable = false := by simpa [hp] using h.downloadable
    obtain ⟨-, -, hsize⟩ := h.sealed hp
    refine ⟨⟨?_, ?_, ?_, ?_, ?_⟩, ?_, ?_, ?_⟩ <;> simp [DumpMove.apply, hdl, hblob, hsha, hsize, h.unchecked (.inr hp)]
  | acceptDump coverage facts =>
    obtain ⟨hp, hblob, hsha⟩ :
        d.phase = .quarantined ∧ d.blobState = .vault ∧ d.sha256.isSome = true := by
      simpa [DumpMove.guard] using hguard
    refine ⟨⟨?_, ?_, ?_, ?_, ?_⟩, ?_, ?_, ?_⟩ <;> simp [DumpMove.apply, hblob, hsha, h.sized hp]
  | rejectDump reason =>
    refine ⟨⟨?_, ?_, ?_, ?_, ?_⟩, ?_, ?_, ?_⟩ <;> simp [DumpMove.apply]
  | setRetention purgeAt =>
    exact
      { downloadable := h.downloadable, available := h.available, sealed := h.sealed,
        quarantined := h.quarantined, deleted := h.deleted, receiving := h.receiving,
        unchecked := h.unchecked, sized := h.sized }
  | beginPurge =>
    refine ⟨⟨?_, ?_, ?_, ?_, ?_⟩, ?_, ?_, ?_⟩ <;> simp [DumpMove.apply]
  | finishPurge =>
    refine ⟨⟨?_, ?_, ?_, ?_, ?_⟩, ?_, ?_, ?_⟩ <;> simp [DumpMove.apply]

theorem tracked_new {op : LedgerOp} {event : EventIdentity} (h : NewDump op event d) :
    Tracked d := by
  cases h with
  | received _ =>
    refine ⟨⟨?_, ?_, ?_, ?_, ?_⟩, ?_, ?_, ?_⟩ <;> simp [DumpRow.receiving]
  | staged _ =>
    refine ⟨⟨?_, ?_, ?_, ?_, ?_⟩, ?_, ?_, ?_⟩ <;> simp [ImportDumpStagedInsert.row]
  | @tombstone record _ =>
    rcases hp : record.phase <;>
      refine ⟨⟨?_, ?_, ?_, ?_, ?_⟩, ?_, ?_, ?_⟩ <;>
      simp [ImportDumpTombstoneInsert.row, TombstonePhase.phase, hp]

/-- A deleted dump has no move left. -/
theorem guard_of_deleted {m : DumpMove} (h : d.phase = .deleted) : m.guard d = false := by
  cases m <;> simp [DumpMove.guard, h]

end Preservation

/-! ## Runs -/

section Runs

variable {sha256 : Bytes → Sha256} {op : LedgerOp} {event : EventIdentity} {l l' : SqliteLedger}
  {r : LedgerResult}

theorem run_tracked (hl : ∀ d ∈ l.dumps, Tracked d) (h : op.run sha256 event l = .ok (r, l')) :
    ∀ d ∈ l'.dumps, Tracked d := by
  have hd := (run_changes h).dumps
  generalize l'.dumps = ds at hd ⊢
  cases hd with
  | same => exact hl
  | inserted row _ hnew _ =>
    intro d hd
    rcases Table.mem_insert.mp hd with hd | rfl
    · exact hl d hd
    · exact tracked_new hnew
  | moved d₀ m _ hd₀ hguard =>
    intro d hd
    rcases (Table.mem_updateKey hd₀).mp hd with rfl | ⟨hd, -⟩
    · exact tracked_apply (hl d₀ (Table.mem_of_find? hd₀)) hguard
    · exact hl d hd

/-- A dump keeps its case, and once deleted stays deleted. -/
def Continues (d d' : DumpRow) : Prop :=
  d'.caseId = d.caseId ∧ (d.phase = .deleted → d'.phase = .deleted)

theorem run_continues {d : DumpRow} (hd : d ∈ l.dumps) (h : op.run sha256 event l = .ok (r, l')) :
    ∃ d', l'.dumps.find? d.dumpId = some d' ∧ Continues d d' := by
  have hfind := Table.find?_key hd
  have hch := (run_changes h).dumps
  generalize l'.dumps = ds at hch ⊢
  cases hch with
  | same => exact ⟨d, hfind, rfl, id⟩
  | inserted row hfree _ _ => exact ⟨d, Table.find?_insert_of_some hfind, rfl, id⟩
  | moved d₀ m _ hd₀ hguard =>
    by_cases he : d₀.dumpId = d.dumpId
    · obtain rfl : d₀ = d := Table.eq_of_key (Table.mem_of_find? hd₀) hd he
      refine ⟨_, Table.find?_updateKey_self hd₀, DumpMove.apply_caseId _ _ _, fun hdel => ?_⟩
      rw [guard_of_deleted hdel] at hguard
      cases hguard
    · exact ⟨d, by rw [Table.find?_updateKey_ne he]; exact hfind, rfl, id⟩

variable (options : EngineOptions) (events : List Event)

theorem reached_tracked : ∀ d ∈ (reached options events).ledger.dumps, Tracked d :=
  ledger_invariant (I := fun l => ∀ d ∈ l.dumps, Tracked d)
    (fun _ hd => absurd hd Table.not_mem_empty) (fun _ _ _ _ _ => run_tracked) events

/-- **Every dump of every reachable ledger has the evidence of its phase**, and whatever
happens next leaves it in its case and, if it is deleted, deleted. -/
theorem lifecycle_evidence :
    ∀ d ∈ (reached options events).ledger.dumps,
      Evidence d ∧
        ∀ e : Event, ∃ d' ∈ (step options (reached options events) e).ledger.dumps,
          d'.dumpId = d.dumpId ∧ d'.caseId = d.caseId ∧
            (d.phase = .deleted → d'.phase = .deleted) := by
  intro d hd
  refine ⟨(reached_tracked options events d hd).toEvidence, fun e => ?_⟩
  rcases step_ledger options (reached options events) e with h | ⟨_, _, _, _, _, hc⟩
  · rw [h]
    exact ⟨d, hd, rfl, rfl, id⟩
  · obtain ⟨d', hfind, hcase, hdel⟩ := run_continues hd hc.run
    exact ⟨d', Table.mem_of_find? hfind, Table.key_of_find? hfind, hcase, hdel⟩

end Runs

/-- A dump whose upload has just begun. -/
theorem lifecycle_evidence_upload :
    ∃ d ∈ (reached Sample.options Sample.uploadRun).ledger.dumps,
      d.phase = .receiving ∧ Evidence d := by
  have hlen : (reached Sample.options Sample.uploadRun).ledger.dumps.rows.map DumpRow.phase =
      [.receiving] := by
    decide +kernel
  obtain ⟨d, hd, hphase⟩ : ∃ d ∈ (reached Sample.options Sample.uploadRun).ledger.dumps.rows,
      d.phase = .receiving :=
    List.mem_map.mp (hlen ▸ List.mem_cons_self ..)
  exact ⟨d, hd, hphase, (lifecycle_evidence Sample.options Sample.uploadRun d hd).1⟩

end DumpLedger
