import DumpLedger.Domain.DateOrder
import DumpLedger.Engine.Run
import DumpLedger.Engine.Storage
import DumpLedger.Recovery.Retention

/-!
# Retention runs

A run touches the dumps that it takes up and nothing else, each of them once. Which ones are due it
decides by the texts of their purge times, so it is right about a dump when the text of its purge
time sorts as the instant does.

* `execute_onlyDump` — a purge command touches its own dump
* `dueForPurge_exact_iff` — when the dumps that are found are those whose time has come
* `runRetention_keeps` — what a run touches, and what it leaves when it reports that there is no more
-/

namespace DumpLedger

open Lib SqliteLedger

/-! ## The dumps a step touches -/

/-- Beside the dumps in `S`, and objects under their identifiers, nothing has changed. -/
structure OnlyDumps (S : DumpId → Prop) (w w' : World) : Prop where
  cases : w'.ledger.cases = w.ledger.cases
  grants : w'.ledger.grants = w.ledger.grants
  rows : ∀ d, ¬ S d → w'.ledger.dumps.find? d = w.ledger.dumps.find? d
  objects : ∀ d, ¬ S d → ObjectStore.SameObjects w.vaults.dumps w'.vaults.dumps d

namespace OnlyDumps

variable {S T : DumpId → Prop} {w w' w'' : World}

theorem refl (S : DumpId → Prop) (w : World) : OnlyDumps S w w :=
  ⟨rfl, rfl, fun _ _ => rfl, fun _ _ => .refl _ _⟩

theorem trans (h : OnlyDumps S w w') (h' : OnlyDumps S w' w'') : OnlyDumps S w w'' where
  cases := h'.cases.trans h.cases
  grants := h'.grants.trans h.grants
  rows d hd := (h'.rows d hd).trans (h.rows d hd)
  objects d hd := (h.objects d hd).trans (h'.objects d hd)

theorem mono (h : OnlyDumps S w w') (hsub : ∀ d, S d → T d) : OnlyDumps T w w' where
  cases := h.cases
  grants := h.grants
  rows d hd := h.rows d fun hs => hd (hsub d hs)
  objects d hd := h.objects d fun hs => hd (hsub d hs)

end OnlyDumps

section Commands

variable {options : EngineOptions} {host : Host} {w : World} {command : Command} {d : DumpId}

/-- The two commands of a purge. -/
def IsPurgeOf (d : DumpId) (command : Command) : Prop :=
  command = .beginPurge d.text ∨ command = .finishPurge d.text

theorem plan_purge {p : Plan} (hc : IsPurgeOf d command)
    (hplan : plan options host w command = .ok p) :
    p.ledger = some (.beginPurge d) ∨ p.ledger = some (.finishPurge d) := by
  obtain ⟨t, -, hplan⟩ := plan_eq_ok.mp hplan
  rcases hc with rfl | rfl
  · simp only [planAt, planBeginPurge, bind_eq_ok, pure_eq_ok, parseDumpId,
      parseIdentifier_eq_ok] at hplan
    obtain ⟨d', hd', _, -, rfl⟩ := hplan
    rw [Identifier.ext hd']
    exact Or.inl rfl
  · simp only [planAt, planFinishPurge, bind_eq_ok, pure_eq_ok, parseDumpId,
      parseIdentifier_eq_ok] at hplan
    obtain ⟨d', hd', _, -, rfl⟩ := hplan
    rw [Identifier.ext hd']
    exact Or.inr rfl

/-- **A command of a purge touches its own dump.** -/
theorem execute_onlyDump (hc : IsPurgeOf d command) :
    OnlyDumps (· = d) w (execute options host w command).2 := by
  have hledger : (execute options host w command).2.ledger.cases = w.ledger.cases ∧
      (execute options host w command).2.ledger.grants = w.ledger.grants ∧
      ∀ d', d' ≠ d → (execute options host w command).2.ledger.dumps.find? d' =
        w.ledger.dumps.find? d' := by
    rcases execute_ledger options host w command with hsame | ⟨p, op, r, hplan, hop, hrun, -⟩
    · rw [hsame]
      exact ⟨rfl, rfl, fun _ _ => rfl⟩
    · generalize (execute options host w command).2.ledger = l' at hrun ⊢
      rcases plan_purge hc hplan with hpurge | hpurge <;> rw [hpurge] at hop <;> cases hop
      · obtain ⟨hcases, hgrants, hrows, -⟩ :=
          transitionDump_only (LedgerOp.noResult_eq_ok.mp hrun).1
        exact ⟨hcases, hgrants, hrows⟩
      · obtain ⟨l₁, htransition, rfl⟩ :=
          finishPurge_eq_ok.mp (LedgerOp.noResult_eq_ok.mp hrun).1
        obtain ⟨hcases, hgrants, hrows, -⟩ := transitionDump_only htransition
        exact ⟨hcases, hgrants, hrows⟩
  refine ⟨hledger.1, hledger.2.1, hledger.2.2, fun d' hne => execute_sameObjects ?_ ?_⟩
  · intro op hop
    rcases hc with rfl | rfl
    · cases hop
    · generalize htext : d.text = text at hop
      cases hop with
      | finishPurge e =>
        intro he
        cases he
        exact hne (Identifier.ext htext).symm
  · intro id hundo
    rcases hc with rfl | rfl <;> cases hundo

theorem deleted_of_finishPurge
    (h : (execute options host w (.finishPurge d.text)).1.succeeded = true) :
    ∃ row, (execute options host w (.finishPurge d.text)).2.ledger.dumps.find? d = some row ∧
      row.phase = .deleted := by
  obtain ⟨p, r, hplan, -, htx, -⟩ := execute_succeeded h
  generalize (execute options host w (.finishPurge d.text)).2 = w' at htx ⊢
  obtain ⟨t, -, hplan⟩ := plan_eq_ok.mp hplan
  simp only [planAt, planFinishPurge, bind_eq_ok, pure_eq_ok, parseDumpId,
    parseIdentifier_eq_ok] at hplan
  obtain ⟨d', hd', row, -, rfl⟩ := hplan
  obtain rfl : d' = d := Identifier.ext hd'
  obtain ⟨hnone, -⟩ | ⟨op, hop, -, hrun⟩ := transaction_eq_ok.mp htx
  · cases hnone
  cases hop
  obtain ⟨l₁, htransition, hl⟩ := finishPurge_eq_ok.mp (LedgerOp.noResult_eq_ok.mp hrun).1
  obtain ⟨-, -, -, row, hrow⟩ := transitionDump_only htransition
  rw [hl]
  exact ⟨_, hrow, rfl⟩

end Commands

/-! ## Which dumps are due -/

/-- The time of the dump has come. -/
def DumpRow.DueAt (d : DumpRow) (at' : IsoTimestamp) : Prop :=
  (d.phase = .available ∨ d.phase = .rejected) ∧ ∃ purgeAt ∈ d.purgeAt, purgeAt.instant ≤ at'.instant

/-- Of the dumps that may be purged, the purge times sort against `at'` as text like the instants. -/
def PurgeTimesOrdered (l : SqliteLedger) (at' : IsoTimestamp) : Prop :=
  ∀ d ∈ l.dumps, d.phase = .available ∨ d.phase = .rejected →
    ∀ purgeAt ∈ d.purgeAt, TextOrdered purgeAt.year at'.year

section Due

variable {l : SqliteLedger} {at' : IsoTimestamp}

theorem mem_dueForPurge {id : DumpId} :
    id ∈ l.dueForPurge at' ↔ ∃ d, l.dumps.find? id = some d ∧
      (d.phase = .available ∨ d.phase = .rejected) ∧ ∃ purgeAt ∈ d.purgeAt, purgeAt ≤ at' := by
  simp only [SqliteLedger.dueForPurge, List.mem_map, List.mem_filter, Table.mem_sorted, decide_eq_true_eq]
  constructor
  · rintro ⟨d, ⟨hd, hdue⟩, rfl⟩
    exact ⟨d, Table.find?_eq_some.mpr ⟨hd, rfl⟩, hdue⟩
  · rintro ⟨d, hd, hdue⟩
    obtain ⟨hmem, hid⟩ := Table.find?_eq_some.mp hd
    exact ⟨d, ⟨hmem, hdue⟩, hid⟩

/-- **The dumps found are those whose time has come, exactly if the purge times sort as text.** -/
theorem dueForPurge_exact_iff :
    (∀ d ∈ l.dumps, d.dumpId ∈ l.dueForPurge at' ↔ d.DueAt at') ↔ PurgeTimesOrdered l at' := by
  have hrow : ∀ d ∈ l.dumps, (d.dumpId ∈ l.dueForPurge at' ↔
      (d.phase = .available ∨ d.phase = .rejected) ∧ ∃ purgeAt ∈ d.purgeAt, purgeAt ≤ at') := by
    intro d hd
    have hself : l.dumps.find? d.dumpId = some d := Table.find?_eq_some.mpr ⟨hd, rfl⟩
    rw [mem_dueForPurge]
    constructor
    · rintro ⟨d', hd', hdue⟩
      rw [hself] at hd'
      cases hd'
      exact hdue
    · intro hdue
      exact ⟨d, hself, hdue⟩
  constructor
  · intro hexact d hd hphase purgeAt hpurge
    by_contra hyears
    have hopposite := IsoTimestamp.le_iff_instant_lt hyears
    have hboth := (hrow d hd).symm.trans (hexact d hd)
    rw [Option.mem_def] at hpurge
    simp only [DumpRow.DueAt, hphase, hpurge, Option.mem_def, Option.some.injEq, exists_eq_left',
      true_and] at hboth
    rw [hopposite] at hboth
    omega
  · intro hordered d hd
    rw [hrow d hd]
    refine and_congr_right fun hphase => exists_congr fun purgeAt => and_congr_right fun hpurge => ?_
    exact IsoTimestamp.le_iff_instant_le (hordered d hd hphase purgeAt hpurge)

theorem mem_pendingPurgeCompletion {w : World} {id : DumpId} :
    id ∈ pendingPurgeCompletion w ↔ ∃ d, w.ledger.dumps.find? id = some d ∧ d.phase = .deleting := by
  simp only [pendingPurgeCompletion, List.mem_map, List.mem_filter, Table.mem_sorted,
    decide_eq_true_eq]
  constructor
  · rintro ⟨d, ⟨hd, hphase⟩, rfl⟩
    exact ⟨d, Table.find?_eq_some.mpr ⟨hd, rfl⟩, hphase⟩
  · rintro ⟨d, hd, hphase⟩
    obtain ⟨hmem, hid⟩ := Table.find?_eq_some.mp hd
    exact ⟨d, ⟨hmem, hphase⟩, hid⟩

/-- No dump is a candidate twice. -/
theorem candidates_nodup {w : World} :
    ((retentionCandidates (pendingPurgeCompletion w) (w.ledger.dueForPurge at')).map
      RetentionCandidate.dumpId).Nodup := by
  have hsub : ∀ keep : DumpRow → Bool,
      ((w.ledger.dumps.sorted.filter keep).map DumpRow.dumpId).Nodup := fun keep =>
    (Table.sorted_keys_nodup w.ledger.dumps).sublist (List.filter_sublist.map _)
  simp only [retentionCandidates, List.map_append, List.map_map]
  refine List.nodup_append.mpr ⟨?_, ?_, ?_⟩
  · simpa [Function.comp_def, pendingPurgeCompletion] using hsub _
  · simpa [Function.comp_def, SqliteLedger.dueForPurge] using hsub _
  · intro a ha b hb hab
    subst hab
    simp only [Function.comp_def, List.map_id'] at ha hb
    obtain ⟨d, hd, hphase⟩ := mem_pendingPurgeCompletion.mp ha
    obtain ⟨d', hd', hphase', -⟩ := mem_dueForPurge.mp hb
    rw [hd] at hd'
    cases hd'
    rw [hphase] at hphase'
    simp at hphase'

end Due

/-! ## The loop -/

section Loop

variable {options : EngineOptions} {hosts : Nat → Host} {m : Machine} {d : DumpId}

/-- A step that ended: what it did to the world, and its result. -/
structure Stepped (d : DumpId) (w : World) (results : List RetentionRunResult) (w' : World) :
    Prop where
  only : OnlyDumps (· = d) w w'
  result : ∃ r, results = [r] ∧ r.dumpId = d ∧
    (r.ok = true → ∃ row, w'.ledger.dumps.find? d = some row ∧ row.phase = .deleted)

theorem wp_purgeCommand {command : Command} (hc : IsPurgeOf d command)
    {Q : TransitionReceipt → Machine → Prop} {E : Thrown → Machine → Prop}
    (hreceipt : ∀ receipt w', (execute options (hosts m.calls) m.world command) =
      (.receipt receipt, w') → OnlyDumps (· = d) m.world w' → Q receipt ⟨w', m.calls + 1⟩)
    (hdied : ∀ e w', OnlyDumps (· = d) m.world w' → E e ⟨w', m.calls + 1⟩) :
    Prog.wp (engineExecute options hosts command) Q E m := by
  have honly := @execute_onlyDump options (hosts m.calls) m.world command d hc
  unfold Prog.wp engineExecute
  generalize execute options (hosts m.calls) m.world command = out at hreceipt honly ⊢
  obtain ⟨outcome, w'⟩ := out
  cases outcome with
  | receipt receipt => exact hreceipt receipt w' rfl honly
  | crashed => exact hdied _ w' honly

theorem wp_finishCandidate {w : World} (hw : OnlyDumps (· = d) w m.world) :
    Prog.wp (finishCandidate options hosts d) (fun results m' => Stepped d w results m'.world)
      (fun _ m' => OnlyDumps (· = d) w m'.world) m := by
  rw [finishCandidate, Prog.wp_bind]
  refine wp_purgeCommand (Or.inr rfl) (fun receipt w' hexecute honly => ?_)
    fun _ _ honly => hw.trans honly
  cases receipt with
  | failure action error =>
    rw [Prog.wp_pure]
    exact ⟨hw.trans honly, _, rfl, rfl, fun h => by cases h⟩
  | success r =>
    rw [Prog.wp_pure]
    refine ⟨hw.trans honly, _, rfl, rfl, fun _ => ?_⟩
    have hdeleted := @deleted_of_finishPurge options (hosts m.calls) m.world d (by
      rw [hexecute]
      rfl)
    rw [hexecute] at hdeleted
    exact hdeleted

theorem wp_purgeCandidate (candidate : RetentionCandidate) :
    Prog.wp (purgeCandidate options hosts candidate)
      (fun results m' => Stepped candidate.dumpId m.world results m'.world)
      (fun _ m' => OnlyDumps (· = candidate.dumpId) m.world m'.world) m := by
  unfold purgeCandidate
  split
  · exact wp_finishCandidate (.refl _ _)
  · rw [Prog.wp_bind]
    refine wp_purgeCommand (Or.inl rfl) (fun receipt w' _ honly => ?_) fun _ _ honly => honly
    cases receipt with
    | failure action error =>
      rw [Prog.wp_pure]
      exact ⟨honly, _, rfl, rfl, fun h => by cases h⟩
    | success r => exact wp_finishCandidate honly

/-- After the dumps in `done`: nothing else was touched, and those reported as deleted are. -/
structure Ran (w : World) (done : List DumpId) (results : List RetentionRunResult) (w' : World) :
    Prop where
  only : OnlyDumps (· ∈ done) w w'
  dumps : results.map RetentionRunResult.dumpId = done
  deleted : ∀ r ∈ results, r.ok = true →
    ∃ row, w'.ledger.dumps.find? r.dumpId = some row ∧ row.phase = .deleted

theorem Ran.step {w w₁ w₂ : World} {done : List DumpId} {results bs : List RetentionRunResult}
    (h : Ran w done results w₁) (hnew : d ∉ done) (hs : Stepped d w₁ bs w₂) :
    Ran w (done ++ [d]) (results ++ bs) w₂ := by
  obtain ⟨honly, r, rfl, hid, hok⟩ := hs
  refine ⟨?_, ?_, ?_⟩
  · refine (h.only.mono fun e he => ?_).trans (honly.mono fun e he => ?_)
    · exact List.mem_append_left _ he
    · exact List.mem_append_right _ (List.mem_singleton.mpr he)
  · rw [List.map_append, h.dumps, List.map_singleton, hid]
  · intro r' hr' hok'
    rcases List.mem_append.mp hr' with hr' | hr'
    · obtain ⟨row, hrow, hphase⟩ := h.deleted r' hr' hok'
      refine ⟨row, ?_, hphase⟩
      rw [honly.rows r'.dumpId ?_]
      · exact hrow
      · rintro rfl
        exact hnew (h.dumps ▸ List.mem_map_of_mem hr')
    · rw [List.mem_singleton.mp hr'] at hok' ⊢
      rw [hid]
      exact hok hok'

/-- **The loop** over candidates that are all different. -/
theorem wp_purgeCandidates {candidates : List RetentionCandidate}
    (hnodup : (candidates.map RetentionCandidate.dumpId).Nodup) :
    Prog.wp (Prog.collect (purgeCandidate options hosts) candidates)
      (fun results m' => Ran m.world (candidates.map RetentionCandidate.dumpId) results m'.world)
      (fun _ m' => OnlyDumps (· ∈ candidates.map RetentionCandidate.dumpId) m.world m'.world) m := by
  refine Prog.wp_collect candidates
    (I := fun done results (m' : Machine) =>
      Ran m.world (done.map RetentionCandidate.dumpId) results m'.world)
    (fun done candidate rest results m' hsplit hran => ?_)
    ⟨.refl _ _, rfl, fun r hr => by cases hr⟩
  rw [hsplit, List.map_append, List.map_cons] at hnodup
  have hnew : candidate.dumpId ∉ done.map RetentionCandidate.dumpId := fun hmem =>
    (List.nodup_append.mp hnodup).2.2 _ hmem _ (List.mem_cons_self ..) rfl
  refine Prog.wp_mono (wp_purgeCandidate candidate) (fun bs m'' hs => ?_) fun _ m'' honly => ?_
  · rw [List.map_append, List.map_singleton]
    exact hran.step hnew hs
  · refine (hran.only.mono fun e he => ?_).trans (honly.mono fun e he => ?_)
    · rw [hsplit, List.map_append]
      exact List.mem_append_left _ he
    · rw [hsplit, List.map_append, List.map_cons, he]
      exact List.mem_append_right _ (List.mem_cons_self ..)

end Loop

/-! ## The whole run -/

/-- What a run that took up `dumps` did: each once, each deleting or due, and nothing else. -/
structure Purged (w : World) (at' : IsoTimestamp) (limit : Nat) (dumps : List DumpId) (w' : World) :
    Prop where
  nodup : dumps.Nodup
  limit : dumps.length ≤ limit
  due : ∀ d ∈ dumps, ∃ row, w.ledger.dumps.find? d = some row ∧
    (row.phase = .deleting ∨ row.DueAt at')
  only : OnlyDumps (· ∈ dumps) w w'

/-- There is nothing left to purge. -/
def NothingDue (w : World) (at' : IsoTimestamp) : Prop :=
  ∀ row ∈ w.ledger.dumps, row.phase ≠ .deleting ∧ ¬ row.DueAt at'

/-- How a run ends: with a report, without having begun, or because the process died. -/
inductive RetentionEnds (w : World) (at' : IsoTimestamp) (limit? : Option JsNumber) :
    Except Thrown RetentionRunReport × Machine → Prop
  | reported {limit : Nat} {report : RetentionRunReport} {m' : Machine}
      (hlimit : retentionLimit limit? = .ok limit)
      (hpurged : Purged w at' limit (report.results.map RetentionRunResult.dumpId) m'.world)
      (hmore : report.hasMore = false → NothingDue m'.world at') :
      RetentionEnds w at' limit? (.ok report, m')
  | refused {e : Thrown} {m' : Machine} (hlimit : retentionLimit limit? = .error e)
      (hworld : m'.world = w) : RetentionEnds w at' limit? (.error e, m')
  | died {limit : Nat} {dumps : List DumpId} {e : Thrown} {m' : Machine}
      (hlimit : retentionLimit limit? = .ok limit) (hpurged : Purged w at' limit dumps m'.world) :
      RetentionEnds w at' limit? (.error e, m')

section Runs

variable {options : EngineOptions} {hosts : Nat → Host} {m : Machine} {at' : IsoTimestamp}
  {limit? : Option JsNumber}

/-- The candidates of a run in the world `w`. -/
def candidatesAt (w : World) (at' : IsoTimestamp) : List RetentionCandidate :=
  retentionCandidates (pendingPurgeCompletion w) (w.ledger.dueForPurge at')

theorem mem_candidatesAt {w : World} {id : DumpId} :
    id ∈ (candidatesAt w at').map RetentionCandidate.dumpId ↔
      id ∈ pendingPurgeCompletion w ∨ id ∈ w.ledger.dueForPurge at' := by
  simp [candidatesAt, retentionCandidates, Function.comp_def]

/-- Every candidate is deleting or due. -/
theorem candidate_due {w : World} (h : PurgeTimesOrdered w.ledger at') {id : DumpId}
    (hid : id ∈ (candidatesAt w at').map RetentionCandidate.dumpId) :
    ∃ row, w.ledger.dumps.find? id = some row ∧ (row.phase = .deleting ∨ row.DueAt at') := by
  rcases mem_candidatesAt.mp hid with hpending | hdue
  · obtain ⟨row, hrow, hphase⟩ := mem_pendingPurgeCompletion.mp hpending
    exact ⟨row, hrow, Or.inl hphase⟩
  · obtain ⟨row, hrow, -⟩ := mem_dueForPurge.mp hdue
    obtain ⟨hmem, rfl⟩ := Table.find?_eq_some.mp hrow
    exact ⟨row, hrow, Or.inr ((dueForPurge_exact_iff.mpr h row hmem).mp hdue)⟩

theorem purged_of_only {w w' : World} {limit : Nat} (h : PurgeTimesOrdered w.ledger at')
    (honly : OnlyDumps (· ∈ ((candidatesAt w at').take limit).map RetentionCandidate.dumpId) w w') :
    Purged w at' limit (((candidatesAt w at').take limit).map RetentionCandidate.dumpId) w' where
  nodup := candidates_nodup.sublist ((List.take_sublist _ _).map _)
  limit := by
    rw [List.length_map]
    exact List.length_take_le _ _
  due d hd := candidate_due h (((List.take_sublist _ _).map _).subset hd)
  only := honly

/-- When all candidates fitted and all of them were deleted, nothing is left. -/
theorem nothingDue_of_ran {w w' : World} {results : List RetentionRunResult}
    (h : PurgeTimesOrdered w.ledger at')
    (hran : Ran w ((candidatesAt w at').map RetentionCandidate.dumpId) results w')
    (hok : ∀ r ∈ results, r.ok = true) : NothingDue w' at' := by
  intro row hrow
  have hself : w'.ledger.dumps.find? row.dumpId = some row := Table.find?_eq_some.mpr ⟨hrow, rfl⟩
  by_cases hcandidate : row.dumpId ∈ (candidatesAt w at').map RetentionCandidate.dumpId
  · rw [← hran.dumps] at hcandidate
    obtain ⟨r, hr, hid⟩ := List.mem_map.mp hcandidate
    obtain ⟨row', hrow', hphase⟩ := hran.deleted r hr (hok r hr)
    rw [hid, hself] at hrow'
    cases hrow'
    simp [DumpRow.DueAt, hphase]
  · rw [hran.only.rows _ hcandidate] at hself
    obtain ⟨hmem, -⟩ := Table.find?_eq_some.mp hself
    rw [mem_candidatesAt, not_or] at hcandidate
    refine ⟨fun hphase => ?_, fun hdue => ?_⟩
    · exact hcandidate.1 (mem_pendingPurgeCompletion.mpr ⟨row, hself, hphase⟩)
    · exact hcandidate.2 ((dueForPurge_exact_iff.mpr h row hmem).mpr hdue)

theorem wp_runRetention {at? : Option String} (hat : at'.text = at?.getD (hosts m.calls).now)
    (h : PurgeTimesOrdered m.world.ledger at') :
    Prog.wp (runRetention options hosts at? limit?)
      (fun report m' => RetentionEnds m.world at' limit? (.ok report, m'))
      (fun e m' => RetentionEnds m.world at' limit? (.error e, m')) m := by
  have hdue : dueForPurge m.world (hosts m.calls).now at? = .ok (m.world.ledger.dueForPurge at') := by
    simp only [dueForPurge, ← hat, assertIsoTimestamp_text, bind_ok]
    rfl
  rw [runRetention, Prog.wp_bind]
  cases hlimit : retentionLimit limit? with
  | error e => exact .refused hlimit rfl
  | ok limit =>
    rw [Prog.wp_lift_ok, Prog.wp_bind]
    show Prog.wp (readDueForPurge hosts at?) _ _ m
    simp only [Prog.wp, readDueForPurge, hdue]
    show Prog.wp (Prog.gets _ >>= _) _ _ _
    rw [Prog.wp_bind, Prog.wp_gets]
    dsimp only
    rw [Prog.wp_bind]
    refine Prog.wp_mono (@wp_purgeCandidates options hosts ⟨m.world, m.calls + 1⟩
      ((candidatesAt m.world at').take limit)
      (candidates_nodup.sublist ((List.take_sublist _ _).map _))) (fun results m' hran => ?_)
      fun e m' honly => .died hlimit (purged_of_only h honly)
    rw [Prog.wp_pure]
    refine .reported hlimit ?_ fun hmore => ?_
    · show Purged _ _ _ (results.map _) _
      rw [hran.dumps]
      exact purged_of_only h hran.only
    · obtain ⟨hfits, hfailed⟩ := Bool.or_eq_false_iff.mp hmore
      have hall : (candidatesAt m.world at').take limit = candidatesAt m.world at' :=
        List.take_of_length_le (Nat.le_of_not_lt (of_decide_eq_false hfits))
      rw [hall] at hran
      refine nothingDue_of_ran h hran fun r hr => ?_
      have hr' := List.any_eq_false.mp hfailed r hr
      simpa using hr'

end Runs

/-- **A retention run never purges early**, while the purge times sort as text like the instants:
it takes up dumps that are deleting or due, each once, leaves everything else as it is, and reports
that there is no more only when there is none. -/
theorem retention_never_early (options : EngineOptions) (hosts : Nat → Host) (m : Machine)
    (at? : Option String) (limit? : Option JsNumber) (at' : IsoTimestamp)
    (hat : at'.text = at?.getD (hosts m.calls).now) (h : PurgeTimesOrdered m.world.ledger at') :
    RetentionEnds m.world at' limit? (runRetention options hosts at? limit? m) := by
  have hwp := @wp_runRetention options hosts m at' limit? at? hat h
  unfold Prog.wp at hwp
  generalize runRetention options hosts at? limit? m = out at hwp ⊢
  obtain ⟨result, m'⟩ := out
  cases result with
  | ok report => exact hwp
  | error e => exact hwp

namespace Sample

/-- A dump that an import brings in with its bytes. -/
def importedDump (purgeAt : String) : ImportDumpRecord where
  dumpId := "dump_00000000000000000000000001"
  caseId := "case_00000000000000000000000001"
  phase := "available"
  originalName := "crash.dmp"
  byteSize := some 4
  sha256 := some "0bb2fcd163de4d5e0b8bebb54a4613f8693b546003870b8465a882cf080684f4"
  validation := "valid"
  coverage := some "partial"
  inspectionError := none
  inspectionFacts := none
  receivedAt := "2025-01-01T00:00:00.000Z"
  availableAt := some "2025-01-01T00:00:00.000Z"
  purgeAt := some purgeAt
  purgedAt := none

/-- An import of that dump, up to its acceptance. -/
def importedRun (purgeAt : String) : List Event :=
  importRun "investigating" ++
    [.stageImport 0 (host 0).dumpId, .append 0 (host 0).dumpId [77, 68, 77, 80],
      .syncAndClose (host 0).dumpId,
      .command (host 3) (.importDumpStaged (importedDump purgeAt)),
      .command (host 4) (.promoteObject "dump_00000000000000000000000001"),
      .command (host 5) (.markQuarantined "dump_00000000000000000000000001"),
      .command { host 6 with inspect := fun _ _ => .accepted .partialMemory [] }
        (.acceptDump "dump_00000000000000000000000001")]

def importedMachine (purgeAt : String) : Machine := ⟨reached options (importedRun purgeAt), 0⟩

def retentionHosts (n : Nat) : Host := host (Fin.ofNat 10 (7 + n))

/-- The start of 2027. -/
def newYear : IsoTimestamp := ⟨"2027-01-01T00:00:00.000Z", by decide⟩

theorem yearTenThousand_valid : isIsoTimestamp "+010000-01-01T00:00:00.000Z" = true := by
  decide

/-- The year 10000. -/
def yearTenThousand : IsoTimestamp := ⟨"+010000-01-01T00:00:00.000Z", yearTenThousand_valid⟩

theorem importedMachine_rows :
    ∀ d ∈ (importedMachine yearTenThousand.text).world.ledger.dumps.rows,
      d.phase = .available ∧ d.purgeAt = some yearTenThousand := by
  decide +kernel

end Sample

open Sample in
theorem retention_never_early_imported :
    RetentionEnds (importedMachine "2026-06-01T00:00:00.000Z").world newYear none
      (runRetention options retentionHosts (some newYear.text) none
        (importedMachine "2026-06-01T00:00:00.000Z")) := by
  refine retention_never_early options retentionHosts (importedMachine "2026-06-01T00:00:00.000Z")
    (some newYear.text) none newYear rfl ?_
  intro d hd _ purgeAt hpurge
  have hall : ∀ d ∈ (importedMachine "2026-06-01T00:00:00.000Z").world.ledger.dumps.rows,
      ∀ purgeAt ∈ d.purgeAt, TextOrdered purgeAt.year newYear.year := by
    decide +kernel
  exact hall d hd purgeAt hpurge

open Sample in
/-- A dump to be kept until the year 10000 is purged in 2027: a `+` sorts before the digits. -/
theorem retention_purges_early :
    ¬ RetentionEnds (importedMachine yearTenThousand.text).world newYear none
      (runRetention options retentionHosts (some newYear.text) none
        (importedMachine yearTenThousand.text)) := by
  have hdeleted : (runRetention options retentionHosts (some newYear.text) none
      (importedMachine yearTenThousand.text)).1.toOption.map (fun report =>
        report.results.isEmpty) = some false := by
    decide +kernel
  generalize runRetention options retentionHosts (some newYear.text) none
    (importedMachine yearTenThousand.text) = out at hdeleted
  intro h
  cases h with
  | refused _ _ => cases hdeleted
  | died _ _ => cases hdeleted
  | @reported limit report m' _ hpurged _ =>
    have hsome : report.results ≠ [] := by
      intro hnil
      simp [Except.toOption, hnil] at hdeleted
    obtain ⟨r, hr⟩ := List.exists_mem_of_ne_nil _ hsome
    obtain ⟨row, hrow, hdue⟩ := hpurged.due r.dumpId (List.mem_map_of_mem hr)
    obtain ⟨hphase, hpurgeAt⟩ := importedMachine_rows row (Table.find?_eq_some.mp hrow).1
    rcases hdue with hdeleting | ⟨-, purgeAt, hmem, hle⟩
    · rw [hphase] at hdeleting
      cases hdeleting
    · rw [hpurgeAt] at hmem
      cases hmem
      exact absurd hle (by decide)

end DumpLedger
