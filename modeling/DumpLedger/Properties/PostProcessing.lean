import DumpLedger.Intake.PostProcessingQueue

/-!
# The queue of the post-processing keeps its work

* `Items` — where every admitted item is: pending, done once, or given up after `maxAttempts`
  failures; what a drain still has to go over is pending unless the queue was closed
* `Timers` — the timer field and the environment agree, and an idle queue with work has one
* `work_is_kept` — both along every run, read off the history

Each operation of the queue has one lemma about either of them.
-/

namespace DumpLedger.PostProcessingQueue

open Lib

/-! ## The history -/

/-- How often `process` returned for an item. -/
def successes (calls : List ProcessCall) (ticket : Nat) : Nat :=
  calls.countP fun c => decide (c.ticket = ticket) && c.succeeded

/-- How often `process` threw for an item. -/
def failures (calls : List ProcessCall) (ticket : Nat) : Nat :=
  calls.countP fun c => decide (c.ticket = ticket) && !c.succeeded

/-- The items that were given up. -/
def givenUp (queue : PostProcessingQueue) (s : State) : Finset Nat :=
  (Finset.range s.admissions.length).filter fun t => failures s.calls t = queue.maxAttempts

section History

variable {calls : List ProcessCall} {c : ProcessCall} {t : Nat}

theorem successes_append_self (h : c.succeeded = true) :
    successes (calls ++ [c]) c.ticket = successes calls c.ticket + 1 := by
  simp [successes, h]

theorem successes_append_ne (h : c.ticket ≠ t) :
    successes (calls ++ [c]) t = successes calls t := by
  simp [successes, h]

theorem successes_append_failed (h : c.succeeded = false) :
    successes (calls ++ [c]) t = successes calls t := by
  simp [successes, h]

theorem failures_append_self (h : c.succeeded = false) :
    failures (calls ++ [c]) c.ticket = failures calls c.ticket + 1 := by
  simp [failures, h]

theorem failures_append_ne (h : c.ticket ≠ t) :
    failures (calls ++ [c]) t = failures calls t := by
  simp [failures, h]

theorem failures_append_succeeded (h : c.succeeded = true) :
    failures (calls ++ [c]) t = failures calls t := by
  simp [failures, h]

end History

/-! ## The items -/

/-- The item has this dump, never succeeded and has an attempt left. -/
structure Waiting (queue : PostProcessingQueue) (s : State) (e : PendingEntry) : Prop where
  admitted : s.admissions[e.ticket]? = some e.dumpId
  successes_eq : successes s.calls e.ticket = 0
  failures_lt : failures s.calls e.ticket < queue.maxAttempts

/-- An item that is not pending was processed once or given up. -/
def Settled (queue : PostProcessingQueue) (s : State) (ticket : Nat) : Prop :=
  successes s.calls ticket = 1 ∧ failures s.calls ticket < queue.maxAttempts ∨
    successes s.calls ticket = 0 ∧ failures s.calls ticket = queue.maxAttempts

/-- What holds of the items while a drain still has the entries `todo` to go over. -/
structure Items (queue : PostProcessingQueue) (s : State) (todo : List PendingEntry) : Prop where
  size_le : s.pending.size ≤ queue.maxPending
  pending : ∀ e ∈ s.pending, Waiting queue s e
  todo_waits : ∀ e ∈ todo, Waiting queue s e
  todo_nodup : (todo.map PendingEntry.ticket).Nodup
  todo_pending : s.closed = false → ∀ e ∈ todo, e ∈ s.pending
  closed_empty : s.closed = true → ∀ e, e ∉ s.pending
  called : ∀ c ∈ s.calls, s.admissions[c.ticket]? = some c.dumpId
  attempts_eq : ∀ t, s.attempts t = failures s.calls t
  bounded : ∀ t, successes s.calls t ≤ 1 ∧ failures s.calls t ≤ queue.maxAttempts
  settled : s.closed = false →
    ∀ t < s.admissions.length, (∃ e ∈ s.pending, e.ticket = t) ∨ Settled queue s t
  exhausted_eq : s.exhausted = (givenUp queue s).card
  balance : s.closed = false →
    s.admissions.length =
      s.calls.countP ProcessCall.succeeded + s.exhausted + s.pending.size

section Items

variable {queue : PostProcessingQueue} {s s' : State} {todo rest : List PendingEntry}
  {e e' entry : PendingEntry} {t : Nat}

theorem Waiting.lt (h : Waiting queue s e) : e.ticket < s.admissions.length :=
  (List.getElem?_eq_some_iff.mp h.admitted).1

/-- A ticket belongs to one dump. -/
theorem Waiting.eq (h : Waiting queue s e) (h' : Waiting queue s e')
    (ht : e.ticket = e'.ticket) : e = e' := by
  have hd := h.admitted
  rw [ht, h'.admitted] at hd
  cases e
  cases e'
  cases ht
  cases hd
  rfl

/-- A call for another item leaves an item waiting. -/
theorem Waiting.congr (h : Waiting queue s e) {c : ProcessCall} (hc : c.ticket ≠ e.ticket)
    (ha : s'.admissions = s.admissions) (hs : s'.calls = s.calls ++ [c]) :
    Waiting queue s' e where
  admitted := by rw [ha, h.admitted]
  successes_eq := by rw [hs, successes_append_ne hc, h.successes_eq]
  failures_lt := by
    rw [hs, failures_append_ne hc]
    exact h.failures_lt

theorem Settled.congr (h : Settled queue s t) {c : ProcessCall} (hc : c.ticket ≠ t)
    (hs : s'.calls = s.calls ++ [c]) : Settled queue s' t := by
  unfold Settled
  rw [hs, successes_append_ne hc, failures_append_ne hc]
  exact h

namespace Items

/-- The items do not depend on the timers, on where the loop stands and on the snapshot. -/
theorem congr (h : Items queue s todo) (hpending : s'.pending = s.pending)
    (hattempts : s'.attempts = s.attempts) (hclosed : s'.closed = s.closed)
    (hexhausted : s'.exhausted = s.exhausted) (hadmissions : s'.admissions = s.admissions)
    (hcalls : s'.calls = s.calls) : Items queue s' todo := by
  have hwait : ∀ e, Waiting queue s e → Waiting queue s' e := fun e hw =>
    ⟨by rw [hadmissions]; exact hw.admitted, by rw [hcalls]; exact hw.successes_eq,
      by rw [hcalls]; exact hw.failures_lt⟩
  constructor
  · rw [hpending]
    exact h.size_le
  · rw [hpending]
    exact fun e he => hwait e (h.pending e he)
  · exact fun e he => hwait e (h.todo_waits e he)
  · exact h.todo_nodup
  · rw [hclosed, hpending]
    exact h.todo_pending
  · rw [hclosed, hpending]
    exact h.closed_empty
  · rw [hcalls, hadmissions]
    exact h.called
  · rw [hattempts, hcalls]
    exact h.attempts_eq
  · rw [hcalls]
    exact h.bounded
  · unfold Settled
    rw [hclosed, hadmissions, hpending, hcalls]
    exact h.settled
  · unfold givenUp
    rw [hexhausted, hadmissions, hcalls]
    exact h.exhausted_eq
  · rw [hclosed, hadmissions, hcalls, hexhausted, hpending]
    exact h.balance

theorem initial : Items queue State.initial [] where
  size_le := Nat.zero_le _
  pending _ he := absurd he Table.not_mem_empty
  todo_waits _ he := absurd he List.not_mem_nil
  todo_nodup := List.nodup_nil
  todo_pending _ _ he := absurd he List.not_mem_nil
  closed_empty hclosed := Bool.noConfusion hclosed
  called _ hc := absurd hc List.not_mem_nil
  attempts_eq _ := rfl
  bounded _ := ⟨Nat.zero_le _, Nat.zero_le _⟩
  settled _ t ht := absurd ht (Nat.not_lt_zero t)
  exhausted_eq := rfl
  balance _ := rfl

theorem ensureTimer (h : Items queue s todo) : Items queue (queue.ensureTimer s) todo := by
  unfold PostProcessingQueue.ensureTimer
  split
  · exact h
  · exact h.congr rfl rfl rfl rfl rfl rfl

/-- The calls are about items made before: a new ticket has none. -/
theorem fresh (h : Items queue s todo) :
    successes s.calls s.admissions.length = 0 ∧ failures s.calls s.admissions.length = 0 := by
  have hne : ∀ c ∈ s.calls, c.ticket ≠ s.admissions.length := by
    intro c hc
    exact Nat.ne_of_lt (List.getElem?_eq_some_iff.mp (h.called c hc)).1
  constructor
  · refine List.countP_eq_zero.mpr fun c hc => ?_
    simp [hne c hc]
  · refine List.countP_eq_zero.mpr fun c hc => ?_
    simp [hne c hc]

theorem mem_admitted {dumpId : String} (hfree : s.pending.find? dumpId = none) (e : PendingEntry) :
    e ∈ (s.admitted dumpId hfree).pending ↔ e ∈ s.pending ∨ e = ⟨dumpId, s.admissions.length⟩ :=
  Table.mem_insert (h := hfree)

/-- A new item is pending and has all its attempts. -/
theorem admitted (h : Items queue s todo) {dumpId : String}
    (hopen : s.closed = false) (hfree : s.pending.find? dumpId = none)
    (hroom : s.pending.size < queue.maxPending) : Items queue (s.admitted dumpId hfree) todo := by
  have hlookup : ∀ (t : Nat) (d : String), s.admissions[t]? = some d →
      (s.admissions ++ [dumpId])[t]? = some d := by
    intro t d hd
    rw [List.getElem?_append_left (List.getElem?_eq_some_iff.mp hd).1, hd]
  have hwait : ∀ e, Waiting queue s e → Waiting queue (s.admitted dumpId hfree) e := fun e hw =>
    ⟨hlookup _ _ hw.admitted, hw.successes_eq, hw.failures_lt⟩
  have hnew : Waiting queue (s.admitted dumpId hfree) ⟨dumpId, s.admissions.length⟩ :=
    ⟨by simp [State.admitted], h.fresh.1, by
      show failures s.calls s.admissions.length < queue.maxAttempts
      rw [h.fresh.2]
      exact queue.maxAttempts.pos⟩
  have hold : ∀ e ∈ s.pending, e ∈ (s.admitted dumpId hfree).pending :=
    fun e he => (mem_admitted hfree e).mpr (Or.inl he)
  constructor
  · simpa [State.admitted] using hroom
  · intro e he
    obtain he | rfl := (mem_admitted hfree e).mp he
    · exact hwait e (h.pending e he)
    · exact hnew
  · exact fun e he => hwait e (h.todo_waits e he)
  · exact h.todo_nodup
  · exact fun hopen e he => hold e (h.todo_pending hopen e he)
  · intro hclosed
    exact Bool.noConfusion (hopen.symm.trans hclosed)
  · exact fun c hc => hlookup _ _ (h.called c hc)
  · intro t
    show Function.update s.attempts s.admissions.length 0 t = failures s.calls t
    by_cases ht : t = s.admissions.length
    · rw [ht, Function.update_self, h.fresh.2]
    · rw [Function.update_of_ne ht, h.attempts_eq]
  · exact h.bounded
  · intro hopen t ht
    rw [show (s.admitted dumpId hfree).admissions.length = s.admissions.length + 1 from
      List.length_append] at ht
    obtain hlt | heq := Nat.lt_succ_iff_lt_or_eq.mp ht
    · obtain ⟨e, he, rfl⟩ | hsettled := h.settled hopen t hlt
      · exact Or.inl ⟨e, hold e he, rfl⟩
      · exact Or.inr hsettled
    · exact Or.inl ⟨_, Table.mem_insert_self hfree, heq.symm⟩
  · have hnot : ¬ failures s.calls s.admissions.length = queue.maxAttempts := by
      rw [h.fresh.2]
      exact queue.maxAttempts.pos.ne
    have hset : givenUp queue (s.admitted dumpId hfree) = givenUp queue s := by
      show Finset.filter (fun t => failures s.calls t = queue.maxAttempts)
        (Finset.range (s.admissions ++ [dumpId]).length) = _
      rw [List.length_append, List.length_singleton, Finset.range_add_one,
        Finset.filter_insert, if_neg hnot]
      rfl
    rw [hset]
    exact h.exhausted_eq
  · intro hopen
    have hbalance := h.balance hopen
    simp only [State.admitted, List.length_append, List.length_singleton, Table.size_insert]
    omega

/-- Closing drops what is pending and forgets nothing else. -/
theorem close (h : Items queue s todo) : Items queue s.close todo := by
  unfold State.close
  split
  · exact h
  · exact {
      size_le := Nat.zero_le _
      pending := fun e he => absurd he Table.not_mem_empty
      todo_waits := fun e he =>
        have hw := h.todo_waits e he
        ⟨hw.admitted, hw.successes_eq, hw.failures_lt⟩
      todo_nodup := h.todo_nodup
      todo_pending := fun hopen => Bool.noConfusion hopen
      closed_empty := fun _ _ => Table.not_mem_empty
      called := h.called
      attempts_eq := h.attempts_eq
      bounded := h.bounded
      settled := fun hopen => Bool.noConfusion hopen
      exhausted_eq := h.exhausted_eq
      balance := fun hopen => Bool.noConfusion hopen }

/-- A drain begins with all that is pending. -/
theorem snapshot (h : Items queue s todo) : Items queue s s.pending.rows :=
  { h with
    todo_waits := h.pending
    todo_nodup := by
      refine List.Nodup.map_on ?_ (List.Nodup.of_map _ s.pending.keys_nodup)
      exact fun e he e' he' ht => (h.pending e he).eq (h.pending e' he') ht
    todo_pending := fun _ e he => he }

section Call

variable (h : Items queue s (entry :: rest))

include h

/-- The entries after the first have other tickets. -/
theorem rest_ne (he : e ∈ rest) : entry.ticket ≠ e.ticket := by
  intro ht
  have hnodup := h.todo_nodup
  rw [List.map_cons, List.nodup_cons, ht] at hnodup
  exact hnodup.1 (List.mem_map_of_mem he)

/-- A pending item of another dump has another ticket. -/
theorem pending_ne (he : e ∈ s.pending) (hd : e.dumpId ≠ entry.dumpId) :
    entry.ticket ≠ e.ticket := by
  intro ht
  have heq := (h.todo_waits entry (List.mem_cons_self ..)).eq (h.pending e he) ht
  exact hd (by rw [heq])

theorem mem_entry (hopen : s.closed = false) : entry ∈ s.pending :=
  h.todo_pending hopen entry (List.mem_cons_self ..)

/-- An entry of the snapshot that is still to come is not deleted with the first. -/
theorem rest_dump_ne (hopen : s.closed = false) (he : e ∈ rest) : e.dumpId ≠ entry.dumpId := by
  intro hd
  have hmem := h.todo_pending hopen e (List.mem_cons_of_mem _ he)
  have heq : e = entry := Table.eq_of_key hmem (h.mem_entry hopen) hd
  exact h.rest_ne he (by rw [heq])

/-- What any call of `process` leaves alone: the other items. -/
theorem others (s' : State) {c : ProcessCall} (hc : c.ticket = entry.ticket)
    (ha : s'.admissions = s.admissions) (hs : s'.calls = s.calls ++ [c])
    (hclosed : s'.closed = s.closed)
    (hmem : ∀ e, e ∈ s'.pending ∧ e.dumpId ≠ entry.dumpId ↔
      e ∈ s.pending ∧ e.dumpId ≠ entry.dumpId) :
    (∀ e ∈ s'.pending, e.dumpId ≠ entry.dumpId → Waiting queue s' e) ∧
    (∀ e ∈ rest, Waiting queue s' e) ∧
    (s'.closed = false → ∀ e ∈ rest, e ∈ s'.pending) ∧
    (s'.closed = false → ∀ t < s'.admissions.length, t ≠ entry.ticket →
      (∃ e ∈ s'.pending, e.ticket = t) ∨ Settled queue s' t) := by
  refine ⟨?_, ?_, ?_, ?_⟩
  · intro e he hd
    have hold := ((hmem e).mp ⟨he, hd⟩).1
    exact (h.pending e hold).congr (by rw [hc]; exact h.pending_ne hold hd) ha hs
  · intro e he
    exact (h.todo_waits e (List.mem_cons_of_mem _ he)).congr
      (by rw [hc]; exact h.rest_ne he) ha hs
  · intro hopen e he
    rw [hclosed] at hopen
    have hold := h.todo_pending hopen e (List.mem_cons_of_mem _ he)
    exact ((hmem e).mpr ⟨hold, h.rest_dump_ne hopen he⟩).1
  · intro hopen t ht hne
    rw [hclosed] at hopen
    rw [ha] at ht
    obtain ⟨e, he, rfl⟩ | hsettled := h.settled hopen t ht
    · have hd : e.dumpId ≠ entry.dumpId := by
        intro hd
        have heq : e = entry := Table.eq_of_key he (h.mem_entry hopen) hd
        exact hne (by rw [heq])
      exact Or.inl ⟨e, ((hmem e).mpr ⟨he, hd⟩).1, rfl⟩
    · exact Or.inr (hsettled.congr (by rw [hc]; exact hne.symm) hs)

omit h in
theorem mem_deletePending (e : PendingEntry) :
    e ∈ (s.deletePending entry.dumpId).pending ↔ e ∈ s.pending ∧ e.dumpId ≠ entry.dumpId := by
  show e ∈ Table.delete _ _ ↔ _
  simp

/-- An open queue deletes the item of the call. -/
theorem size_deletePending (hopen : s.closed = false) :
    (s.deletePending entry.dumpId).pending.size + 1 = s.pending.size :=
  Table.size_delete_key (h.mem_entry hopen)

/-- The call returned: the item is processed once and gone. -/
theorem succeeded : Items queue (s.succeeded entry) rest := by
  have hw := h.todo_waits entry (List.mem_cons_self ..)
  have hmem : ∀ e, e ∈ (s.succeeded entry).pending ↔ e ∈ s.pending ∧ e.dumpId ≠ entry.dumpId :=
    mem_deletePending
  obtain ⟨hpending, hrest, hin, hsettled⟩ :=
    h.others (s.succeeded entry) (c := ⟨entry.dumpId, entry.ticket, true⟩) rfl rfl rfl rfl
      (fun e => by rw [hmem, and_assoc, and_self])
  have hfailures : ∀ t, failures (s.succeeded entry).calls t = failures s.calls t :=
    fun t => failures_append_succeeded rfl
  have hself : successes (s.succeeded entry).calls entry.ticket = 1 := by
    have hone := @successes_append_self s.calls ⟨entry.dumpId, entry.ticket, true⟩ rfl
    rw [hw.successes_eq] at hone
    exact hone
  constructor
  · exact Nat.le_trans Table.size_delete_le h.size_le
  · exact fun e he => hpending e he ((hmem e).mp he).2
  · exact hrest
  · exact (List.nodup_cons.mp h.todo_nodup).2
  · exact hin
  · exact fun hclosed e he => h.closed_empty hclosed e ((hmem e).mp he).1
  · intro c hc
    obtain hc | hc := List.mem_append.mp hc
    · exact h.called c hc
    · rw [List.mem_singleton.mp hc]
      exact hw.admitted
  · intro t
    rw [hfailures]
    exact h.attempts_eq t
  · intro t
    rw [hfailures]
    refine ⟨?_, (h.bounded t).2⟩
    by_cases ht : entry.ticket = t
    · rw [← ht, hself]
    · refine Nat.le_trans (Nat.le_of_eq ?_) (h.bounded t).1
      exact successes_append_ne ht
  · intro hopen t ht
    by_cases hne : t = entry.ticket
    · refine Or.inr (Or.inl ⟨?_, ?_⟩)
      · rw [hne, hself]
      · rw [hne, hfailures]
        exact hw.failures_lt
    · exact hsettled hopen t ht hne
  · have hset : givenUp queue (s.succeeded entry) = givenUp queue s :=
      Finset.filter_congr fun t _ => by rw [hfailures]
    rw [hset]
    exact h.exhausted_eq
  · intro hopen
    have hbalance := h.balance hopen
    have hsize : (s.succeeded entry).pending.size + 1 = s.pending.size :=
      h.size_deletePending hopen
    have hcount : (s.succeeded entry).calls.countP ProcessCall.succeeded =
        s.calls.countP ProcessCall.succeeded + 1 := by
      show (s.calls ++ [_]).countP _ = _
      simp
    show s.admissions.length = _ + s.exhausted + _
    omega

/-- The call threw: the item has an attempt less, or is given up at its last. -/
theorem failed : Items queue (queue.failed s entry) rest := by
  have hw := h.todo_waits entry (List.mem_cons_self ..)
  have hattempts : (s.retried entry).attempts entry.ticket = failures s.calls entry.ticket + 1 := by
    show Function.update _ _ _ _ = _
    rw [Function.update_self, h.attempts_eq]
  have hlt := hw.failures_lt
  have hsuccesses : ∀ t, successes (s.retried entry).calls t = successes s.calls t :=
    fun t => successes_append_failed rfl
  have hself : failures (s.retried entry).calls entry.ticket =
      failures s.calls entry.ticket + 1 :=
    failures_append_self (c := ⟨entry.dumpId, entry.ticket, false⟩) rfl
  have hother : ∀ t, entry.ticket ≠ t →
      failures (s.retried entry).calls t = failures s.calls t :=
    fun t ht => failures_append_ne ht
  have hcount : (s.retried entry).calls.countP ProcessCall.succeeded =
      s.calls.countP ProcessCall.succeeded := by
    show (s.calls ++ [_]).countP _ = _
    simp
  have hcalled : ∀ c ∈ (s.retried entry).calls, s.admissions[c.ticket]? = some c.dumpId := by
    intro c hc
    obtain hc | hc := List.mem_append.mp hc
    · exact h.called c hc
    · rw [List.mem_singleton.mp hc]
      exact hw.admitted
  have heq : ∀ t, (s.retried entry).attempts t = failures (s.retried entry).calls t := by
    intro t
    by_cases ht : t = entry.ticket
    · rw [ht, hattempts, hself]
    · rw [hother t (Ne.symm ht)]
      exact (Function.update_of_ne ht _ _).trans (h.attempts_eq t)
  have hbounded : ∀ t, successes (s.retried entry).calls t ≤ 1 ∧
      failures (s.retried entry).calls t ≤ queue.maxAttempts := by
    intro t
    rw [hsuccesses]
    refine ⟨(h.bounded t).1, ?_⟩
    by_cases ht : entry.ticket = t
    · rw [← ht, hself]
      exact hlt
    · rw [hother t ht]
      exact (h.bounded t).2
  unfold PostProcessingQueue.failed
  dsimp only
  rw [hattempts]
  split
  · next hlast =>
    -- the last attempt
    have hmem : ∀ e, e ∈ ((s.retried entry).deletePending entry.dumpId).pending ↔
        e ∈ s.pending ∧ e.dumpId ≠ entry.dumpId := fun e => mem_deletePending e
    obtain ⟨hpending, hrest, hin, hsettled⟩ :=
      h.others { (s.retried entry).deletePending entry.dumpId with
          exhausted := (s.retried entry).exhausted + 1 }
        (c := ⟨entry.dumpId, entry.ticket, false⟩) rfl rfl rfl rfl
        (fun e => by rw [hmem, and_assoc, and_self])
    constructor
    · exact Nat.le_trans Table.size_delete_le h.size_le
    · exact fun e he => hpending e he ((hmem e).mp he).2
    · exact hrest
    · exact (List.nodup_cons.mp h.todo_nodup).2
    · exact hin
    · exact fun hclosed e he => h.closed_empty hclosed e ((hmem e).mp he).1
    · exact hcalled
    · exact heq
    · exact hbounded
    · intro hopen t ht
      by_cases hne : t = entry.ticket
      · refine Or.inr (Or.inr ⟨?_, ?_⟩)
        · rw [hne]
          exact (hsuccesses _).trans hw.successes_eq
        · rw [hne]
          exact hself.trans (by omega)
      · exact hsettled hopen t ht hne
    · have hset : (Finset.range s.admissions.length).filter
            (fun t => failures (s.retried entry).calls t = queue.maxAttempts) =
          insert entry.ticket (givenUp queue s) := by
        ext t
        simp only [givenUp, Finset.mem_filter, Finset.mem_range, Finset.mem_insert]
        by_cases ht : t = entry.ticket
        · have hmax : failures s.calls entry.ticket + 1 = queue.maxAttempts := by omega
          simp [ht, hself, hw.lt, hmax]
        · simp [ht, hother t (Ne.symm ht)]
      have hnot : entry.ticket ∉ givenUp queue s := by
        simp only [givenUp, Finset.mem_filter, not_and]
        intro _ hmax
        omega
      show s.exhausted + 1 = Finset.card (Finset.filter _ (Finset.range s.admissions.length))
      refine Eq.trans ?_ (congrArg Finset.card hset).symm
      rw [Finset.card_insert_of_notMem hnot, h.exhausted_eq]
    · intro hopen
      have hbalance := h.balance hopen
      have hsize : ((s.retried entry).deletePending entry.dumpId).pending.size + 1 =
          s.pending.size := h.size_deletePending hopen
      show s.admissions.length = (s.retried entry).calls.countP _ + (s.exhausted + 1) +
        ((s.retried entry).deletePending entry.dumpId).pending.size
      omega
  · next hmore =>
    -- the item stays where it is
    obtain ⟨hpending, hrest, hin, hsettled⟩ :=
      h.others (s.retried entry) (c := ⟨entry.dumpId, entry.ticket, false⟩) rfl rfl rfl rfl
        (fun e => Iff.rfl)
    have hstays : Waiting queue (s.retried entry) entry :=
      ⟨hw.admitted, (hsuccesses _).trans hw.successes_eq, by rw [hself]; omega⟩
    constructor
    · exact h.size_le
    · intro e he
      by_cases hd : e.dumpId = entry.dumpId
      · have hopen : s.closed = false := by
          by_contra hclosed
          exact h.closed_empty (Bool.eq_true_of_not_eq_false hclosed) e he
        have hentry : e = entry := Table.eq_of_key he (h.mem_entry hopen) hd
        rw [hentry]
        exact hstays
      · exact hpending e he hd
    · exact hrest
    · exact (List.nodup_cons.mp h.todo_nodup).2
    · exact hin
    · exact h.closed_empty
    · exact hcalled
    · exact heq
    · exact hbounded
    · intro hopen t ht
      by_cases hne : t = entry.ticket
      · exact Or.inl ⟨entry, h.mem_entry hopen, hne.symm⟩
      · exact hsettled hopen t ht hne
    · have hset : givenUp queue (s.retried entry) = givenUp queue s := by
        refine Finset.filter_congr fun t _ => ?_
        by_cases ht : entry.ticket = t
        · rw [← ht, hself]
          constructor
          · omega
          · omega
        · rw [hother t ht]
      rw [hset]
      exact h.exhausted_eq
    · intro hopen
      rw [hcount]
      exact h.balance hopen

end Call

end Items

end Items

/-! ## The timers -/

/-- The entries a drain still has to go over, the one of the running call first. -/
def Control.todo : Control → List PendingEntry
  | .idle => []
  | .processing entry rest => entry :: rest

/-- What holds of the timers while a drain still has the entries `todo` to go over. -/
structure Timers (queue : PostProcessingQueue) (s : State) (todo : List PendingEntry) : Prop where
  armed_eq : s.armed = (s.timer.map fun handle => ⟨handle, queue.retryDelayMs⟩).toList
  closed : s.closed = true → s.timer = none
  /-- A timer that is armed during a drain is for an item the drain does not reach. -/
  useful : s.timer ≠ none → ∃ e ∈ s.pending, e ∉ todo

/-- The invariant between two events. -/
structure Kept (queue : PostProcessingQueue) (s : State) : Prop where
  items : Items queue s s.control.todo
  timers : Timers queue s s.control.todo
  idle : s.control = .idle → s.closed = false → s.timer = none → s.pending.size = 0

section Timers

variable {queue : PostProcessingQueue} {s : State} {todo rest : List PendingEntry}
  {entry : PendingEntry}

theorem ensureTimer_control : (queue.ensureTimer s).control = s.control := by
  unfold PostProcessingQueue.ensureTimer
  split
  · rfl
  · rfl

/-- The three reasons not to arm a timer, or a timer for what is pending. -/
theorem Timers.ensureTimer (h : Timers queue s todo) (hin : ∃ e ∈ s.pending, e ∉ todo) :
    Timers queue (queue.ensureTimer s) todo := by
  unfold PostProcessingQueue.ensureTimer
  split
  · exact h
  · next hneeded =>
    obtain ⟨hopen, htimer, -⟩ : ¬ s.closed = true ∧ s.timer = none ∧ ¬ s.pending.size = 0 := by
      simpa using hneeded
    refine ⟨?_, fun hclosed => absurd hclosed hopen, fun _ => hin⟩
    rw [h.armed_eq, htimer]
    rfl

theorem ensureTimer_idle (hopen : (queue.ensureTimer s).closed = false)
    (htimer : (queue.ensureTimer s).timer = none) : (queue.ensureTimer s).pending.size = 0 := by
  unfold PostProcessingQueue.ensureTimer at *
  split at htimer
  · next hidle =>
    rw [if_pos hidle] at hopen ⊢
    obtain hclosed | hsome | hsize := hidle
    · exact absurd (hclosed.symm.trans hopen) (by simp)
    · exact absurd htimer hsome
    · exact hsize
  · cases htimer

/-- The loop goes on with what is left of the snapshot, or the drain is over. -/
theorem Kept.advance (hitems : Items queue s todo) (htimers : Timers queue s todo) :
    Kept queue (queue.advance s todo) := by
  cases todo with
  | nil =>
    have hcontrol : (queue.advance s []).control = .idle := ensureTimer_control
    have hset : Items queue { s with control := .idle } [] :=
      hitems.congr rfl rfl rfl rfl rfl rfl
    refine ⟨?_, ?_, fun _ => ensureTimer_idle⟩
    · rw [hcontrol]
      exact hset.ensureTimer
    · rw [hcontrol]
      by_cases hsize : s.pending.size = 0
      · have : queue.advance s [] = { s with control := .idle } := if_pos (Or.inr (Or.inr hsize))
        rw [this]
        exact ⟨htimers.armed_eq, htimers.closed, htimers.useful⟩
      · obtain ⟨e, he⟩ := Table.size_pos.mp (Nat.pos_of_ne_zero hsize)
        exact Timers.ensureTimer ⟨htimers.armed_eq, htimers.closed, htimers.useful⟩
          ⟨e, he, List.not_mem_nil⟩
  | cons entry rest =>
    exact ⟨hitems.congr rfl rfl rfl rfl rfl rfl,
      ⟨htimers.armed_eq, htimers.closed, htimers.useful⟩, fun hidle => Control.noConfusion hidle⟩

/-- A call of `process` takes at most its own item from what is pending. -/
theorem Timers.call {s' : State} (hitems : Items queue s (entry :: rest))
    (h : Timers queue s (entry :: rest)) (harmed : s'.armed = s.armed)
    (htimer : s'.timer = s.timer) (hclosed : s'.closed = s.closed)
    (hmem : ∀ e ∈ s.pending, e.dumpId ≠ entry.dumpId → e ∈ s'.pending) :
    Timers queue s' rest := by
  refine ⟨by rw [harmed, htimer, h.armed_eq], ?_, ?_⟩
  · rw [hclosed, htimer]
    exact h.closed
  · rw [htimer]
    intro hsome
    have hopen : s.closed = false := by
      by_contra hc
      exact hsome (h.closed (Bool.eq_true_of_not_eq_false hc))
    obtain ⟨e, he, hnot⟩ := h.useful hsome
    rw [List.mem_cons, not_or] at hnot
    refine ⟨e, hmem e he fun hd => hnot.1 ?_, hnot.2⟩
    exact Table.eq_of_key he (hitems.mem_entry hopen) hd

/-! ## One event -/

namespace Kept

variable (h : Kept queue s)

theorem initial : Kept queue State.initial :=
  ⟨Items.initial, ⟨rfl, fun _ => rfl, fun hsome => absurd rfl hsome⟩, fun _ _ _ => rfl⟩

include h

theorem enqueue (dumpId : String) : Kept queue (queue.enqueue dumpId s).2 := by
  unfold PostProcessingQueue.enqueue
  split
  · exact h
  · next hclosed =>
    have hopen : s.closed = false := Bool.eq_false_of_not_eq_true hclosed
    split
    · next hfree =>
      split
      · exact h
      · next hroom =>
        have hitems := h.items.admitted hopen hfree (Nat.lt_of_not_le hroom)
        have hold : ∀ e ∈ s.pending, e ∈ (s.admitted dumpId hfree).pending :=
          fun e he => (Items.mem_admitted hfree e).mpr (Or.inl he)
        have hnew : ∃ e ∈ (s.admitted dumpId hfree).pending, e ∉ s.control.todo := by
          refine ⟨_, Table.mem_insert_self hfree, fun hin => ?_⟩
          exact Nat.lt_irrefl _ (h.items.todo_waits _ hin).lt
        have htimers : Timers queue (s.admitted dumpId hfree) s.control.todo := by
          refine ⟨h.timers.armed_eq, h.timers.closed, fun hsome => ?_⟩
          obtain ⟨e, he, hnot⟩ := h.timers.useful hsome
          exact ⟨e, hold e he, hnot⟩
        have hcontrol : (queue.ensureTimer (s.admitted dumpId hfree)).control = s.control :=
          ensureTimer_control
        refine ⟨?_, ?_, fun _ => ensureTimer_idle⟩
        · rw [hcontrol]
          exact hitems.ensureTimer
        · rw [hcontrol]
          exact htimers.ensureTimer hnew
    · exact h

theorem close : Kept queue s.close := by
  have hcontrol : s.close.control = s.control := by
    unfold State.close
    split
    · rfl
    · rfl
  have hitems := h.items.close
  rw [← hcontrol] at hitems
  refine ⟨hitems, ?_, ?_⟩
  · rw [hcontrol]
    unfold State.close
    split
    · exact h.timers
    · refine ⟨?_, fun _ => rfl, fun hsome => absurd rfl hsome⟩
      -- the only timer is the one that is cancelled
      show s.armed.filter _ = []
      rw [h.timers.armed_eq]
      cases s.timer with
      | none => rfl
      | some handle => simp
  · intro _ hopen
    unfold State.close at hopen
    split at hopen
    · next hclosed => exact absurd (hclosed.symm.trans hopen) (by simp)
    · cases hopen

/-- A timer that fires while the queue is idle starts a drain over all that is pending. -/
theorem fire {handle : Nat} (harmed : handle ∈ s.armed.map ArmedTimer.handle) :
    Kept queue (queue.fire handle s) := by
  rw [h.timers.armed_eq] at harmed
  cases htimer : s.timer with
  | none =>
    rw [htimer] at harmed
    cases harmed
  | some current =>
    rw [htimer] at harmed
    obtain rfl : handle = current := by simpa using harmed
    have hopen : s.closed = false := by
      by_contra hc
      rw [h.timers.closed (Bool.eq_true_of_not_eq_false hc)] at htimer
      cases htimer
    unfold PostProcessingQueue.fire PostProcessingQueue.drainOnce
    rw [if_neg (by simp [hopen])]
    refine Kept.advance (h.items.snapshot.congr rfl rfl rfl rfl rfl rfl) ⟨?_, fun _ => rfl, ?_⟩
    · show s.armed.filter _ = []
      rw [h.timers.armed_eq, htimer]
      simp
    · exact fun hsome => absurd rfl hsome

theorem step (event : Event) : Kept queue (queue.step s event) := by
  cases event with
  | enqueue dumpId => exact h.enqueue dumpId
  | close => exact h.close
  | fire handle =>
    cases hcontrol : s.control with
    | idle =>
      simp only [PostProcessingQueue.step, hcontrol]
      split
      · next harmed => exact h.fire harmed
      · exact h
    | processing entry rest =>
      simp only [PostProcessingQueue.step, hcontrol]
      exact h
  | succeed =>
    cases hcontrol : s.control with
    | idle =>
      simp only [PostProcessingQueue.step, hcontrol]
      exact h
    | processing entry rest =>
      simp only [PostProcessingQueue.step, hcontrol]
      have hitems := h.items
      have htimers := h.timers
      rw [hcontrol] at hitems htimers
      refine Kept.advance hitems.succeeded (htimers.call hitems rfl rfl rfl ?_)
      exact fun e he hd => (Items.mem_deletePending e).mpr ⟨he, hd⟩
  | fail =>
    cases hcontrol : s.control with
    | idle =>
      simp only [PostProcessingQueue.step, hcontrol]
      exact h
    | processing entry rest =>
      simp only [PostProcessingQueue.step, hcontrol]
      have hitems := h.items
      have htimers := h.timers
      rw [hcontrol] at hitems htimers
      refine Kept.advance hitems.failed ?_
      unfold PostProcessingQueue.failed
      dsimp only
      split
      · refine htimers.call hitems rfl rfl rfl ?_
        exact fun e he hd => (Items.mem_deletePending e).mpr ⟨he, hd⟩
      · exact htimers.call hitems rfl rfl rfl fun e he _ => he

end Kept

end Timers

/-- **The invariant holds in every run.** -/
theorem kept_after (queue : PostProcessingQueue) (events : List Event) :
    Kept queue (queue.after events) :=
  invariant_run (fun _ event h => h.step event) Kept.initial

/-- One dump is processed, one is given up after two drains, one arrives while `process` runs. -/
example :
    let queue : PostProcessingQueue := ⟨2, 2, 5000, by norm_num⟩
    let s := queue.after
      [.enqueue "a", .enqueue "b", .enqueue "c", .fire 0, .succeed, .fail,
        .fire 1, .enqueue "d", .fail]
    s.admissions = ["a", "b", "d"] ∧ s.exhausted = 1 ∧ s.pending.rows = [⟨"d", 2⟩] ∧
      s.control = .idle ∧ s.timer = some 2 := by
  decide +kernel

end DumpLedger.PostProcessingQueue
