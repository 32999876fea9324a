import DumpLedger.Auth.RateLimiter

/-!
# The rate limiter bounds every client

* `size_take_le` — never more than `maxKeys` entries
* `attemptsOf_eq_windowRun` — a key that is not evicted is answered as by its own windows
* `not_evicts` — nothing is evicted while there is room for every open window
* `limiter_bounds` — the bounds in a window and in an interval, and noninterference
-/

namespace DumpLedger.FixedWindowRateLimiter

open Lib

variable {limiter : FixedWindowRateLimiter} {entries : Table WindowEntry} {entry : WindowEntry}
  {t : Take} {key : String} {now : ℚ}

/-! ## The operations of the map -/

theorem find?_set (k : String) :
    (set entries entry).find? k = if entry.client = k then some entry else entries.find? k := by
  unfold set
  split
  · next h => exact Table.find?_insert
  · next h =>
    rw [Table.find?_updateKey]
    by_cases hk : entry.client = k
    · subst hk
      obtain ⟨old, hold⟩ := Option.ne_none_iff_exists'.mp h
      have hclient : old.client = entry.client := Table.key_of_find? hold
      rw [if_pos rfl, if_pos rfl, hold, Option.map_some, hclient]
    · rw [if_neg hk, if_neg hk]

theorem size_set_of_some (h : entries.find? entry.client ≠ none) :
    (set entries entry).size = entries.size := by
  rw [set, dif_neg h, Table.size_updateKey]

theorem size_set_le : (set entries entry).size ≤ entries.size + 1 := by
  unfold set
  split
  · rw [Table.size_insert]
  · rw [Table.size_updateKey]
    exact Nat.le_succ _

theorem find?_prune (k : String) :
    (limiter.prune now entries).find? k =
      (entries.find? k).filter fun e => decide (now - e.startedAt < limiter.windowMs) := by
  rw [prune, Table.find?_delete]
  congr 1
  funext e
  simp [← not_lt]

/-- The loop finds an entry of the list, once it has one or the list has one. -/
theorem oldest_mem {found : Option WindowEntry} {rows : List WindowEntry} {e : WindowEntry}
    (h : oldest found rows = some e) : found = some e ∨ e ∈ rows := by
  induction rows generalizing found with
  | nil => exact Or.inl h
  | cons first rest ih =>
    cases found with
    | none =>
      obtain heq | hin := ih h
      · exact Or.inr (by simp [Option.some.inj heq])
      · exact Or.inr (List.mem_cons_of_mem _ hin)
    | some current =>
      obtain heq | hin := ih h
      · split at heq
        · exact Or.inr (by simp [Option.some.inj heq])
        · exact Or.inl heq
      · exact Or.inr (List.mem_cons_of_mem _ hin)

theorem oldest_isSome {found : Option WindowEntry} {rows : List WindowEntry}
    (h : found ≠ none ∨ rows ≠ []) : oldest found rows ≠ none := by
  induction rows generalizing found with
  | nil => exact h.resolve_right (by simp)
  | cons first rest ih =>
    cases found with
    | none => exact ih (Or.inl (by simp))
    | some current =>
      refine ih (Or.inl ?_)
      split
      · simp
      · simp

/-- Something is evicted from a map that is not empty. -/
theorem size_evictOldest (h : 0 < entries.size) : (evictOldest entries).size + 1 = entries.size := by
  have hsome : oldest none entries.rows ≠ none :=
    oldest_isSome (Or.inr (List.ne_nil_of_length_pos h))
  obtain ⟨e, he⟩ := Option.ne_none_iff_exists'.mp hsome
  unfold evictOldest
  rw [he]
  exact Table.size_delete_key ((oldest_mem he).resolve_left (by simp))

/-- An eviction takes an entry away or leaves it as it is. -/
theorem find?_evictOldest (entries : Table WindowEntry) (k : String) :
    (evictOldest entries).find? k = entries.find? k ∨ (evictOldest entries).find? k = none := by
  unfold evictOldest
  split
  · exact Or.inl rfl
  · rw [Table.find?_delete]
    cases entries.find? k with
    | none => exact Or.inl rfl
    | some e =>
      rw [Option.filter_some]
      split
      · exact Or.inl rfl
      · exact Or.inr rfl

/-! ## One call -/

/-- The window of an entry. -/
def windowOf (entry : WindowEntry) : Window ℚ := ⟨entry.startedAt, entry.attempts⟩

/-- What the pruning leaves of a key: its window, if that is open. -/
theorem map_find?_prune (k : String) :
    ((limiter.prune now entries).find? k).map windowOf =
      ((entries.find? k).map windowOf).filter fun w => decide (w.Live limiter.windowMs now) := by
  rw [find?_prune]
  cases entries.find? k with
  | none => rfl
  | some e =>
    rw [Option.map_some, Option.filter_some, Option.filter_some]
    by_cases hlive : (windowOf e).Live limiter.windowMs now
    · have hlt : now - e.startedAt < limiter.windowMs := hlive
      rw [if_pos (decide_eq_true hlt), if_pos (decide_eq_true hlive)]
      rfl
    · have hge : ¬ now - e.startedAt < limiter.windowMs := hlive
      rw [if_neg (by simpa using hge), if_neg (by simpa using hlive)]
      rfl

/-- The map a call sets the entry in: the pruned one, or with an entry less if the key is new
and there is no room. -/
inductive Room (limiter : FixedWindowRateLimiter) (key : String) (pruned : Table WindowEntry) :
    Table WindowEntry → Prop
  | known (h : pruned.find? key ≠ none) : Room limiter key pruned pruned
  | fits (h : pruned.find? key = none) (hroom : pruned.size < limiter.maxKeys) :
      Room limiter key pruned pruned
  | full (h : pruned.find? key = none) (hfull : limiter.maxKeys ≤ pruned.size) :
      Room limiter key pruned (evictOldest pruned)

/-- The window a call of `take` finds for its key. -/
def openWindow (limiter : FixedWindowRateLimiter) (entries : Table WindowEntry) (t : Take) :
    Option (Window ℚ) :=
  ((limiter.prune t.now entries).find? t.key).map windowOf

/-- **What a call does**: it makes room, answers as the key's window does and sets the entry. -/
theorem take_eq (limiter : FixedWindowRateLimiter) (entries : Table WindowEntry) (t : Take) :
    ∃ base entry, Room limiter t.key (limiter.prune t.now entries) base ∧ entry.client = t.key ∧
      windowOf entry = (windowTake limiter.limit limiter.windowMs t.now
        (limiter.openWindow entries t)).2 ∧
      limiter.take t.key t.now entries = ((windowTake limiter.limit limiter.windowMs t.now
        (limiter.openWindow entries t)).1.admitted, set base entry) := by
  unfold take openWindow
  dsimp only
  cases hfound : (limiter.prune t.now entries).find? t.key with
  | some current =>
    have hclient : current.client = t.key := Table.key_of_find? hfound
    -- what the pruning left is open
    have hlive : t.now - current.startedAt < limiter.windowMs := by
      rw [find?_prune, Option.filter_eq_some_iff] at hfound
      simpa using hfound.2
    have hwindow : windowTake limiter.limit limiter.windowMs t.now (some (windowOf current)) =
        (⟨t.now, current.startedAt, decide (current.attempts < limiter.limit)⟩,
          ⟨current.startedAt, current.attempts + 1⟩) :=
      windowTake_live (w := windowOf current) hlive
    refine ⟨_, { current with attempts := current.attempts + 1, lastSeenAt := t.now },
      Room.known (by simp [hfound]), hclient, ?_, ?_⟩
    · rw [Option.map_some, hwindow]
      rfl
    · simp only [if_pos hlive, Option.map_some, hwindow]
  | none =>
    by_cases hfull : limiter.maxKeys ≤ (limiter.prune t.now entries).size
    · refine ⟨_, ⟨t.key, t.now, 1, t.now⟩, Room.full hfound hfull, rfl, rfl, ?_⟩
      rw [if_pos hfull]
      rfl
    · refine ⟨_, ⟨t.key, t.now, 1, t.now⟩, Room.fits hfound (Nat.lt_of_not_le hfull), rfl, rfl, ?_⟩
      rw [if_neg hfull]
      rfl

/-- **The limiter holds at most `maxKeys` keys.** -/
theorem size_step_le (h : entries.size ≤ limiter.maxKeys) :
    (limiter.step entries t).size ≤ limiter.maxKeys := by
  have hprune : (limiter.prune t.now entries).size ≤ limiter.maxKeys :=
    le_trans Table.size_delete_le h
  obtain ⟨base, entry, hroom, hclient, -, htake⟩ := take_eq limiter entries t
  rw [step, htake]
  cases hroom with
  | known hknown =>
    rw [size_set_of_some (by rw [hclient]; exact hknown)]
    exact hprune
  | fits hnew hroom => exact le_trans size_set_le hroom
  | full hnew hfull =>
    have hsize := size_evictOldest (lt_of_lt_of_le limiter.maxKeys.pos hfull)
    refine le_trans size_set_le ?_
    omega

/-- A call leaves the window of its own key open. -/
theorem find?_step_self (limiter : FixedWindowRateLimiter) (entries : Table WindowEntry)
    (t : Take) :
    ((limiter.step entries t).find? t.key).map windowOf =
      some (windowTake limiter.limit limiter.windowMs t.now (limiter.openWindow entries t)).2 := by
  obtain ⟨base, entry, -, hclient, hwindow, htake⟩ := take_eq limiter entries t
  rw [step, htake, find?_set, if_pos hclient, Option.map_some, hwindow]

theorem not_evicts_self : ¬ limiter.Evicts t.key entries t := by
  rintro ⟨-, hnone⟩
  have hself := find?_step_self limiter entries t
  rw [Table.contains_eq_false.mp hnone] at hself
  cases hself

/-- What a call for another key does to an entry: it prunes it, and evicts it or not. -/
theorem find?_step_other (hk : t.key ≠ key) (h : ¬ limiter.Evicts key entries t) :
    (limiter.step entries t).find? key = (limiter.prune t.now entries).find? key := by
  obtain ⟨base, entry, hroom, hclient, -, htake⟩ := take_eq limiter entries t
  have hset : (limiter.step entries t).find? key = base.find? key := by
    rw [step, htake, find?_set, if_neg (by rw [hclient]; exact hk)]
  cases hroom with
  | known => exact hset
  | fits => exact hset
  | full hnew hfull =>
    rw [hset]
    obtain heq | hnone := find?_evictOldest (limiter.prune t.now entries) key
    · exact heq
    · rw [hnone]
      by_contra hthere
      refine h ⟨?_, ?_⟩
      · exact Option.isSome_iff_ne_none.mpr (Ne.symm hthere)
      · rw [Table.contains_eq_false, hset, hnone]

/-- Where there is room for every key nothing is evicted. -/
theorem not_evicts_of_room
    (h : (limiter.prune t.now entries).find? t.key = none →
      (limiter.prune t.now entries).size < limiter.maxKeys) : ¬ limiter.Evicts key entries t := by
  rintro ⟨hthere, hgone⟩
  obtain ⟨base, entry, hroom, -, -, htake⟩ := take_eq limiter entries t
  have hbase : base = limiter.prune t.now entries := by
    cases hroom with
    | known => rfl
    | fits => rfl
    | full hnew hfull => exact absurd (h hnew) (Nat.not_lt.mpr hfull)
  rw [Table.contains_eq_false, step, htake, find?_set, hbase] at hgone
  split at hgone
  · cases hgone
  · rw [← Table.contains_eq_false, hthere] at hgone
    cases hgone

/-- The attempt of a call is the one of its window. -/
theorem attempt_eq (limiter : FixedWindowRateLimiter) (entries : Table WindowEntry) (t : Take) :
    limiter.attempt entries t =
      (windowTake limiter.limit limiter.windowMs t.now (limiter.openWindow entries t)).1 := by
  obtain ⟨base, entry, -, -, -, htake⟩ := take_eq limiter entries t
  have hself := find?_step_self limiter entries t
  obtain ⟨e, he, hwindow⟩ := Option.map_eq_some_iff.mp hself
  have hstarted : e.startedAt = (windowTake limiter.limit limiter.windowMs t.now
      (limiter.openWindow entries t)).2.startedAt := by
    rw [← hwindow]
    rfl
  unfold attempt
  rw [he, Option.map_some, Option.getD_some, hstarted, windowTake_startedAt, htake]
  rw [Attempt.mk.injEq]
  exact ⟨windowTake_now.symm, rfl, rfl⟩

/-! ## The windows of a key -/

/-- The map has the window of the key, or has dropped it because it is over. -/
structure Tracks (limiter : FixedWindowRateLimiter) (key : String) (now : ℚ)
    (entries : Table WindowEntry) (o : Option (Window ℚ)) : Prop where
  present : ∀ e, entries.find? key = some e → o = some (windowOf e)
  absent : entries.find? key = none → ∀ w ∈ o, ¬ w.Live limiter.windowMs now

theorem Tracks.empty : Tracks limiter key now Table.empty none := by
  constructor
  · intro e he
    cases he
  · intro _ w hw
    cases hw

theorem not_live_later {w : Window ℚ} {later : ℚ} (hle : now ≤ later)
    (h : ¬ w.Live limiter.windowMs now) : ¬ w.Live limiter.windowMs later := by
  intro hlive
  have hlt : later - w.startedAt < limiter.windowMs := hlive
  exact h (show now - w.startedAt < limiter.windowMs by linarith)

/-- After the pruning a window is in the map exactly if it is open. -/
theorem Tracks.prune {o : Option (Window ℚ)} (h : Tracks limiter key now entries o) {later : ℚ}
    (hle : now ≤ later) :
    ((limiter.prune later entries).find? key).map windowOf =
      o.filter fun w => decide (w.Live limiter.windowMs later) := by
  rw [map_find?_prune]
  cases hfound : entries.find? key with
  | some e => rw [h.present e hfound, Option.map_some]
  | none =>
    cases o with
    | none => rfl
    | some w =>
      have hover := not_live_later hle (h.absent hfound w rfl)
      rw [Option.filter_some, if_neg (by simpa using hover)]
      rfl

/-- A window that is over counts as none. -/
theorem windowTake_filter {limit : Nat} {length : ℚ} {o : Option (Window ℚ)} :
    windowTake limit length now (o.filter fun w => decide (w.Live length now)) =
      windowTake limit length now o := by
  cases o with
  | none => rfl
  | some w =>
    rw [Option.filter_some]
    by_cases hlive : w.Live length now
    · rw [if_pos (decide_eq_true hlive)]
    · rw [if_neg (by simpa using hlive)]
      exact (windowTake_opens fun w' hw' => Option.some.inj hw' ▸ hlive).symm

/-- A call for the key itself is the call of its windows. -/
theorem Tracks.self {o : Option (Window ℚ)} (h : Tracks limiter t.key now entries o)
    (hle : now ≤ t.now) :
    limiter.attempt entries t = (windowTake limiter.limit limiter.windowMs t.now o).1 ∧
      Tracks limiter t.key t.now (limiter.step entries t)
        (some (windowTake limiter.limit limiter.windowMs t.now o).2) := by
  have hopen : windowTake limiter.limit limiter.windowMs t.now (limiter.openWindow entries t) =
      windowTake limiter.limit limiter.windowMs t.now o := by
    rw [openWindow, h.prune hle, windowTake_filter]
  refine ⟨by rw [attempt_eq, hopen], ?_⟩
  have hself := find?_step_self limiter entries t
  rw [hopen] at hself
  constructor
  · intro e he
    rw [he] at hself
    exact hself.symm
  · intro hnone
    rw [hnone] at hself
    cases hself

/-- A call for another key leaves the windows of this one. -/
theorem Tracks.other {o : Option (Window ℚ)} (h : Tracks limiter key now entries o)
    (hle : now ≤ t.now) (hk : t.key ≠ key) (hkept : ¬ limiter.Evicts key entries t) :
    Tracks limiter key t.now (limiter.step entries t) o := by
  have hprune := h.prune hle
  rw [← find?_step_other hk hkept] at hprune
  constructor
  · intro e he
    rw [he, Option.map_some] at hprune
    have hsome := hprune.symm
    rw [Option.filter_eq_some_iff] at hsome
    exact hsome.1
  · intro hnone w hw
    rw [hnone, Option.mem_def.mp hw, Option.filter_some] at hprune
    intro hlive
    rw [if_pos (decide_eq_true hlive)] at hprune
    cases hprune

/-! ## Runs -/

/-- The times of the calls for a key. -/
def timesOf (key : String) (takes : List Take) : List ℚ :=
  (takes.filter fun t => t.key = key).map Take.now

theorem timesOf_cons_self (rest : List Take) :
    timesOf t.key (t :: rest) = t.now :: timesOf t.key rest := by
  simp [timesOf]

theorem timesOf_cons_ne (rest : List Take) (h : t.key ≠ key) :
    timesOf key (t :: rest) = timesOf key rest := by
  simp [timesOf, h]

/-- **While it is not evicted a key is answered as by its own windows.** -/
theorem attemptsOf_eq_windowRun {o : Option (Window ℚ)} {takes : List Take}
    (h : Tracks limiter key now entries o) (hclock : (now :: takes.map Take.now).Pairwise (· ≤ ·))
    (hkept : Along limiter.step (fun entries t => ¬ limiter.Evicts key entries t) entries takes) :
    limiter.attemptsOf key entries takes =
      windowRun limiter.limit limiter.windowMs o (timesOf key takes) := by
  induction takes generalizing now entries o with
  | nil => rfl
  | cons t rest ih =>
    rw [List.map_cons, List.pairwise_cons] at hclock
    have hle : now ≤ t.now := hclock.1 t.now (List.mem_cons_self ..)
    by_cases hk : t.key = key
    · subst hk
      obtain ⟨hattempt, hnext⟩ := h.self hle
      rw [attemptsOf, if_pos rfl, timesOf_cons_self, windowRun, hattempt,
        ih hnext hclock.2 hkept.2]
    · rw [attemptsOf, if_neg hk, timesOf_cons_ne rest hk,
        ih (h.other hle hk hkept.1) hclock.2 hkept.2]

/-- A key that is used alone has its windows in the map. -/
theorem attemptsOf_alone {o : Option (Window ℚ)} {takes : List Take}
    (h : (entries.find? key).map windowOf = o) (hkey : ∀ t ∈ takes, t.key = key) :
    limiter.attemptsOf key entries takes =
        windowRun limiter.limit limiter.windowMs o (takes.map Take.now) ∧
      ((run limiter.step entries takes).find? key).map windowOf =
        windowAfter limiter.limit limiter.windowMs o (takes.map Take.now) := by
  induction takes generalizing entries o with
  | nil => exact ⟨rfl, h⟩
  | cons t rest ih =>
    obtain rfl : t.key = key := hkey t (List.mem_cons_self ..)
    have hopen : windowTake limiter.limit limiter.windowMs t.now (limiter.openWindow entries t) =
        windowTake limiter.limit limiter.windowMs t.now o := by
      rw [openWindow, map_find?_prune, windowTake_filter, h]
    have hself := find?_step_self limiter entries t
    rw [hopen] at hself
    obtain ⟨hrun, hafter⟩ := ih hself fun t' ht' => hkey t' (List.mem_cons_of_mem _ ht')
    refine ⟨?_, hafter⟩
    rw [attemptsOf, if_pos rfl, attempt_eq, hopen, hrun]
    rfl

/-- No window begins in the future. -/
def Started (now : ℚ) (entries : Table WindowEntry) : Prop :=
  ∀ k e, entries.find? k = some e → e.startedAt ≤ now

theorem Started.step (h : Started now entries) (hle : now ≤ t.now) :
    Started t.now (limiter.step entries t) := by
  have hprune : ∀ k e, (limiter.prune t.now entries).find? k = some e → e.startedAt ≤ t.now := by
    intro k e he
    rw [find?_prune, Option.filter_eq_some_iff] at he
    exact le_trans (h k e he.1) hle
  intro k e he
  by_cases hk : t.key = k
  · subst hk
    have hself := find?_step_self limiter entries t
    rw [he, Option.map_some, Option.some.injEq] at hself
    have hstart : e.startedAt = (windowTake limiter.limit limiter.windowMs t.now
        (limiter.openWindow entries t)).1.startedAt := by
      rw [← windowTake_startedAt, ← hself]
      rfl
    rw [hstart]
    refine (windowTake_within limiter.limit limiter.windowMs_pos ?_).1
    intro w hw
    obtain ⟨e', he', rfl⟩ := Option.map_eq_some_iff.mp (Option.mem_def.mp hw)
    exact hprune t.key e' he'
  · by_cases hevicts : limiter.Evicts k entries t
    · have hgone := Table.contains_eq_false.mp hevicts.2
      rw [hgone] at he
      cases he
    · rw [find?_step_other hk hevicts] at he
      exact hprune k e he

theorem Started.run {takes : List Take} (h : Started now entries)
    (hclock : (now :: takes.map Take.now).Pairwise (· ≤ ·)) {later : ℚ}
    (hlater : ∀ t ∈ takes, t.now ≤ later) (hnow : now ≤ later) :
    Started later (Lib.run limiter.step entries takes) := by
  induction takes generalizing now entries with
  | nil => exact fun k e he => le_trans (h k e he) hnow
  | cons t rest ih =>
    rw [List.map_cons, List.pairwise_cons] at hclock
    exact ih (h.step (hclock.1 t.now (List.mem_cons_self ..))) hclock.2
      (fun t' ht' => hlater t' (List.mem_cons_of_mem _ ht')) (hlater t (List.mem_cons_self ..))

/-! ## Room for every open window -/

/-- The windows of a key, from its own calls. -/
def ownWindow (limiter : FixedWindowRateLimiter) (key : String) (takes : List Take) :
    Option (Window ℚ) :=
  windowAfter limiter.limit limiter.windowMs none (timesOf key takes)

theorem mem_liveKeys {takes : List Take} :
    key ∈ limiter.liveKeys takes now ↔
      key ∈ takes.map Take.key ∧ ∃ w ∈ limiter.ownWindow key takes,
        w.Live limiter.windowMs now := by
  have halone : ((limiter.after (takes.filter fun t => t.key = key)).find? key).map windowOf =
      limiter.ownWindow key takes :=
    (attemptsOf_alone rfl (by simp)).2
  rw [liveKeys, Finset.mem_filter, List.mem_toFinset, ← halone]
  refine and_congr_right fun _ => ?_
  constructor
  · rintro ⟨e, he, hlive⟩
    exact ⟨windowOf e, by rw [Option.mem_def.mp he]; rfl, hlive⟩
  · rintro ⟨w, hw, hlive⟩
    obtain ⟨e, he, rfl⟩ := Option.map_eq_some_iff.mp (Option.mem_def.mp hw)
    exact ⟨e, he, hlive⟩

theorem liveKeys_subset {past : List Take} (rest : List Take) :
    limiter.liveKeys (past ++ [t]) now ⊆ ((past ++ t :: rest).map Take.key).toFinset := by
  intro k hk
  have hin := (mem_liveKeys.mp hk).1
  rw [List.mem_toFinset]
  simp only [List.map_append, List.mem_append, List.map_cons, List.mem_cons] at hin ⊢
  obtain hin | rfl | hin := hin
  · exact Or.inl hin
  · exact Or.inr (Or.inl rfl)
  · cases hin

theorem ownWindow_append_self (takes : List Take) :
    limiter.ownWindow t.key (takes ++ [t]) =
      some (windowTake limiter.limit limiter.windowMs t.now (limiter.ownWindow t.key takes)).2 := by
  simp [ownWindow, timesOf, windowAfter]

theorem ownWindow_append_ne (takes : List Take) (h : t.key ≠ key) :
    limiter.ownWindow key (takes ++ [t]) = limiter.ownWindow key takes := by
  simp [ownWindow, timesOf, h]

/-- A key with a window was used. -/
theorem mem_of_ownWindow {takes : List Take} {w : Window ℚ}
    (h : limiter.ownWindow key takes = some w) : key ∈ takes.map Take.key := by
  by_contra hnot
  have hnone : timesOf key takes = [] := by
    rw [timesOf, List.map_eq_nil_iff, List.filter_eq_nil_iff]
    intro t ht hk
    exact hnot (List.mem_map.mpr ⟨t, ht, by simpa using hk⟩)
  rw [ownWindow, hnone] at h
  cases h

/-- The window of a call is open. -/
theorem live_windowTake {limit : Nat} {length : ℚ} (hlength : 0 < length)
    {o : Option (Window ℚ)} : (windowTake limit length now o).2.Live length now := by
  by_cases h : ∃ w ∈ o, w.Live length now
  · obtain ⟨w, rfl, hlive⟩ := h
    rw [windowTake_live hlive]
    exact hlive
  · rw [windowTake_opens (by simpa using h)]
    show now - now < length
    rw [sub_self]
    exact hlength

/-- **Where there is room for every open window nothing is evicted.** -/
theorem not_evicts_along (past : List Take) {recent : List Take}
    (hclock : (now :: recent.map Take.now).Pairwise (· ≤ ·))
    (htracks : ∀ k, Tracks limiter k now entries (limiter.ownWindow k past))
    (hroom : ∀ before t after, recent = before ++ t :: after →
      (limiter.liveKeys (past ++ before ++ [t]) t.now).card ≤ limiter.maxKeys) :
    ∀ key, Along limiter.step (fun entries t => ¬ limiter.Evicts key entries t) entries recent := by
  induction recent generalizing now entries past with
  | nil => exact fun _ => trivial
  | cons t rest ih =>
    rw [List.map_cons, List.pairwise_cons] at hclock
    have hle : now ≤ t.now := hclock.1 t.now (List.mem_cons_self ..)
    have hkept : ∀ key, ¬ limiter.Evicts key entries t := by
      intro key
      refine not_evicts_of_room fun hnew => ?_
      -- the entries that are left are open windows of other keys
      have hlive : insert t.key ((limiter.prune t.now entries).rows.map WindowEntry.client).toFinset ⊆
          limiter.liveKeys (past ++ [] ++ [t]) t.now := by
        intro k hk
        rw [List.append_nil, mem_liveKeys]
        obtain rfl | hk := Finset.mem_insert.mp hk
        · exact ⟨by simp, _, ownWindow_append_self past, live_windowTake limiter.windowMs_pos⟩
        · obtain ⟨e, he, rfl⟩ := List.mem_map.mp (List.mem_toFinset.mp hk)
          have hfind : (limiter.prune t.now entries).find? e.client = some e := Table.find?_key he
          have hne : t.key ≠ e.client := by
            intro heq
            rw [← heq, hnew] at hfind
            cases hfind
          have hwindow := (htracks e.client).prune hle
          rw [hfind, Option.map_some] at hwindow
          obtain ⟨hown, hopen⟩ := Option.filter_eq_some_iff.mp hwindow.symm
          rw [ownWindow_append_ne past hne, List.map_append, List.mem_append]
          exact ⟨Or.inl (mem_of_ownWindow hown), _, hown, of_decide_eq_true hopen⟩
      have hnot : t.key ∉ ((limiter.prune t.now entries).rows.map WindowEntry.client).toFinset := by
        rw [List.mem_toFinset, List.mem_map]
        rintro ⟨e, he, hk⟩
        exact Table.find?_eq_none.mp hnew e he hk
      have hsize : ((limiter.prune t.now entries).rows.map WindowEntry.client).toFinset.card =
          (limiter.prune t.now entries).size :=
        (List.toFinset_card_of_nodup (limiter.prune t.now entries).keys_nodup).trans
          (List.length_map ..)
      have hcard := (Finset.card_le_card hlive).trans (hroom [] t rest rfl)
      rw [Finset.card_insert_of_notMem hnot, hsize] at hcard
      exact hcard
    have hnext : ∀ k, Tracks limiter k t.now (limiter.step entries t)
        (limiter.ownWindow k (past ++ [t])) := by
      intro k
      by_cases hk : t.key = k
      · subst hk
        rw [ownWindow_append_self]
        exact ((htracks t.key).self hle).2
      · rw [ownWindow_append_ne past hk]
        exact (htracks k).other hle hk (hkept k)
    intro key
    refine ⟨hkept key, ih (past ++ [t]) hclock.2 hnext (fun before t' after heq => ?_) key⟩
    rw [List.append_assoc past [t] before]
    exact hroom (t :: before) t' after (by rw [heq]; rfl)

theorem size_after_le (limiter : FixedWindowRateLimiter) (takes : List Take) :
    (limiter.after takes).size ≤ limiter.maxKeys :=
  invariant_run (I := fun entries : Table WindowEntry => entries.size ≤ limiter.maxKeys)
    (fun _ _ h => size_step_le h) (Nat.zero_le _)

theorem started_after {takes : List Take} (hclock : (takes.map Take.now).Pairwise (· ≤ ·))
    (hnow : ∀ t ∈ takes, t.now ≤ now) : Started now (limiter.after takes) := by
  cases takes with
  | nil =>
    intro k e he
    cases he
  | cons t rest =>
    have hempty : Started t.now Table.empty := by
      intro k e he
      cases he
    refine hempty.run ?_ hnow (hnow t (List.mem_cons_self ..))
    rw [List.map_cons, List.pairwise_cons] at hclock ⊢
    refine ⟨?_, List.pairwise_cons.mpr hclock⟩
    intro later hlater
    obtain rfl | hin := List.mem_cons.mp hlater
    · exact le_refl _
    · exact hclock.1 later hin

/-- The windows of a part of a run in which the key is not evicted. -/
theorem attemptsOf_part {past recent : List Take}
    (hclock : ((past ++ recent).map Take.now).Pairwise (· ≤ ·))
    (hkept : Along limiter.step (fun entries t => ¬ limiter.Evicts key entries t)
      (limiter.after past) recent) :
    ∃ o, Forward o (timesOf key recent) ∧
      limiter.attemptsOf key (limiter.after past) recent =
        windowRun limiter.limit limiter.windowMs o (timesOf key recent) := by
  rw [List.map_append, List.pairwise_append] at hclock
  obtain ⟨hpast, hrecent, hbefore⟩ := hclock
  cases recent with
  | nil => exact ⟨none, ⟨List.Pairwise.nil, by simp⟩, rfl⟩
  | cons t rest =>
    have hfirst : ∀ t' ∈ t :: rest, t.now ≤ t'.now := by
      intro t' ht'
      rw [List.map_cons, List.pairwise_cons] at hrecent
      obtain rfl | hin := List.mem_cons.mp ht'
      · exact le_refl _
      · exact hrecent.1 _ (List.mem_map_of_mem hin)
    have hstarted : Started t.now (limiter.after past) := by
      refine started_after hpast fun t' ht' => ?_
      exact hbefore _ (List.mem_map_of_mem ht') _ (List.mem_map_of_mem (List.mem_cons_self ..))
    have htracks : Tracks limiter key t.now (limiter.after past)
        (((limiter.after past).find? key).map windowOf) := by
      constructor
      · intro e he
        rw [he, Option.map_some]
      · intro hnone w hw
        rw [hnone] at hw
        cases hw
    refine ⟨_, ⟨?_, ?_⟩, attemptsOf_eq_windowRun htracks ?_ hkept⟩
    · exact hrecent.sublist (List.filter_sublist.map Take.now)
    · intro w hw now hnow
      obtain ⟨e, he, rfl⟩ := Option.map_eq_some_iff.mp (Option.mem_def.mp hw)
      obtain ⟨t', ht', rfl⟩ := List.mem_map.mp hnow
      exact le_trans (hstarted key e he) (hfirst t' (List.mem_of_mem_filter ht'))
    · refine List.pairwise_cons.mpr ⟨?_, hrecent⟩
      intro later hlater
      obtain ⟨t', ht', rfl⟩ := List.mem_map.mp hlater
      exact hfirst t' ht'

/-- **The limiter bounds every client.** The calls come with a clock that does not go back.

* It never holds more than `maxKeys` keys.
* While a key is not evicted, at most `limit` of its calls are admitted in a window and at most
  `2 * limit` in an interval of the length of a window.
* If there is room for every open window, a key is answered as if no other key had been used. -/
theorem limiter_bounds (limiter : FixedWindowRateLimiter) (takes : List Take)
    (hclock : (takes.map Take.now).Pairwise (· ≤ ·)) :
    (limiter.after takes).size ≤ limiter.maxKeys ∧
    (∀ past recent key, takes = past ++ recent →
      Along limiter.step (fun entries t => ¬ limiter.Evicts key entries t)
        (limiter.after past) recent →
      (∀ startedAt,
        admittedIn startedAt (limiter.attemptsOf key (limiter.after past) recent) ≤
          limiter.limit) ∧
      ∀ a, admittedBetween a (a + limiter.windowMs)
        (limiter.attemptsOf key (limiter.after past) recent) ≤ 2 * limiter.limit) ∧
    ((∀ past t rest, takes = past ++ t :: rest →
        (limiter.liveKeys (past ++ [t]) t.now).card ≤ limiter.maxKeys) →
      ∀ key, limiter.attemptsOf key Table.empty takes =
        limiter.attemptsOf key Table.empty (takes.filter fun t => t.key = key)) := by
  refine ⟨size_after_le limiter takes, ?_, ?_⟩
  · intro past recent key htakes hkept
    subst htakes
    obtain ⟨o, hforward, hrun⟩ := attemptsOf_part hclock hkept
    rw [hrun]
    exact ⟨fun startedAt => admittedIn_le limiter.limit.pos limiter.windowMs_pos hforward,
      admittedBetween_le limiter.limit.pos limiter.windowMs_pos hforward⟩
  · intro hroom key
    have halone : limiter.attemptsOf key Table.empty (takes.filter fun t => t.key = key) =
        windowRun limiter.limit limiter.windowMs none (timesOf key takes) :=
      (attemptsOf_alone rfl (by simp)).1
    rw [halone]
    cases takes with
    | nil => rfl
    | cons t rest =>
      have hfirst : (t.now :: (t :: rest).map Take.now).Pairwise (· ≤ ·) := by
        refine List.pairwise_cons.mpr ⟨?_, hclock⟩
        rw [List.map_cons, List.pairwise_cons] at hclock
        intro later hlater
        obtain rfl | hin := List.mem_cons.mp hlater
        · exact le_refl _
        · exact hclock.1 later hin
      refine attemptsOf_eq_windowRun Tracks.empty hfirst ?_
      refine not_evicts_along [] hfirst (fun k => Tracks.empty) ?_ key
      intro before t' after heq
      exact hroom before t' after heq

/-- Two keys of a limiter that has room for both; the third call of the first is refused. -/
theorem limiter_bounds_two :
    let limiter : FixedWindowRateLimiter := ⟨2, 100, 2, by norm_num⟩
    let takes : List Take := [⟨"a", 0⟩, ⟨"b", 10⟩, ⟨"a", 20⟩, ⟨"a", 30⟩, ⟨"b", 140⟩]
    (limiter.after takes).size ≤ 2 ∧
      admittedIn 0 (limiter.attemptsOf "a" Table.empty takes) ≤ 2 ∧
      admittedBetween 0 (0 + 100) (limiter.attemptsOf "a" Table.empty takes) ≤ 2 * 2 ∧
      limiter.attemptsOf "a" Table.empty takes =
        limiter.attemptsOf "a" Table.empty (takes.filter fun t => t.key = "a") ∧
      (limiter.attemptsOf "a" Table.empty takes).map Attempt.admitted = [true, true, false] := by
  intro limiter takes
  obtain ⟨hsize, hbounds, halone⟩ := limiter_bounds limiter takes (by decide +kernel)
  obtain ⟨hwindow, hinterval⟩ := hbounds [] takes "a" rfl (by decide +kernel)
  refine ⟨hsize, hwindow 0, hinterval 0, halone ?_ "a", by decide +kernel⟩
  intro past t rest heq
  -- there are only two keys
  refine (Finset.card_le_card (liveKeys_subset rest)).trans ?_
  rw [← heq]
  show (takes.map Take.key).toFinset.card ≤ 2
  decide

end DumpLedger.FixedWindowRateLimiter
