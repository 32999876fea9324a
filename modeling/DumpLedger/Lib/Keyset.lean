import Mathlib

/-!
# Keyset pages

A list in ascending key order is read page by page. A page holds the first rows above a
cursor, and the key of its last row is the cursor of the next one; an empty page hands the
cursor back. `none` is the cursor before the first row.

* `above_of_prefix` — what a prefix leaves is what lies above the cursor after it
* `above_keysetPage` — so a page takes off the front of what is left
* `mem_keysetPage` — a row between the two cursors of a page is in the page
* `keysetPage_exhausted` — a short page leaves nothing
-/

namespace DumpLedger.Lib

variable {ρ κ : Type} [LinearOrder κ] {k : ρ → κ} {rows p : List ρ} {after : Option κ} {n : Nat}

/-- The rows are in strictly ascending key order. -/
def Ascending (k : ρ → κ) (rows : List ρ) : Prop := rows.Pairwise fun r s => k r < k s

/-- A key above a cursor. -/
def IsAbove (after : Option κ) (key : κ) : Prop := ∀ a ∈ after, a < key

instance (after : Option κ) (key : κ) : Decidable (IsAbove after key) :=
  inferInstanceAs (Decidable (∀ a ∈ after, a < key))

/-- `WHERE key > after`. -/
def above (k : ρ → κ) (after : Option κ) (rows : List ρ) : List ρ :=
  rows.filter fun r => decide (IsAbove after (k r))

/-- `WHERE key > after ORDER BY key LIMIT n`, of rows in key order. -/
def keysetPage (k : ρ → κ) (after : Option κ) (n : Nat) (rows : List ρ) : List ρ :=
  (above k after rows).take n

/-- The cursor after a page. -/
def cursorAfter (k : ρ → κ) (after : Option κ) (page : List ρ) : Option κ :=
  match page.getLast? with
  | some r => some (k r)
  | none => after

/-! ## Cursors -/

theorem isAbove_none {key : κ} : IsAbove none key := by
  intro a ha
  cases ha

@[simp] theorem isAbove_some {a key : κ} : IsAbove (some a) key ↔ a < key := by
  simp [IsAbove]

theorem IsAbove.trans {key key' : κ} (h : IsAbove after key) (hlt : key < key') :
    IsAbove after key' :=
  fun a ha => (h a ha).trans hlt

omit [LinearOrder κ] in
@[simp] theorem cursorAfter_nil : cursorAfter k after [] = after := rfl

omit [LinearOrder κ] in
@[simp] theorem cursorAfter_concat {r : ρ} : cursorAfter k after (p ++ [r]) = some (k r) := by
  simp [cursorAfter]

omit [LinearOrder κ] in
theorem cursorAfter_append {q : List ρ} :
    cursorAfter k after (p ++ q) = cursorAfter k (cursorAfter k after p) q := by
  rcases List.eq_nil_or_concat q with rfl | ⟨q', r, rfl⟩
  · rw [List.append_nil, cursorAfter_nil]
  · rw [List.concat_eq_append, ← List.append_assoc, cursorAfter_concat, cursorAfter_concat]

/-! ## What is left above a cursor -/

@[simp] theorem mem_above {r : ρ} : r ∈ above k after rows ↔ r ∈ rows ∧ IsAbove after (k r) := by
  simp [above]

theorem above_append {rows' : List ρ} :
    above k after (rows ++ rows') = above k after rows ++ above k after rows' :=
  List.filter_append ..

theorem Ascending.above (h : Ascending k rows) : Ascending k (above k after rows) :=
  List.Pairwise.filter _ h

theorem Ascending.sublist (h : Ascending k rows) (hp : p.Sublist rows) : Ascending k p :=
  List.Pairwise.sublist hp h

/-- No two rows in ascending order have one key. -/
theorem Ascending.nodup (h : Ascending k rows) : (rows.map k).Nodup := by
  rw [List.Nodup, List.pairwise_map]
  exact List.Pairwise.imp (fun hlt => ne_of_lt hlt) h

/-- Rows of different keys, sorted by key, are in strictly ascending order. -/
theorem ascending_mergeSort (h : (rows.map k).Nodup) :
    Ascending k (rows.mergeSort fun r s => decide (k r ≤ k s)) := by
  have hsorted : (rows.mergeSort fun r s => decide (k r ≤ k s)).Pairwise fun r s => k r ≤ k s := by
    have hle := @List.pairwise_mergeSort ρ (fun r s => decide (k r ≤ k s))
      (fun a b c hab hbc => by
        simp only [decide_eq_true_eq] at *
        exact le_trans hab hbc)
      (fun a b => by
        simp only [Bool.or_eq_true, decide_eq_true_eq]
        exact le_total _ _) rows
    simpa using hle
  have hdistinct : (rows.mergeSort fun r s => decide (k r ≤ k s)).Pairwise fun r s => k r ≠ k s := by
    rw [← List.pairwise_map (f := k) (R := fun a b => a ≠ b)]
    exact ((List.mergeSort_perm rows _).map k).nodup_iff.mpr h
  exact hsorted.imp₂ (fun _ _ hle hne => lt_of_le_of_ne hle hne) hdistinct

/-- **What a prefix of the rows above a cursor leaves lies above the cursor after it.** -/
theorem above_of_prefix (h : Ascending k rows) (hp : p <+: above k after rows) :
    above k after rows = p ++ above k (cursorAfter k after p) rows := by
  obtain ⟨q, hq⟩ := hp
  rcases List.eq_nil_or_concat p with rfl | ⟨p', r, rfl⟩
  · rw [cursorAfter_nil, List.nil_append]
  · rw [List.concat_eq_append, cursorAfter_concat] at *
    have hasc : Ascending k (p' ++ [r] ++ q) := by
      rw [hq]
      exact h.above
    obtain ⟨hfront, -, hback⟩ := List.pairwise_append.mp hasc
    have hr : r ∈ Lib.above k after rows := by
      rw [← hq]
      simp
    -- the rows above `r` are above the old cursor too, so they are found among `p' ++ [r] ++ q`
    have hnarrow : Lib.above k (some (k r)) rows =
        Lib.above k (some (k r)) (Lib.above k after rows) := by
      unfold Lib.above
      rw [List.filter_filter]
      refine List.filter_congr fun s hs => ?_
      by_cases hlt : k r < k s
      · have := (mem_above.mp hr).2.trans hlt
        simp [hlt, this]
      · simp [hlt]
    have hnone : Lib.above k (some (k r)) (p' ++ [r]) = [] := by
      unfold Lib.above
      refine List.filter_eq_nil_iff.mpr fun s hs => ?_
      rcases List.mem_append.mp hs with hs | hs
      · have hlt := (List.pairwise_append.mp hfront).2.2 s hs r (List.mem_singleton_self r)
        simp [le_of_lt hlt]
      · simp [List.mem_singleton.mp hs]
    have hall : Lib.above k (some (k r)) q = q := by
      unfold Lib.above
      refine List.filter_eq_self.mpr fun s hs => ?_
      simpa using hback r (by simp) s hs
    rw [hnarrow, ← hq, above_append, hnone, hall, List.nil_append]

theorem keysetPage_initial : keysetPage k after n rows <+: above k after rows :=
  List.take_prefix _ _

theorem Ascending.keysetPage (h : Ascending k rows) : Ascending k (keysetPage k after n rows) :=
  h.above.sublist keysetPage_initial.sublist

/-- A page is the front of what is left. -/
theorem above_keysetPage (h : Ascending k rows) :
    above k after rows =
      keysetPage k after n rows ++ above k (cursorAfter k after (keysetPage k after n rows)) rows :=
  above_of_prefix h keysetPage_initial

theorem mem_of_mem_keysetPage {r : ρ} (h : r ∈ keysetPage k after n rows) :
    r ∈ rows ∧ IsAbove after (k r) :=
  mem_above.mp (keysetPage_initial.sublist.subset h)

/-- **A row above the cursor and not above the next one is in the page.** -/
theorem mem_keysetPage {r : ρ} (h : Ascending k rows) (hr : r ∈ rows) (habove : IsAbove after (k r))
    (hnot : ¬ IsAbove (cursorAfter k after (keysetPage k after n rows)) (k r)) :
    r ∈ keysetPage k after n rows := by
  have hmem : r ∈ above k after rows := mem_above.mpr ⟨hr, habove⟩
  rw [above_keysetPage (n := n) h, List.mem_append] at hmem
  rcases hmem with hmem | hmem
  · exact hmem
  · exact absurd (mem_above.mp hmem).2 hnot

/-- The cursor never moves back. -/
theorem isAbove_of_cursorAfter {key : κ}
    (h : IsAbove (cursorAfter k after (keysetPage k after n rows)) key) : IsAbove after key := by
  rcases List.eq_nil_or_concat (keysetPage k after n rows) with hp | ⟨p', r, hp⟩
  · rw [hp] at h
    exact h
  · rw [List.concat_eq_append] at hp
    have hr : r ∈ keysetPage k after n rows := by
      rw [hp]
      simp
    rw [hp, cursorAfter_concat, isAbove_some] at h
    exact (mem_of_mem_keysetPage hr).2.trans h

/-- A row of a page is not above the cursor after it. -/
theorem not_isAbove_of_mem_keysetPage {r : ρ} (h : Ascending k rows)
    (hr : r ∈ keysetPage k after n rows) :
    ¬ IsAbove (cursorAfter k after (keysetPage k after n rows)) (k r) := by
  rcases List.eq_nil_or_concat (keysetPage k after n rows) with hp | ⟨p', s, hp⟩
  · rw [hp] at hr
    cases hr
  · have hasc : Ascending k (Lib.keysetPage k after n rows) := h.keysetPage
    rw [List.concat_eq_append] at hp
    rw [hp] at hr hasc ⊢
    rw [cursorAfter_concat, isAbove_some, not_lt]
    rcases List.mem_append.mp hr with hr | hr
    · exact le_of_lt ((List.pairwise_append.mp hasc).2.2 r hr s (List.mem_singleton_self s))
    · rw [List.mem_singleton.mp hr]

/-- A page shorter than its limit is all that is left. -/
theorem keysetPage_exhausted (h : (keysetPage k after n rows).length < n) :
    keysetPage k after n rows = above k after rows := by
  unfold keysetPage at h ⊢
  rw [List.length_take] at h
  exact List.take_of_length_le (by omega)

/-! ## Reading one row more -/

/-- A page of `n` is all that is left when no row follows it. -/
theorem keysetPage_of_no_more (h : ¬ n < (keysetPage k after (n + 1) rows).length) :
    keysetPage k after n rows = above k after rows := by
  unfold keysetPage at h ⊢
  rw [List.length_take] at h
  exact List.take_of_length_le (by omega)

/-- **When a row follows the page of `n`, the cursor moves to the last row of the page and a
row lies above it.** -/
theorem keysetPage_more (h : n < (keysetPage k after (n + 1) rows).length)
    (hasc : Ascending k rows) :
    (keysetPage k after n rows).length = n ∧
      ∃ r ∈ rows, IsAbove (cursorAfter k after (keysetPage k after n rows)) (k r) := by
  have hlen : n < (above k after rows).length := by
    rw [keysetPage, List.length_take] at h
    omega
  have hpage : (keysetPage k after n rows).length = n := by
    rw [keysetPage, List.length_take]
    omega
  have hall : Lib.above k after rows = Lib.keysetPage k after n rows ++
    Lib.above k (cursorAfter k after (Lib.keysetPage k after n rows)) rows := above_keysetPage hasc
  have hsplit := congrArg List.length hall
  rw [List.length_append, hpage] at hsplit
  refine ⟨hpage, ?_⟩
  cases hrest : Lib.above k (cursorAfter k after (Lib.keysetPage k after n rows)) rows with
  | nil =>
    rw [hrest, List.length_nil] at hsplit
    omega
  | cons r rest =>
    have hr : r ∈ Lib.above k (cursorAfter k after (Lib.keysetPage k after n rows)) rows := by
      rw [hrest]
      exact List.mem_cons_self
    exact ⟨r, mem_above.mp hr⟩

end DumpLedger.Lib
