import Mathlib

/-!
# Keyed tables

A table is a list of rows in insertion order. Every row carries its primary key,
and no two rows carry the same one; `Table` keeps that as a field, so a table with
a duplicate key cannot be built.

The operations are the ones of SQL on a primary key:

* `find?` — `SELECT ... WHERE key = ?`
* `insert?` — `INSERT`, refused when the key is taken
* `update`, `updateKey` — `UPDATE ... WHERE`, on columns other than the key
* `modify?` — `UPDATE ... WHERE key = ? AND ...`, refused unless it changes a row
* `delete` — `DELETE FROM ... WHERE`
* `sorted` — `SELECT ... ORDER BY key`

A lookup after each of them is given by `find?_insert`, `find?_update`, `find?_updateKey`
and `find?_delete`; membership by the `mem_` lemmas. `Refers` is a foreign key.
-/

namespace DumpLedger.Lib

/-- A type whose values carry a primary key. -/
class Keyed (ρ : Type) (κ : outParam Type) where
  key : ρ → κ

export Keyed (key)

/-- Rows in insertion order, no two with the same key. -/
structure Table (ρ : Type) {κ : Type} [Keyed ρ κ] where
  rows : List ρ
  keys_nodup : (rows.map key).Nodup

namespace Table

variable {ρ κ : Type} [Keyed ρ κ]

@[ext] theorem ext {s t : Table ρ} (h : s.rows = t.rows) : s = t := by
  cases s; cases t; cases h; rfl

instance [DecidableEq ρ] : DecidableEq (Table ρ) := fun s t =>
  decidable_of_iff (s.rows = t.rows) ⟨Table.ext, congrArg Table.rows⟩

instance : Membership ρ (Table ρ) where
  mem t r := r ∈ t.rows

@[simp] theorem mem_rows {t : Table ρ} {r : ρ} : r ∈ t.rows ↔ r ∈ t := Iff.rfl

def empty : Table ρ := ⟨[], List.nodup_nil⟩

instance : Inhabited (Table ρ) := ⟨empty⟩

@[simp] theorem not_mem_empty {r : ρ} : r ∉ (empty : Table ρ) := List.not_mem_nil

def isEmpty (t : Table ρ) : Bool := t.rows.isEmpty

theorem isEmpty_iff {t : Table ρ} : t.isEmpty = true ↔ ∀ r, r ∉ t := by
  simp [isEmpty, List.isEmpty_iff, List.eq_nil_iff_forall_not_mem]

/-- Rows of one table that carry the same key are the same row. -/
theorem eq_of_key {t : Table ρ} {r s : ρ} (hr : r ∈ t) (hs : s ∈ t) (h : key r = key s) :
    r = s :=
  List.inj_on_of_nodup_map t.keys_nodup hr hs h

section Lookup

variable [DecidableEq κ]

/-! ## Lookup -/

def find? (t : Table ρ) (k : κ) : Option ρ := t.rows.find? fun r => decide (key r = k)

def contains (t : Table ρ) (k : κ) : Bool := (t.find? k).isSome

@[simp] theorem find?_empty {k : κ} : (empty : Table ρ).find? k = none := rfl

theorem find?_eq_some {t : Table ρ} {k : κ} {r : ρ} :
    t.find? k = some r ↔ r ∈ t ∧ key r = k := by
  constructor
  · intro h
    exact ⟨List.mem_of_find?_eq_some h, by simpa using List.find?_some h⟩
  · rintro ⟨hr, rfl⟩
    cases h : t.find? (key r) with
    | none => exact absurd (List.find?_eq_none.mp h r hr) (by simp)
    | some s =>
      have hs : key s = key r := by simpa using List.find?_some h
      rw [eq_of_key (List.mem_of_find?_eq_some h) hr hs]

theorem find?_eq_none {t : Table ρ} {k : κ} : t.find? k = none ↔ ∀ r ∈ t, key r ≠ k := by
  unfold find?
  rw [List.find?_eq_none]
  simp

theorem mem_of_find? {t : Table ρ} {k : κ} {r : ρ} (h : t.find? k = some r) : r ∈ t :=
  (find?_eq_some.mp h).1

theorem key_of_find? {t : Table ρ} {k : κ} {r : ρ} (h : t.find? k = some r) : key r = k :=
  (find?_eq_some.mp h).2

theorem find?_key {t : Table ρ} {r : ρ} (h : r ∈ t) : t.find? (key r) = some r :=
  find?_eq_some.mpr ⟨h, rfl⟩

theorem contains_iff {t : Table ρ} {k : κ} : t.contains k = true ↔ ∃ r ∈ t, key r = k := by
  rw [contains, Option.isSome_iff_exists]
  exact ⟨fun ⟨r, h⟩ => ⟨r, find?_eq_some.mp h⟩, fun ⟨r, h⟩ => ⟨r, find?_eq_some.mpr h⟩⟩

theorem contains_eq_false {t : Table ρ} {k : κ} : t.contains k = false ↔ t.find? k = none := by
  rw [contains, Option.isSome_eq_false_iff, Option.isNone_iff_eq_none]

theorem contains_of_find? {t : Table ρ} {k : κ} {r : ρ} (h : t.find? k = some r) :
    t.contains k = true := by
  simp [contains, h]

/-! ## Insert -/

/-- Append a row whose key is free. -/
def insert (t : Table ρ) (r : ρ) (h : t.find? (key r) = none) : Table ρ where
  rows := t.rows ++ [r]
  keys_nodup := by
    rw [List.map_append, List.map_singleton]
    refine List.nodup_append.mpr ⟨t.keys_nodup, List.nodup_singleton _, ?_⟩
    intro k hk k' hk' he
    obtain ⟨s, hs, rfl⟩ := List.mem_map.mp hk
    exact find?_eq_none.mp h s hs (he.trans (List.mem_singleton.mp hk'))

/-- `INSERT`: nothing happens when the key is taken. -/
def insert? (t : Table ρ) (r : ρ) : Option (Table ρ) :=
  if h : t.find? (key r) = none then some (t.insert r h) else none

theorem insert?_eq_some {t t' : Table ρ} {r : ρ} :
    t.insert? r = some t' ↔ ∃ h : t.find? (key r) = none, t' = t.insert r h := by
  unfold insert?
  split
  · next h => simp [h, eq_comm]
  · next h => simp [h]

@[simp] theorem mem_insert {t : Table ρ} {r s : ρ} {h : t.find? (key r) = none} :
    s ∈ t.insert r h ↔ s ∈ t ∨ s = r := by
  show s ∈ t.rows ++ [r] ↔ _
  simp

theorem mem_insert_self {t : Table ρ} {r : ρ} (h : t.find? (key r) = none) : r ∈ t.insert r h :=
  mem_insert.mpr (Or.inr rfl)

/-- The row just inserted is the one found under its key. -/
theorem find?_insert_self {t : Table ρ} {r : ρ} (h : t.find? (key r) = none) :
    (t.insert r h).find? (key r) = some r :=
  find?_eq_some.mpr ⟨mem_insert_self h, rfl⟩

theorem find?_insert {t : Table ρ} {r : ρ} {h : t.find? (key r) = none} {k : κ} :
    (t.insert r h).find? k = if key r = k then some r else t.find? k := by
  by_cases hk : key r = k
  · rw [if_pos hk]
    exact find?_eq_some.mpr ⟨by simp, hk⟩
  · rw [if_neg hk]
    simp [find?, insert, hk, List.find?_append]

theorem find?_insert_ne {t : Table ρ} {r : ρ} {h : t.find? (key r) = none} {k : κ}
    (hk : key r ≠ k) : (t.insert r h).find? k = t.find? k := by
  rw [find?_insert, if_neg hk]

/-- A row found before an insert is still found after it. -/
theorem find?_insert_of_some {t : Table ρ} {r s : ρ} {h : t.find? (key r) = none} {k : κ}
    (hs : t.find? k = some s) : (t.insert r h).find? k = some s := by
  rw [find?_insert, if_neg ?_, hs]
  rintro rfl
  rw [h] at hs
  cases hs

@[simp] theorem contains_insert {t : Table ρ} {r : ρ} {h : t.find? (key r) = none} {k : κ} :
    (t.insert r h).contains k = (decide (key r = k) || t.contains k) := by
  by_cases hk : key r = k <;> simp [contains, find?_insert, hk]

/-! ## Update -/

/-- `UPDATE`: `f` on the rows that satisfy `p`. The key is never a target. -/
def update (t : Table ρ) (p : ρ → Bool) (f : ρ → ρ) (hf : ∀ r, key (f r) = key r) :
    Table ρ where
  rows := t.rows.map fun r => if p r then f r else r
  keys_nodup := by
    have hkey : (t.rows.map fun r => if p r then f r else r).map key = t.rows.map key := by
      rw [List.map_map]
      refine List.map_congr_left fun r _ => ?_
      by_cases hp : p r <;> simp [hp, hf]
    rw [hkey]
    exact t.keys_nodup

omit [DecidableEq κ] in
theorem mem_update {t : Table ρ} {p : ρ → Bool} {f : ρ → ρ} {hf : ∀ r, key (f r) = key r}
    {s : ρ} : s ∈ t.update p f hf ↔ ∃ r ∈ t, (if p r then f r else r) = s := by
  show s ∈ t.rows.map _ ↔ _
  rw [List.mem_map]
  rfl

theorem find?_update {t : Table ρ} {p : ρ → Bool} {f : ρ → ρ} {hf : ∀ r, key (f r) = key r}
    {k : κ} :
    (t.update p f hf).find? k = (t.find? k).map fun r => if p r then f r else r := by
  show List.find? _ (t.rows.map _) = _
  rw [List.find?_map]
  unfold find?
  congr 2
  funext r
  by_cases hp : p r <;> simp [hp, hf]

@[simp] theorem contains_update {t : Table ρ} {p : ρ → Bool} {f : ρ → ρ}
    {hf : ∀ r, key (f r) = key r} {k : κ} : (t.update p f hf).contains k = t.contains k := by
  simp [contains, find?_update]

omit [DecidableEq κ] in
/-- A row after an update is an updated row or one the update left alone. -/
theorem of_mem_update {t : Table ρ} {p : ρ → Bool} {f : ρ → ρ} {hf : ∀ r, key (f r) = key r}
    {s : ρ} (h : s ∈ t.update p f hf) : s ∈ t ∧ p s = false ∨ ∃ r ∈ t, p r = true ∧ s = f r := by
  obtain ⟨r, hr, rfl⟩ := mem_update.mp h
  cases hp : p r with
  | false => exact Or.inl ⟨by simpa using hr, by simpa using hp⟩
  | true => exact Or.inr ⟨r, hr, hp, by simp⟩

omit [DecidableEq κ] in
theorem update_congr {t : Table ρ} {p q : ρ → Bool} {f : ρ → ρ} {hf : ∀ r, key (f r) = key r}
    (h : ∀ r ∈ t, p r = q r) : t.update p f hf = t.update q f hf := by
  refine Table.ext (List.map_congr_left fun r hr => ?_)
  rw [h r hr]

/-- `UPDATE ... WHERE key = ?`. -/
def updateKey (t : Table ρ) (k : κ) (f : ρ → ρ) (hf : ∀ r, key (f r) = key r) : Table ρ :=
  t.update (fun r => decide (key r = k)) f hf

theorem find?_updateKey {t : Table ρ} {k k' : κ} {f : ρ → ρ} {hf : ∀ r, key (f r) = key r} :
    (t.updateKey k f hf).find? k' = if k = k' then (t.find? k').map f else t.find? k' := by
  rw [updateKey, find?_update]
  cases h : t.find? k' with
  | none => simp
  | some r =>
    have hk := key_of_find? h
    by_cases he : k = k'
    · simp [he, hk]
    · have : key r ≠ k := fun hc => he (hc.symm.trans hk)
      simp [he, this]

theorem find?_updateKey_self {t : Table ρ} {k : κ} {f : ρ → ρ} {hf : ∀ r, key (f r) = key r}
    {r : ρ} (h : t.find? k = some r) : (t.updateKey k f hf).find? k = some (f r) := by
  rw [find?_updateKey, if_pos rfl, h]
  rfl

theorem find?_updateKey_ne {t : Table ρ} {k k' : κ} {f : ρ → ρ} {hf : ∀ r, key (f r) = key r}
    (h : k ≠ k') : (t.updateKey k f hf).find? k' = t.find? k' := by
  rw [find?_updateKey, if_neg h]

@[simp] theorem contains_updateKey {t : Table ρ} {k k' : κ} {f : ρ → ρ}
    {hf : ∀ r, key (f r) = key r} : (t.updateKey k f hf).contains k' = t.contains k' :=
  contains_update

/-- The rows after an update of one key: the updated row and the others. -/
theorem mem_updateKey {t : Table ρ} {k : κ} {f : ρ → ρ} {hf : ∀ r, key (f r) = key r} {r s : ρ}
    (h : t.find? k = some r) : s ∈ t.updateKey k f hf ↔ s = f r ∨ (s ∈ t ∧ key s ≠ k) := by
  obtain ⟨hr, hk⟩ := find?_eq_some.mp h
  rw [updateKey, mem_update]
  constructor
  · rintro ⟨x, hx, rfl⟩
    by_cases hxk : key x = k
    · rw [eq_of_key hx hr (hxk.trans hk.symm)]
      exact Or.inl (by simp [hk])
    · refine Or.inr ?_
      rw [if_neg (by simpa using hxk)]
      exact ⟨hx, hxk⟩
  · rintro (rfl | ⟨hs, hne⟩)
    · exact ⟨r, hr, by simp [hk]⟩
    · exact ⟨s, hs, by simp [hne]⟩

/-- Updating one key and then others is one update of them all. -/
theorem update_updateKey {t : Table ρ} {k : κ} {ks : List κ} {f : ρ → ρ}
    {hf : ∀ r, key (f r) = key r} (hk : k ∉ ks) :
    (t.updateKey k f hf).update (fun r => decide (key r ∈ ks)) f hf =
      t.update (fun r => decide (key r ∈ k :: ks)) f hf := by
  refine Table.ext ?_
  show (t.rows.map _).map _ = t.rows.map _
  rw [List.map_map]
  refine List.map_congr_left fun r _ => ?_
  by_cases hr : key r = k
  · simp [hr, hf, hk]
  · simp [hr]

/-- `UPDATE ... WHERE key = ? AND p`, refused when it changes no row. -/
def modify? (t : Table ρ) (k : κ) (p : ρ → Bool) (f : ρ → ρ) (hf : ∀ r, key (f r) = key r) :
    Option (Table ρ) :=
  match t.find? k with
  | none => none
  | some r => if p r then some (t.updateKey k f hf) else none

theorem modify?_eq_some {t t' : Table ρ} {k : κ} {p : ρ → Bool} {f : ρ → ρ}
    {hf : ∀ r, key (f r) = key r} :
    t.modify? k p f hf = some t' ↔
      ∃ r, t.find? k = some r ∧ p r = true ∧ t' = t.updateKey k f hf := by
  unfold modify?
  cases h : t.find? k with
  | none => simp
  | some r =>
    by_cases hp : p r = true
    · simp only [hp, if_true, Option.some.injEq, exists_eq_left', true_and]
      exact eq_comm
    · simp [hp]

/-! ## Delete -/

/-- `DELETE FROM ... WHERE p`. -/
def delete (t : Table ρ) (p : ρ → Bool) : Table ρ where
  rows := t.rows.filter fun r => !p r
  keys_nodup := (List.Sublist.map key List.filter_sublist).nodup t.keys_nodup

omit [DecidableEq κ] in
@[simp] theorem mem_delete {t : Table ρ} {p : ρ → Bool} {r : ρ} :
    r ∈ t.delete p ↔ r ∈ t ∧ p r = false := by
  show r ∈ t.rows.filter _ ↔ _
  simp

theorem find?_delete {t : Table ρ} {p : ρ → Bool} {k : κ} :
    (t.delete p).find? k = (t.find? k).filter fun r => !p r := by
  cases h : t.find? k with
  | none =>
    rw [find?_eq_none] at h
    exact find?_eq_none.mpr fun r hr => h r (mem_delete.mp hr).1
  | some r =>
    obtain ⟨hr, hk⟩ := find?_eq_some.mp h
    cases hp : p r with
    | false =>
      rw [find?_eq_some.mpr ⟨mem_delete.mpr ⟨hr, hp⟩, hk⟩, Option.filter_some, hp]
      rfl
    | true =>
      rw [Option.filter_some, hp]
      refine find?_eq_none.mpr fun s hs hsk => ?_
      obtain ⟨hst, hps⟩ := mem_delete.mp hs
      rw [eq_of_key hst hr (hsk.trans hk.symm), hp] at hps
      cases hps

/-! ## Foreign keys -/

section Refers

variable {ρ' κ' : Type} [Keyed ρ' κ'] [DecidableEq κ'] {t : Table ρ} {f : ρ → κ'} {u : Table ρ'}

/-- Every row of `t` names by `f` a row of `u`. -/
def Refers (t : Table ρ) (f : ρ → κ') (u : Table ρ') : Prop :=
  ∀ r ∈ t, u.contains (f r) = true

omit [DecidableEq κ] in
theorem Refers.empty : Refers (Table.empty : Table ρ) f u := fun _ h => absurd h not_mem_empty

theorem Refers.insert {r : ρ} {h : t.find? (key r) = none} (ht : Refers t f u)
    (hr : u.contains (f r) = true) : Refers (t.insert r h) f u := by
  intro s hs
  rcases mem_insert.mp hs with hs | rfl
  · exact ht s hs
  · exact hr

omit [DecidableEq κ] in
theorem Refers.update {p : ρ → Bool} {g : ρ → ρ} {hg : ∀ r, key (g r) = key r}
    (ht : Refers t f u) (hfg : ∀ r, f (g r) = f r) : Refers (t.update p g hg) f u := by
  intro s hs
  rcases of_mem_update hs with ⟨hs, -⟩ | ⟨r, hr, -, rfl⟩
  · exact ht s hs
  · rw [hfg]
    exact ht r hr

omit [DecidableEq κ] in
/-- A key once taken stays taken: what the target table has to keep. -/
theorem Refers.mono {u' : Table ρ'} (ht : Refers t f u)
    (hu : ∀ k, u.contains k = true → u'.contains k = true) : Refers t f u' :=
  fun r hr => hu _ (ht r hr)

end Refers

end Lookup

/-! ## Rows in key order -/

/-- `SELECT ... ORDER BY key`. -/
def sorted [LE κ] [DecidableRel (α := κ) (· ≤ ·)] (t : Table ρ) : List ρ :=
  t.rows.mergeSort fun r s => decide (key r ≤ key s)

theorem sorted_perm [LE κ] [DecidableRel (α := κ) (· ≤ ·)] (t : Table ρ) :
    t.sorted.Perm t.rows :=
  List.mergeSort_perm _ _

@[simp] theorem mem_sorted [LE κ] [DecidableRel (α := κ) (· ≤ ·)] {t : Table ρ} {r : ρ} :
    r ∈ t.sorted ↔ r ∈ t :=
  (sorted_perm t).mem_iff

theorem sorted_keys_nodup [LE κ] [DecidableRel (α := κ) (· ≤ ·)] (t : Table ρ) :
    (t.sorted.map key).Nodup :=
  ((sorted_perm t).map key).nodup_iff.mpr t.keys_nodup

theorem length_sorted [LE κ] [DecidableRel (α := κ) (· ≤ ·)] (t : Table ρ) :
    t.sorted.length = t.rows.length :=
  (sorted_perm t).length_eq

/-- Two tables with the same rows list them in the same order once sorted by key. -/
theorem sorted_eq_of_mem_iff [LinearOrder κ] {s t : Table ρ} (h : ∀ r, r ∈ s ↔ r ∈ t) :
    s.sorted = t.sorted := by
  have hnd (u : Table ρ) : u.rows.Nodup := List.Nodup.of_map key u.keys_nodup
  have hperm : s.sorted.Perm t.sorted :=
    (sorted_perm s).trans (((List.perm_ext_iff_of_nodup (hnd s) (hnd t)).mpr h).trans
      (sorted_perm t).symm)
  have hsort (u : Table ρ) : u.sorted.Pairwise fun r s => key r ≤ key s := by
    have := @List.pairwise_mergeSort ρ (fun r s => decide (key r ≤ key s))
      (fun a b c hab hbc => by
        simp only [decide_eq_true_eq] at *
        exact le_trans hab hbc)
      (fun a b => by
        simp only [Bool.or_eq_true, decide_eq_true_eq]
        exact le_total _ _) u.rows
    simpa [sorted] using this
  refine hperm.eq_of_pairwise ?_ (hsort s) (hsort t)
  intro a b ha hb hab hba
  exact eq_of_key (t := t) ((h a).mp (mem_sorted.mp ha)) (mem_sorted.mp hb) (le_antisymm hab hba)

end Table

end DumpLedger.Lib
