import DumpLedger.Lib.Table

/-!
# The size of a table

`Map.prototype.size` of an insertion-ordered map: the number of rows. It grows by one at an
insert, shrinks by one when a row that is there goes by its key, and an update leaves it.
-/

namespace DumpLedger.Lib.Table

variable {ρ κ : Type} [Keyed ρ κ]

def size (t : Table ρ) : Nat := t.rows.length

@[simp] theorem size_empty : (empty : Table ρ).size = 0 := rfl

theorem size_eq_zero {t : Table ρ} : t.size = 0 ↔ ∀ r, r ∉ t := by
  rw [size, List.length_eq_zero_iff, List.eq_nil_iff_forall_not_mem]
  rfl

theorem size_pos {t : Table ρ} : 0 < t.size ↔ ∃ r, r ∈ t := by
  rw [Nat.pos_iff_ne_zero, Ne, size_eq_zero]
  simp

theorem size_delete_le {t : Table ρ} {p : ρ → Bool} : (t.delete p).size ≤ t.size :=
  List.length_filter_le ..

variable [DecidableEq κ]

@[simp] theorem size_insert {t : Table ρ} {r : ρ} {h : t.find? (key r) = none} :
    (t.insert r h).size = t.size + 1 := by
  show (t.rows ++ [r]).length = t.rows.length + 1
  simp

omit [DecidableEq κ] in
@[simp] theorem size_update {t : Table ρ} {p : ρ → Bool} {f : ρ → ρ}
    {hf : ∀ r, key (f r) = key r} : (t.update p f hf).size = t.size :=
  List.length_map ..

@[simp] theorem size_updateKey {t : Table ρ} {k : κ} {f : ρ → ρ} {hf : ∀ r, key (f r) = key r} :
    (t.updateKey k f hf).size = t.size :=
  size_update

/-- Deleting by a key that is not there deletes nothing. -/
theorem delete_key_of_none {t : Table ρ} {k : κ} (h : t.find? k = none) :
    t.delete (fun r => decide (key r = k)) = t := by
  refine Table.ext (List.filter_eq_self.mpr fun r hr => ?_)
  simpa using find?_eq_none.mp h r hr

/-- Deleting by a key that is there takes one row away. -/
theorem size_delete_key {t : Table ρ} {r : ρ} (h : r ∈ t) :
    (t.delete fun s => decide (key s = key r)).size + 1 = t.size := by
  have hcount : t.rows.countP (fun s => decide (key s = key r)) = 1 := by
    have hk : (t.rows.map key).count (key r) = 1 :=
      List.count_eq_one_of_mem t.keys_nodup (List.mem_map_of_mem h)
    rw [List.count, List.countP_map] at hk
    rw [← hk]
    congr 1
  show (t.rows.filter _).length + 1 = t.rows.length
  rw [← List.countP_eq_length_filter, List.length_eq_countP_add_countP
    (fun s => decide (key s = key r)) (l := t.rows), hcount, Nat.add_comm]
  congr 2
  funext s
  simp

end DumpLedger.Lib.Table
