import Mathlib

/-!
# Windows of a byte string

`window bytes offset length` is what a positional read gives. Reads of a record that was
itself read are reads of the whole: `window_window`.

* `leValue` — the number of little-endian bytes
* `uintLE`, `uintLE_window` — an unsigned field, and the same field of a record
-/

namespace DumpLedger.Lib

/-- The bytes from `offset` on, at most `length` of them. -/
def window (bytes : List UInt8) (offset length : Nat) : List UInt8 :=
  (bytes.drop offset).take length

/-- The number of little-endian bytes. -/
def leValue : List UInt8 → Nat
  | [] => 0
  | b :: rest => b.toNat + 256 * leValue rest

/-- The unsigned field of `size` bytes at `offset`. -/
def uintLE (bytes : List UInt8) (offset size : Nat) : Nat := leValue (window bytes offset size)

section Windows

variable {bytes : List UInt8} {offset length : Nat}

theorem length_window (h : offset + length ≤ bytes.length) :
    (window bytes offset length).length = length := by
  unfold window
  rw [List.length_take, List.length_drop]
  omega

theorem length_window_le : (window bytes offset length).length ≤ length := by
  unfold window
  rw [List.length_take]
  exact min_le_left _ _

/-- A part of a part. -/
theorem window_window {start size : Nat} (h : start + size ≤ length) :
    window (window bytes offset length) start size = window bytes (offset + start) size := by
  unfold window
  rw [List.drop_take, List.take_take, List.drop_drop, min_eq_left (by omega)]

theorem uintLE_window {start size : Nat} (h : start + size ≤ length) :
    uintLE (window bytes offset length) start size = uintLE bytes (offset + start) size := by
  unfold uintLE
  rw [window_window h]

theorem leValue_lt : ∀ bs : List UInt8, leValue bs < 256 ^ bs.length
  | [] => Nat.one_pos
  | b :: rest => by
    have hrest := leValue_lt rest
    have hb := b.toNat_lt
    rw [leValue, List.length_cons, Nat.pow_succ]
    omega

/-- A field is below the power of its size. -/
theorem uintLE_lt (bytes : List UInt8) (offset size : Nat) :
    uintLE bytes offset size < 256 ^ size := by
  refine (leValue_lt _).trans_le ?_
  exact Nat.pow_le_pow_right (by decide) length_window_le

theorem leValue_take : ∀ (n : Nat) (bs : List UInt8), leValue (bs.take n) = leValue bs % 256 ^ n
  | 0, bs => by simp [leValue, Nat.mod_one]
  | n + 1, [] => by simp [leValue]
  | n + 1, b :: rest => by
    have hb := b.toNat_lt
    have hlow : (b.toNat + 256 * leValue rest) % 256 = b.toNat := by omega
    have hhigh : (b.toNat + 256 * leValue rest) / 256 = leValue rest := by omega
    rw [List.take_succ_cons, leValue, leValue, leValue_take n rest, Nat.pow_succ,
      Nat.mul_comm (256 ^ n), Nat.mod_mul, hlow, hhigh]

/-- The low bytes of a field. -/
theorem uintLE_mod {low size : Nat} (h : low ≤ size) :
    uintLE bytes offset size % 256 ^ low = uintLE bytes offset low := by
  unfold uintLE
  rw [← leValue_take]
  unfold window
  rw [List.take_take, min_eq_left h]

end Windows

end DumpLedger.Lib
