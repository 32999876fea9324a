import DumpLedger.Lib.ByteFields

/-!
# Bytes scattered over the blocks of a file

A container keeps a byte string in blocks of one size that lie anywhere in the file; `block k` is
the number of the `k`-th of them. `LaidOut file blockSize block bytes n`: the first `n` bytes are
those of the file at their places.

* `LaidOut.overwrite` — one more block is copied, the last of them perhaps not to its end
* `LaidOut.window` — a field that lies in one block
* `LaidOut.consecutive` — of blocks in a row, a window of the file
-/

namespace DumpLedger.Lib

/-- The place in the file of the byte at `i`. -/
def blockPosition (blockSize : Nat) (block : Nat → Nat) (i : Nat) : Nat :=
  block (i / blockSize) * blockSize + i % blockSize

def LaidOut (file : List UInt8) (blockSize : Nat) (block : Nat → Nat) (bytes : List UInt8)
    (n : Nat) : Prop :=
  ∀ i < n, blockPosition blockSize block i < file.length ∧
    bytes[i]? = file[blockPosition blockSize block i]?

section Layout

variable {file bytes : List UInt8} {blockSize n : Nat} {block : Nat → Nat}

theorem blockPosition_of {k j : Nat} (h : j < blockSize) :
    blockPosition blockSize block (k * blockSize + j) = block k * blockSize + j := by
  have hdiv : (k * blockSize + j) / blockSize = k := by
    rw [Nat.mul_comm, Nat.mul_add_div (by omega), Nat.div_eq_of_lt h, Nat.add_zero]
  have hmod : (k * blockSize + j) % blockSize = j := by
    rw [Nat.mul_comm, Nat.mul_add_mod, Nat.mod_eq_of_lt h]
  unfold blockPosition
  rw [hdiv, hmod]

theorem laidOut_zero : LaidOut file blockSize block bytes 0 :=
  fun i hi => absurd hi (Nat.not_lt_zero i)

theorem LaidOut.mono {m : Nat} (h : LaidOut file blockSize block bytes n) (hm : m ≤ n) :
    LaidOut file blockSize block bytes m :=
  fun i hi => h i (by omega)

/-- The bytes of the next block are put behind what is already there. -/
theorem LaidOut.overwrite {k take : Nat} (h : LaidOut file blockSize block bytes (k * blockSize))
    (htake : take ≤ blockSize) (hin : block k * blockSize + take ≤ file.length)
    (hfits : k * blockSize + take ≤ bytes.length) :
    LaidOut file blockSize block
      (Lib.overwrite bytes (k * blockSize) (window file (block k * blockSize) take))
      (k * blockSize + take) := by
  have hlength : (window file (block k * blockSize) take).length = take := length_window hin
  intro i hi
  rw [getElem?_overwrite (by omega)]
  by_cases hold : i < k * blockSize
  · obtain ⟨hposition, heq⟩ := h i hold
    rw [if_neg (by omega)]
    exact ⟨hposition, heq⟩
  · obtain ⟨j, rfl⟩ : ∃ j, i = k * blockSize + j := ⟨i - k * blockSize, by omega⟩
    rw [blockPosition_of (by omega), if_pos (by omega), getElem?_window]
    refine ⟨by omega, ?_⟩
    rw [Nat.add_sub_cancel_left, if_pos (by omega)]

/-- A field that does not cross the end of a block. -/
theorem LaidOut.window {k start size : Nat} (h : LaidOut file blockSize block bytes n)
    (hblock : start + size ≤ blockSize) (hn : k * blockSize + start + size ≤ n) :
    Lib.window bytes (k * blockSize + start) size =
      Lib.window file (block k * blockSize + start) size := by
  refine List.ext_getElem? fun i => ?_
  rw [getElem?_window, getElem?_window]
  by_cases hi : i < size
  · obtain ⟨-, heq⟩ := h (k * blockSize + (start + i)) (by omega)
    rw [if_pos hi, if_pos hi, Nat.add_assoc, heq, blockPosition_of (by omega), Nat.add_assoc]
  · rw [if_neg hi, if_neg hi]

/-- A window that is as long as it was asked for lies within the file. -/
theorem within_of_length_window {start : Nat}
    (h : (Lib.window file start n).length = n) (hpos : 0 < n) : start + n ≤ file.length := by
  unfold Lib.window at h
  rw [List.length_take, List.length_drop] at h
  omega

/-- Blocks in a row are a part of the file. -/
theorem LaidOut.consecutive {first : Nat}
    (h : LaidOut file blockSize (fun k => first + k) bytes n) (hlength : bytes.length = n) :
    bytes = Lib.window file (first * blockSize) n := by
  have hposition : ∀ i, blockPosition blockSize (fun k => first + k) i =
      first * blockSize + i := by
    intro i
    unfold blockPosition
    rw [Nat.add_mul, Nat.add_assoc, Nat.mul_comm (i / blockSize), Nat.div_add_mod]
  refine List.ext_getElem? fun i => ?_
  rw [getElem?_window]
  by_cases hi : i < n
  · obtain ⟨-, heq⟩ := h i hi
    rw [if_pos hi, heq, hposition]
  · rw [if_neg hi, List.getElem?_eq_none (by omega)]

end Layout

end DumpLedger.Lib
