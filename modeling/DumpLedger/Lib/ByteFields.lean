import DumpLedger.Lib.ByteWindow

/-!
# Fields of a block

A block is written field by field and read field by field. `overwrite` writes one; the field
that was written last is what a window on it shows, and a window beside it shows what was there.

* `window_overwrite`, `window_overwrite_of_disjoint`
* `bigEndian`, `beValue` — numbers with the most significant byte first
* `lengthPrefixed_inj` — fields that are written after their lengths can be told apart
* `octalText`, `octalValue` — numbers as octal digits of a fixed width
-/

namespace DumpLedger.Lib

/-- `block.set(field, offset)`. -/
def overwrite (block : List UInt8) (offset : Nat) (field : List UInt8) : List UInt8 :=
  block.take offset ++ field ++ block.drop (offset + field.length)

section Overwrite

variable {block field : List UInt8} {offset : Nat}

theorem length_overwrite (h : offset + field.length ≤ block.length) :
    (overwrite block offset field).length = block.length := by
  unfold overwrite
  simp only [List.length_append, List.length_take, List.length_drop]
  omega

theorem getElem?_overwrite (h : offset + field.length ≤ block.length) (i : Nat) :
    (overwrite block offset field)[i]? =
      if offset ≤ i ∧ i < offset + field.length then field[i - offset]? else block[i]? := by
  have htake : (block.take offset).length = offset := by
    rw [List.length_take]
    omega
  unfold overwrite
  rw [List.append_assoc, List.getElem?_append, htake]
  by_cases hlow : i < offset
  · rw [if_pos hlow, if_neg (by omega), List.getElem?_take_of_lt hlow]
  · rw [if_neg hlow, List.getElem?_append]
    by_cases hhigh : i - offset < field.length
    · rw [if_pos hhigh, if_pos (by omega)]
    · rw [if_neg hhigh, if_neg (by omega), List.getElem?_drop]
      congr 1
      omega

theorem getElem?_window (bytes : List UInt8) (start size i : Nat) :
    (window bytes start size)[i]? = if i < size then bytes[start + i]? else none := by
  unfold window
  rw [List.getElem?_take]
  split
  · rw [List.getElem?_drop]
  · rfl

theorem window_overwrite (h : offset + field.length ≤ block.length) :
    window (overwrite block offset field) offset field.length = field := by
  apply List.ext_getElem?
  intro i
  rw [getElem?_window, getElem?_overwrite h]
  by_cases hi : i < field.length
  · rw [if_pos hi, if_pos (by omega), Nat.add_sub_cancel_left]
  · rw [if_neg hi, List.getElem?_eq_none (by omega)]

/-- A field beside the one that is written. -/
theorem window_overwrite_of_disjoint (h : offset + field.length ≤ block.length) {start size : Nat}
    (hdisjoint : start + size ≤ offset ∨ offset + field.length ≤ start) :
    window (overwrite block offset field) start size = window block start size := by
  apply List.ext_getElem?
  intro i
  rw [getElem?_window, getElem?_window, getElem?_overwrite h]
  by_cases hi : i < size
  · rw [if_pos hi, if_pos hi, if_neg (by omega)]
  · rw [if_neg hi, if_neg hi]

end Overwrite

/-- A window of zeros. -/
theorem window_replicate {n start size : Nat} {b : UInt8} (h : start + size ≤ n) :
    window (List.replicate n b) start size = List.replicate size b := by
  unfold window
  rw [List.drop_replicate, List.take_replicate, min_eq_left (by omega)]

/-- What follows the first part. -/
theorem window_append_right {before bytes : List UInt8} {start size : Nat}
    (h : start = before.length) : window (before ++ bytes) start size = bytes.take size := by
  unfold window
  rw [h, List.drop_left]

/-- A window in two parts. -/
theorem window_append_window (bytes : List UInt8) (start : Nat) {part size : Nat}
    (h : part ≤ size) :
    window bytes start part ++ window bytes (start + part) (size - part) =
      window bytes start size := by
  unfold window
  rw [← List.drop_drop, ← List.take_add, Nat.add_sub_cancel' h]

/-! ## Big-endian numbers -/

/-- The last `size` bytes of a number, the most significant one first. -/
def bigEndian : Nat → Nat → List UInt8
  | 0, _ => []
  | size + 1, n => bigEndian size (n / 256) ++ [UInt8.ofNat (n % 256)]

/-- `value = (value << 8n) | byte`, over the bytes. -/
def beValue (bytes : List UInt8) : Nat := bytes.foldl (fun value b => value * 256 + b.toNat) 0

theorem length_bigEndian (size n : Nat) : (bigEndian size n).length = size := by
  induction size generalizing n with
  | zero => rfl
  | succ size ih => rw [bigEndian, List.length_append, ih, List.length_singleton]

theorem beValue_bigEndian (size n : Nat) : beValue (bigEndian size n) = n % 256 ^ size := by
  induction size generalizing n with
  | zero => rw [Nat.pow_zero, Nat.mod_one]; rfl
  | succ size ih =>
    have hstep : beValue (bigEndian (size + 1) n) =
        beValue (bigEndian size (n / 256)) * 256 + n % 256 := by
      unfold beValue
      rw [bigEndian, List.foldl_append, List.foldl_cons, List.foldl_nil,
        UInt8.toNat_ofNat_of_lt' (Nat.mod_lt _ (by decide))]
    rw [hstep, ih, Nat.pow_succ, Nat.mul_comm (256 ^ size), Nat.mod_mul, Nat.mul_comm 256]
    omega

theorem bigEndian_inj {size m n : Nat} (hm : m < 256 ^ size) (hn : n < 256 ^ size)
    (h : bigEndian size m = bigEndian size n) : m = n := by
  have hvalue := congrArg beValue h
  rwa [beValue_bigEndian, beValue_bigEndian, Nat.mod_eq_of_lt hm, Nat.mod_eq_of_lt hn] at hvalue

/-- Each field after its length, which takes `size` bytes. -/
def lengthPrefixed (size : Nat) (fields : List (List UInt8)) : List UInt8 :=
  fields.flatMap fun field => bigEndian size field.length ++ field

/-- **Fields after their lengths can be told apart.** -/
theorem lengthPrefixed_inj {size : Nat} {fs gs : List (List UInt8)}
    (hlen : fs.length = gs.length) (hf : ∀ f ∈ fs, f.length < 256 ^ size)
    (hg : ∀ g ∈ gs, g.length < 256 ^ size)
    (h : lengthPrefixed size fs = lengthPrefixed size gs) : fs = gs := by
  induction fs generalizing gs with
  | nil => exact (List.length_eq_zero_iff.mp hlen.symm).symm
  | cons f fs ih =>
    cases gs with
    | nil => cases hlen
    | cons g gs =>
      obtain ⟨hfield, hfields⟩ := List.forall_mem_cons.mp hf
      obtain ⟨hfield', hfields'⟩ := List.forall_mem_cons.mp hg
      unfold lengthPrefixed at h
      rw [List.flatMap_cons, List.flatMap_cons, List.append_assoc, List.append_assoc] at h
      -- the lengths are read first; they tell where the fields end
      obtain ⟨hlengths, hrest⟩ := List.append_inj h (by rw [length_bigEndian, length_bigEndian])
      obtain ⟨rfl, htail⟩ := List.append_inj hrest (bigEndian_inj hfield hfield' hlengths)
      rw [ih (Nat.succ.inj hlen) hfields hfields' htail]

/-! ## Octal digits -/

/-- A text of ASCII characters as bytes. -/
def charCodes (cs : List Char) : List UInt8 := cs.map fun c => UInt8.ofNat c.toNat

/-- `value.toString(8).padStart(width, "0")`. -/
def octalText (value width : Nat) : List UInt8 :=
  charCodes ((Nat.toDigits 8 value).leftpad width '0')

def isOctalDigit (b : UInt8) : Bool := decide (0x30 ≤ b.toNat) && decide (b.toNat ≤ 0x37)

/-- `value * 8 + (byte - 0x30)`, over the digits. -/
def octalValue (value : Nat) (digits : List UInt8) : Nat :=
  digits.foldl (fun value b => value * 8 + (b.toNat - 0x30)) value

section Octal

variable {value width : Nat}

theorem length_octalText (hpos : 0 < width) (h : value < 8 ^ width) :
    (octalText value width).length = width := by
  have hdigits := (Nat.length_toDigits_le_iff (b := 8) (by decide) hpos).mpr h
  unfold octalText charCodes
  rw [List.length_map, List.length_leftpad]
  exact max_eq_left hdigits

theorem isOctalDigit_of_mem_toDigits {c : Char} (h : c ∈ Nat.toDigits 8 value) :
    48 ≤ c.toNat ∧ c.toNat ≤ 55 := by
  induction value using Nat.base_induction 8 (by decide) with
  | single m hm =>
    rw [Nat.toDigits_of_lt_base hm, List.mem_singleton] at h
    have hall : ∀ n < 8, 48 ≤ (Nat.digitChar n).toNat ∧ (Nat.digitChar n).toNat ≤ 55 := by decide
    rw [h]
    exact hall m hm
  | digit m k hk hm ih =>
    rw [← Nat.toDigits_append_toDigits (by decide) hm hk, List.mem_append,
      Nat.toDigits_of_lt_base hk, List.mem_singleton] at h
    have hall : ∀ n < 8, 48 ≤ (Nat.digitChar n).toNat ∧ (Nat.digitChar n).toNat ≤ 55 := by decide
    rcases h with h | h
    · exact ih h
    · rw [h]
      exact hall k hk

theorem mem_leftpad {c : Char} (h : c ∈ (Nat.toDigits 8 value).leftpad width '0') :
    48 ≤ c.toNat ∧ c.toNat ≤ 55 := by
  rw [List.leftpad, List.mem_append] at h
  rcases h with h | h
  · rw [List.eq_of_mem_replicate h]
    decide
  · exact isOctalDigit_of_mem_toDigits h

theorem all_octalText : ∀ b ∈ octalText value width, isOctalDigit b = true := by
  intro b hb
  obtain ⟨c, hc, rfl⟩ := List.mem_map.mp hb
  have hbounds := mem_leftpad hc
  unfold isOctalDigit
  have hsmall : c.toNat < UInt8.size := hbounds.2.trans_lt (by decide)
  rw [UInt8.toNat_ofNat_of_lt' hsmall]
  simpa using hbounds

/-- Characters that are digits have the value of their codes. -/
theorem octalValue_charCodes {cs : List Char} (h : ∀ c ∈ cs, 48 ≤ c.toNat ∧ c.toNat ≤ 55)
    (start : Nat) : octalValue start (charCodes cs) = Nat.ofDigitChars 8 cs start := by
  induction cs generalizing start with
  | nil => rfl
  | cons c rest ih =>
    have hc := h c List.mem_cons_self
    have hcode : (UInt8.ofNat c.toNat).toNat = c.toNat :=
      UInt8.toNat_ofNat_of_lt' (hc.2.trans_lt (by decide))
    have hrest := ih (fun d hd => h d (List.mem_cons_of_mem _ hd))
      (start * 8 + ((UInt8.ofNat c.toNat).toNat - 0x30))
    rw [Nat.ofDigitChars_cons, Nat.mul_comm 8 start]
    rw [hcode] at hrest
    rw [← show c.toNat - 0x30 = c.toNat - '0'.toNat from rfl, ← hrest]
    unfold octalValue charCodes
    rw [List.map_cons, List.foldl_cons, hcode]

/-- **Reading what was printed.** -/
theorem octalValue_octalText : octalValue 0 (octalText value width) = value := by
  unfold octalText
  rw [octalValue_charCodes fun c hc => mem_leftpad hc, List.leftpad, Nat.ofDigitChars_append]
  have hzeros : ∀ n, Nat.ofDigitChars 8 (List.replicate n '0') 0 = 0 := by
    intro n
    induction n with
    | zero => rfl
    | succ n ih =>
      rw [List.replicate_succ, Nat.ofDigitChars_cons]
      exact ih
  rw [hzeros]
  exact Nat.ofDigitChars_toDigits (by decide) (by decide)

end Octal

end DumpLedger.Lib
