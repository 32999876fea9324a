import DumpLedger.Lib.ByteWindow

/-!
# Hexadecimal text

Numbers as upper-case hexadecimal digits, padded with zeros on the left. A number is the value of
its text, so texts that agree have numbers that agree, and a padded text of a fixed width can be
cut off a longer one.

* `upperHexValue_hexText` — the value of the text
* `length_hexText`, `hexText_isUpperHex` — its form
* `leValue_inj` — bytes of one length with one value
-/

namespace DumpLedger.Lib

/-- `value.toString(16).toUpperCase().padStart(width, "0")`. -/
def hexText (width value : Nat) : List Char :=
  ((Nat.toDigits 16 value).map Char.toUpper).leftpad width '0'

/-- `[0-9A-F]`. -/
def isUpperHex (c : Char) : Bool := c.isDigit || (decide ('A' ≤ c) && decide (c ≤ 'F'))

def upperHexDigitValue (c : Char) : Nat := if c.isDigit = true then c.toNat - 48 else c.toNat - 55

/-- The number that digits write, behind `value`. -/
def upperHexValue (value : Nat) (digits : List Char) : Nat :=
  digits.foldl (fun value c => 16 * value + upperHexDigitValue c) value

section Hex

variable {value width : Nat}

theorem upperHexDigit_value {n : Nat} (h : n < 16) :
    upperHexDigitValue (Nat.digitChar n).toUpper = n ∧ isUpperHex (Nat.digitChar n).toUpper = true := by
  have hall : ∀ n < 16, upperHexDigitValue (Nat.digitChar n).toUpper = n ∧
      isUpperHex (Nat.digitChar n).toUpper = true := by decide
  exact hall n h

theorem upperHexValue_append (before digits : List Char) :
    upperHexValue value (before ++ digits) = upperHexValue (upperHexValue value before) digits :=
  List.foldl_append

theorem upperHexValue_toDigits (n : Nat) :
    upperHexValue 0 ((Nat.toDigits 16 n).map Char.toUpper) = n := by
  induction n using Nat.base_induction 16 (by decide) with
  | single m hm =>
    rw [Nat.toDigits_of_lt_base hm]
    simp [upperHexValue, upperHexDigit_value hm]
  | digit m k hk hm ih =>
    rw [← Nat.toDigits_append_toDigits (by decide) hm hk, List.map_append, upperHexValue_append, ih,
      Nat.toDigits_of_lt_base hk]
    simp [upperHexValue, upperHexDigit_value hk]

theorem upperHexValue_replicate (n : Nat) : upperHexValue 0 (List.replicate n '0') = 0 := by
  induction n with
  | zero => rfl
  | succ n ih =>
    rw [List.replicate_succ]
    exact ih

/-- **Reading what was printed.** -/
theorem upperHexValue_hexText : upperHexValue 0 (hexText width value) = value := by
  unfold hexText
  rw [List.leftpad, upperHexValue_append, upperHexValue_replicate, upperHexValue_toDigits]

theorem hexText_inj {other : Nat} (h : hexText width value = hexText width other) :
    value = other := by
  have hvalue := congrArg (upperHexValue 0) h
  rwa [upperHexValue_hexText, upperHexValue_hexText] at hvalue

theorem length_hexText (hpos : 0 < width) (h : value < 16 ^ width) :
    (hexText width value).length = width := by
  have hdigits := (Nat.length_toDigits_le_iff (b := 16) (by decide) hpos).mpr h
  unfold hexText
  rw [List.length_leftpad, List.length_map]
  exact max_eq_left hdigits

theorem mem_toDigits_upper {c : Char} (h : c ∈ (Nat.toDigits 16 value).map Char.toUpper) :
    isUpperHex c = true := by
  induction value using Nat.base_induction 16 (by decide) with
  | single m hm =>
    rw [Nat.toDigits_of_lt_base hm, List.map_singleton, List.mem_singleton] at h
    rw [h]
    exact (upperHexDigit_value hm).2
  | digit m k hk hm ih =>
    rw [← Nat.toDigits_append_toDigits (by decide) hm hk, List.map_append, List.mem_append,
      Nat.toDigits_of_lt_base hk, List.map_singleton, List.mem_singleton] at h
    rcases h with h | h
    · exact ih h
    · rw [h]
      exact (upperHexDigit_value hk).2

theorem hexText_isUpperHex {c : Char} (h : c ∈ hexText width value) : isUpperHex c = true := by
  unfold hexText at h
  rw [List.leftpad, List.mem_append] at h
  rcases h with h | h
  · rw [List.eq_of_mem_replicate h]
    decide
  · exact mem_toDigits_upper h

end Hex

/-- The bytes, each as two digits. -/
def hexBytes (bytes : List UInt8) : List Char := bytes.flatMap fun b => hexText 2 b.toNat

theorem length_hexText_byte (b : UInt8) : (hexText 2 b.toNat).length = 2 :=
  length_hexText (by decide) b.toNat_lt

theorem length_hexBytes (bytes : List UInt8) : (hexBytes bytes).length = 2 * bytes.length := by
  induction bytes with
  | nil => rfl
  | cons b rest ih =>
    rw [hexBytes, List.flatMap_cons, List.length_append, length_hexText_byte, ← hexBytes, ih,
      List.length_cons]
    omega

theorem hexBytes_inj {bytes other : List UInt8} (h : hexBytes bytes = hexBytes other) :
    bytes = other := by
  induction bytes generalizing other with
  | nil =>
    have hlength := congrArg List.length h
    rw [length_hexBytes, length_hexBytes, List.length_nil] at hlength
    exact (List.length_eq_zero_iff.mp (by omega)).symm
  | cons b rest ih =>
    cases other with
    | nil =>
      have hlength := congrArg List.length h
      rw [length_hexBytes, length_hexBytes, List.length_nil, List.length_cons] at hlength
      omega
    | cons c others =>
      rw [hexBytes, hexBytes, List.flatMap_cons, List.flatMap_cons] at h
      obtain ⟨hhead, htail⟩ :=
        List.append_inj h ((length_hexText_byte b).trans (length_hexText_byte c).symm)
      rw [UInt8.toNat_inj.mp (hexText_inj hhead), ih htail]

/-- Bytes of one length that have one value. -/
theorem leValue_inj {bytes other : List UInt8} (hlength : bytes.length = other.length)
    (h : leValue bytes = leValue other) : bytes = other := by
  induction bytes generalizing other with
  | nil => exact (List.length_eq_zero_iff.mp hlength.symm).symm
  | cons b rest ih =>
    cases other with
    | nil => cases hlength
    | cons c others =>
      have hb := b.toNat_lt
      have hc := c.toNat_lt
      rw [leValue, leValue] at h
      have hhead : b.toNat = c.toNat := by omega
      rw [UInt8.toNat_inj.mp hhead, ih (Nat.succ.inj hlength) (by omega)]

end DumpLedger.Lib
