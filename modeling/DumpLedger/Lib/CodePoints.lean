import DumpLedger.Lib.Utf16

/-!
# Code points

A JavaScript string is any sequence of code units. Iterated, it is a sequence of characters and of
surrogates that belong to no pair.

* `codePoints` — the iteration
* `flatMap_codePoints` — no code unit is lost
* `codePoints_utf16` — the text of characters is these characters
-/

namespace DumpLedger.Lib

inductive CodePoint
  | char (c : Char)
  | lone (u : CodeUnit)
  deriving DecidableEq

namespace CodePoint

def units : CodePoint → Units
  | char c => charUnits c
  | lone u => [u]

/-- The character that takes the place of the code point in a text. -/
def toChar : CodePoint → Char
  | char c => c
  | lone _ => '\uFFFD'

end CodePoint

/-- A code unit that begins no pair. -/
def singlePoint (u : CodeUnit) : CodePoint :=
  if isHighSurrogate u || isLowSurrogate u then .lone u else .char (Char.ofNat u.toNat)

def pairPoint (u v : CodeUnit) : CodePoint :=
  .char (Char.ofNat (0x10000 + (u.toNat - 0xD800) * 0x400 + (v.toNat - 0xDC00)))

/-- The code points of a string. -/
def codePoints : Units → List CodePoint
  | [] => []
  | [u] => [singlePoint u]
  | u :: v :: rest =>
    if isHighSurrogate u && isLowSurrogate v then pairPoint u v :: codePoints rest
    else singlePoint u :: codePoints (v :: rest)

/-- The text of a string: a lone surrogate is replaced. -/
def toText (us : Units) : String := String.ofList ((codePoints us).map CodePoint.toChar)

/-! ## No unit is lost -/

theorem isHighSurrogate_iff {u : CodeUnit} :
    isHighSurrogate u = true ↔ 0xD800 ≤ u.toNat ∧ u.toNat < 0xDC00 := by
  unfold isHighSurrogate
  rw [Bool.and_eq_true, decide_eq_true_eq, decide_eq_true_eq]

theorem isLowSurrogate_iff {u : CodeUnit} :
    isLowSurrogate u = true ↔ 0xDC00 ≤ u.toNat ∧ u.toNat < 0xE000 := by
  unfold isLowSurrogate
  rw [Bool.and_eq_true, decide_eq_true_eq, decide_eq_true_eq]

theorem char_toNat_ofNat {n : ℕ} (h : n < 0xD800 ∨ 0xDFFF < n ∧ n < 0x110000) :
    (Char.ofNat n).toNat = n := by
  have hvalid : n.isValidChar := h
  rw [Char.ofNat, dif_pos hvalid]
  exact Char.toNat_ofNatAux hvalid

theorem units_singlePoint (u : CodeUnit) : (singlePoint u).units = [u] := by
  unfold singlePoint
  by_cases hsurrogate : (isHighSurrogate u || isLowSurrogate u) = true
  · rw [if_pos hsurrogate]
    rfl
  · rw [if_neg hsurrogate]
    rw [Bool.or_eq_true, isHighSurrogate_iff, isLowSurrogate_iff] at hsurrogate
    have hlt := u.toNat_lt
    have hnat : (Char.ofNat u.toNat).toNat = u.toNat := char_toNat_ofNat (by omega)
    rw [CodePoint.units, charUnits, hnat, if_pos hlt, Nat.toUInt16_eq, UInt16.ofNat_toNat]

theorem units_pairPoint {u v : CodeUnit} (hu : isHighSurrogate u = true)
    (hv : isLowSurrogate v = true) : (pairPoint u v).units = [u, v] := by
  rw [isHighSurrogate_iff] at hu
  rw [isLowSurrogate_iff] at hv
  have hnat : (Char.ofNat (0x10000 + (u.toNat - 0xD800) * 0x400 + (v.toNat - 0xDC00))).toNat =
      0x10000 + (u.toNat - 0xD800) * 0x400 + (v.toNat - 0xDC00) := char_toNat_ofNat (by omega)
  have hhigh : highSurrogate (0x10000 + (u.toNat - 0xD800) * 0x400 + (v.toNat - 0xDC00)) = u := by
    have hvalue : 0xD800 + (0x10000 + (u.toNat - 0xD800) * 0x400 + (v.toNat - 0xDC00) -
        0x10000) / 0x400 = u.toNat := by
      omega
    rw [highSurrogate, hvalue, Nat.toUInt16_eq, UInt16.ofNat_toNat]
  have hlow : lowSurrogate (0x10000 + (u.toNat - 0xD800) * 0x400 + (v.toNat - 0xDC00)) = v := by
    have hvalue : 0xDC00 + (0x10000 + (u.toNat - 0xD800) * 0x400 + (v.toNat - 0xDC00) -
        0x10000) % 0x400 = v.toNat := by
      omega
    rw [lowSurrogate, hvalue, Nat.toUInt16_eq, UInt16.ofNat_toNat]
  rw [pairPoint, CodePoint.units, charUnits, hnat, if_neg (by omega), hhigh, hlow]

/-- **A string is made of its code points.** -/
theorem flatMap_codePoints (us : Units) : (codePoints us).flatMap CodePoint.units = us := by
  induction us using codePoints.induct with
  | case1 => rfl
  | case2 u => rw [codePoints, List.flatMap_singleton, units_singlePoint]
  | case3 u v rest hpair ih =>
    obtain ⟨hu, hv⟩ := Bool.and_eq_true_iff.mp hpair
    rw [codePoints, if_pos hpair, List.flatMap_cons, ih, units_pairPoint hu hv]
    rfl
  | case4 u v rest hpair ih =>
    rw [codePoints, if_neg hpair, List.flatMap_cons, ih, units_singlePoint]
    rfl

/-! ## Texts -/

theorem singlePoint_of_small {c : Char} (h : c.toNat < 0x10000) :
    singlePoint c.toNat.toUInt16 = .char c := by
  have hbounds := char_bounds c
  have hunit : (c.toNat.toUInt16).toNat = c.toNat := by
    simp only [Nat.toUInt16_eq, UInt16.toNat_ofNat']
    omega
  have hsurrogate : ¬ (isHighSurrogate c.toNat.toUInt16 || isLowSurrogate c.toNat.toUInt16) =
      true := by
    rw [Bool.or_eq_true, isHighSurrogate_iff, isLowSurrogate_iff, hunit]
    omega
  rw [singlePoint, if_neg hsurrogate, hunit, Char.ofNat_toNat]

theorem codePoints_charUnits (c : Char) (rest : Units) :
    codePoints (charUnits c ++ rest) = .char c :: codePoints rest := by
  have hbounds := char_bounds c
  unfold charUnits
  by_cases hsmall : c.toNat < 0x10000
  · rw [if_pos hsmall, List.singleton_append]
    cases rest with
    | nil => exact congrArg (fun p => [p]) (singlePoint_of_small hsmall)
    | cons v rest =>
      have hunit : (c.toNat.toUInt16).toNat = c.toNat := by
        simp only [Nat.toUInt16_eq, UInt16.toNat_ofNat']
        omega
      have hhigh : ¬ (isHighSurrogate c.toNat.toUInt16 && isLowSurrogate v) = true := by
        rw [Bool.and_eq_true, isHighSurrogate_iff, hunit]
        omega
      rw [codePoints, if_neg hhigh, singlePoint_of_small hsmall]
  · have hhighNat : (highSurrogate c.toNat).toNat = 0xD800 + (c.toNat - 0x10000) / 0x400 := by
      unfold highSurrogate
      simp only [Nat.toUInt16_eq, UInt16.toNat_ofNat']
      omega
    have hlowNat : (lowSurrogate c.toNat).toNat = 0xDC00 + (c.toNat - 0x10000) % 0x400 := by
      unfold lowSurrogate
      simp only [Nat.toUInt16_eq, UInt16.toNat_ofNat']
      omega
    have hpair : (isHighSurrogate (highSurrogate c.toNat) &&
        isLowSurrogate (lowSurrogate c.toNat)) = true := by
      rw [Bool.and_eq_true, isHighSurrogate_iff, isLowSurrogate_iff, hhighNat, hlowNat]
      omega
    have hvalue : 0x10000 + (0xD800 + (c.toNat - 0x10000) / 0x400 - 0xD800) * 0x400 +
        (0xDC00 + (c.toNat - 0x10000) % 0x400 - 0xDC00) = c.toNat := by
      omega
    rw [if_neg hsmall, List.cons_append, List.singleton_append, codePoints, if_pos hpair,
      pairPoint, hhighNat, hlowNat, hvalue, Char.ofNat_toNat]

theorem codePoints_flatMap (cs : List Char) :
    codePoints (cs.flatMap charUnits) = cs.map CodePoint.char := by
  induction cs with
  | nil => rfl
  | cons c cs ih => rw [List.flatMap_cons, codePoints_charUnits, ih, List.map_cons]

/-- **The code points of a text are its characters.** -/
theorem codePoints_utf16 (s : String) : codePoints (utf16 s) = s.toList.map CodePoint.char :=
  codePoints_flatMap s.toList

theorem toText_utf16 (s : String) : toText (utf16 s) = s := by
  have hid : CodePoint.toChar ∘ CodePoint.char = id := rfl
  rw [toText, codePoints_utf16, List.map_map, hid, List.map_id, String.ofList_toList]

end DumpLedger.Lib
