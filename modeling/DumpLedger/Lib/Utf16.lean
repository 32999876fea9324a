import DumpLedger.Lib.JsonSyntax

/-!
# UTF-16

A character is one code unit, or a pair of surrogates. A code unit text is a text when each of
its surrogates belongs to a pair.

* `utf16` — the code units of a text
* `ofUnits?_utf16` — a text is read back from its code units
-/

namespace DumpLedger.Lib

def highSurrogate (n : Nat) : CodeUnit := (0xD800 + (n - 0x10000) / 0x400).toUInt16

def lowSurrogate (n : Nat) : CodeUnit := (0xDC00 + (n - 0x10000) % 0x400).toUInt16

def charUnits (c : Char) : Units :=
  if c.toNat < 0x10000 then [c.toNat.toUInt16] else [highSurrogate c.toNat, lowSurrogate c.toNat]

def utf16 (s : String) : Units := s.toList.flatMap charUnits

def isHighSurrogate (u : CodeUnit) : Bool := decide (0xD800 ≤ u.toNat) && decide (u.toNat < 0xDC00)

def isLowSurrogate (u : CodeUnit) : Bool := decide (0xDC00 ≤ u.toNat) && decide (u.toNat < 0xE000)

/-- The characters of a text without lone surrogates. -/
def chars? : Units → Option (List Char)
  | [] => some []
  | u :: rest =>
    if isHighSurrogate u then
      match rest with
      | v :: rest =>
        if isLowSurrogate v then
          (chars? rest).map
            (Char.ofNat (0x10000 + (u.toNat - 0xD800) * 0x400 + (v.toNat - 0xDC00)) :: ·)
        else none
      | [] => none
    else if isLowSurrogate u then none
    else (chars? rest).map (Char.ofNat u.toNat :: ·)

def ofUnits? (text : Units) : Option String := (chars? text).map String.ofList

/-! ## Round trip -/

theorem char_bounds (c : Char) :
    c.toNat < 0xD800 ∨ 0xDFFF < c.toNat ∧ c.toNat < 0x110000 :=
  c.valid

theorem chars?_charUnits (c : Char) (rest : Units) :
    chars? (charUnits c ++ rest) = (chars? rest).map (c :: ·) := by
  have hbounds := char_bounds c
  unfold charUnits
  by_cases hsmall : c.toNat < 0x10000
  · have hunit : (c.toNat.toUInt16).toNat = c.toNat := by
      simp only [Nat.toUInt16_eq, UInt16.toNat_ofNat']
      omega
    have hhigh : isHighSurrogate c.toNat.toUInt16 = false := by
      simp only [isHighSurrogate, hunit, Bool.and_eq_false_iff, decide_eq_false_iff_not]
      omega
    have hlow : isLowSurrogate c.toNat.toUInt16 = false := by
      simp only [isLowSurrogate, hunit, Bool.and_eq_false_iff, decide_eq_false_iff_not]
      omega
    rw [if_pos hsmall, List.singleton_append, chars?.eq_def]
    simp [hhigh, hlow, hunit]
  · have hhighNat : (highSurrogate c.toNat).toNat = 0xD800 + (c.toNat - 0x10000) / 0x400 := by
      unfold highSurrogate
      simp only [Nat.toUInt16_eq, UInt16.toNat_ofNat']
      omega
    have hlowNat : (lowSurrogate c.toNat).toNat = 0xDC00 + (c.toNat - 0x10000) % 0x400 := by
      unfold lowSurrogate
      simp only [Nat.toUInt16_eq, UInt16.toNat_ofNat']
      omega
    have hhigh : isHighSurrogate (highSurrogate c.toNat) = true := by
      simp only [isHighSurrogate, hhighNat, Bool.and_eq_true, decide_eq_true_eq]
      omega
    have hlow : isLowSurrogate (lowSurrogate c.toNat) = true := by
      simp only [isLowSurrogate, hlowNat, Bool.and_eq_true, decide_eq_true_eq]
      omega
    have hvalue : 0x10000 + (0xD800 + (c.toNat - 0x10000) / 0x400 - 0xD800) * 0x400 +
        (0xDC00 + (c.toNat - 0x10000) % 0x400 - 0xDC00) = c.toNat := by
      omega
    rw [if_neg hsmall, List.cons_append, List.singleton_append, chars?.eq_def]
    dsimp only
    rw [if_pos hhigh, if_pos hlow, hhighNat, hlowNat, hvalue, Char.ofNat_toNat]

theorem chars?_flatMap (cs : List Char) : chars? (cs.flatMap charUnits) = some cs := by
  induction cs with
  | nil => rfl
  | cons c cs ih => rw [List.flatMap_cons, chars?_charUnits, ih, Option.map_some]

/-- **A text is read back from its code units.** -/
theorem ofUnits?_utf16 (s : String) : ofUnits? (utf16 s) = some s := by
  unfold ofUnits? utf16
  rw [chars?_flatMap, Option.map_some, String.ofList_toList]

theorem utf16_injective {s t : String} (h : utf16 s = utf16 t) : s = t := by
  have hs := ofUnits?_utf16 s
  rw [h, ofUnits?_utf16] at hs
  exact (Option.some.inj hs).symm

@[simp] theorem utf16_append (s t : String) : utf16 (s ++ t) = utf16 s ++ utf16 t := by
  simp [utf16]

end DumpLedger.Lib
