import DumpLedger.Domain.Text

/-!
# Canonical ISO timestamps

The code accepts a timestamp when `new Date(value).toISOString() === value`. The texts
that pass are the outputs of `toISOString`: `YYYY-MM-DDTHH:mm:ss.sssZ` with four digits
for the years 0 to 9999, a sign and six digits outside them, a real calendar day, and
an instant within 8.64e15 ms of the epoch.

`instant` reads such a text, so a text is canonical when it has an instant. The code
compares timestamps as text, and so does the order on `IsoTimestamp`.
-/

namespace DumpLedger

open Lib

/-! ## Reading the fields -/

/-- `n` decimal digits. -/
def readDigits : Nat → List Char → Option (Nat × List Char)
  | 0, rest => some (0, rest)
  | n + 1, c :: rest =>
    if c.isDigit then
      (readDigits n rest).map fun (v, rest) => ((c.toNat - '0'.toNat) * 10 ^ n + v, rest)
    else none
  | _ + 1, [] => none

def readChar (c : Char) : List Char → Option (List Char)
  | d :: rest => if c = d then some rest else none
  | [] => none

/-- Four digits, or a sign and six digits for a year that does not fit in four. -/
def readYear : List Char → Option (Int × List Char)
  | '+' :: rest => do
    let (y, rest) ← readDigits 6 rest
    if 9999 < y then some (y, rest) else none
  | '-' :: rest => do
    let (y, rest) ← readDigits 6 rest
    if 0 < y then some (-y, rest) else none
  | rest => do
    let (y, rest) ← readDigits 4 rest
    some (y, rest)

/-! ## The proleptic Gregorian calendar -/

def isLeapYear (y : Int) : Bool :=
  decide (y % 4 = 0) && (!decide (y % 100 = 0) || decide (y % 400 = 0))

def daysInMonth (y : Int) (m : Nat) : Nat :=
  if m = 2 then (if isLeapYear y then 29 else 28)
  else if [4, 6, 9, 11].contains m then 30 else 31

/-- Days from 1970-01-01. The year is taken to start in March. -/
def daysFromCivil (y : Int) (m d : Nat) : Int :=
  let y := if m ≤ 2 then y - 1 else y
  let era := y / 400
  let yearOfEra := y % 400
  let dayOfYear : Int := (153 * ((m + 9) % 12) + 2) / 5 + d - 1
  let dayOfEra := yearOfEra * 365 + yearOfEra / 4 - yearOfEra / 100 + dayOfYear
  era * 146097 + dayOfEra - 719468

/-- `Date.parse` on a canonical text: milliseconds from the epoch. -/
def instant (s : String) : Option Int := do
  let (year, rest) ← readYear s.toList
  let rest ← readChar '-' rest
  let (month, rest) ← readDigits 2 rest
  let rest ← readChar '-' rest
  let (day, rest) ← readDigits 2 rest
  let rest ← readChar 'T' rest
  let (hour, rest) ← readDigits 2 rest
  let rest ← readChar ':' rest
  let (minute, rest) ← readDigits 2 rest
  let rest ← readChar ':' rest
  let (second, rest) ← readDigits 2 rest
  let rest ← readChar '.' rest
  let (ms, rest) ← readDigits 3 rest
  let rest ← readChar 'Z' rest
  let time : Int := daysFromCivil year month day * 86400000 +
    ((hour * 60 + minute) * 60 + second) * 1000 + ms
  if rest = [] ∧ 1 ≤ month ∧ month ≤ 12 ∧ 1 ≤ day ∧ day ≤ daysInMonth year month ∧
      hour ≤ 23 ∧ minute ≤ 59 ∧ second ≤ 59 ∧
      -8640000000000000 ≤ time ∧ time ≤ 8640000000000000 then
    some time
  else none

example : instant "1970-01-01T00:00:00.000Z" = some 0 := by decide
example : instant "2024-02-30T00:00:00.000Z" = none := by decide
example : instant "+275760-09-13T00:00:00.000Z" = some 8640000000000000 := by decide

/-! ## The characters of a timestamp -/

theorem readDigits_eq_some {n v : Nat} {cs rest : List Char}
    (h : readDigits n cs = some (v, rest)) :
    ∃ ds, cs = ds ++ rest ∧ ds.length = n ∧ ∀ d ∈ ds, d.isDigit = true := by
  induction n generalizing cs v with
  | zero =>
    cases h
    exact ⟨[], rfl, rfl, by simp⟩
  | succ n ih =>
    cases cs with
    | nil => cases h
    | cons c cs =>
      rw [readDigits] at h
      by_cases hc : c.isDigit = true
      · rw [if_pos hc] at h
        obtain ⟨⟨v', rest'⟩, hread, heq⟩ := Option.map_eq_some_iff.mp h
        cases heq
        obtain ⟨ds, rfl, hlen, hds⟩ := ih hread
        refine ⟨c :: ds, rfl, by rw [List.length_cons, hlen], ?_⟩
        intro d hd
        rcases List.mem_cons.mp hd with rfl | hd
        · exact hc
        · exact hds d hd
      · rw [if_neg hc] at h
        cases h

theorem readChar_eq_some {c : Char} {cs rest : List Char} (h : readChar c cs = some rest) :
    cs = c :: rest := by
  cases cs with
  | nil => cases h
  | cons d cs =>
    rw [readChar] at h
    by_cases hc : c = d
    · rw [if_pos hc] at h
      cases h
      rw [hc]
    · rw [if_neg hc] at h
      cases h

/-- A digit, or one of the signs of a timestamp. -/
def isTimestampChar (c : Char) : Bool := c.isDigit || ['+', '-', 'T', ':', '.', 'Z'].contains c

/-- A text of at most `n` characters of a timestamp. -/
def IsTimestampPart (n : Nat) (cs : List Char) : Prop :=
  cs.length ≤ n ∧ ∀ c ∈ cs, isTimestampChar c = true

theorem isTimestampPart_digits {n : Nat} {ds rest : List Char} {m : Nat}
    (hlen : ds.length = n) (hds : ∀ d ∈ ds, d.isDigit = true) (h : IsTimestampPart m rest) :
    IsTimestampPart (m + n) (ds ++ rest) := by
  obtain ⟨hle, hchars⟩ := h
  refine ⟨by rw [List.length_append, hlen]; omega, ?_⟩
  intro c hc
  rcases List.mem_append.mp hc with hc | hc
  · simp [isTimestampChar, hds c hc]
  · exact hchars c hc

theorem isTimestampPart_sign {c : Char} {rest : List Char} {m : Nat}
    (hc : isTimestampChar c = true) (h : IsTimestampPart m rest) :
    IsTimestampPart (m + 1) (c :: rest) := by
  refine ⟨Nat.succ_le_succ h.1, ?_⟩
  intro d hd
  rcases List.mem_cons.mp hd with rfl | hd
  · exact hc
  · exact h.2 d hd

theorem isTimestampPart_year {y : Int} {cs rest : List Char} {m : Nat}
    (h : readYear cs = some (y, rest)) (hrest : IsTimestampPart m rest) :
    IsTimestampPart (m + 7) cs := by
  unfold readYear at h
  split at h
  · obtain ⟨⟨v, rest'⟩, hread, hyear⟩ := Option.bind_eq_some_iff.mp h
    obtain ⟨ds, rfl, hlen, hds⟩ := readDigits_eq_some hread
    dsimp only at hyear
    split at hyear
    · cases hyear
      exact isTimestampPart_sign (by decide) (isTimestampPart_digits hlen hds hrest)
    · cases hyear
  · obtain ⟨⟨v, rest'⟩, hread, hyear⟩ := Option.bind_eq_some_iff.mp h
    obtain ⟨ds, rfl, hlen, hds⟩ := readDigits_eq_some hread
    dsimp only at hyear
    split at hyear
    · cases hyear
      exact isTimestampPart_sign (by decide) (isTimestampPart_digits hlen hds hrest)
    · cases hyear
  · obtain ⟨⟨v, rest'⟩, hread, hyear⟩ := Option.bind_eq_some_iff.mp h
    obtain ⟨ds, rfl, hlen, hds⟩ := readDigits_eq_some hread
    cases hyear
    obtain ⟨hle, hchars⟩ := isTimestampPart_digits hlen hds hrest
    exact ⟨hle.trans (by omega), hchars⟩

/-- **A canonical timestamp has at most 27 characters, all of them digits and signs.** -/
theorem isTimestampPart_of_instant {s : String} (h : (instant s).isSome = true) :
    IsTimestampPart 27 s.toList := by
  obtain ⟨t, h⟩ := Option.isSome_iff_exists.mp h
  unfold instant at h
  obtain ⟨⟨year, cs₁⟩, hyear, h⟩ := Option.bind_eq_some_iff.mp h
  obtain ⟨cs₂, h₂, h⟩ := Option.bind_eq_some_iff.mp h
  obtain ⟨⟨month, cs₃⟩, h₃, h⟩ := Option.bind_eq_some_iff.mp h
  obtain ⟨cs₄, h₄, h⟩ := Option.bind_eq_some_iff.mp h
  obtain ⟨⟨day, cs₅⟩, h₅, h⟩ := Option.bind_eq_some_iff.mp h
  obtain ⟨cs₆, h₆, h⟩ := Option.bind_eq_some_iff.mp h
  obtain ⟨⟨hour, cs₇⟩, h₇, h⟩ := Option.bind_eq_some_iff.mp h
  obtain ⟨cs₈, h₈, h⟩ := Option.bind_eq_some_iff.mp h
  obtain ⟨⟨minute, cs₉⟩, h₉, h⟩ := Option.bind_eq_some_iff.mp h
  obtain ⟨cs₁₀, h₁₀, h⟩ := Option.bind_eq_some_iff.mp h
  obtain ⟨⟨second, cs₁₁⟩, h₁₁, h⟩ := Option.bind_eq_some_iff.mp h
  obtain ⟨cs₁₂, h₁₂, h⟩ := Option.bind_eq_some_iff.mp h
  obtain ⟨⟨ms, cs₁₃⟩, h₁₃, h⟩ := Option.bind_eq_some_iff.mp h
  obtain ⟨cs₁₄, h₁₄, h⟩ := Option.bind_eq_some_iff.mp h
  dsimp only at *
  split at h
  · next hend =>
    have part₁₄ : IsTimestampPart 0 cs₁₄ := by
      rw [hend.1]
      exact ⟨le_rfl, by simp⟩
    have sign {c : Char} {cs rest : List Char} {m : Nat} (hread : readChar c cs = some rest)
        (hc : isTimestampChar c = true) (hrest : IsTimestampPart m rest) :
        IsTimestampPart (m + 1) cs := by
      rw [readChar_eq_some hread]
      exact isTimestampPart_sign hc hrest
    have digits {n v m : Nat} {cs rest : List Char} (hread : readDigits n cs = some (v, rest))
        (hrest : IsTimestampPart m rest) : IsTimestampPart (m + n) cs := by
      obtain ⟨ds, rfl, hlen, hds⟩ := readDigits_eq_some hread
      exact isTimestampPart_digits hlen hds hrest
    have part₁₂ := digits h₁₃ (sign h₁₄ (by decide) part₁₄)
    have part₁₀ := digits h₁₁ (sign h₁₂ (by decide) part₁₂)
    have part₈ := digits h₉ (sign h₁₀ (by decide) part₁₀)
    have part₆ := digits h₇ (sign h₈ (by decide) part₈)
    have part₄ := digits h₅ (sign h₆ (by decide) part₆)
    have part₂ := digits h₃ (sign h₄ (by decide) part₄)
    exact isTimestampPart_year hyear (sign h₂ (by decide) part₂)
  · cases h

/-! ## The type -/

def isIsoTimestamp (s : String) : Bool := (instant s).isSome

structure IsoTimestamp where
  text : String
  valid : isIsoTimestamp text = true
  deriving DecidableEq

namespace IsoTimestamp

theorem ext {s t : IsoTimestamp} (h : s.text = t.text) : s = t := by
  cases s; cases t; cases h; rfl

theorem text_injective : Function.Injective IsoTimestamp.text := fun _ _ => ext

instance : LinearOrder IsoTimestamp := LinearOrder.lift' text text_injective

end IsoTimestamp

def assertIsoTimestamp (value name : String) : Except Thrown IsoTimestamp :=
  if h : isIsoTimestamp value = true then .ok ⟨value, h⟩
  else .error (invalidInput s!"{name} must be a canonical ISO timestamp")

theorem assertIsoTimestamp_eq_ok {value name : String} {t : IsoTimestamp} :
    assertIsoTimestamp value name = .ok t ↔ t.text = value := by
  unfold assertIsoTimestamp
  split
  · next h =>
    simp only [Except.ok.injEq]
    exact ⟨fun he => he ▸ rfl, fun he => IsoTimestamp.ext he.symm⟩
  · next h =>
    refine ⟨(nomatch ·), fun he => absurd t.valid ?_⟩
    rwa [he]

@[simp] theorem assertIsoTimestamp_text {name : String} (t : IsoTimestamp) :
    assertIsoTimestamp t.text name = .ok t :=
  assertIsoTimestamp_eq_ok.mpr rfl

end DumpLedger
