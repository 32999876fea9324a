import DumpLedger.Domain.Timestamp

/-!
# Writing timestamps

`Date.prototype.toISOString`: the canonical text of an instant. It throws a `RangeError`
outside 8.64e15 ms on either side of the epoch, and so does the arithmetic of `Date` that
feeds it, so `toISOString` returns nothing there.

`instant_dateText` says that `Date.parse` reads the text back.
-/

namespace DumpLedger

/-! ## From days to the calendar -/

/-- The day of the proleptic Gregorian calendar, as a year that starts in March, the number of
its month and the day of the month, counted from zero. -/
structure MarchDate where
  year : Int
  month : Nat
  day : Nat

/-- The inverse of `daysFromCivil`: eras of 400 years, centuries, spans of four years, years.
The last century of an era and the last year of a span are a day longer. -/
def marchDateOf (days : Int) : MarchDate :=
  let era := (days + 719468) / 146097
  let dayOfEra := (days + 719468) % 146097
  let century := min (dayOfEra / 36524) 3
  let span := (dayOfEra - 36524 * century) / 1461
  let dayOfSpan := (dayOfEra - 36524 * century) % 1461
  let year := min (dayOfSpan / 365) 3
  let dayOfYear := dayOfSpan - 365 * year
  let month := (5 * dayOfYear + 2) / 153
  { year := era * 400 + 100 * century + 4 * span + year
    month := month.toNat
    day := (dayOfYear - (153 * month + 2) / 5).toNat }

namespace MarchDate

def civilYear (d : MarchDate) : Int := if d.month < 10 then d.year else d.year + 1

def civilMonth (d : MarchDate) : Nat := if d.month < 10 then d.month + 3 else d.month - 9

def civilDay (d : MarchDate) : Nat := d.day + 1

end MarchDate

/-! ## The text -/

/-- The last `n` decimal digits of a number. -/
def digits : Nat → Nat → List Char
  | 0, _ => []
  | n + 1, v => Nat.digitChar (v / 10 ^ n % 10) :: digits n v

def yearText (y : Int) : List Char :=
  if 0 ≤ y ∧ y ≤ 9999 then digits 4 y.toNat
  else (if 0 ≤ y then '+' else '-') :: digits 6 y.natAbs

/-- `YYYY-MM-DDTHH:mm:ss.sssZ`. -/
def dateText (ms : Int) : String :=
  let date := marchDateOf (ms / 86400000)
  let time := (ms % 86400000).toNat
  String.ofList (yearText date.civilYear ++
    '-' :: (digits 2 date.civilMonth ++
    '-' :: (digits 2 date.civilDay ++
    'T' :: (digits 2 (time / 3600000) ++
    ':' :: (digits 2 (time / 60000 % 60) ++
    ':' :: (digits 2 (time / 1000 % 60) ++
    '.' :: (digits 3 (time % 1000) ++ ['Z'])))))))

/-- A time value `Date` can hold. -/
def IsTimeValue (ms : Int) : Prop := -8640000000000000 ≤ ms ∧ ms ≤ 8640000000000000

instance (ms : Int) : Decidable (IsTimeValue ms) :=
  inferInstanceAs (Decidable (_ ∧ _))

example : dateText 0 = "1970-01-01T00:00:00.000Z" := by decide +kernel
example : dateText 8640000000000000 = "+275760-09-13T00:00:00.000Z" := by decide +kernel

/-! ## Reading it back -/

theorem isDigit_digitChar {n : Nat} (h : n < 10) : (Nat.digitChar n).isDigit = true := by
  rw [Nat.isDigit_digitChar, decide_eq_true h]

theorem toNat_digitChar {n : Nat} (h : n < 10) : (Nat.digitChar n).toNat - '0'.toNat = n := by
  rw [Nat.toNat_digitChar_of_lt_ten h]
  exact Nat.add_sub_cancel_left ..

theorem readDigits_digits (n v : Nat) (rest : List Char) :
    readDigits n (digits n v ++ rest) = some (v % 10 ^ n, rest) := by
  induction n with
  | zero => simp [readDigits, digits, Nat.mod_one]
  | succ n ih =>
    have hlt : v / 10 ^ n % 10 < 10 := Nat.mod_lt _ (by decide)
    rw [digits, List.cons_append, readDigits, if_pos (isDigit_digitChar hlt), ih,
      toNat_digitChar hlt, Option.map_some, Nat.mod_pow_succ]
    refine congrArg some (Prod.ext ?_ rfl)
    show v / 10 ^ n % 10 * 10 ^ n + v % 10 ^ n = v % 10 ^ n + 10 ^ n * (v / 10 ^ n % 10)
    ring

/-- Digits that hold the number give it back. -/
theorem readDigits_digits_of_lt {n v : Nat} (h : v < 10 ^ n) (rest : List Char) :
    readDigits n (digits n v ++ rest) = some (v, rest) := by
  rw [readDigits_digits, Nat.mod_eq_of_lt h]

theorem readChar_cons (c : Char) (rest : List Char) : readChar c (c :: rest) = some rest :=
  if_pos rfl

theorem readYear_yearText {y : Int} (h : y.natAbs < 10 ^ 6) (rest : List Char) :
    readYear (yearText y ++ rest) = some (y, rest) := by
  unfold yearText
  by_cases hfour : 0 ≤ y ∧ y ≤ 9999
  · rw [if_pos hfour]
    have hread := readDigits_digits_of_lt (n := 4) (v := y.toNat) (by omega) rest
    have hplus : Nat.digitChar (y.toNat / 10 ^ 3 % 10) ≠ '+' := by
      intro he
      have := isDigit_digitChar (Nat.mod_lt (y.toNat / 10 ^ 3) (by decide : 0 < 10))
      rw [he] at this
      exact absurd this (by decide)
    have hminus : Nat.digitChar (y.toNat / 10 ^ 3 % 10) ≠ '-' := by
      intro he
      have := isDigit_digitChar (Nat.mod_lt (y.toNat / 10 ^ 3) (by decide : 0 < 10))
      rw [he] at this
      exact absurd this (by decide)
    have hback : ((y.toNat : Nat) : Int) = y := Int.toNat_of_nonneg hfour.1
    rw [digits, List.cons_append] at hread ⊢
    unfold readYear
    split
    · next he => exact absurd (List.cons.inj he).1 hplus
    · next he => exact absurd (List.cons.inj he).1 hminus
    · rw [hread]
      simp [hback]
  · rw [if_neg hfour, List.cons_append]
    have hread := readDigits_digits_of_lt (n := 6) (v := y.natAbs) h rest
    by_cases hpos : 0 ≤ y
    · rw [if_pos hpos]
      simp only [readYear, hread, Option.bind_eq_bind, Option.bind_some]
      rw [if_pos (by omega)]
      simp only [Option.some.injEq, Prod.mk.injEq, and_true]
      omega
    · rw [if_neg hpos]
      simp only [readYear, hread, Option.bind_eq_bind, Option.bind_some]
      rw [if_pos (by omega)]
      simp only [Option.some.injEq, Prod.mk.injEq, and_true]
      omega

/-! ## The calendar there and back -/

/-- A day of an era: `c` centuries, `q` spans of four years, `y` years and `d` days. -/
structure EraDay (e c q y d : Int) : Prop where
  century : 0 ≤ c ∧ c ≤ 3
  span : 0 ≤ q ∧ q ≤ 24
  year : 0 ≤ y ∧ y ≤ 3
  day : 0 ≤ d ∧ d ≤ 365
  sum : e = 36524 * c + 1461 * q + 365 * y + d
  /-- The last day of a leap year ends a span, and not one that ends a short century. -/
  leap : d = 365 → y = 3 ∧ (q = 24 → c = 3)

theorem eraDay_of {e : Int} (h0 : 0 ≤ e) (h1 : e < 146097) :
    let c := min (e / 36524) 3
    let q := (e - 36524 * c) / 1461
    let y := min ((e - 36524 * c) % 1461 / 365) 3
    EraDay e c q y ((e - 36524 * c) % 1461 - 365 * y) := by
  intro c q y
  have hc : 0 ≤ c ∧ c ≤ 3 := by omega
  have hr : 0 ≤ e - 36524 * c ∧ e - 36524 * c ≤ 36524 ∧ (e - 36524 * c = 36524 → c = 3) := by
    omega
  have hq : 0 ≤ q ∧ q ≤ 24 := by omega
  constructor <;> omega

/-- What `marchDateOf` computes, in terms of the day of the era. -/
theorem marchDateOf_eq (days : Int) :
    ∃ c q y d, EraDay ((days + 719468) % 146097) c q y d ∧
      marchDateOf days =
        { year := (days + 719468) / 146097 * 400 + 100 * c + 4 * q + y
          month := ((5 * d + 2) / 153).toNat
          day := (d - (153 * ((5 * d + 2) / 153) + 2) / 5).toNat } :=
  ⟨_, _, _, _, eraDay_of (Int.emod_nonneg _ (by decide)) (Int.emod_lt_of_pos _ (by decide)), rfl⟩

/-- The month and the day of the month are those of a calendar. -/
theorem marchDateOf_valid (days : Int) :
    let date := marchDateOf days
    (1 ≤ date.civilMonth ∧ date.civilMonth ≤ 12) ∧ 1 ≤ date.civilDay ∧
      date.civilDay ≤ daysInMonth date.civilYear date.civilMonth := by
  obtain ⟨c, q, y, d, h, hdate⟩ := marchDateOf_eq days
  obtain ⟨hc, hq, hy, hd, hsum, hleap⟩ := h
  intro date
  have hmonth : 0 ≤ (5 * d + 2) / 153 ∧ (5 * d + 2) / 153 ≤ 11 := by omega
  refine ⟨?_, Nat.succ_pos _, ?_⟩
  · simp only [date, hdate, MarchDate.civilMonth]
    split <;> omega
  · simp only [date, hdate, MarchDate.civilMonth, MarchDate.civilYear, MarchDate.civilDay]
    generalize hm : (5 * d + 2) / 153 = m at *
    clear hdate
    by_cases hfebruary : m = 11
    · subst hfebruary
      generalize (days + 719468) / 146097 = era
      have hleapYear : d = 365 → isLeapYear (era * 400 + 100 * c + 4 * q + y + 1) = true := by
        intro hd
        have := hleap hd
        simp only [isLeapYear, Bool.and_eq_true, Bool.or_eq_true, Bool.not_eq_true',
          decide_eq_true_eq, decide_eq_false_iff_not]
        omega
      cases hly : isLeapYear (era * 400 + 100 * c + 4 * q + y + 1) with
      | true =>
        simp [daysInMonth, hly]
        omega
      | false =>
        have : d ≠ 365 := fun hd => by simp [hleapYear hd] at hly
        simp [daysInMonth, hly]
        omega
    · have hcases : m = 0 ∨ m = 1 ∨ m = 2 ∨ m = 3 ∨ m = 4 ∨ m = 5 ∨ m = 6 ∨ m = 7 ∨ m = 8 ∨
          m = 9 ∨ m = 10 := by omega
      rcases hcases with rfl | rfl | rfl | rfl | rfl | rfl | rfl | rfl | rfl | rfl | rfl
      all_goals
        simp [daysInMonth]
        omega

theorem daysFromCivil_marchDateOf (days : Int) :
    let date := marchDateOf days
    daysFromCivil date.civilYear date.civilMonth date.civilDay = days := by
  obtain ⟨c, q, y, d, h, hdate⟩ := marchDateOf_eq days
  obtain ⟨hc, hq, hy, hd, hsum, hleap⟩ := h
  intro date
  have hyear : (if date.civilMonth ≤ 2 then date.civilYear - 1 else date.civilYear) =
      (days + 719468) / 146097 * 400 + 100 * c + 4 * q + y := by
    simp only [date, hdate, MarchDate.civilMonth, MarchDate.civilYear]
    split <;> split <;> omega
  have hmonth : ((date.civilMonth + 9) % 12 : Int) = (5 * d + 2) / 153 := by
    simp only [date, hdate, MarchDate.civilMonth]
    split <;> omega
  have hday : ((date.civilDay : Nat) : Int) = d - (153 * ((5 * d + 2) / 153) + 2) / 5 + 1 := by
    simp only [date, hdate, MarchDate.civilDay]
    omega
  generalize hera : (days + 719468) / 146097 = era at *
  have hquot : (era * 400 + 100 * c + 4 * q + y) / 400 = era := by omega
  have hrest : (era * 400 + 100 * c + 4 * q + y) % 400 = 100 * c + 4 * q + y := by omega
  have hspans : (100 * c + 4 * q + y) / 4 = 25 * c + q := by omega
  have hcenturies : (100 * c + 4 * q + y) / 100 = c := by omega
  unfold daysFromCivil
  simp only [hyear, hmonth, hday, hquot, hrest, hspans, hcenturies]
  omega

/-- The years of the time values fit in six digits. -/
theorem civilYear_natAbs {ms : Int} (h : IsTimeValue ms) :
    (marchDateOf (ms / 86400000)).civilYear.natAbs < 10 ^ 6 := by
  obtain ⟨c, q, y, d, hday, hdate⟩ := marchDateOf_eq (ms / 86400000)
  obtain ⟨hc, hq, hy, -, -, -⟩ := hday
  unfold IsTimeValue at h
  have hera : -700 ≤ (ms / 86400000 + 719468) / 146097 ∧
      (ms / 86400000 + 719468) / 146097 ≤ 700 := by omega
  simp only [hdate, MarchDate.civilYear]
  split <;> omega

/-- **`Date.parse` reads what `toISOString` wrote.** -/
theorem instant_dateText {ms : Int} (h : IsTimeValue ms) : instant (dateText ms) = some ms := by
  have hdays := daysFromCivil_marchDateOf (ms / 86400000)
  obtain ⟨hmonth, hday, hlast⟩ := marchDateOf_valid (ms / 86400000)
  have hyear := civilYear_natAbs h
  have htime : ((ms % 86400000).toNat : Int) = ms % 86400000 :=
    Int.toNat_of_nonneg (Int.emod_nonneg _ (by decide))
  have htimeLt : (ms % 86400000).toNat < 86400000 := by omega
  unfold dateText
  generalize marchDateOf (ms / 86400000) = date at *
  generalize (ms % 86400000).toNat = time at *
  have hdayLt : date.civilDay < 10 ^ 2 := by
    have : daysInMonth date.civilYear date.civilMonth ≤ 31 := by
      unfold daysInMonth
      split
      · split <;> decide
      · split <;> decide
    omega
  unfold instant
  rw [String.toList_ofList, readYear_yearText hyear]
  dsimp only [Option.bind_eq_bind, Option.bind_some]
  rw [readChar_cons, Option.bind_some, readDigits_digits_of_lt (by omega), Option.bind_some,
    readChar_cons, Option.bind_some, readDigits_digits_of_lt hdayLt, Option.bind_some,
    readChar_cons, Option.bind_some, readDigits_digits_of_lt (by omega), Option.bind_some,
    readChar_cons, Option.bind_some, readDigits_digits_of_lt (by omega), Option.bind_some,
    readChar_cons, Option.bind_some, readDigits_digits_of_lt (by omega), Option.bind_some,
    readChar_cons, Option.bind_some, readDigits_digits_of_lt (by omega), Option.bind_some,
    readChar_cons, Option.bind_some]
  have hms : daysFromCivil date.civilYear date.civilMonth date.civilDay * 86400000 +
      ((((time / 3600000 : Nat) : Int) * 60 + ((time / 60000 % 60 : Nat) : Int)) * 60 +
        ((time / 1000 % 60 : Nat) : Int)) * 1000 + ((time % 1000 : Nat) : Int) = ms := by
    rw [hdays]
    omega
  dsimp only
  rw [hms]
  refine if_pos ⟨rfl, hmonth.1, hmonth.2, hday, hlast, ?_, ?_, ?_, h.1, h.2⟩ <;> omega

/-- `new Date(ms).toISOString()`; nothing where it throws a `RangeError`. -/
def toISOString (ms : Int) : Option IsoTimestamp :=
  if h : IsTimeValue ms then
    some ⟨dateText ms, by rw [isIsoTimestamp, instant_dateText h, Option.isSome_some]⟩
  else none

/-- `Date.parse` of a canonical timestamp. -/
def IsoTimestamp.instant (t : IsoTimestamp) : Int := (DumpLedger.instant t.text).get t.valid

theorem toISOString_eq_none {ms : Int} : toISOString ms = none ↔ ¬ IsTimeValue ms := by
  unfold toISOString
  split <;> simp [*]

/-- A text that was written stands for the instant it was written for. -/
theorem instant_of_toISOString {ms : Int} {t : IsoTimestamp} (h : toISOString ms = some t) :
    t.instant = ms := by
  unfold toISOString at h
  split at h
  · next hms =>
    cases h
    exact Option.get_of_eq_some _ (instant_dateText hms)
  · cases h

end DumpLedger
