import DumpLedger.Domain.DateText

/-!
# The order of timestamps

The code compares timestamps as text. The fields of a timestamp stand in the order of their weight
and all texts have them at the same places, except that years outside 0 to 9999 have a sign and two
digits more. So the order of the texts is the order of the instants between years that are written
alike; a `+` sorts before the digits, and negative years sort backwards.

* `lt_of_parts` — texts of the same template compare as their fields do
* `daysFromCivil_lt_of` — the calendar runs forward
* `le_iff_instant_le`, `le_iff_instant_lt` — where the two orders agree, and where they are opposite
-/

namespace DumpLedger

/-! ## Texts of one template -/

theorem zero_le_digit {c : Char} (h : c.isDigit = true) :
    '0'.toNat ≤ c.toNat ∧ c.toNat ≤ '9'.toNat := by
  simp only [Char.isDigit, Bool.and_eq_true, decide_eq_true_eq, ge_iff_le,
    UInt32.le_iff_toNat_le] at h
  exact h

theorem readDigits_lt {n v : Nat} {cs rest : List Char} (h : readDigits n cs = some (v, rest)) :
    v < 10 ^ n := by
  induction n generalizing cs v with
  | zero =>
    cases h
    exact Nat.one_pos
  | succ n ih =>
    cases cs with
    | nil => cases h
    | cons c cs =>
      rw [readDigits] at h
      by_cases hc : c.isDigit = true
      · rw [if_pos hc] at h
        obtain ⟨⟨v', rest'⟩, hread, heq⟩ := Option.map_eq_some_iff.mp h
        cases heq
        have hlt := ih hread
        have hdigit : c.toNat - '0'.toNat ≤ 9 := by
          have hbounds := zero_le_digit hc
          have hten : '9'.toNat = '0'.toNat + 9 := rfl
          omega
        calc
          (c.toNat - '0'.toNat) * 10 ^ n + v' < (c.toNat - '0'.toNat) * 10 ^ n + 10 ^ n :=
            Nat.add_lt_add_left hlt _
          _ = (c.toNat - '0'.toNat + 1) * 10 ^ n := (Nat.succ_mul _ _).symm
          _ ≤ 10 * 10 ^ n := Nat.mul_le_mul_right _ (by omega)
          _ = 10 ^ (n + 1) := (Nat.pow_succ').symm
      · rw [if_neg hc] at h
        cases h

theorem readDigits_lt_of {n v v' : Nat} {cs cs' rest rest' : List Char}
    (h : readDigits n cs = some (v, rest)) (h' : readDigits n cs' = some (v', rest'))
    (hlt : cs < cs') : v < v' ∨ v = v' ∧ rest < rest' := by
  induction n generalizing cs cs' v v' with
  | zero =>
    cases h
    cases h'
    exact Or.inr ⟨rfl, hlt⟩
  | succ n ih =>
    cases cs with
    | nil => cases h
    | cons c cs =>
      cases cs' with
      | nil => cases h'
      | cons c' cs' =>
        rw [readDigits] at h h'
        by_cases hc : c.isDigit = true
        · by_cases hc' : c'.isDigit = true
          · rw [if_pos hc] at h
            rw [if_pos hc'] at h'
            obtain ⟨⟨u, r⟩, hread, heq⟩ := Option.map_eq_some_iff.mp h
            cases heq
            obtain ⟨⟨u', r'⟩, hread', heq'⟩ := Option.map_eq_some_iff.mp h'
            cases heq'
            rcases List.cons_lt_cons_iff.mp hlt with hdigit | ⟨rfl, htail⟩
            · refine Or.inl ?_
              have hu := readDigits_lt hread
              have hweight : c.toNat - '0'.toNat + 1 ≤ c'.toNat - '0'.toNat := by
                have hzero := zero_le_digit hc
                have hnat : c.toNat < c'.toNat := hdigit
                omega
              calc
                (c.toNat - '0'.toNat) * 10 ^ n + u < (c.toNat - '0'.toNat) * 10 ^ n + 10 ^ n :=
                  Nat.add_lt_add_left hu _
                _ = (c.toNat - '0'.toNat + 1) * 10 ^ n := (Nat.succ_mul _ _).symm
                _ ≤ (c'.toNat - '0'.toNat) * 10 ^ n := Nat.mul_le_mul_right _ hweight
                _ ≤ (c'.toNat - '0'.toNat) * 10 ^ n + u' := Nat.le_add_right _ _
            · rcases ih hread hread' htail with hu | ⟨rfl, hr⟩
              · exact Or.inl (Nat.add_lt_add_left hu _)
              · exact Or.inr ⟨rfl, hr⟩
          · rw [if_neg hc'] at h'
            cases h'
        · rw [if_neg hc] at h
          cases h

/-- The values of fields, each of a sign and some digits. -/
inductive ReadsParts : List (Char × Nat) → List Nat → List Char → List Char → Prop
  | nil {cs : List Char} : ReadsParts [] [] cs cs
  | cons {c : Char} {n v : Nat} {parts : List (Char × Nat)} {vs : List Nat}
      {cs cs₁ cs₂ rest : List Char} (hsign : readChar c cs = some cs₁)
      (hdigits : readDigits n cs₁ = some (v, cs₂)) (h : ReadsParts parts vs cs₂ rest) :
      ReadsParts ((c, n) :: parts) (v :: vs) cs rest

/-- **Texts of one template compare as their fields do.** -/
theorem lt_of_parts {parts : List (Char × Nat)} {vs vs' : List Nat} {cs cs' rest rest' : List Char}
    (h : ReadsParts parts vs cs rest) (h' : ReadsParts parts vs' cs' rest') (hlt : cs < cs') :
    vs < vs' ∨ vs = vs' ∧ rest < rest' := by
  induction h generalizing vs' cs' with
  | nil =>
    cases h'
    exact Or.inr ⟨rfl, hlt⟩
  | cons hsign hdigits _ ih =>
    cases h' with
    | cons hsign' hdigits' h' =>
      rw [readChar_eq_some hsign, readChar_eq_some hsign', List.cons_lt_cons_iff] at hlt
      have hlt := hlt.resolve_left (lt_irrefl _)
      rcases readDigits_lt_of hdigits hdigits' hlt.2 with hv | ⟨rfl, hrest⟩
      · exact Or.inl (List.cons_lt_cons_iff.mpr (Or.inl hv))
      · rcases ih h' hrest with hvs | ⟨rfl, hrest⟩
        · exact Or.inl (List.cons_lt_cons_iff.mpr (Or.inr ⟨rfl, hvs⟩))
        · exact Or.inr ⟨rfl, hrest⟩

/-! ## The calendar -/

theorem daysFromCivil_day (y : Int) (m d : Nat) :
    daysFromCivil y m d = daysFromCivil y m 0 + d := by
  unfold daysFromCivil
  dsimp only
  omega

theorem daysInMonth_pos (y : Int) (m : Nat) : 28 ≤ daysInMonth y m := by
  unfold daysInMonth
  split
  · split <;> omega
  · split <;> omega

/-- The next month begins when this one ends. -/
theorem daysFromCivil_month (y : Int) {m : Nat} (hm : 1 ≤ m) (hm' : m ≤ 11) :
    daysFromCivil y (m + 1) 0 = daysFromCivil y m 0 + daysInMonth y m := by
  by_cases hfeb : m = 2
  · subst hfeb
    simp only [daysFromCivil, daysInMonth, isLeapYear]
    by_cases h4 : y % 4 = 0 <;> by_cases h100 : y % 100 = 0 <;> by_cases h400 : y % 400 = 0 <;>
      simp [h4, h100, h400] <;> omega
  · simp only [daysFromCivil, daysInMonth, hfeb, if_false]
    interval_cases m <;> simp at hfeb ⊢ <;> omega

theorem daysFromCivil_months (y : Int) {m m' : Nat} (hm : 1 ≤ m) (hlt : m < m') (hm' : m' ≤ 12) :
    daysFromCivil y m 0 + daysInMonth y m ≤ daysFromCivil y m' 0 := by
  induction m', hlt using Nat.le_induction with
  | base => exact (daysFromCivil_month y hm (by omega)).ge
  | succ n hn ih =>
    have hstep := daysFromCivil_month y (Nat.le_trans hm (Nat.le_of_succ_le hn)) (by omega : n ≤ 11)
    have hprev := ih (by omega)
    omega

/-- The next year begins when this one ends. -/
theorem daysFromCivil_year (y : Int) : daysFromCivil (y + 1) 1 0 = daysFromCivil y 12 0 + 31 := by
  simp only [daysFromCivil, show ¬ (12 ≤ 2) by omega, if_false, show (1 ≤ 2) by omega, if_true,
    Int.add_sub_cancel]
  omega

theorem daysFromCivil_endOfYear (y : Int) {m d : Nat} (hm : 1 ≤ m) (hm' : m ≤ 12)
    (hd : d ≤ daysInMonth y m) : daysFromCivil y m d ≤ daysFromCivil y 12 0 + 31 := by
  rw [daysFromCivil_day]
  rcases Nat.lt_or_eq_of_le hm' with hlt | rfl
  · have hmonths := daysFromCivil_months y hm hlt le_rfl
    omega
  · have hlast : daysInMonth y 12 = 31 := rfl
    omega

theorem daysFromCivil_years {y y' : Int} (h : y < y') :
    daysFromCivil y 12 0 + 31 ≤ daysFromCivil y' 1 0 := by
  induction y', (h : y + 1 ≤ y') using Int.leInduction with
  | base => exact (daysFromCivil_year y).ge
  | succ n hn ih =>
    have hyear := @daysFromCivil_endOfYear n 1 0 le_rfl (by omega) (by omega)
    have hnext := daysFromCivil_year n
    omega

/-- **The calendar runs forward.** -/
theorem daysFromCivil_lt_of {y y' : Int} {m m' d d' : Nat} (hm : 1 ≤ m) (hm' : m ≤ 12)
    (hd : d ≤ daysInMonth y m) (hm₁ : 1 ≤ m') (hm₁' : m' ≤ 12) (hd₁ : 1 ≤ d')
    (h : y < y' ∨ y = y' ∧ (m < m' ∨ m = m' ∧ d < d')) :
    daysFromCivil y m d < daysFromCivil y' m' d' := by
  have hfirst := daysFromCivil_day y' m' d'
  rcases h with hy | ⟨rfl, hmonth | ⟨rfl, hday⟩⟩
  · have hend := daysFromCivil_endOfYear y hm hm' hd
    have hyears := daysFromCivil_years hy
    rcases Nat.lt_or_eq_of_le hm₁ with hlater | rfl
    · have hmonths := daysFromCivil_months y' le_rfl hlater hm₁'
      omega
    · omega
  · have hstart := daysFromCivil_day y m d
    have hmonths := daysFromCivil_months y hm hmonth hm₁'
    omega
  · have hstart := daysFromCivil_day y m d
    omega

/-! ## The fields of a timestamp -/

structure DateFields where
  year : Int
  month : Nat
  day : Nat
  hour : Nat
  minute : Nat
  second : Nat
  ms : Nat

namespace DateFields

/-- The signs before the fields after the year, and their digits. -/
def template : List (Char × Nat) := [('-', 2), ('-', 2), ('T', 2), (':', 2), (':', 2), ('.', 3)]

def parts (f : DateFields) : List Nat := [f.month, f.day, f.hour, f.minute, f.second, f.ms]

def time (f : DateFields) : Int :=
  daysFromCivil f.year f.month f.day * 86400000 +
    ((f.hour * 60 + f.minute) * 60 + f.second) * 1000 + f.ms

structure Valid (f : DateFields) : Prop where
  month : 1 ≤ f.month ∧ f.month ≤ 12
  day : 1 ≤ f.day ∧ f.day ≤ daysInMonth f.year f.month
  hour : f.hour ≤ 23
  minute : f.minute ≤ 59
  second : f.second ≤ 59
  ms : f.ms < 1000

/-- **An instant of a larger weight is later.** -/
theorem time_lt {f f' : DateFields} (h : f.Valid) (h' : f'.Valid)
    (hlt : f.year < f'.year ∨ f.year = f'.year ∧ f.parts < f'.parts) : f.time < f'.time := by
  have hdays := @daysFromCivil_lt_of f.year f'.year f.month f'.month f.day f'.day h.month.1
    h.month.2 h.day.2 h'.month.1 h'.month.2 h'.day.1
  obtain ⟨hmonth, hday, hhour, hminute, hsecond, hms⟩ := h
  obtain ⟨hmonth', hday', hhour', hminute', hsecond', hms'⟩ := h'
  simp only [parts, List.cons_lt_cons_iff, lt_irrefl, and_false, or_false] at hlt
  unfold time
  rcases hlt with hy | ⟨hy, hm | ⟨hm, hd | ⟨hd, hrest⟩⟩⟩
  · have hearlier := hdays (Or.inl hy)
    omega
  · have hearlier := hdays (Or.inr ⟨hy, Or.inl hm⟩)
    omega
  · have hearlier := hdays (Or.inr ⟨hy, Or.inr ⟨hm, hd⟩⟩)
    omega
  · rw [hy, hm, hd]
    omega

end DateFields

theorem instant_eq_some {s : String} {t : Int} (h : instant s = some t) :
    ∃ (f : DateFields) (cs : List Char), readYear s.toList = some (f.year, cs) ∧
      ReadsParts DateFields.template f.parts cs ['Z'] ∧ f.Valid ∧ f.time = t := by
  unfold instant at h
  obtain ⟨⟨year, cs₁⟩, hyear, h⟩ := Option.bind_eq_some_iff.mp h
  obtain ⟨cs₂, h₂, h⟩ := Option.bind_eq_some_iff.mp h
  obtain ⟨⟨month, cs₃⟩, h₃, h⟩ := Option.bind_eq_some_iff.mp h
  obtain ⟨cs₄, h₄, h⟩ := Option.bind_eq_some_iff.mp h
  obtain ⟨⟨day, cs₅⟩, h₅, h⟩ := Option.bind_eq_some_iff.mp h
  obtain ⟨cs₆, h₆, h⟩ := Option.bind_eq_some_iff.mp h
  obtain ⟨⟨hour, cs₇⟩, h₇, h⟩ := Option.bind_eq_some_iff.mp h
  obtain ⟨cs₈, h₈, h⟩ := Option.bind_eq_some_iff.mp h
  obtain ⟨⟨minute, cs₉⟩, h₉, h⟩ := Option.bind_eq_some_iff.mp h
  obtain ⟨cs₁₀, h₁₀, h⟩ := Option.bind_eq_some_iff.mp h
  obtain ⟨⟨second, cs₁₁⟩, h₁₁, h⟩ := Option.bind_eq_some_iff.mp h
  obtain ⟨cs₁₂, h₁₂, h⟩ := Option.bind_eq_some_iff.mp h
  obtain ⟨⟨ms, cs₁₃⟩, h₁₃, h⟩ := Option.bind_eq_some_iff.mp h
  obtain ⟨cs₁₄, h₁₄, h⟩ := Option.bind_eq_some_iff.mp h
  dsimp only at *
  split at h
  · next hend =>
    obtain ⟨rfl, hmonth, hmonth', hday, hday', hhour, hminute, hsecond, -⟩ := hend
    cases h
    rw [readChar_eq_some h₁₄] at h₁₃
    exact ⟨⟨year, month, day, hour, minute, second, ms⟩, cs₁, hyear,
      .cons h₂ h₃ (.cons h₄ h₅ (.cons h₆ h₇ (.cons h₈ h₉ (.cons h₁₀ h₁₁ (.cons h₁₂ h₁₃ .nil))))),
      ⟨⟨hmonth, hmonth'⟩, ⟨hday, hday'⟩, hhour, hminute, hsecond, readDigits_lt h₁₃⟩, rfl⟩
  · cases h

/-! ## Years -/

/-- A year with a `+`, a year with a `-`, or four digits. -/
inductive ReadsYear : List Char → Int → List Char → Prop
  | plus {cs rest : List Char} {v : Nat} (hdigits : readDigits 6 cs = some (v, rest))
      (hlarge : 9999 < v) : ReadsYear ('+' :: cs) v rest
  | minus {cs rest : List Char} {v : Nat} (hdigits : readDigits 6 cs = some (v, rest))
      (hpos : 0 < v) : ReadsYear ('-' :: cs) (-v) rest
  | plain {cs rest : List Char} {v : Nat} (hdigits : readDigits 4 cs = some (v, rest)) :
      ReadsYear cs v rest

theorem readsYear {cs rest : List Char} {y : Int} (h : readYear cs = some (y, rest)) :
    ReadsYear cs y rest := by
  unfold readYear at h
  split at h
  · obtain ⟨⟨v, rest'⟩, hread, hyear⟩ := Option.bind_eq_some_iff.mp h
    dsimp only at hyear
    split at hyear
    · next hlarge =>
      cases hyear
      exact .plus hread hlarge
    · cases hyear
  · obtain ⟨⟨v, rest'⟩, hread, hyear⟩ := Option.bind_eq_some_iff.mp h
    dsimp only at hyear
    split at hyear
    · next hpos =>
      cases hyear
      exact .minus hread hpos
    · cases hyear
  · obtain ⟨⟨v, rest'⟩, hread, hyear⟩ := Option.bind_eq_some_iff.mp h
    cases hyear
    exact .plain hread

/-- Years whose texts sort as the years do. -/
def TextOrdered (y y' : Int) : Prop :=
  y = y' ∨ (9999 < y ∧ 9999 < y') ∨ (y ≤ 9999 ∧ y' ≤ 9999 ∧ (0 ≤ y ∨ 0 ≤ y'))

instance (y y' : Int) : Decidable (TextOrdered y y') := inferInstanceAs (Decidable (_ ∨ _))

theorem TextOrdered.symm {y y' : Int} (h : TextOrdered y y') : TextOrdered y' y := by
  unfold TextOrdered at *
  omega

/-- Four digits start with a digit, which sorts after both signs. -/
theorem sign_lt_of_digits {n v : Nat} {c : Char} {cs rest : List Char}
    (h : readDigits (n + 1) cs = some (v, rest)) (hc : c < '0') (cs' : List Char) :
    c :: cs' < cs := by
  cases cs with
  | nil => cases h
  | cons d cs =>
    rw [readDigits] at h
    by_cases hd : d.isDigit = true
    · exact List.cons_lt_cons_iff.mpr (Or.inl (lt_of_lt_of_le hc (zero_le_digit hd).1))
    · rw [if_neg hd] at h
      cases h

theorem year_lt_of {cs cs' rest rest' : List Char} {y y' : Int} (h : ReadsYear cs y rest)
    (h' : ReadsYear cs' y' rest') (hyears : TextOrdered y y') (hlt : cs < cs') :
    y < y' ∨ y = y' ∧ rest < rest' := by
  unfold TextOrdered at hyears
  cases h with
  | plus hdigits hlarge =>
    cases h' with
    | plus hdigits' hlarge' =>
      have htail := (List.cons_lt_cons_iff.mp hlt).resolve_left (lt_irrefl _)
      have hfields := readDigits_lt_of hdigits hdigits' htail.2
      exact hfields.imp (by omega) fun hr => ⟨by omega, hr.2⟩
    | minus hdigits' hpos' => omega
    | plain hdigits' =>
      have hfour := readDigits_lt hdigits'
      omega
  | minus hdigits hpos =>
    cases h' with
    | plus hdigits' hlarge' => omega
    | minus hdigits' hpos' =>
      have htail := (List.cons_lt_cons_iff.mp hlt).resolve_left (lt_irrefl _)
      have hfields := readDigits_lt_of hdigits hdigits' htail.2
      rcases hfields with hv | ⟨hv, hr⟩
      · omega
      · exact Or.inr ⟨by omega, hr⟩
    | plain hdigits' => exact Or.inl (by omega)
  | plain hdigits =>
    cases h' with
    | plus hdigits' hlarge' =>
      have hfour := readDigits_lt hdigits
      omega
    | minus hdigits' hpos' =>
      exact absurd hlt (lt_asymm (sign_lt_of_digits hdigits (by decide) _))
    | plain hdigits' =>
      have hfields := readDigits_lt_of hdigits hdigits' hlt
      exact hfields.imp (by omega) fun hr => ⟨by omega, hr.2⟩

/-- Other years sort backwards. -/
theorem year_gt_of {cs cs' rest rest' : List Char} {y y' : Int} (h : ReadsYear cs y rest)
    (h' : ReadsYear cs' y' rest') (hyears : ¬ TextOrdered y y') (hlt : cs < cs') : y' < y := by
  unfold TextOrdered at hyears
  cases h with
  | plus hdigits hlarge =>
    cases h' with
    | plus hdigits' hlarge' => omega
    | minus hdigits' hpos' => omega
    | plain hdigits' =>
      have hfour := readDigits_lt hdigits'
      omega
  | minus hdigits hpos =>
    cases h' with
    | plus hdigits' hlarge' =>
      have hsign := (List.cons_lt_cons_iff.mp hlt).resolve_right fun he => by simp at he
      exact absurd hsign (by decide)
    | minus hdigits' hpos' =>
      have htail := (List.cons_lt_cons_iff.mp hlt).resolve_left (lt_irrefl _)
      have hfields := readDigits_lt_of hdigits hdigits' htail.2
      omega
    | plain hdigits' =>
      have hfour := readDigits_lt hdigits'
      omega
  | plain hdigits =>
    cases h' with
    | plus hdigits' hlarge' =>
      exact absurd hlt (lt_asymm (sign_lt_of_digits hdigits (by decide) _))
    | minus hdigits' hpos' => omega
    | plain hdigits' =>
      have hfour := readDigits_lt hdigits
      have hfour' := readDigits_lt hdigits'
      omega

/-! ## The two orders -/

namespace IsoTimestamp

/-- The year that the text begins with. -/
def year (t : IsoTimestamp) : Int := ((readYear t.text.toList).map Prod.fst).getD 0

theorem exists_fields (t : IsoTimestamp) :
    ∃ (f : DateFields) (cs : List Char), readYear t.text.toList = some (f.year, cs) ∧
      ReadsParts DateFields.template f.parts cs ['Z'] ∧ f.Valid ∧ f.time = t.instant ∧
      t.year = f.year := by
  have hsome : DumpLedger.instant t.text = some t.instant := (Option.some_get _).symm
  obtain ⟨f, cs, hyear, hparts, hvalid, htime⟩ := instant_eq_some hsome
  exact ⟨f, cs, hyear, hparts, hvalid, htime, by simp [year, hyear]⟩

theorem instant_lt_of_lt {s t : IsoTimestamp} (h : TextOrdered s.year t.year) (hlt : s < t) :
    s.instant < t.instant := by
  obtain ⟨f, cs, hyear, hparts, hvalid, htime, hs⟩ := s.exists_fields
  obtain ⟨f', cs', hyear', hparts', hvalid', htime', ht⟩ := t.exists_fields
  rw [hs, ht] at h
  have htext : s.text.toList < t.text.toList := String.lt_iff_toList_lt.mp hlt
  rw [← htime, ← htime']
  refine DateFields.time_lt hvalid hvalid' ?_
  rcases year_lt_of (readsYear hyear) (readsYear hyear') h htext with hy | ⟨hy, hrest⟩
  · exact Or.inl hy
  · refine Or.inr ⟨hy, ?_⟩
    exact (lt_of_parts hparts hparts' hrest).resolve_right fun hend => lt_irrefl _ hend.2

theorem instant_gt_of_lt {s t : IsoTimestamp} (h : ¬ TextOrdered s.year t.year) (hlt : s < t) :
    t.instant < s.instant := by
  obtain ⟨f, cs, hyear, -, hvalid, htime, hs⟩ := s.exists_fields
  obtain ⟨f', cs', hyear', -, hvalid', htime', ht⟩ := t.exists_fields
  rw [hs, ht] at h
  have htext : s.text.toList < t.text.toList := String.lt_iff_toList_lt.mp hlt
  rw [← htime, ← htime']
  exact DateFields.time_lt hvalid' hvalid
    (Or.inl (year_gt_of (readsYear hyear) (readsYear hyear') h htext))

/-- **The order of the texts is the order of the instants**, between years that are written
alike. -/
theorem le_iff_instant_le {s t : IsoTimestamp} (h : TextOrdered s.year t.year) :
    s ≤ t ↔ s.instant ≤ t.instant := by
  constructor
  · intro hle
    rcases lt_or_eq_of_le hle with hlt | rfl
    · exact le_of_lt (instant_lt_of_lt h hlt)
    · exact le_rfl
  · intro hle
    by_contra hgt
    exact absurd (instant_lt_of_lt h.symm (not_le.mp hgt)) (not_lt.mpr hle)

/-- Between other years it is the opposite order. -/
theorem le_iff_instant_lt {s t : IsoTimestamp} (h : ¬ TextOrdered s.year t.year) :
    s ≤ t ↔ t.instant < s.instant := by
  constructor
  · intro hle
    rcases lt_or_eq_of_le hle with hlt | rfl
    · exact instant_gt_of_lt h hlt
    · exact absurd (Or.inl rfl) h
  · intro hlt
    by_contra hgt
    have hback := instant_gt_of_lt (fun ht => h ht.symm) (not_le.mp hgt)
    exact lt_asymm hlt hback

end IsoTimestamp

end DumpLedger
