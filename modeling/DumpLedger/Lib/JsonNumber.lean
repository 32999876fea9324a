import DumpLedger.Lib.JsonSyntax

/-!
# Numbers of JSON texts

A JSON number is read as the double nearest to it, ties to even; a number too large for a double
is infinite.

* `toDouble` — the rounding
* `JsonNumber.integer?` — the number as JavaScript has it, when that is an integer
* `integer?_numberOf` — a natural number that is written down is read back
-/

namespace DumpLedger.Lib

/-! ## Doubles -/

/-- The nearest integer; of two, the even one. -/
def nearestEven (q : ℚ) : ℤ :=
  if q - ⌊q⌋ < 1 / 2 then ⌊q⌋
  else if 1 / 2 < q - ⌊q⌋ then ⌊q⌋ + 1
  else if ⌊q⌋ % 2 = 0 then ⌊q⌋
  else ⌊q⌋ + 1

/-- The distance of the doubles around `q`, which have 53 bits. -/
def doubleUlp (q : ℚ) : ℚ := 2 ^ max (Int.log 2 |q| - 52) (-1074)

/-- The double nearest to `q`, when it is finite. -/
def toDouble (q : ℚ) : Option ℚ :=
  if q = 0 then some 0
  else if |nearestEven (q / doubleUlp q) * doubleUlp q| < 2 ^ 1024 then
    some (nearestEven (q / doubleUlp q) * doubleUlp q)
  else none

theorem nearestEven_intCast (n : ℤ) : nearestEven n = n := by
  unfold nearestEven
  rw [Int.floor_intCast, sub_self, if_pos (by norm_num)]

/-- **Integers of up to 53 bits are doubles.** -/
theorem toDouble_intCast {n : ℤ} (h : n.natAbs < 2 ^ 53) : toDouble n = some (n : ℚ) := by
  unfold toDouble
  by_cases hzero : n = 0
  · rw [if_pos (by exact_mod_cast hzero), hzero, Int.cast_zero]
  have hne : ¬ (n : ℚ) = 0 := by exact_mod_cast hzero
  rw [if_neg hne]
  have habs : |(n : ℚ)| = (n.natAbs : ℚ) := by
    rw [Nat.cast_natAbs, Int.cast_abs]
  have hlog : Nat.log 2 n.natAbs < 53 :=
    Nat.log_lt_of_lt_pow (Int.natAbs_ne_zero.mpr hzero) h
  -- the distance divides one
  obtain ⟨k, hk⟩ : ∃ k : ℕ, doubleUlp n * 2 ^ k = 1 := by
    refine ⟨52 - Nat.log 2 n.natAbs, ?_⟩
    have hexponent : max ((Nat.log 2 n.natAbs : ℤ) - 52) (-1074) =
        -((52 - Nat.log 2 n.natAbs : ℕ) : ℤ) := by
      omega
    rw [doubleUlp, habs, Int.log_natCast, hexponent, zpow_neg, zpow_natCast]
    exact inv_mul_cancel₀ (by positivity)
  have hulp : doubleUlp n ≠ 0 := left_ne_zero_of_mul_eq_one hk
  have hquotient : (n : ℚ) / doubleUlp n = ((n * 2 ^ k : ℤ) : ℚ) := by
    rw [div_eq_iff hulp, Int.cast_mul, mul_assoc, Int.cast_pow, Int.cast_ofNat,
      mul_comm ((2 : ℚ) ^ k), hk, mul_one]
  have hvalue : (nearestEven ((n : ℚ) / doubleUlp n) : ℚ) * doubleUlp n = n := by
    rw [hquotient, nearestEven_intCast, ← hquotient, div_mul_cancel₀ _ hulp]
  rw [hvalue, if_pos]
  rw [habs]
  have hsmall : (n.natAbs : ℚ) < 2 ^ 53 := by exact_mod_cast h
  exact hsmall.trans_le (pow_le_pow_right₀ (by norm_num) (by norm_num))

/-! ## What a number of a text stands for -/

def decimalValue (digits : List (Fin 10)) : ℕ := 
  digits.foldl (fun value d => value * 10 + d.val) 0

def WholePart.digits : WholePart → List (Fin 10)
  | zero => [0]
  | positive first rest => first.succ :: rest

def fractionDigits (fraction : Option (Fin 10 × List (Fin 10))) : List (Fin 10) :=
  fraction.elim [] fun (first, rest) => first :: rest

def Exponent.value (e : Exponent) : ℤ :=
  if e.sign = some false then -decimalValue (e.first :: e.rest)
  else decimalValue (e.first :: e.rest)

namespace JsonNumber

/-- The number itself. -/
def value (n : JsonNumber) : ℚ :=
  (if n.negative then -1 else 1) *
    (decimalValue (n.whole.digits ++ fractionDigits n.fraction) *
      10 ^ ((n.exponent.elim 0 Exponent.value) - ((fractionDigits n.fraction).length : ℤ)))

/-- The integer that JavaScript reads, if it reads one. -/
def integer? (n : JsonNumber) : Option ℤ :=
  match toDouble n.value with
  | some d => if d.den = 1 then some d.num else none
  | none => none

end JsonNumber

/-! ## Writing a natural number -/

/-- One more digit at the end. -/
def WholePart.snoc : WholePart → Fin 10 → WholePart
  | zero, d => if h : d = 0 then zero else positive (d.pred h) []
  | positive first rest, d => positive first (rest ++ [d])

/-- The decimal digits of `n`. -/
def wholeOf (n : ℕ) : WholePart :=
  if n = 0 then .zero else (wholeOf (n / 10)).snoc ⟨n % 10, Nat.mod_lt n (by decide)⟩
termination_by n
decreasing_by omega

/-- `n` as `Number.prototype.toString` prints it. -/
def numberOf (n : ℕ) : JsonNumber := ⟨false, wholeOf n, none, none⟩

theorem decimalValue_snoc (w : WholePart) (d : Fin 10) :
    decimalValue (w.snoc d).digits = decimalValue w.digits * 10 + d := by
  cases w with
  | zero =>
    by_cases hzero : d = 0
    · subst hzero
      rfl
    · simp [WholePart.snoc, hzero, WholePart.digits, decimalValue]
  | positive first rest =>
    rw [WholePart.snoc, WholePart.digits, WholePart.digits, ← List.cons_append, decimalValue,
      List.foldl_append]
    rfl

theorem decimalValue_wholeOf (n : ℕ) : decimalValue (wholeOf n).digits = n := by
  induction n using Nat.strong_induction_on with
  | _ n ih =>
    rw [wholeOf]
    by_cases hzero : n = 0
    · rw [if_pos hzero, hzero]
      rfl
    · rw [if_neg hzero, decimalValue_snoc, ih (n / 10) (by omega)]
      simp only
      omega

theorem value_numberOf (n : ℕ) : (numberOf n).value = n := by
  simp [numberOf, JsonNumber.value, fractionDigits, decimalValue_wholeOf]

/-- **A number that is written down is read back.** -/
theorem integer?_numberOf {n : ℕ} (h : n < 2 ^ 53) : (numberOf n).integer? = some (n : ℤ) := by
  have hread : toDouble (numberOf n).value = some ((n : ℤ) : ℚ) := by
    rw [value_numberOf, ← toDouble_intCast (n := n) (by simpa using h), Int.cast_natCast]
  simp only [JsonNumber.integer?, hread]
  rw [if_pos (Rat.den_intCast _), Rat.num_intCast]

end DumpLedger.Lib
