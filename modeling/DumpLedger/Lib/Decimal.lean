import Mathlib

/-!
# Canonical decimals

A canonical decimal is `0`, or digits that do not start with a zero. It is what a number prints
as, and a number is read from it.

* `isCanonical_toDigits`, `toDigits_ofDigitChars` — printing and reading are inverse
-/

namespace DumpLedger.Lib

/-- `/^(0|[1-9][0-9]*)$/`. -/
def IsCanonical (cs : List Char) : Prop :=
  (∀ c ∈ cs, c.isDigit = true) ∧ (cs = ['0'] ∨ ∃ c rest, cs = c :: rest ∧ c ≠ '0')

theorem digit_bounds {c : Char} (h : c.isDigit = true) : 48 ≤ c.toNat ∧ c.toNat ≤ 57 := by
  simp only [Char.isDigit, Bool.and_eq_true, decide_eq_true_eq] at h
  exact h

/-- A digit is what its value prints as. -/
theorem digitChar_value {c : Char} (h : c.isDigit = true) :
    c.toNat - 48 < 10 ∧ Nat.digitChar (c.toNat - 48) = c := by
  obtain ⟨hlow, hhigh⟩ := digit_bounds h
  have hall : ∀ n < 10, Nat.digitChar n = Char.ofNat (48 + n) := by decide
  refine ⟨by omega, ?_⟩
  rw [hall _ (by omega), show 48 + (c.toNat - 48) = c.toNat by omega, Char.ofNat_toNat]

theorem value_eq_zero {c : Char} (h : c.isDigit = true) (hzero : c.toNat - 48 = 0) : c = '0' := by
  have hvalue := (digitChar_value h).2
  rw [hzero] at hvalue
  exact hvalue.symm

/-- Digits that do not start with a zero are what their value prints as. -/
theorem toDigits_of_leading {c : Char} {rest : List Char} (hne : c ≠ '0')
    (hdigits : ∀ d ∈ c :: rest, d.isDigit = true) :
    0 < Nat.ofDigitChars 10 (c :: rest) 0 ∧
      Nat.toDigits 10 (Nat.ofDigitChars 10 (c :: rest) 0) = c :: rest := by
  induction rest using List.reverseRecOn with
  | nil =>
    have hc := hdigits c List.mem_cons_self
    obtain ⟨hlt, hchar⟩ := digitChar_value hc
    have hvalue : Nat.ofDigitChars 10 [c] 0 = c.toNat - 48 := by
      simp [Nat.ofDigitChars_cons]
    rw [hvalue]
    refine ⟨?_, by rw [Nat.toDigits_of_lt_base hlt, hchar]⟩
    by_contra hnot
    exact hne (value_eq_zero hc (by omega))
  | append_singleton ds d ih =>
    obtain ⟨hpos, hprint⟩ := ih fun e he => hdigits e (by
      rw [← List.cons_append]
      exact List.mem_append_left _ he)
    obtain ⟨hlt, hchar⟩ := digitChar_value (hdigits d (by simp))
    have hvalue : Nat.ofDigitChars 10 (c :: (ds ++ [d])) 0 =
        10 * Nat.ofDigitChars 10 (c :: ds) 0 + (d.toNat - 48) := by
      rw [← List.cons_append, Nat.ofDigitChars_append]
      simp [Nat.ofDigitChars_cons]
    rw [hvalue]
    refine ⟨by omega, ?_⟩
    rw [← Nat.toDigits_append_toDigits (by decide) hpos hlt, hprint,
      Nat.toDigits_of_lt_base hlt, hchar, List.cons_append]

/-- **Reading and printing.** -/
theorem toDigits_ofDigitChars {cs : List Char} (h : IsCanonical cs) :
    Nat.toDigits 10 (Nat.ofDigitChars 10 cs 0) = cs := by
  obtain ⟨hdigits, rfl | ⟨c, rest, rfl, hne⟩⟩ := h
  · decide
  · exact (toDigits_of_leading hne hdigits).2

theorem isCanonical_toDigits (n : Nat) : IsCanonical (Nat.toDigits 10 n) := by
  refine ⟨fun c hc => Nat.isDigit_of_mem_toDigits (by decide) (by decide) hc, ?_⟩
  induction n using Nat.base_induction 10 (by decide) with
  | single m hm =>
    rw [Nat.toDigits_of_lt_base hm]
    by_cases hzero : m = 0
    · rw [hzero]
      exact Or.inl rfl
    · refine Or.inr ⟨_, [], rfl, ?_⟩
      have hall : ∀ n < 10, n ≠ 0 → Nat.digitChar n ≠ '0' := by decide
      exact hall m hm hzero
  | digit m k hk hm ih =>
    rw [← Nat.toDigits_append_toDigits (by decide) hm hk]
    rcases ih with ih | ⟨c, rest, hcons, hne⟩
    · have hvalue := congrArg (fun cs => Nat.ofDigitChars 10 cs 0) ih
      simp only [Nat.ofDigitChars_ten_toDigits] at hvalue
      have hzero : m = 0 := hvalue
      omega
    · rw [hcons]
      exact Or.inr ⟨c, _, rfl, hne⟩

end DumpLedger.Lib
