import DumpLedger.Domain.JsonSize
import DumpLedger.Http.Contracts.Uploads
import DumpLedger.Properties.ManifestFields
import DumpLedger.Properties.Tar

/-!
# The codec of the filename header

* `utf8DecodeRound_eq_ok` — a round reads the UTF-8 of one character, and nothing else
* `utf8Decode_eq_ok`, `utf8Encode_utf16` — the codec is UTF-8
* `bytesToBase64Url_eq` — and base64url
* `filename_header` — a safe name comes back from its header, which is short enough
-/

namespace DumpLedger.Uploads

open Lib

/-! ## Bits -/

theorem and_3f (x : Nat) : x &&& 0x3f = x % 64 := Nat.and_two_pow_sub_one_eq_mod x 6

theorem or_3f (x y : Nat) : x <<< 6 ||| y &&& 0x3f = x * 64 + y % 64 := by
  rw [and_3f, ← Nat.shiftLeft_add_eq_or_of_lt (Nat.mod_lt y (by decide)), Nat.shiftLeft_eq]

theorem continuation_iff {b : Nat} (h : b < 256) : b &&& 0xc0 = 0x80 ↔ 0x80 ≤ b ∧ b < 0xc0 := by
  have hall : ∀ b : Fin 256, b.val &&& 0xc0 = 0x80 ↔ 0x80 ≤ b.val ∧ b.val < 0xc0 := by
    decide +kernel
  exact hall ⟨b, h⟩

theorem or_80 {x : Nat} (h : x < 64) : 0x80 ||| x = 0x80 + x := by
  have hall : ∀ x : Fin 64, 0x80 ||| x.val = 0x80 + x.val := by decide
  exact hall ⟨x, h⟩

theorem or_c0 {x : Nat} (h : x < 32) : 0xc0 ||| x = 0xc0 + x := by
  have hall : ∀ x : Fin 32, 0xc0 ||| x.val = 0xc0 + x.val := by decide
  exact hall ⟨x, h⟩

theorem or_e0 {x : Nat} (h : x < 16) : 0xe0 ||| x = 0xe0 + x := by
  have hall : ∀ x : Fin 16, 0xe0 ||| x.val = 0xe0 + x.val := by decide
  exact hall ⟨x, h⟩

theorem or_f0 {x : Nat} (h : x < 8) : 0xf0 ||| x = 0xf0 + x := by
  have hall : ∀ x : Fin 8, 0xf0 ||| x.val = 0xf0 + x.val := by decide
  exact hall ⟨x, h⟩

/-! ## The UTF-8 of a character -/

/-- A character is one, two, three or four bytes. -/
theorem utf8EncodeChar_cases (c : Char) :
    c.toNat < 0x80 ∧ String.utf8EncodeChar c = [c.toNat.toUInt8] ∨
    (0x80 ≤ c.toNat ∧ c.toNat < 0x800) ∧ String.utf8EncodeChar c =
      [(0xc0 + c.toNat / 64).toUInt8, (0x80 + c.toNat % 64).toUInt8] ∨
    (0x800 ≤ c.toNat ∧ c.toNat < 0x10000) ∧ String.utf8EncodeChar c =
      [(0xe0 + c.toNat / 4096).toUInt8, (0x80 + c.toNat / 64 % 64).toUInt8,
        (0x80 + c.toNat % 64).toUInt8] ∨
    (0x10000 ≤ c.toNat ∧ c.toNat < 0x110000) ∧ String.utf8EncodeChar c =
      [(0xf0 + c.toNat / 262144).toUInt8, (0x80 + c.toNat / 4096 % 64).toUInt8,
        (0x80 + c.toNat / 64 % 64).toUInt8, (0x80 + c.toNat % 64).toUInt8] := by
  have hbounds := char_bounds c
  have hval : c.val.toNat = c.toNat := rfl
  unfold String.utf8EncodeChar
  dsimp only
  rw [hval]
  by_cases h1 : c.toNat ≤ 0x7f
  · rw [if_pos h1]
    exact Or.inl ⟨by omega, rfl⟩
  · rw [if_neg h1]
    by_cases h2 : c.toNat ≤ 0x7ff
    · rw [if_pos h2]
      refine Or.inr (Or.inl ⟨by omega, ?_⟩)
      rw [show c.toNat / 64 % 0x20 + 0xc0 = 0xc0 + c.toNat / 64 by omega,
        Nat.add_comm (c.toNat % 0x40)]
    · rw [if_neg h2]
      by_cases h3 : c.toNat ≤ 0xffff
      · rw [if_pos h3]
        refine Or.inr (Or.inr (Or.inl ⟨by omega, ?_⟩))
        rw [show c.toNat / 4096 % 0x10 + 0xe0 = 0xe0 + c.toNat / 4096 by omega,
          Nat.add_comm (c.toNat / 64 % 0x40), Nat.add_comm (c.toNat % 0x40)]
      · rw [if_neg h3]
        refine Or.inr (Or.inr (Or.inr ⟨by omega, ?_⟩))
        rw [show c.toNat / 262144 % 0x08 + 0xf0 = 0xf0 + c.toNat / 262144 by omega,
          Nat.add_comm (c.toNat / 4096 % 0x40), Nat.add_comm (c.toNat / 64 % 0x40),
          Nat.add_comm (c.toNat % 0x40)]

/-- The encoder writes the UTF-8 of a character. -/
theorem utf8EncodeCode_char (c : Char) : utf8EncodeCode c.toNat = String.utf8EncodeChar c := by
  unfold utf8EncodeCode
  simp only [and_3f, Nat.shiftRight_eq_div_pow, Nat.reducePow]
  obtain ⟨h, henc⟩ | ⟨h, henc⟩ | ⟨h, henc⟩ | ⟨h, henc⟩ := utf8EncodeChar_cases c
  · rw [if_pos h, henc]
  · rw [if_neg (by omega), if_pos h.2, henc, or_c0 (by omega), or_80 (by omega)]
  · rw [if_neg (by omega), if_neg (by omega), if_pos h.2, henc, or_e0 (by omega),
      or_80 (by omega), or_80 (by omega)]
  · rw [if_neg (by omega), if_neg (by omega), if_neg (by omega), henc, or_f0 (by omega),
      or_80 (by omega), or_80 (by omega), or_80 (by omega)]

/-! ## One round of the decoder -/

theorem leadByte_two {f : Nat} (h : 0xc2 ≤ f ∧ f ≤ 0xdf) :
    leadByte f = some ⟨f % 32, 1, 0x80⟩ := by
  rw [leadByte, if_pos h, show (0x1f : Nat) = 2 ^ 5 - 1 from rfl, Nat.and_two_pow_sub_one_eq_mod]

theorem leadByte_three {f : Nat} (h : 0xe0 ≤ f ∧ f ≤ 0xef) :
    leadByte f = some ⟨f % 16, 2, 0x800⟩ := by
  rw [leadByte, if_neg (by omega), if_pos h, show (0x0f : Nat) = 2 ^ 4 - 1 from rfl,
    Nat.and_two_pow_sub_one_eq_mod]

theorem leadByte_four {f : Nat} (h : 0xf0 ≤ f ∧ f ≤ 0xf4) :
    leadByte f = some ⟨f % 8, 3, 0x10000⟩ := by
  rw [leadByte, if_neg (by omega), if_neg (by omega), if_pos h,
    show (0x07 : Nat) = 2 ^ 3 - 1 from rfl, Nat.and_two_pow_sub_one_eq_mod]

theorem leadByte_cases {f : Nat} {lead : LeadByte} (h : leadByte f = some lead) :
    (0xc2 ≤ f ∧ f ≤ 0xdf) ∧ lead = ⟨f % 32, 1, 0x80⟩ ∨
    (0xe0 ≤ f ∧ f ≤ 0xef) ∧ lead = ⟨f % 16, 2, 0x800⟩ ∨
    (0xf0 ≤ f ∧ f ≤ 0xf4) ∧ lead = ⟨f % 8, 3, 0x10000⟩ := by
  by_cases h2 : 0xc2 ≤ f ∧ f ≤ 0xdf
  · rw [leadByte_two h2] at h
    exact Or.inl ⟨h2, (Option.some.inj h).symm⟩
  · by_cases h3 : 0xe0 ≤ f ∧ f ≤ 0xef
    · rw [leadByte_three h3] at h
      exact Or.inr (Or.inl ⟨h3, (Option.some.inj h).symm⟩)
    · by_cases h4 : 0xf0 ≤ f ∧ f ≤ 0xf4
      · rw [leadByte_four h4] at h
        exact Or.inr (Or.inr ⟨h4, (Option.some.inj h).symm⟩)
      · rw [leadByte, if_neg h2, if_neg h3, if_neg h4] at h
        cases h

/-- `10xxxxxx`. -/
def IsContinuation (b : UInt8) : Prop := 0x80 ≤ b.toNat ∧ b.toNat < 0xc0

theorem continuations_cons {code value : Nat} {b : UInt8} {rest : Bytes} :
    continuations code (b :: rest) = some value ↔
      IsContinuation b ∧ continuations (code * 64 + b.toNat % 64) rest = some value := by
  rw [continuations, or_3f]
  by_cases h : IsContinuation b
  · rw [if_pos ((continuation_iff b.toNat_lt).mpr h)]
    simp [h]
  · rw [if_neg fun hc => h ((continuation_iff b.toNat_lt).mp hc)]
    simp [h]

/-- A number that is a scalar value. -/
def IsScalar (n : Nat) : Prop := n < 0xd800 ∨ 0xdfff < n ∧ n < 0x110000

theorem toUInt8_eq {n : Nat} {b : UInt8} (h : n = b.toNat) : n.toUInt8 = b := by
  rw [h, Nat.toUInt8_eq, UInt8.ofNat_toNat]

theorem toNat_toUInt8 {n : Nat} (h : n < 256) : n.toUInt8.toNat = n := by
  rw [Nat.toUInt8_eq, UInt8.toNat_ofNat', Nat.mod_eq_of_lt h]

theorem isContinuation_of {x : Nat} (h : x < 64) : IsContinuation (0x80 + x).toUInt8 := by
  unfold IsContinuation
  rw [toNat_toUInt8 (by omega)]
  omega

/-- What the checks of a round say of the bytes. -/
theorem utf8DecodeRound_checks {path : String} {first : UInt8} {rest after : Bytes} {code : Nat} :
    utf8DecodeRound path first rest = .ok (code, after) ↔
      first.toNat < 0x80 ∧ code = first.toNat ∧ after = rest ∨
      0x80 ≤ first.toNat ∧ ∃ lead, leadByte first.toNat = some lead ∧
        lead.extra ≤ rest.length ∧ continuations lead.code (rest.take lead.extra) = some code ∧
        lead.minimum ≤ code ∧ IsScalar code ∧ after = rest.drop lead.extra := by
  unfold utf8DecodeRound
  dsimp only
  by_cases hsmall : first.toNat < 0x80
  · rw [if_pos hsmall]
    simp only [Except.ok.injEq, Prod.mk.injEq]
    constructor
    · rintro ⟨rfl, rfl⟩
      exact Or.inl ⟨hsmall, rfl, rfl⟩
    · rintro (⟨-, rfl, rfl⟩ | ⟨hlarge, -⟩)
      · exact ⟨rfl, rfl⟩
      · omega
  · rw [if_neg hsmall]
    simp only [bind_eq_ok, orThrow_eq_ok, guardThat_eq_ok, pure_eq_ok, Prod.mk.injEq]
    constructor
    · rintro ⟨lead, hlead, _, hlength, code', hcode, _, hscalar, rfl, rfl⟩
      refine Or.inr ⟨by omega, lead, hlead, hlength, hcode, by omega, ?_, rfl⟩
      unfold IsScalar
      omega
    · rintro (⟨h, -, -⟩ | ⟨-, lead, hlead, hlength, hcode, hmin, hscalar, rfl⟩)
      · exact absurd h hsmall
      · unfold IsScalar at hscalar
        exact ⟨lead, hlead, (), hlength, code, hcode, (), by omega, rfl, rfl⟩

/-! The bytes that a lead byte and its continuations come from. -/

theorem encode_two {first b : UInt8} {code : Nat}
    (hfirst : 0xc2 ≤ first.toNat ∧ first.toNat ≤ 0xdf) (hb : IsContinuation b)
    (hvalue : first.toNat % 32 * 64 + b.toNat % 64 = code) (hscalar : IsScalar code) :
    [first, b] = String.utf8EncodeChar (Char.ofNat code) := by
  have hcases := utf8EncodeChar_cases (Char.ofNat code)
  rw [char_toNat_ofNat hscalar] at hcases
  unfold IsContinuation at hb
  clear hscalar
  obtain ⟨h, -⟩ | ⟨-, henc⟩ | ⟨h, -⟩ | ⟨h, -⟩ := hcases
  · omega
  · rw [henc, @toUInt8_eq _ first (by omega), @toUInt8_eq _ b (by omega)]
  · omega
  · omega

theorem encode_three {first b b' : UInt8} {code : Nat}
    (hfirst : 0xe0 ≤ first.toNat ∧ first.toNat ≤ 0xef) (hb : IsContinuation b)
    (hb' : IsContinuation b')
    (hvalue : (first.toNat % 16 * 64 + b.toNat % 64) * 64 + b'.toNat % 64 = code)
    (hmin : 0x800 ≤ code) (hscalar : IsScalar code) :
    [first, b, b'] = String.utf8EncodeChar (Char.ofNat code) := by
  have hcases := utf8EncodeChar_cases (Char.ofNat code)
  rw [char_toNat_ofNat hscalar] at hcases
  unfold IsContinuation at hb hb'
  clear hscalar
  obtain ⟨h, -⟩ | ⟨h, -⟩ | ⟨-, henc⟩ | ⟨h, -⟩ := hcases
  · omega
  · omega
  · rw [henc, @toUInt8_eq _ first (by omega), @toUInt8_eq _ b (by omega),
      @toUInt8_eq _ b' (by omega)]
  · omega

theorem encode_four {first b b' b'' : UInt8} {code : Nat}
    (hfirst : 0xf0 ≤ first.toNat ∧ first.toNat ≤ 0xf4) (hb : IsContinuation b)
    (hb' : IsContinuation b') (hb'' : IsContinuation b'')
    (hvalue : ((first.toNat % 8 * 64 + b.toNat % 64) * 64 + b'.toNat % 64) * 64 +
      b''.toNat % 64 = code)
    (hmin : 0x10000 ≤ code) (hscalar : IsScalar code) :
    [first, b, b', b''] = String.utf8EncodeChar (Char.ofNat code) := by
  have hcases := utf8EncodeChar_cases (Char.ofNat code)
  rw [char_toNat_ofNat hscalar] at hcases
  unfold IsContinuation at hb hb' hb''
  clear hscalar
  obtain ⟨h, -⟩ | ⟨h, -⟩ | ⟨h, -⟩ | ⟨-, henc⟩ := hcases
  · omega
  · omega
  · omega
  · rw [henc, @toUInt8_eq _ first (by omega), @toUInt8_eq _ b (by omega),
      @toUInt8_eq _ b' (by omega), @toUInt8_eq _ b'' (by omega)]

/-- The bytes that a round has read are those of its character. -/
theorem encode_of_lead {first : UInt8} {rest : Bytes} {lead : LeadByte} {code : Nat}
    (hlead : leadByte first.toNat = some lead) (hlength : lead.extra ≤ rest.length)
    (hcode : continuations lead.code (rest.take lead.extra) = some code)
    (hmin : lead.minimum ≤ code) (hscalar : IsScalar code) :
    first :: rest = String.utf8EncodeChar (Char.ofNat code) ++ rest.drop lead.extra := by
  obtain ⟨hfirst, rfl⟩ | ⟨hfirst, rfl⟩ | ⟨hfirst, rfl⟩ := leadByte_cases hlead
  · match rest, hlength with
    | b :: rest, _ =>
      obtain ⟨hb, hend⟩ := continuations_cons.mp hcode
      rw [← encode_two hfirst hb (Option.some.inj hend) hscalar]
      rfl
  · match rest, hlength with
    | b :: b' :: rest, _ =>
      obtain ⟨hb, hcode⟩ := continuations_cons.mp hcode
      obtain ⟨hb', hend⟩ := continuations_cons.mp hcode
      rw [← encode_three hfirst hb hb' (Option.some.inj hend) hmin hscalar]
      rfl
  · match rest, hlength with
    | b :: b' :: b'' :: rest, _ =>
      obtain ⟨hb, hcode⟩ := continuations_cons.mp hcode
      obtain ⟨hb', hcode⟩ := continuations_cons.mp hcode
      obtain ⟨hb'', hend⟩ := continuations_cons.mp hcode
      rw [← encode_four hfirst hb hb' hb'' (Option.some.inj hend) hmin hscalar]
      rfl

/-! What a round reads from the bytes of a character. -/

theorem continuations_two {n : Nat} (h : 0x80 ≤ n ∧ n < 0x800) :
    leadByte (0xc0 + n / 64) = some ⟨(0xc0 + n / 64) % 32, 1, 0x80⟩ ∧
      continuations ((0xc0 + n / 64) % 32) [(0x80 + n % 64).toUInt8] = some n := by
  refine ⟨leadByte_two (by omega), continuations_cons.mpr ⟨?_, ?_⟩⟩
  · exact isContinuation_of (by omega)
  · rw [toNat_toUInt8 (by omega)]
    refine congrArg some ?_
    omega

theorem continuations_three {n : Nat} (h : 0x800 ≤ n ∧ n < 0x10000) :
    leadByte (0xe0 + n / 4096) = some ⟨(0xe0 + n / 4096) % 16, 2, 0x800⟩ ∧
      continuations ((0xe0 + n / 4096) % 16)
        [(0x80 + n / 64 % 64).toUInt8, (0x80 + n % 64).toUInt8] = some n := by
  refine ⟨leadByte_three (by omega), continuations_cons.mpr ⟨?_, continuations_cons.mpr ⟨?_, ?_⟩⟩⟩
  · exact isContinuation_of (by omega)
  · exact isContinuation_of (by omega)
  · rw [toNat_toUInt8 (by omega), toNat_toUInt8 (by omega)]
    refine congrArg some ?_
    omega

theorem continuations_four {n : Nat} (h : 0x10000 ≤ n ∧ n < 0x110000) :
    leadByte (0xf0 + n / 262144) = some ⟨(0xf0 + n / 262144) % 8, 3, 0x10000⟩ ∧
      continuations ((0xf0 + n / 262144) % 8) [(0x80 + n / 4096 % 64).toUInt8,
        (0x80 + n / 64 % 64).toUInt8, (0x80 + n % 64).toUInt8] = some n := by
  refine ⟨leadByte_four (by omega), continuations_cons.mpr ⟨?_, continuations_cons.mpr ⟨?_,
    continuations_cons.mpr ⟨?_, ?_⟩⟩⟩⟩
  · exact isContinuation_of (by omega)
  · exact isContinuation_of (by omega)
  · exact isContinuation_of (by omega)
  · rw [toNat_toUInt8 (by omega), toNat_toUInt8 (by omega), toNat_toUInt8 (by omega)]
    refine congrArg some ?_
    omega

/-- **A round reads the UTF-8 of one character.** -/
theorem utf8DecodeRound_eq_ok {path : String} {first : UInt8} {rest after : Bytes} {code : Nat} :
    utf8DecodeRound path first rest = .ok (code, after) ↔
      ∃ c : Char, c.toNat = code ∧ first :: rest = String.utf8EncodeChar c ++ after := by
  rw [utf8DecodeRound_checks]
  constructor
  · rintro (⟨hsmall, rfl, rfl⟩ | ⟨-, lead, hlead, hlength, hcode, hmin, hscalar, rfl⟩)
    · have hnat : (Char.ofNat first.toNat).toNat = first.toNat := char_toNat_ofNat (by omega)
      refine ⟨Char.ofNat first.toNat, hnat, ?_⟩
      obtain ⟨-, henc⟩ | ⟨h, -⟩ | ⟨h, -⟩ | ⟨h, -⟩ := utf8EncodeChar_cases (Char.ofNat first.toNat)
      · rw [henc, toUInt8_eq hnat]
        rfl
      all_goals omega
    · exact ⟨Char.ofNat code, char_toNat_ofNat hscalar,
        encode_of_lead hlead hlength hcode hmin hscalar⟩
  · rintro ⟨c, rfl, henc⟩
    have hscalar : IsScalar c.toNat := char_bounds c
    obtain ⟨h, hc⟩ | ⟨h, hc⟩ | ⟨h, hc⟩ | ⟨h, hc⟩ := utf8EncodeChar_cases c
    · rw [hc] at henc
      obtain ⟨rfl, rfl⟩ := List.cons.inj henc
      exact Or.inl ⟨by rw [toNat_toUInt8 (by omega)]; exact h,
        (toNat_toUInt8 (by omega)).symm, rfl⟩
    · rw [hc] at henc
      obtain ⟨rfl, rfl⟩ := List.cons.inj henc
      obtain ⟨hlead, hcode⟩ := continuations_two h
      rw [toNat_toUInt8 (by omega)]
      exact Or.inr ⟨by omega, _, hlead, by simp, hcode, h.1, hscalar, rfl⟩
    · rw [hc] at henc
      obtain ⟨rfl, rfl⟩ := List.cons.inj henc
      obtain ⟨hlead, hcode⟩ := continuations_three h
      rw [toNat_toUInt8 (by omega)]
      exact Or.inr ⟨by omega, _, hlead, by simp, hcode, h.1, hscalar, rfl⟩
    · rw [hc] at henc
      obtain ⟨rfl, rfl⟩ := List.cons.inj henc
      obtain ⟨hlead, hcode⟩ := continuations_four h
      rw [toNat_toUInt8 (by omega)]
      exact Or.inr ⟨by omega, _, hlead, by simp, hcode, h.1, hscalar, rfl⟩

/-! ## The codec -/

theorem codeUnits_char (c : Char) : codeUnits c.toNat = charUnits c := by
  unfold codeUnits charUnits highSurrogate lowSurrogate
  by_cases h : c.toNat < 0x10000
  · rw [if_neg (by omega), if_pos h]
  · rw [if_pos (by omega), if_neg h, Nat.shiftRight_eq_div_pow,
      show (0x3ff : Nat) = 2 ^ 10 - 1 from rfl, Nat.and_two_pow_sub_one_eq_mod]

theorem utf8Decode_nil {path : String} : utf8Decode path [] = .ok [] := by
  rw [utf8Decode]

theorem utf8Decode_cons_eq_ok {path : String} {first : UInt8} {rest : Bytes} {text : Units} :
    utf8Decode path (first :: rest) = .ok text ↔
      ∃ code after output, utf8DecodeRound path first rest = .ok (code, after) ∧
        utf8Decode path after = .ok output ∧ text = codeUnits code ++ output := by
  rw [utf8Decode]
  split
  · next e he => simp [he]
  · next code after he =>
    simp only [bind_eq_ok, pure_eq_ok, he, Except.ok.injEq, Prod.mk.injEq]
    constructor
    · rintro ⟨output, houtput, rfl⟩
      exact ⟨code, after, output, ⟨rfl, rfl⟩, houtput, rfl⟩
    · rintro ⟨_, _, output, ⟨rfl, rfl⟩, houtput, rfl⟩
      exact ⟨output, houtput, rfl⟩

/-- **The decoder accepts the UTF-8 of a text, and nothing else.** -/
theorem utf8Decode_eq_ok {path : String} {bytes : Bytes} {text : Units} :
    utf8Decode path bytes = .ok text ↔ ∃ s : String, utf8Bytes s = bytes ∧ utf16 s = text := by
  suffices h : utf8Decode path bytes = .ok text ↔
      ∃ cs : List Char, cs.flatMap String.utf8EncodeChar = bytes ∧ cs.flatMap charUnits = text by
    rw [h]
    constructor
    · rintro ⟨cs, rfl, rfl⟩
      exact ⟨String.ofList cs, by rw [Tar.utf8Bytes_eq, String.toList_ofList],
        by rw [utf16, String.toList_ofList]⟩
    · rintro ⟨s, rfl, rfl⟩
      exact ⟨s.toList, (Tar.utf8Bytes_eq s).symm, rfl⟩
  constructor
  · intro h
    induction bytes using utf8Decode.induct path generalizing text with
    | case1 =>
      rw [utf8Decode_nil] at h
      cases h
      exact ⟨[], rfl, rfl⟩
    | case2 first rest e he =>
      obtain ⟨code, after, _, hround, -⟩ := utf8Decode_cons_eq_ok.mp h
      rw [he] at hround
      cases hround
    | case3 first rest code after he ih =>
      obtain ⟨code', after', output, hround, houtput, rfl⟩ := utf8Decode_cons_eq_ok.mp h
      rw [he] at hround
      cases hround
      obtain ⟨c, rfl, henc⟩ := utf8DecodeRound_eq_ok.mp he
      obtain ⟨cs, rfl, rfl⟩ := ih houtput
      exact ⟨c :: cs, by rw [List.flatMap_cons, henc],
        by rw [List.flatMap_cons, codeUnits_char]⟩
  · rintro ⟨cs, rfl, rfl⟩
    induction cs with
    | nil => exact utf8Decode_nil
    | cons c cs ih =>
      rw [List.flatMap_cons, List.flatMap_cons]
      obtain ⟨first, rest, henc⟩ : ∃ first rest, String.utf8EncodeChar c = first :: rest :=
        List.exists_cons_of_ne_nil String.utf8EncodeChar_ne_nil
      rw [henc, List.cons_append, utf8Decode_cons_eq_ok]
      refine ⟨c.toNat, _, _, utf8DecodeRound_eq_ok.mpr ⟨c, rfl, ?_⟩, ih, by rw [codeUnits_char]⟩
      rw [henc]
      rfl

theorem utf8Encode_cons {c : Char} (hsmall : c.toNat < 0x10000) (rest : Units) :
    utf8Encode (c.toNat.toUInt16 :: rest) = String.utf8EncodeChar c ++ utf8Encode rest := by
  have hbounds := char_bounds c
  have hunit : (c.toNat.toUInt16).toNat = c.toNat := by
    simp only [Nat.toUInt16_eq, UInt16.toNat_ofNat']
    omega
  have hhigh : Lib.isHighSurrogate c.toNat.toUInt16 = false := by
    simp only [Lib.isHighSurrogate, hunit, Bool.and_eq_false_iff, decide_eq_false_iff_not]
    omega
  have hlow : Lib.isLowSurrogate c.toNat.toUInt16 = false := by
    simp only [Lib.isLowSurrogate, hunit, Bool.and_eq_false_iff, decide_eq_false_iff_not]
    omega
  have hcode : utf8EncodeCode (singleCode c.toNat.toUInt16) = String.utf8EncodeChar c := by
    rw [singleCode, hlow, if_neg (by simp), hunit, utf8EncodeCode_char]
  cases rest with
  | nil => rw [utf8Encode, utf8Encode, hcode, List.append_nil]
  | cons v rest => rw [utf8Encode, hhigh, if_neg (by simp), hcode]

/-- A character is encoded as its UTF-8, a pair of surrogates as one character. -/
theorem utf8Encode_charUnits (c : Char) (rest : Units) :
    utf8Encode (charUnits c ++ rest) = String.utf8EncodeChar c ++ utf8Encode rest := by
  unfold charUnits
  by_cases hsmall : c.toNat < 0x10000
  · rw [if_pos hsmall]
    exact utf8Encode_cons hsmall rest
  · have hbounds := char_bounds c
    have hhighNat : (highSurrogate c.toNat).toNat = 0xD800 + (c.toNat - 0x10000) / 0x400 := by
      unfold highSurrogate
      simp only [Nat.toUInt16_eq, UInt16.toNat_ofNat']
      omega
    have hlowNat : (lowSurrogate c.toNat).toNat = 0xDC00 + (c.toNat - 0x10000) % 0x400 := by
      unfold lowSurrogate
      simp only [Nat.toUInt16_eq, UInt16.toNat_ofNat']
      omega
    have hvalue : 0x10000 + (0xD800 + (c.toNat - 0x10000) / 0x400 - 0xd800) <<< 10 +
        (0xDC00 + (c.toNat - 0x10000) % 0x400 - 0xdc00) = c.toNat := by
      rw [Nat.shiftLeft_eq]
      omega
    rw [if_neg hsmall, List.cons_append, List.singleton_append, utf8Encode,
      if_pos (isHighSurrogate_iff.mpr (by omega)), if_pos (isLowSurrogate_iff.mpr (by omega)),
      hhighNat, hlowNat, hvalue, utf8EncodeCode_char]

/-- **The encoder writes the UTF-8 of a text.** -/
theorem utf8Encode_utf16 (s : String) : utf8Encode (utf16 s) = utf8Bytes s := by
  rw [Tar.utf8Bytes_eq, utf16]
  induction s.toList with
  | nil => rw [List.flatMap_nil, List.flatMap_nil, utf8Encode]
  | cons c cs ih => rw [List.flatMap_cons, List.flatMap_cons, utf8Encode_charUnits, ih]

/-! ## base64url -/

/-- Three bytes as a number of 24 bits. -/
theorem group_eq {a b c : Nat} (hb : b < 256) (hc : c < 256) :
    a <<< 16 ||| b <<< 8 ||| c = a * 65536 + b * 256 + c := by
  have hlow : b <<< 8 < 2 ^ 16 := by
    rw [Nat.shiftLeft_eq]
    omega
  have hhigh : a <<< 16 ||| b <<< 8 = (a * 256 + b) <<< 8 := by
    rw [← Nat.shiftLeft_add_eq_or_of_lt hlow, Nat.shiftLeft_eq, Nat.shiftLeft_eq,
      Nat.shiftLeft_eq]
    omega
  rw [hhigh, ← Nat.shiftLeft_add_eq_or_of_lt (show c < 2 ^ 8 from hc), Nat.shiftLeft_eq]
  omega

/-- The four characters of a group of three bytes. -/
theorem group_characters {a b c : Nat} (ha : a < 256) (hb : b < 256) (hc : c < 256) :
    (a <<< 16 ||| b <<< 8 ||| c) >>> 18 &&& 63 = a / 4 ∧
    (a <<< 16 ||| b <<< 8 ||| c) >>> 12 &&& 63 = a % 4 * 16 + b / 16 ∧
    (a <<< 16 ||| b <<< 8 ||| c) >>> 6 &&& 63 = b % 16 * 4 + c / 64 ∧
    (a <<< 16 ||| b <<< 8 ||| c) &&& 63 = c % 64 := by
  have h63 : ∀ x : Nat, x &&& 63 = x % 64 := and_3f
  rw [group_eq hb hc]
  simp only [h63, Nat.shiftRight_eq_div_pow, Nat.reducePow]
  refine ⟨?_, ?_, ?_, ?_⟩ <;> omega

/-- `bytesToBase64Url` is base64url. -/
theorem bytesToBase64Url_eq (bytes : Bytes) : bytesToBase64Url bytes = Base64Url.encode bytes := by
  induction bytes using Base64Url.encode.induct with
  | case1 a b c rest ih =>
    obtain ⟨h0, h1, h2, h3⟩ := group_characters a.toNat_lt b.toNat_lt c.toNat_lt
    simp only [bytesToBase64Url, Base64Url.encode, ih, h0, h1, h2, h3]
  | case2 a b =>
    obtain ⟨h0, h1, h2, -⟩ := group_characters a.toNat_lt b.toNat_lt (show 0 < 256 by decide)
    simp only [bytesToBase64Url, Base64Url.encode, h0, h1, h2, Nat.zero_div, Nat.add_zero]
  | case3 a =>
    obtain ⟨h0, h1, -, -⟩ := group_characters a.toNat_lt (show 0 < 256 by decide)
      (show 0 < 256 by decide)
    simp only [bytesToBase64Url, Base64Url.encode, h0, h1, Nat.zero_div, Nat.add_zero]
  | case4 => rfl

theorem base64UrlToBytes_encode {bytes : Bytes} (h : bytes ≠ []) (path : String) :
    base64UrlToBytes (String.ofList (bytesToBase64Url bytes)) path = .ok bytes := by
  rw [bytesToBase64Url_eq]
  unfold base64UrlToBytes
  have hlength := Base64Url.length_encode bytes
  have hne : String.ofList (Base64Url.encode bytes) ≠ "" := by
    intro hempty
    have hnil : Base64Url.encode bytes = [] := by
      rw [← @String.toList_ofList (Base64Url.encode bytes), hempty]
      rfl
    have hpos := List.length_pos_of_ne_nil h
    rw [hnil, List.length_nil] at hlength
    omega
  have hall : (Base64Url.encode bytes).all Base64Url.isCharacter = true :=
    List.all_eq_true.mpr
      (Base64Url.encode_forall (fun n hn => Base64Url.isCharacter_character hn) bytes)
  rw [String.toList_ofList, if_neg ?_, if_neg ?_, Base64Url.decode_encode]
  · rw [hlength]
    omega
  · simp [hne, hall]

/-! ## The header -/

/-- A name takes at most three bytes for each of its units. -/
theorem length_utf8Bytes_le (s : String) : (utf8Bytes s).length ≤ 3 * (utf16 s).length := by
  rw [length_utf8Bytes]
  exact utf8ByteSize_le s

/-- A string without lone surrogates is the code units of its characters. -/
theorem chars?_eq_some {units : Units} {cs : List Char} (h : chars? units = some cs) :
    cs.flatMap charUnits = units := by
  induction units using chars?.induct generalizing cs with
  | case1 =>
    cases h
    rfl
  | case2 u hu v rest hv ih =>
    rw [chars?, if_pos hu, if_pos hv, Option.map_eq_some_iff] at h
    obtain ⟨cs', hcs', rfl⟩ := h
    have hpair : charUnits (Char.ofNat (0x10000 + (u.toNat - 0xD800) * 0x400 +
        (v.toNat - 0xDC00))) = [u, v] := units_pairPoint hu hv
    rw [List.flatMap_cons, ih hcs', hpair]
    rfl
  | case3 u hu v rest hv =>
    rw [chars?, if_pos hu, if_neg hv] at h
    cases h
  | case4 u hu =>
    rw [chars?, if_pos hu] at h
    cases h
  | case5 u rest hu hlow =>
    rw [chars?.eq_def] at h
    dsimp only at h
    rw [if_neg hu, if_pos hlow] at h
    cases h
  | case6 u rest hu hlow ih =>
    rw [chars?.eq_def] at h
    dsimp only at h
    rw [if_neg hu, if_neg hlow, Option.map_eq_some_iff] at h
    obtain ⟨cs', hcs', rfl⟩ := h
    have hsingle := units_singlePoint u
    rw [singlePoint, if_neg (by simp [hu, hlow])] at hsingle
    have hunit : charUnits (Char.ofNat u.toNat) = [u] := hsingle
    rw [List.flatMap_cons, ih hcs', hunit]
    rfl

/-- What a safe name is. -/
theorem isSafe_bounds {filename : Units} (h : isSafeUploadFilename filename = true) :
    filename ≠ [] ∧ filename.length ≤ 1024 := by
  unfold isSafeUploadFilename at h
  simp only [Bool.and_eq_true, decide_eq_true_eq] at h
  exact h.1.1.1

theorem encodeFilename_utf16 (s : String) :
    encodeFilenameBase64url (utf16 s) = String.ofList (bytesToBase64Url (utf8Bytes s)) := by
  rw [encodeFilenameBase64url, utf8Encode_utf16]

/-- The header of a safe name is within the limit. -/
theorem length_header {s : String} (h : isSafeUploadFilename (utf16 s) = true) :
    utf16Length (encodeFilenameBase64url (utf16 s)) ≤ maxFilenameHeaderLength := by
  have hsafe := isSafe_bounds h
  have hbytes := length_utf8Bytes_le s
  have hascii : ∀ c ∈ (encodeFilenameBase64url (utf16 s)).toList, c.toNat < 128 := by
    rw [encodeFilename_utf16, String.toList_ofList, bytesToBase64Url_eq]
    exact Base64Url.encode_forall (fun n hn => Base64Url.character_ascii hn) _
  rw [← length_utf16, length_utf16_ascii hascii, encodeFilename_utf16, String.toList_ofList,
    bytesToBase64Url_eq, Base64Url.length_encode]
  unfold maxFilenameHeaderLength
  omega

/-- A safe name comes back from its header. -/
theorem decode_header {s : String} (h : isSafeUploadFilename (utf16 s) = true) (path : String) :
    decodeFilenameBase64url (some (encodeFilenameBase64url (utf16 s))) path = .ok (utf16 s) := by
  have hbytes : utf8Bytes s ≠ [] := by
    intro hnil
    obtain rfl : s = "" := utf8Bytes_injective hnil
    exact (isSafe_bounds h).1 rfl
  have hdecode : utf8Decode path (utf8Bytes s) = .ok (utf16 s) :=
    utf8Decode_eq_ok.mpr ⟨s, rfl, rfl⟩
  have hbase64 : base64UrlToBytes (encodeFilenameBase64url (utf16 s)) path = .ok (utf8Bytes s) := by
    rw [encodeFilename_utf16]
    exact base64UrlToBytes_encode hbytes path
  unfold decodeFilenameBase64url
  rw [Option.getD_some]
  split
  · next hempty =>
    rw [hempty] at hbase64
    cases hbase64
  · rw [if_neg (Nat.not_lt.mpr (length_header h)), hbase64, bind_ok, if_neg hbytes, hdecode]
    dsimp only
    rw [if_pos h]

/-- **The filename header.** A safe name without lone surrogates comes back from its header, which
stays within the limit; the decoder accepts exactly the UTF-8 of texts, and encoding what it
accepted gives the bytes back. -/
theorem filename_header (path : String) :
    (∀ filename : Units, (ofUnits? filename).isSome = true → isSafeUploadFilename filename = true →
      utf16Length (encodeFilenameBase64url filename) ≤ maxFilenameHeaderLength ∧
      decodeFilenameBase64url (some (encodeFilenameBase64url filename)) path = .ok filename) ∧
    (∀ bytes, (∃ text, utf8Decode path bytes = .ok text) ↔
      ∃ characters : List Char, bytes = characters.flatMap String.utf8EncodeChar) ∧
    ∀ bytes text, utf8Decode path bytes = .ok text → utf8Encode text = bytes := by
  refine ⟨?_, ?_, ?_⟩
  · intro filename hwell hsafe
    obtain ⟨s, hs⟩ := Option.isSome_iff_exists.mp hwell
    obtain ⟨cs, hcs, rfl⟩ := Option.map_eq_some_iff.mp hs
    obtain rfl : utf16 (String.ofList cs) = filename := by
      rw [utf16, String.toList_ofList, chars?_eq_some hcs]
    exact ⟨length_header hsafe, decode_header hsafe path⟩
  · intro bytes
    constructor
    · rintro ⟨text, htext⟩
      obtain ⟨s, rfl, -⟩ := utf8Decode_eq_ok.mp htext
      exact ⟨s.toList, Tar.utf8Bytes_eq s⟩
    · rintro ⟨characters, rfl⟩
      refine ⟨_, utf8Decode_eq_ok.mpr ⟨String.ofList characters, ?_, rfl⟩⟩
      rw [Tar.utf8Bytes_eq, String.toList_ofList]
  · intro bytes text htext
    obtain ⟨s, rfl, rfl⟩ := utf8Decode_eq_ok.mp htext
    exact utf8Encode_utf16 s

example : encodeFilenameBase64url (utf16 "é😀.dmp") = "w6nwn5iALmRtcA" := by decide

/-! ## The header as a text -/

theorem fromUTF8?_eq_some {bytes : Bytes} {s : String} :
    String.fromUTF8? ⟨bytes.toArray⟩ = some s ↔ utf8Bytes s = bytes := by
  constructor
  · intro h
    unfold String.fromUTF8? at h
    split at h
    · cases h
      rfl
    · cases h
  · rintro rfl
    exact fromUTF8?_utf8Bytes s

/-- A condition that no surrogate meets is met by the units if it is met by the characters. -/
theorem any_utf16 {p : Nat → Bool} (h : ∀ n, 0xd800 ≤ n → p n = false) (s : String) :
    (utf16 s).any (fun u => p u.toNat) = s.toList.any fun c => p c.toNat := by
  unfold utf16
  induction s.toList with
  | nil => rfl
  | cons c cs ih =>
    rw [List.flatMap_cons, List.any_append, ih, List.any_cons]
    congr 1
    unfold charUnits
    by_cases hsmall : c.toNat < 0x10000
    · have hunit : (c.toNat.toUInt16).toNat = c.toNat := by
        simp only [Nat.toUInt16_eq, UInt16.toNat_ofNat']
        omega
      rw [if_pos hsmall, List.any_cons, List.any_nil, Bool.or_false, hunit]
    · have hbounds := char_bounds c
      rw [if_neg hsmall, h c.toNat (by omega), List.any_cons, List.any_cons, List.any_nil,
        h _ ?_, h _ ?_]
      · rfl
      · unfold lowSurrogate
        simp only [Nat.toUInt16_eq, UInt16.toNat_ofNat']
        omega
      · unfold highSurrogate
        simp only [Nat.toUInt16_eq, UInt16.toNat_ofNat']
        omega

theorem contains_utf16 {c : Char} (h : c.toNat < 128) (s : String) :
    (utf16 s).contains (unitOf c) = s.toList.contains c := by
  have hunit : (unitOf c).toNat = c.toNat := by
    unfold unitOf
    simp only [Nat.toUInt16_eq, UInt16.toNat_ofNat']
    omega
  have hunits : (utf16 s).contains (unitOf c) =
      (utf16 s).any fun u => decide (u.toNat = c.toNat) := by
    rw [List.contains_eq_any_beq]
    congr 1
    funext u
    rw [Bool.beq_eq_decide_eq, ← hunit]
    refine decide_eq_decide.mpr ?_
    rw [UInt16.toNat_inj]
    exact eq_comm
  have hchars : s.toList.contains c = s.toList.any fun d => decide (d.toNat = c.toNat) := by
    rw [List.contains_eq_any_beq]
    congr 1
    funext d
    rw [Bool.beq_eq_decide_eq]
    refine decide_eq_decide.mpr ?_
    rw [Char.toNat_inj]
    exact eq_comm
  rw [hunits, hchars]
  refine any_utf16 (p := fun n => decide (n = c.toNat)) (fun n hn => ?_) s
  simp only [decide_eq_false_iff_not]
  omega

theorem isSafeUploadFilename_utf16 (s : String) :
    isSafeUploadFilename (utf16 s) = DumpLedger.isSafeUploadFilename s := by
  have hempty : (utf16 s ≠ [] ∧ (utf16 s).length ≤ maxUploadFilenameLength) ↔
      (s ≠ "" ∧ utf16Length s ≤ maxUploadFilenameLength) := by
    rw [length_utf16]
    refine and_congr_left fun _ => ⟨?_, utf16_ne_nil⟩
    rintro hne rfl
    exact hne rfl
  have hcontrol : ((utf16 s).any fun u => decide (u.toNat ≤ 0x1f) || decide (u.toNat = 0x7f)) =
      hasControl s := by
    rw [any_utf16 (p := fun n => decide (n ≤ 0x1f) || decide (n = 0x7f)) ?_ s]
    · unfold hasControl
      congr 1
      funext c
      simp [Nat.lt_succ_iff]
    · intro n hn
      simp only [Bool.or_eq_false_iff, decide_eq_false_iff_not]
      omega
  unfold isSafeUploadFilename DumpLedger.isSafeUploadFilename
  rw [hcontrol, contains_utf16 (by decide), contains_utf16 (by decide), decide_eq_decide.mpr hempty,
    Bool.decide_and]

/-- The decoder that reads the bytes as a text decodes the same names. -/
theorem decodeFilenameBase64url_eq (headerValue : Option String) (path : String) :
    decodeFilenameBase64url headerValue path =
      (DumpLedger.decodeFilenameBase64url headerValue path).map utf16 := by
  unfold decodeFilenameBase64url DumpLedger.decodeFilenameBase64url
  generalize headerValue.getD "" = value
  by_cases hvalue : value = ""
  · subst hvalue
    rfl
  simp only
  split
  · rfl
  · cases base64UrlToBytes value path with
    | error e => rfl
    | ok bytes =>
      simp only [bind_ok]
      split
      · rfl
      · cases hdecode : utf8Decode path bytes with
        | error e =>
          cases hfrom : String.fromUTF8? ⟨bytes.toArray⟩ with
          | none => rfl
          | some s =>
            rw [utf8Decode_eq_ok.mpr ⟨s, fromUTF8?_eq_some.mp hfrom, rfl⟩] at hdecode
            cases hdecode
        | ok text =>
          obtain ⟨s, hbytes, rfl⟩ := utf8Decode_eq_ok.mp hdecode
          rw [fromUTF8?_eq_some.mpr hbytes]
          dsimp only
          rw [isSafeUploadFilename_utf16]
          split
          · rfl
          · rfl

end DumpLedger.Uploads
