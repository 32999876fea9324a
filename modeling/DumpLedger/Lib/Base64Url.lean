import Mathlib

/-!
# base64url

Three bytes are four characters of six bits each; one or two bytes at the end are two or
three characters, without padding. `decode` reads every character that is not in the
alphabet as zero, and drops a character that is left alone.

* `decode_encode` — the bytes of an encoded text
* `encode_forall`, `length_encode` — what an encoded text looks like
-/

namespace DumpLedger.Lib.Base64Url

/-! ## Characters -/

def alphabet : List Char :=
  ['A', 'B', 'C', 'D', 'E', 'F', 'G', 'H', 'I', 'J', 'K', 'L', 'M', 'N', 'O', 'P',
    'Q', 'R', 'S', 'T', 'U', 'V', 'W', 'X', 'Y', 'Z', 'a', 'b', 'c', 'd', 'e', 'f',
    'g', 'h', 'i', 'j', 'k', 'l', 'm', 'n', 'o', 'p', 'q', 'r', 's', 't', 'u', 'v',
    'w', 'x', 'y', 'z', '0', '1', '2', '3', '4', '5', '6', '7', '8', '9', '-', '_']

/-- `[A-Za-z0-9_-]`. -/
def isCharacter (c : Char) : Bool := alphabet.contains c

/-- The character of six bits. -/
def character (n : Nat) : Char := alphabet.getD n 'A'

def bits (c : Char) : Nat := if isCharacter c then alphabet.idxOf c else 0

theorem bits_character {n : Nat} (h : n < 64) : bits (character n) = n := by
  have hall : ∀ n : Fin 64, bits (character n) = n := by decide +kernel
  exact hall ⟨n, h⟩

theorem isCharacter_character {n : Nat} (h : n < 64) : isCharacter (character n) = true := by
  have hall : ∀ n : Fin 64, isCharacter (character n) = true := by decide +kernel
  exact hall ⟨n, h⟩

theorem character_ascii {n : Nat} (h : n < 64) : (character n).toNat < 128 := by
  have hall : ∀ n : Fin 64, (character n).toNat < 128 := by decide +kernel
  exact hall ⟨n, h⟩

/-! ## Texts -/

def encode : List UInt8 → List Char
  | a :: b :: c :: rest =>
    character (a.toNat / 4) :: character (a.toNat % 4 * 16 + b.toNat / 16) ::
      character (b.toNat % 16 * 4 + c.toNat / 64) :: character (c.toNat % 64) :: encode rest
  | [a, b] =>
    [character (a.toNat / 4), character (a.toNat % 4 * 16 + b.toNat / 16),
      character (b.toNat % 16 * 4)]
  | [a] => [character (a.toNat / 4), character (a.toNat % 4 * 16)]
  | [] => []

/-- The first byte of two characters, and the second and third of the next. -/
def firstByte (p q : Nat) : UInt8 := (p * 4 + q / 16).toUInt8

def secondByte (q r : Nat) : UInt8 := (q % 16 * 16 + r / 4).toUInt8

def thirdByte (r s : Nat) : UInt8 := (r % 4 * 64 + s).toUInt8

def decode : List Char → List UInt8
  | p :: q :: r :: s :: rest =>
    firstByte (bits p) (bits q) :: secondByte (bits q) (bits r) :: thirdByte (bits r) (bits s) ::
      decode rest
  | [p, q, r] => [firstByte (bits p) (bits q), secondByte (bits q) (bits r)]
  | [p, q] => [firstByte (bits p) (bits q)]
  | [_] | [] => []

example : String.ofList (encode [77, 97, 110, 77]) = "TWFuTQ" := by decide +kernel

/-! ## Round trip -/

theorem toNat_lt (a : UInt8) : a.toNat < 256 := a.toNat_lt

theorem firstByte_eq (a : UInt8) {x : Nat} (h : x < 16) :
    firstByte (a.toNat / 4) (a.toNat % 4 * 16 + x) = a := by
  have hvalue : a.toNat / 4 * 4 + (a.toNat % 4 * 16 + x) / 16 = a.toNat := by omega
  unfold firstByte
  rw [hvalue]
  simp

theorem secondByte_eq (b : UInt8) {y x : Nat} (h : x < 4) :
    secondByte (y * 16 + b.toNat / 16) (b.toNat % 16 * 4 + x) = b := by
  have hb := toNat_lt b
  have hvalue : (y * 16 + b.toNat / 16) % 16 * 16 + (b.toNat % 16 * 4 + x) / 4 = b.toNat := by
    omega
  unfold secondByte
  rw [hvalue]
  simp

theorem thirdByte_eq (c : UInt8) {y : Nat} :
    thirdByte (y * 4 + c.toNat / 64) (c.toNat % 64) = c := by
  have hc := toNat_lt c
  have hvalue : (y * 4 + c.toNat / 64) % 4 * 64 + c.toNat % 64 = c.toNat := by omega
  unfold thirdByte
  rw [hvalue]
  simp

/-- **Encoded bytes are read back.** -/
theorem decode_encode (bytes : List UInt8) : decode (encode bytes) = bytes := by
  induction bytes using encode.induct with
  | case1 a b c rest ih =>
    have ha := toNat_lt a
    have hb := toNat_lt b
    have hc := toNat_lt c
    rw [encode, decode, bits_character (by omega), bits_character (by omega),
      bits_character (by omega), bits_character (by omega), firstByte_eq a (by omega),
      secondByte_eq b (by omega), thirdByte_eq c, ih]
  | case2 a b =>
    have ha := toNat_lt a
    have hb := toNat_lt b
    rw [encode, decode, bits_character (by omega), bits_character (by omega),
      bits_character (by omega), firstByte_eq a (by omega)]
    have hsecond := secondByte_eq b (y := a.toNat % 4) (x := 0) (by omega)
    rw [Nat.add_zero] at hsecond
    rw [hsecond]
  | case3 a =>
    have ha := toNat_lt a
    rw [encode, decode, bits_character (by omega), bits_character (by omega)]
    have hfirst := firstByte_eq a (x := 0) (by omega)
    rw [Nat.add_zero] at hfirst
    rw [hfirst]
  | case4 => rfl

/-- Every character of an encoded text is one of the alphabet. -/
theorem encode_forall {P : Char → Prop} (h : ∀ n, n < 64 → P (character n))
    (bytes : List UInt8) : ∀ c ∈ encode bytes, P c := by
  induction bytes using encode.induct with
  | case1 a b c rest ih =>
    have ha := toNat_lt a
    have hb := toNat_lt b
    have hc := toNat_lt c
    simp only [encode, List.mem_cons, forall_eq_or_imp]
    exact ⟨h _ (by omega), h _ (by omega), h _ (by omega), h _ (by omega), ih⟩
  | case2 a b =>
    have ha := toNat_lt a
    have hb := toNat_lt b
    simp only [encode, List.mem_cons, forall_eq_or_imp, List.not_mem_nil, false_implies,
      implies_true, and_true]
    exact ⟨h _ (by omega), h _ (by omega), h _ (by omega)⟩
  | case3 a =>
    have ha := toNat_lt a
    simp only [encode, List.mem_cons, forall_eq_or_imp, List.not_mem_nil, false_implies,
      implies_true, and_true]
    exact ⟨h _ (by omega), h _ (by omega)⟩
  | case4 => simp [encode]

theorem length_encode (bytes : List UInt8) :
    (encode bytes).length = (bytes.length * 4 + 2) / 3 := by
  induction bytes using encode.induct with
  | case1 a b c rest ih =>
    simp only [encode, List.length_cons, ih]
    omega
  | case2 | case3 | case4 => simp [encode]

end DumpLedger.Lib.Base64Url
