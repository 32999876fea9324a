import DumpLedger.Domain.Errors

/-!
# Bounded text and hashes

Text the ledger stores has passed `assertText`: it is not empty, has at most a given
number of UTF-16 units and carries no NUL. `BoundedText` keeps that as a field, and
`assertText` is the only way in from raw text; `assertText_text` says that text which
got in once gets in again.

`Sha256` is the text of a SHA-256 digest, 64 lowercase hexadecimal digits.
-/

namespace DumpLedger

open Lib

/-- `String.prototype.length`: code points beyond the BMP count twice. -/
def utf16Length (s : String) : Nat :=
  (s.toList.map fun c => if c.toNat < 0x10000 then 1 else 2).sum

/-- `Number.MAX_SAFE_INTEGER`. -/
def maxSafeInteger : Nat := 9007199254740991

/-! ## Bounded text -/

def isBoundedText (maximum : Nat) (s : String) : Bool :=
  decide (s ≠ "") && decide (utf16Length s ≤ maximum) && !s.toList.contains '\x00'

structure BoundedText (maximum : Nat) where
  text : String
  valid : isBoundedText maximum text = true
  deriving DecidableEq

namespace BoundedText

@[ext] theorem ext {m : Nat} {s t : BoundedText m} (h : s.text = t.text) : s = t := by
  cases s; cases t; cases h; rfl

/-- Text within a bound is within every larger one. -/
def widen {m n : Nat} (t : BoundedText m) (h : m ≤ n) : BoundedText n where
  text := t.text
  valid := by
    have hv := t.valid
    simp only [isBoundedText, Bool.and_eq_true, decide_eq_true_eq] at hv ⊢
    exact ⟨⟨hv.1.1, hv.1.2.trans h⟩, hv.2⟩

theorem widen_injective {m n : Nat} {h : m ≤ n} {s t : BoundedText m} (he : s.widen h = t.widen h) :
    s = t :=
  ext (congrArg (fun t : BoundedText n => t.text) he)

theorem ne_empty {m : Nat} (t : BoundedText m) : t.text ≠ "" := by
  have hv := t.valid
  simp only [isBoundedText, Bool.and_eq_true, decide_eq_true_eq] at hv
  exact hv.1.1

theorem noNul {m : Nat} (t : BoundedText m) : '\x00' ∉ t.text.toList := by
  have hv := t.valid
  simp only [isBoundedText, Bool.and_eq_true, Bool.not_eq_true'] at hv
  simpa using hv.2

end BoundedText

def assertText (value name : String) (maximum : Nat) : Except Thrown (BoundedText maximum) :=
  if h : isBoundedText maximum value = true then .ok ⟨value, h⟩
  else .error (invalidInput s!"{name} is invalid")

theorem assertText_eq_ok {value name : String} {m : Nat} {t : BoundedText m} :
    assertText value name m = .ok t ↔ t.text = value := by
  unfold assertText
  split
  · next h =>
    simp only [Except.ok.injEq]
    exact ⟨fun he => he ▸ rfl, fun he => BoundedText.ext he.symm⟩
  · next h =>
    refine ⟨(nomatch ·), fun he => absurd t.valid ?_⟩
    rwa [he]

@[simp] theorem assertText_text {name : String} {m : Nat} (t : BoundedText m) :
    assertText t.text name m = .ok t :=
  assertText_eq_ok.mpr rfl

/-! ## SHA-256 digests -/

def isLowerHex (c : Char) : Bool :=
  (decide ('0' ≤ c) && decide (c ≤ '9')) || (decide ('a' ≤ c) && decide (c ≤ 'f'))

/-- `/^[0-9a-f]{64}$/`. -/
def isSha256 (s : String) : Bool :=
  decide (s.toList.length = 64) && s.toList.all isLowerHex

structure Sha256 where
  text : String
  valid : isSha256 text = true
  deriving DecidableEq

theorem Sha256.ext {s t : Sha256} (h : s.text = t.text) : s = t := by
  cases s; cases t; cases h; rfl

def assertSha256 (value : String) : Except Thrown Sha256 :=
  if h : isSha256 value = true then .ok ⟨value, h⟩
  else .error (invalidInput "sha256 must be 64 lowercase hexadecimal characters")

theorem assertSha256_eq_ok {value : String} {t : Sha256} :
    assertSha256 value = .ok t ↔ t.text = value := by
  unfold assertSha256
  split
  · next h =>
    simp only [Except.ok.injEq]
    exact ⟨fun he => he ▸ rfl, fun he => Sha256.ext he.symm⟩
  · next h =>
    refine ⟨(nomatch ·), fun he => absurd t.valid ?_⟩
    rwa [he]

@[simp] theorem assertSha256_text (t : Sha256) : assertSha256 t.text = .ok t :=
  assertSha256_eq_ok.mpr rfl

/-! ## Bytes -/

abbrev Bytes := List UInt8

/-- `Buffer.from(text, "utf8")`. -/
def utf8Bytes (s : String) : Bytes := s.toByteArray.data.toList

theorem utf8Bytes_injective : Function.Injective utf8Bytes := by
  intro s t h
  exact String.toByteArray_inj.mp (ByteArray.ext (Array.toList_inj.mp h))

theorem fromUTF8?_utf8Bytes (s : String) :
    String.fromUTF8? ⟨(utf8Bytes s).toArray⟩ = some s := by
  have hbytes : (⟨(utf8Bytes s).toArray⟩ : ByteArray) = s.toByteArray := by
    unfold utf8Bytes
    rw [Array.toArray_toList]
  rw [hbytes]
  unfold String.fromUTF8?
  rw [dif_pos s.isValidUTF8]
  rfl

/-- What the code takes from `node:crypto`. -/
structure Digests where
  /-- `createHash("sha256")`, as hexadecimal text. -/
  sha256 : Bytes → Sha256
  /-- `createHmac("sha256", grantSecretKey)`, as hexadecimal text. -/
  digestSecret : String → Sha256

end DumpLedger
