import DumpLedger.Ledger.Catalog

/-!
# The decoders of the wire contracts

A decoder reads an untrusted value at a path. It gives the trusted value, or the error of the
first violation with the path where it lies.
-/

namespace DumpLedger

open Lib

structure DecodeError where
  path : String
  message : String
  deriving DecidableEq, Repr

/-- `throw new DecodeError(path, message)`. -/
def failAt {α : Type} (path message : String) : Except DecodeError α :=
  .error { path, message }

/-- What `text` is asked to check. -/
structure TextOptions where
  min : Nat := 1
  max : Nat
  label : String
  pattern : Option (String → Bool) := none

/-- `text`, of a value that is a string. -/
def decodeText (options : TextOptions) (value path : String) : Except DecodeError String :=
  if utf16Length value < options.min then failAt path s!"{options.label} must not be empty"
  else if options.max < utf16Length value then
    failAt path s!"{options.label} exceeds {options.max} characters"
  else if hasControl value = true then failAt path s!"{options.label} contains control characters"
  else if options.pattern.all (fun matches? => matches? value) = true then .ok value
  else failAt path s!"{options.label} is malformed"

/-! ## The catalog query -/

/-- `MAX_EXCEPTION_CODE`. -/
def maxExceptionCode : Nat := 4294967295

/-- `decodeExceptionCodeParam`. -/
def decodeExceptionCodeParam (value path : String) : Except DecodeError Nat := do
  let decoded ← decodeText
    { max := 10, label := "exceptionCode", pattern := some isCanonicalUnsigned } value path
  let code := Nat.ofDigitChars 10 decoded.toList 0
  if maxExceptionCode < code then failAt path "exceptionCode exceeds the unsigned 32-bit range"
  else .ok code

/-- The decoder of the query parameter `architecture`. -/
def decodeArchitectureParam (value path : String) : Except DecodeError String :=
  decodeText { max := maxCatalogArchitectureLength, label := "architecture" } value path

/-! ## What the decoders let through -/

theorem decodeText_eq_ok {options : TextOptions} {value path decoded : String} :
    decodeText options value path = .ok decoded ↔
      decoded = value ∧ options.min ≤ utf16Length value ∧ utf16Length value ≤ options.max ∧
        hasControl value = false ∧ options.pattern.all (fun matches? => matches? value) = true := by
  unfold decodeText failAt
  split
  · next h => simp [h]
  · split
    · next h => simp [Nat.not_le.mpr h]
    · split
      · next h => simp [h]
      · split
        · next hmin hmax hcontrol hpattern =>
          simp only [Except.ok.injEq, hpattern, and_true, Bool.not_eq_true] at hcontrol ⊢
          constructor
          · rintro rfl
            exact ⟨rfl, by omega, by omega, hcontrol⟩
          · exact fun h => h.1.symm
        · next h => simp [h]

theorem decodeExceptionCodeParam_le {value path : String} {code : Nat}
    (h : decodeExceptionCodeParam value path = .ok code) : code ≤ 0xffffffff := by
  unfold decodeExceptionCodeParam at h
  obtain ⟨decoded, -, h⟩ := bind_eq_ok.mp h
  dsimp only at h
  split at h
  · cases h
  · next hle =>
    cases h
    exact Nat.not_lt.mp hle

theorem decodeArchitectureParam_eq_ok {value path decoded : String}
    (h : decodeArchitectureParam value path = .ok decoded) :
    decoded ≠ "" ∧ utf16Length decoded ≤ maxCatalogArchitectureLength ∧
      hasControl decoded = false := by
  obtain ⟨rfl, hmin, hmax, hcontrol, -⟩ := decodeText_eq_ok.mp h
  refine ⟨?_, hmax, hcontrol⟩
  rintro rfl
  exact absurd hmin (by decide)

end DumpLedger
