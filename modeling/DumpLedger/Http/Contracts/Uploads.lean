import DumpLedger.Http.Contracts.Filename
import DumpLedger.Lib.Guard
import DumpLedger.Lib.Utf16

/-!
# The codec of the filename header

The browser and the server share a hand-written UTF-8 and base64url codec. A filename is a
string, that is code units that may hold lone surrogates; the loops work on numbers.
-/

namespace DumpLedger.Uploads

open Lib

/-! ## base64url -/

/-- `bytesToBase64Url`, three bytes a round. -/
def bytesToBase64Url : Bytes → List Char
  | a :: b :: c :: rest =>
    let group := a.toNat <<< 16 ||| b.toNat <<< 8 ||| c.toNat
    Base64Url.character (group >>> 18 &&& 63) :: Base64Url.character (group >>> 12 &&& 63) ::
      Base64Url.character (group >>> 6 &&& 63) :: Base64Url.character (group &&& 63) ::
      bytesToBase64Url rest
  | [a, b] =>
    let group := a.toNat <<< 16 ||| b.toNat <<< 8 ||| 0
    [Base64Url.character (group >>> 18 &&& 63), Base64Url.character (group >>> 12 &&& 63),
      Base64Url.character (group >>> 6 &&& 63)]
  | [a] =>
    let group := a.toNat <<< 16 ||| 0 <<< 8 ||| 0
    [Base64Url.character (group >>> 18 &&& 63), Base64Url.character (group >>> 12 &&& 63)]
  | [] => []

/-! ## Encoding -/

/-- The bytes of a code point. -/
def utf8EncodeCode (code : Nat) : Bytes :=
  if code < 0x80 then [code.toUInt8]
  else if code < 0x800 then [(0xc0 ||| code >>> 6).toUInt8, (0x80 ||| code &&& 0x3f).toUInt8]
  else if code < 0x10000 then
    [(0xe0 ||| code >>> 12).toUInt8, (0x80 ||| code >>> 6 &&& 0x3f).toUInt8,
      (0x80 ||| code &&& 0x3f).toUInt8]
  else
    [(0xf0 ||| code >>> 18).toUInt8, (0x80 ||| code >>> 12 &&& 0x3f).toUInt8,
      (0x80 ||| code >>> 6 &&& 0x3f).toUInt8, (0x80 ||| code &&& 0x3f).toUInt8]

/-- The code point of a unit that begins no pair: a lone low surrogate is replaced. -/
def singleCode (u : CodeUnit) : Nat := if Lib.isLowSurrogate u then 0xfffd else u.toNat

/-- `utf8Encode`. A high surrogate at the very end is not replaced. -/
def utf8Encode : Units → Bytes
  | [] => []
  | [u] => utf8EncodeCode (singleCode u)
  | u :: v :: rest =>
    if Lib.isHighSurrogate u then
      if Lib.isLowSurrogate v then
        utf8EncodeCode (0x10000 + (u.toNat - 0xd800) <<< 10 + (v.toNat - 0xdc00)) ++
          utf8Encode rest
      else utf8EncodeCode 0xfffd ++ utf8Encode (v :: rest)
    else utf8EncodeCode (singleCode u) ++ utf8Encode (v :: rest)

/-! ## Decoding -/

/-- What the first byte of a longer sequence says. -/
structure LeadByte where
  code : Nat
  extra : Nat
  minimum : Nat

def leadByte (first : Nat) : Option LeadByte :=
  if 0xc2 ≤ first ∧ first ≤ 0xdf then some { code := first &&& 0x1f, extra := 1, minimum := 0x80 }
  else if 0xe0 ≤ first ∧ first ≤ 0xef then
    some { code := first &&& 0x0f, extra := 2, minimum := 0x800 }
  else if 0xf0 ≤ first ∧ first ≤ 0xf4 then
    some { code := first &&& 0x07, extra := 3, minimum := 0x10000 }
  else none

/-- The loop over the continuation bytes. -/
def continuations (code : Nat) : Bytes → Option Nat
  | [] => some code
  | continuation :: rest =>
    if continuation.toNat &&& 0xc0 = 0x80 then
      continuations (code <<< 6 ||| continuation.toNat &&& 0x3f) rest
    else none

/-- One round of the loop: a code point, and the bytes after it. -/
def utf8DecodeRound (path : String) (first : UInt8) (rest : Bytes) :
    Except DecodeError (Nat × Bytes) :=
  let invalid : DecodeError := { path, message := "invalid UTF-8" }
  if first.toNat < 0x80 then .ok (first.toNat, rest)
  else do
    let lead ← orThrow (leadByte first.toNat) invalid
    guardThat (lead.extra ≤ rest.length) invalid
    let code ← orThrow (continuations lead.code (rest.take lead.extra)) invalid
    guardThat (¬ (code < lead.minimum ∨ 0x10ffff < code ∨ 0xd800 ≤ code ∧ code ≤ 0xdfff)) invalid
    return (code, rest.drop lead.extra)

/-- `String.fromCharCode` of one or two units. -/
def codeUnits (code : Nat) : Units :=
  if 0xffff < code then
    [(0xd800 + (code - 0x10000) >>> 10).toUInt16, (0xdc00 + (code - 0x10000 &&& 0x3ff)).toUInt16]
  else [code.toUInt16]

theorem utf8DecodeRound_length {path : String} {first : UInt8} {rest after : Bytes} {code : Nat}
    (h : utf8DecodeRound path first rest = .ok (code, after)) : after.length ≤ rest.length := by
  unfold utf8DecodeRound at h
  dsimp only at h
  split at h
  · cases h
    exact Nat.le_refl _
  · obtain ⟨lead, -, h⟩ := bind_eq_ok.mp h
    obtain ⟨_, -, h⟩ := bind_eq_ok.mp h
    obtain ⟨code', -, h⟩ := bind_eq_ok.mp h
    obtain ⟨_, -, h⟩ := bind_eq_ok.mp h
    cases h
    rw [List.length_drop]
    exact Nat.sub_le ..

/-- `utf8Decode`. -/
def utf8Decode (path : String) : Bytes → Except DecodeError Units
  | [] => .ok []
  | first :: rest =>
    match _h : utf8DecodeRound path first rest with
    | .error e => .error e
    | .ok (code, after) => do
      let output ← utf8Decode path after
      return codeUnits code ++ output
termination_by bytes => bytes.length
decreasing_by exact Nat.lt_succ_of_le (utf8DecodeRound_length _h)

/-! ## The header -/

/-- `encodeFilenameBase64url`. -/
def encodeFilenameBase64url (filename : Units) : String :=
  String.ofList (bytesToBase64Url (utf8Encode filename))

/-- `isSafeUploadFilename`. -/
def isSafeUploadFilename (filename : Units) : Bool :=
  decide (filename ≠ [] ∧ filename.length ≤ maxUploadFilenameLength) &&
    !(filename.any fun u => decide (u.toNat ≤ 0x1f) || decide (u.toNat = 0x7f)) &&
    !filename.contains (unitOf '/') && !filename.contains (unitOf '\\')

/-- `decodeFilenameBase64url`, with the codec of this module. -/
def decodeFilenameBase64url (headerValue : Option String) (path : String) :
    Except DecodeError Units :=
  match headerValue.getD "" with
  | "" => failAt path "filename header must be a non-empty string"
  | value =>
    if maxFilenameHeaderLength < utf16Length value then
      failAt path "filename header exceeds the length limit"
    else do
      let bytes ← base64UrlToBytes value path
      if bytes = [] then failAt path "filename header decodes to no bytes"
      else match utf8Decode path bytes with
        | .error _ => failAt path "filename is not valid UTF-8"
        | .ok filename =>
          if isSafeUploadFilename filename = true then .ok filename
          else failAt path "filename is empty, oversized, or contains unsafe characters"

end DumpLedger.Uploads
