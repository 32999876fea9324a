import DumpLedger.Http.Contracts.Decode
import DumpLedger.Lib.Base64Url

/-!
# The filename header

The name of a file that is sent as raw bytes comes in a header, as base64url text of its UTF-8.
-/

namespace DumpLedger

open Lib

/-- `MAX_DUMP_FILENAME_HEADER_LENGTH`. -/
def maxFilenameHeaderLength : Nat := 4096

/-- `MAX_UPLOAD_FILENAME_LENGTH`. -/
def maxUploadFilenameLength : Nat := 1024

def base64UrlToBytes (value path : String) : Except DecodeError Bytes :=
  if value = "" ∨ value.toList.all Base64Url.isCharacter = false then
    failAt path "value is not base64url text"
  else if value.toList.length % 4 = 1 then failAt path "base64url length is invalid"
  else .ok (Base64Url.decode value.toList)

def isSafeUploadFilename (filename : String) : Bool :=
  decide (filename ≠ "") && decide (utf16Length filename ≤ maxUploadFilenameLength) &&
    !hasControl filename && !filename.toList.contains '/' && !filename.toList.contains '\\'

/-- A header that is not sent reads as the empty one. -/
def decodeFilenameBase64url (headerValue : Option String) (path : String) :
    Except DecodeError String :=
  match headerValue.getD "" with
  | "" => failAt path "filename header must be a non-empty string"
  | value =>
    if maxFilenameHeaderLength < utf16Length value then
      failAt path "filename header exceeds the length limit"
    else do
      let bytes ← base64UrlToBytes value path
      if bytes = [] then failAt path "filename header decodes to no bytes"
      else match String.fromUTF8? ⟨bytes.toArray⟩ with
        | none => failAt path "filename is not valid UTF-8"
        | some filename =>
          if isSafeUploadFilename filename = true then .ok filename
          else failAt path "filename is empty, oversized, or contains unsafe characters"

/-- `decodeSymbolFilenameBase64url`. -/
def decodeSymbolFilenameBase64url (headerValue : Option String) : Except DecodeError String :=
  decodeFilenameBase64url headerValue "$.x-symbol-filename-base64url"

example : decodeSymbolFilenameBase64url (some "YXBwLnBkYg") = .ok "app.pdb" := by decide +kernel

end DumpLedger
