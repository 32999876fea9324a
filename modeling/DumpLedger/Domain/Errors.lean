import DumpLedger.Lib.Guard

/-!
# Errors

What the code can throw. A `DumpLedgerError` carries one of ten stable codes and a
message; `TypeError` and `RangeError` come from the identifier and range parsers;
everything else (a SQLite constraint, an I/O error) is `Thrown.otherError`.

`Thrown.stable` is the catch block of `execute`: what a caller sees of each.
-/

namespace DumpLedger

open Lib

inductive ErrorCode
  | invalidInput
  | notFound
  | invalidTransition
  | grantInvalid
  | grantExpired
  | grantConsumed
  | storageUnavailable
  | integrityFailure
  | inspectionOutcomeMismatch
  | symbolIdentityUnreadable
  deriving DecidableEq, Repr

/-- `error.code`. -/
def ErrorCode.text : ErrorCode → String
  | invalidInput => "invalid_input"
  | notFound => "not_found"
  | invalidTransition => "invalid_transition"
  | grantInvalid => "grant_invalid"
  | grantExpired => "grant_expired"
  | grantConsumed => "grant_consumed"
  | storageUnavailable => "storage_unavailable"
  | integrityFailure => "integrity_failure"
  | inspectionOutcomeMismatch => "inspection_outcome_mismatch"
  | symbolIdentityUnreadable => "symbol_identity_unreadable"

structure StableError where
  code : ErrorCode
  message : String
  deriving DecidableEq, Repr

inductive Thrown
  | ledgerError (code : ErrorCode) (message : String)
  | typeError (message : String)
  | rangeError (message : String)
  | otherError (message : String)
  deriving DecidableEq, Repr

namespace Thrown

/-- The error of a failed receipt. An unforeseen error never leaks its message. -/
def stable : Thrown → StableError
  | ledgerError code message => ⟨code, message⟩
  | typeError message => ⟨.invalidInput, message⟩
  | rangeError message => ⟨.invalidInput, message⟩
  | otherError _ => ⟨.storageUnavailable, "a durable operation failed"⟩

/-- `error.message`. -/
def message : Thrown → String
  | ledgerError _ message => message
  | typeError message => message
  | rangeError message => message
  | otherError message => message

end Thrown

/-- A constraint of the schema refused the statement. -/
def sqliteError : Thrown := .otherError "SQLITE_CONSTRAINT"

/-- A host file operation failed. -/
def ioError : Thrown := .otherError "EIO"

def invalidInput (message : String) : Thrown := .ledgerError .invalidInput message

def invalidTransition (message : String) : Thrown := .ledgerError .invalidTransition message

def integrityFailure (message : String) : Thrown := .ledgerError .integrityFailure message

def notFound (message : String) : Thrown := .ledgerError .notFound message

end DumpLedger
