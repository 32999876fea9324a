import DumpLedger.Domain.Text
import DumpLedger.Lib.ByteWindow
import DumpLedger.Lib.Prog

/-!
# Reading an untrusted file

The inspector reads a file through `readExact`, which looks at the range before it asks the
source, and it adds and multiplies what the file says through `checkedAdd` and
`checkedMultiply`. The state of an inspection is the reads it has issued and what is left of
the budget for the metadata of modules.

`Inspects` says of a part of the inspection that it issues reads within the file only, and
throws nothing but its own failures. Every operation here has a lemma of that form.
-/

namespace DumpLedger.Minidump

open Lib

/-- `UINT64_MAX`. -/
def uint64Max : Nat := 0xffffffffffffffff

/-- `MAX_SINGLE_READ`. -/
def maxSingleRead : Nat := 65536

/-! ## Sources -/

/-- A positional byte source; a read may throw, with the message of an `Error` or without. -/
structure RandomAccessSource where
  size : Nat
  readAt : Nat → Nat → Except (Option String) Bytes

/-- The source gives the bytes of a file. -/
structure RandomAccessSource.Serves (source : RandomAccessSource) (bytes : Bytes) : Prop where
  size : source.size = bytes.length
  readAt : ∀ offset length, offset + length ≤ bytes.length →
    source.readAt offset length = .ok (window bytes offset length)

/-- `BufferRandomAccessSource`, of a buffer whose offsets are safe integers. -/
def bufferSource (bytes : Bytes) : RandomAccessSource where
  size := bytes.length
  readAt offset length := .ok (window bytes offset length)

theorem bufferSource_serves (bytes : Bytes) : (bufferSource bytes).Serves bytes :=
  ⟨rfl, fun _ _ _ => rfl⟩

/-! ## Failures -/

inductive InspectionErrorCode
  | invalidSignature
  | unsupportedVersion
  | truncated
  | impossibleCount
  | arithmeticOverflow
  | duplicateStream
  | malformedStream
  | resourceLimit
  | ioError
  deriving DecidableEq, Repr

/-- The codes as they are written. -/
def InspectionErrorCode.text : InspectionErrorCode → String
  | invalidSignature => "invalid-signature"
  | unsupportedVersion => "unsupported-version"
  | truncated => "truncated"
  | impossibleCount => "impossible-count"
  | arithmeticOverflow => "arithmetic-overflow"
  | duplicateStream => "duplicate-stream"
  | malformedStream => "malformed-stream"
  | resourceLimit => "resource-limit"
  | ioError => "io-error"

structure InspectionError where
  code : InspectionErrorCode
  message : String
  deriving DecidableEq, Repr

/-- What is thrown during an inspection. -/
inductive InspectionThrow
  /-- `InspectionFailure`. -/
  | failure (error : InspectionError)
  /-- What a read of the source threw. -/
  | source (message : Option String)

namespace InspectionThrow

def error : InspectionThrow → InspectionError
  | failure error => error
  | source message => ⟨.ioError, message.getD "random-access read failed"⟩

/-- A failure the inspection itself has found. -/
def OfInspection : InspectionThrow → Prop
  | failure error => error.code ≠ .ioError
  | source _ => False

end InspectionThrow

/-! ## Operations -/

structure InspectionState where
  /-- The reads issued so far, by offset and length. -/
  reads : List (Nat × Nat)
  /-- `MetadataBudget.remaining`. -/
  remaining : Nat

abbrev Inspect := Prog InspectionState InspectionThrow

def fail {α : Type} (code : InspectionErrorCode) (message : String) : Inspect α :=
  throw (.failure ⟨code, message⟩)

/-- `if (!condition) fail(code, message)`. -/
def require (condition : Prop) [Decidable condition] (code : InspectionErrorCode)
    (message : String) : Inspect Unit :=
  if condition then pure () else fail code message

def checkedAdd (left right : Nat) (context : String) : Inspect Nat := do
  require (left + right ≤ uint64Max) .arithmeticOverflow
    s!"{context} overflows an unsigned 64-bit range"
  return left + right

def checkedMultiply (left right : Nat) (context : String) : Inspect Nat := do
  require (right = 0 ∨ left ≤ uint64Max / right) .arithmeticOverflow
    s!"{context} overflows an unsigned 64-bit range"
  return left * right

def ensureRange (source : RandomAccessSource) (offset size : Nat) (context : String) :
    Inspect Unit := do
  let last ← checkedAdd offset size s!"{context} range"
  require (last ≤ source.size) .truncated s!"{context} extends beyond end of file"

def readAt (source : RandomAccessSource) (offset length : Nat) : Inspect Bytes := do
  Prog.modify fun s => { s with reads := s.reads ++ [(offset, length)] }
  Prog.lift ((source.readAt offset length).mapError .source)

def readExact (source : RandomAccessSource) (offset length : Nat) (context : String) :
    Inspect Bytes := do
  require (length ≤ maxSingleRead) .resourceLimit
    s!"{context} read length is outside the bounded limit"
  ensureRange source offset length context
  let bytes ← readAt source offset length
  require (bytes.length = length) .truncated s!"{context} could not be read completely"
  return bytes

/-! ## What the operations keep -/

/-- Every read so far is within the file and not longer than `MAX_SINGLE_READ`. -/
def InspectionState.ReadsWithin (size : Nat) (s : InspectionState) : Prop :=
  ∀ read ∈ s.reads, read.1 + read.2 ≤ size ∧ read.2 ≤ maxSingleRead

/-- A part of the inspection reads within the file, throws failures of its own only, and ends
with a value as `P` says. -/
def Inspects {α : Type} (bytes : Bytes) (x : Inspect α) (P : α → Prop) : Prop :=
  Prog.Keeps (InspectionState.ReadsWithin bytes.length) InspectionThrow.OfInspection x P

section Operations

variable {bytes : Bytes} {source : RandomAccessSource}

theorem inspects_fail {α : Type} {P : α → Prop} {code : InspectionErrorCode} {message : String}
    (h : code ≠ .ioError) : Inspects bytes (fail code message : Inspect α) P :=
  Prog.Keeps.throw h

/-- Behind a check its condition holds. -/
theorem inspects_require {condition : Prop} [Decidable condition] {code : InspectionErrorCode}
    {message : String} (h : code ≠ .ioError) :
    Inspects bytes (require condition code message) fun _ => condition := by
  unfold require
  split
  · next hc => exact Prog.Keeps.pure hc
  · exact inspects_fail h

theorem inspects_checkedAdd (left right : Nat) (context : String) :
    Inspects bytes (checkedAdd left right context) fun sum =>
      sum = left + right ∧ left + right ≤ uint64Max := by
  refine (inspects_require (by decide)).bind ?_
  intro _ hle
  exact Prog.Keeps.pure ⟨rfl, hle⟩

theorem inspects_checkedMultiply (left right : Nat) (context : String) :
    Inspects bytes (checkedMultiply left right context) fun product =>
      product = left * right ∧ left * right ≤ uint64Max := by
  refine (inspects_require (by decide)).bind ?_
  intro _ hle
  refine Prog.Keeps.pure ⟨rfl, ?_⟩
  rcases hle with rfl | hle
  · exact Nat.zero_le _
  · exact Nat.mul_le_of_le_div right left uint64Max hle

theorem inspects_ensureRange (hsource : source.Serves bytes) (offset size : Nat)
    (context : String) :
    Inspects bytes (ensureRange source offset size context) fun _ =>
      offset + size ≤ bytes.length := by
  refine (inspects_checkedAdd offset size _).bind ?_
  rintro _ ⟨rfl, -⟩
  refine (inspects_require (by decide)).mono ?_
  intro _ hle
  rwa [hsource.size] at hle

/-- A read in range gives the window of the file. -/
theorem inspects_readAt (hsource : source.Serves bytes) {offset length : Nat}
    (hrange : offset + length ≤ bytes.length) (hlength : length ≤ maxSingleRead) :
    Inspects bytes (readAt source offset length) fun read =>
      read = window bytes offset length := by
  intro s hs
  show Prog.wp (readAt source offset length) _ _ s
  unfold readAt
  rw [Prog.wp_bind, Prog.wp_modify, hsource.readAt offset length hrange]
  refine ⟨?_, rfl⟩
  intro read hread
  rcases List.mem_append.mp hread with hread | hread
  · exact hs read hread
  · obtain rfl := List.mem_singleton.mp hread
    exact ⟨hrange, hlength⟩

theorem inspects_readExact (hsource : source.Serves bytes) (offset length : Nat)
    (context : String) :
    Inspects bytes (readExact source offset length context) fun read =>
      offset + length ≤ bytes.length ∧ read = window bytes offset length := by
  refine (inspects_require (by decide)).bind ?_
  intro _ hlength
  refine (inspects_ensureRange hsource offset length context).bind ?_
  intro _ hrange
  refine (inspects_readAt hsource hrange hlength).bind ?_
  rintro _ rfl
  refine (inspects_require (by decide)).bind ?_
  intro _ _
  exact Prog.Keeps.pure ⟨hrange, rfl⟩

end Operations

end DumpLedger.Minidump
