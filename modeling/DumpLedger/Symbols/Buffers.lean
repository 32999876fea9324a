import DumpLedger.Inspection.CodeView
import DumpLedger.Domain.Errors
import DumpLedger.Lib.ByteFields
import DumpLedger.Lib.Prog

/-!
# Buffers and byte sources

What the symbol parsers do to memory: ask a `ByteReader` for a range, allocate a buffer, copy into
it, read a field of a `DataView`. Allocation, copy and field read throw a `RangeError` when they
are out of range; the source answers `undefined` for a range it cannot give. A walk keeps the
requests it made and the buffers it allocated.

`Parses` says of a part of a parser that it stays within the bounds, throws nothing but the errors
of the parsers, and answers only what `P` holds of.
-/

namespace DumpLedger.Symbols

open Lib

/-! ## Byte sources -/

/-- Random access to the bytes of a file. A range that leaves the file is refused. -/
structure ByteReader (file : Bytes) where
  readAt : Nat → Nat → Option Bytes
  serves : ∀ {offset length : Nat} {chunk : Bytes}, readAt offset length = some chunk →
    offset + length ≤ file.length ∧ chunk = window file offset length

/-- Offsets and lengths are safe integers that are not negative. -/
def byteReaderOf (bytes : Bytes) : ByteReader bytes where
  readAt offset length :=
    if bytes.length < offset + length then none else some (window bytes offset length)
  serves := by
    intro offset length chunk h
    by_cases hout : bytes.length < offset + length
    · rw [if_pos hout] at h
      cases h
    · rw [if_neg hout] at h
      cases h
      exact ⟨by omega, rfl⟩

/-! ## Memory -/

structure ReadRequest where
  offset : Nat
  length : Nat
  /-- The source gave the bytes. -/
  answered : Bool
  deriving DecidableEq, Repr

structure WalkTrace where
  reads : List ReadRequest
  /-- The lengths of the buffers allocated. -/
  buffers : List Nat
  deriving DecidableEq, Repr

namespace WalkTrace

def start : WalkTrace := ⟨[], []⟩

end WalkTrace

abbrev Walk := Prog WalkTrace Thrown

/-- A walk that may answer `undefined`. -/
abbrev Parse := OptionT Walk

/-- The longest typed array of any engine the code runs on is at least this long. -/
def maxTypedArrayLength : Nat := 2 ^ 32 - 1

/-- `new Uint8Array(length)`. -/
def newBuffer (length : Nat) : Walk Bytes :=
  if maxTypedArrayLength < length then
    throw (.rangeError s!"Invalid typed array length: {length}")
  else do
    Prog.modify fun s => { s with buffers := s.buffers ++ [length] }
    return List.replicate length 0

/-- `target.set(chunk, offset)`. -/
def setBytes (target chunk : Bytes) (offset : Nat) : Walk Bytes :=
  if target.length < offset + chunk.length then throw (.rangeError "offset is out of bounds")
  else return overwrite target offset chunk

/-- `reader.readAt(offset, length)`. -/
def ByteReader.read {file : Bytes} (reader : ByteReader file) (offset length : Nat) :
    Parse Bytes :=
  OptionT.mk do
    let chunk := reader.readAt offset length
    Prog.modify fun s => { s with reads := s.reads ++ [⟨offset, length, chunk.isSome⟩] }
    return chunk

/-- `view.getUint16(offset, true)` and `view.getUint32(offset, true)`. -/
def getUint (view : Bytes) (offset size : Nat) : Walk Nat :=
  if view.length < offset + size then
    throw (.rangeError "Offset is outside the bounds of the DataView")
  else return uintLE view offset size

def readUint16 (view : Bytes) (offset : Nat) : Parse Nat :=
  if view.length < offset + 2 then failure else OptionT.lift (getUint view offset 2)

def readUint32 (view : Bytes) (offset : Nat) : Parse Nat :=
  if view.length < offset + 4 then failure else OptionT.lift (getUint view offset 4)

/-! ## Bounds -/

/-- `MSF_MAX_DIRECTORY_BYTES`. -/
def msfMaxDirectoryBytes : Nat := 256 * 1024 * 1024

/-- The errors that the parsers are documented to throw. -/
def Declared (e : Thrown) : Prop :=
  ∃ message, e = .ledgerError .symbolIdentityUnreadable message ∨
    e = .ledgerError .invalidInput message

def ReadRequest.InBounds (file : Bytes) (r : ReadRequest) : Prop :=
  r.offset + r.length ≤ file.length

/-- Every request is an allowed one, and no buffer is longer than the file or than the longest
stream directory. -/
structure Bounded (allowed : ReadRequest → Prop) (file : Bytes) (s : WalkTrace) : Prop where
  reads : ∀ r ∈ s.reads, allowed r
  buffers : ∀ length ∈ s.buffers, length ≤ file.length ∧ length ≤ msfMaxDirectoryBytes

theorem bounded_start {allowed : ReadRequest → Prop} {file : Bytes} :
    Bounded allowed file .start where
  reads _ hr := absurd hr List.not_mem_nil
  buffers _ hlength := absurd hlength List.not_mem_nil

section Rules

variable {allowed : ReadRequest → Prop} {file : Bytes} {α β : Type}

/-- The walk stays within the bounds, and what it answers is as `P` says. -/
def Walks (allowed : ReadRequest → Prop) (file : Bytes) (x : Walk α) (P : α → Prop) : Prop :=
  Prog.Keeps (Bounded allowed file) Declared x P

/-- The same for a walk that may answer `undefined`. -/
def Parses (allowed : ReadRequest → Prop) (file : Bytes) (x : Parse α) (P : α → Prop) : Prop :=
  Walks allowed file x.run fun o => ∀ a, o = some a → P a

theorem Walks.pure {P : α → Prop} {a : α} (h : P a) :
    Walks allowed file (Pure.pure a : Walk α) P :=
  Prog.Keeps.pure h

theorem Walks.throw {P : α → Prop} {e : Thrown} (h : Declared e) :
    Walks allowed file (MonadExcept.throw e : Walk α) P :=
  Prog.Keeps.throw h

theorem Walks.bind {x : Walk α} {f : α → Walk β} {P : α → Prop} {Q : β → Prop}
    (h : Walks allowed file x P) (hf : ∀ a, P a → Walks allowed file (f a) Q) :
    Walks allowed file (x >>= f) Q :=
  Prog.Keeps.bind h hf

theorem Walks.mono {x : Walk α} {P P' : α → Prop} (h : Walks allowed file x P)
    (hp : ∀ a, P a → P' a) : Walks allowed file x P' :=
  Prog.Keeps.mono h hp

theorem Parses.mono {x : Parse α} {P P' : α → Prop} (h : Parses allowed file x P)
    (hp : ∀ a, P a → P' a) : Parses allowed file x P' :=
  Walks.mono h fun _ ho a ha => hp a (ho a ha)

theorem Parses.pure {P : α → Prop} {a : α} (h : P a) :
    Parses allowed file (Pure.pure a : Parse α) P := by
  refine Prog.Keeps.pure ?_
  intro b hb
  cases hb
  exact h

theorem Parses.failure {P : α → Prop} : Parses allowed file (failure : Parse α) P := by
  refine Prog.Keeps.pure ?_
  intro b hb
  cases hb

theorem Parses.lift {x : Walk α} {P : α → Prop} (h : Walks allowed file x P) :
    Parses allowed file (OptionT.lift x) P := by
  refine Walks.bind h ?_
  intro a ha
  refine Walks.pure ?_
  intro b hb
  cases hb
  exact ha

theorem Parses.bind {x : Parse α} {f : α → Parse β} {P : α → Prop} {Q : β → Prop}
    (h : Parses allowed file x P) (hf : ∀ a, P a → Parses allowed file (f a) Q) :
    Parses allowed file (x >>= f) Q := by
  refine Walks.bind h ?_
  intro o ho
  cases o with
  | none => exact Parses.failure
  | some a => exact hf a (ho a rfl)

/-- What follows a guard may use it. -/
theorem Parses.guarded {c : Prop} [Decidable c] {f : Unit → Parse β} {Q : β → Prop}
    (hf : c → Parses allowed file (f ()) Q) :
    Parses allowed file (guard c >>= f) Q := by
  refine Parses.bind (P := fun _ => c) ?_ fun _ => hf
  unfold guard
  by_cases hc : c
  · rw [if_pos hc]
    exact Parses.pure hc
  · rw [if_neg hc]
    exact Parses.failure

/-! ## Rules of the operations -/

theorem walks_newBuffer {length : Nat} (hfile : length ≤ file.length)
    (hmax : length ≤ msfMaxDirectoryBytes) :
    Walks allowed file (newBuffer length) fun buffer => buffer = List.replicate length 0 := by
  have hfits : ¬ maxTypedArrayLength < length := by
    unfold maxTypedArrayLength
    unfold msfMaxDirectoryBytes at hmax
    omega
  unfold newBuffer
  rw [if_neg hfits]
  intro s hs
  rw [Prog.wp_bind, Prog.wp_modify, Prog.wp_pure]
  refine ⟨⟨hs.reads, ?_⟩, rfl⟩
  intro n hn
  rcases List.mem_append.mp hn with hn | hn
  · exact hs.buffers n hn
  · rw [List.mem_singleton.mp hn]
    exact ⟨hfile, hmax⟩

theorem walks_setBytes {target chunk : Bytes} {offset : Nat}
    (h : offset + chunk.length ≤ target.length) :
    Walks allowed file (setBytes target chunk offset) fun buffer =>
      buffer = overwrite target offset chunk := by
  unfold setBytes
  rw [if_neg (by omega)]
  exact Walks.pure rfl

theorem parses_read {reader : ByteReader file} {offset length : Nat}
    (h : allowed ⟨offset, length, (reader.readAt offset length).isSome⟩) :
    Parses allowed file (reader.read offset length) fun chunk =>
      offset + length ≤ file.length ∧ chunk = window file offset length := by
  intro s hs
  unfold ByteReader.read
  show Prog.wp (Prog.modify _ >>= fun _ => Pure.pure _) _ _ s
  rw [Prog.wp_bind, Prog.wp_modify, Prog.wp_pure]
  refine ⟨⟨?_, hs.buffers⟩, fun chunk hchunk => reader.serves hchunk⟩
  intro r hr
  rcases List.mem_append.mp hr with hr | hr
  · exact hs.reads r hr
  · rw [List.mem_singleton.mp hr]
    exact h

theorem parses_readUint16 {view : Bytes} {offset : Nat} :
    Parses allowed file (readUint16 view offset) fun n =>
      offset + 2 ≤ view.length ∧ n = uintLE view offset 2 := by
  unfold readUint16 getUint
  by_cases hout : view.length < offset + 2
  · rw [if_pos hout]
    exact Parses.failure
  · rw [if_neg hout, if_neg hout]
    exact Parses.lift (Walks.pure ⟨by omega, rfl⟩)

theorem parses_readUint32 {view : Bytes} {offset : Nat} :
    Parses allowed file (readUint32 view offset) fun n =>
      offset + 4 ≤ view.length ∧ n = uintLE view offset 4 := by
  unfold readUint32 getUint
  by_cases hout : view.length < offset + 4
  · rw [if_pos hout]
    exact Parses.failure
  · rw [if_neg hout, if_neg hout]
    exact Parses.lift (Walks.pure ⟨by omega, rfl⟩)

end Rules

end DumpLedger.Symbols
