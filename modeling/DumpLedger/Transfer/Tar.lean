import DumpLedger.Domain.Json
import DumpLedger.Inspection.CodeView
import DumpLedger.Lib.ByteFields

/-!
# Tar archives

The writer of export bundles takes one entry after another: a header block, the bytes of the
entry as they arrive, and zeros up to a whole block. The reader is strict, and yields the
entries of an archive as it goes; the bytes of an entry are read when they are asked for.

A generator's run is a `Yields`: the values it yields, and the error it ends with.
-/

namespace DumpLedger.Tar

open Lib

/-- `BLOCK_SIZE`. -/
def blockSize : Nat := 512

/-- `HEADER_NAME_BYTES`. -/
def headerNameBytes : Nat := 100

/-- `ENTRY_CHUNK_SIZE`. -/
def entryChunkSize : Nat := 256 * 1024

/-- `END_MARKER_BLOCKS`. -/
def endMarkerBlocks : Nat := 2

/-- `OCTAL_SIZE_LIMIT`. -/
def octalSizeLimit : Nat := 8 ^ 11 - 1

/-- `BASE256_SIZE_LIMIT`. -/
def base256SizeLimit : Nat := 2 ^ 88

/-- `USTAR_MAGIC`. -/
def ustarMagic : Bytes := [0x75, 0x73, 0x74, 0x61, 0x72, 0x00, 0x30, 0x30]

/-- `TYPEFLAG_REGULAR`. -/
def typeflagRegular : UInt8 := 0x30

def invalid (message : String) : Thrown := invalidInput message

def corrupt (message : String) : Thrown := integrityFailure message

/-! ## Fields -/

def encodeTarSize (size : Int) : Except Thrown Bytes :=
  if size < 0 then .error (.rangeError "tar entry size cannot be negative")
  else if size ≤ octalSizeLimit then
    .ok (overwrite (List.replicate 12 0) 0 (octalText size.toNat 11))
  else if base256SizeLimit ≤ size then
    .error (.rangeError "tar entry size exceeds the base-256 field capacity")
  else .ok (0x80 :: bigEndian 11 size.toNat)

/-- The loop of `parseOctalField`. -/
def octalLoop (label : String) : Bytes → Nat → Nat → Bool → Except Thrown Nat
  | [], value, digits, _ =>
    if digits = 0 then .error (invalid s!"empty {label} field in tar header") else .ok value
  | byte :: rest, value, digits, terminated =>
    if terminated = false ∧ isOctalDigit byte = true then
      octalLoop label rest (value * 8 + (byte.toNat - 0x30)) (digits + 1) terminated
    else if byte = 0x00 ∨ byte = 0x20 then octalLoop label rest value digits true
    else .error (invalid s!"malformed octal {label} field in tar header")

def parseOctalField (field : Bytes) (label : String) : Except Thrown Nat :=
  octalLoop label field 0 0 false

def parseTarSize (field : Bytes) : Except Thrown Nat :=
  match field with
  | [] => .error (invalid "tar size field must be exactly 12 bytes")
  | first :: rest =>
    if rest.length ≠ 11 then .error (invalid "tar size field must be exactly 12 bytes")
    else if first &&& 0x80 ≠ 0 then
      if first &&& 0x7f ≠ 0 then
        .error (invalid "tar size uses an unsupported base-256 encoding")
      else .ok (beValue rest)
    else parseOctalField field "size"

def writeOctalField (block : Bytes) (offset length : Nat) (value : Int) (label : String) :
    Except Thrown Bytes :=
  if value < 0 ∨ length - 1 < (Nat.toDigits 8 value.toNat).length then
    .error (.rangeError s!"{label} does not fit in a {length}-byte tar field: {value}")
  else
    .ok (overwrite (overwrite block offset (octalText value.toNat (length - 1)))
      (offset + length - 1) [0])

/-! ## Names -/

/-- `/^[A-Za-z]:/`. -/
def startsWithDrive (name : String) : Bool :=
  match name.toList with
  | letter :: ':' :: _ => letter.isAlpha
  | _ => false

/-- The loop over the components of a path. -/
def checkComponents (name : String) : List (List Char) → Except Thrown Unit
  | [] => .ok ()
  | component :: rest => do
    guardThat (component ≠ []) (invalid s!"tar entry name has an empty path component: {name}")
    guardThat (component ≠ ['.', '.'])
      (invalid s!"tar entry name contains a '..' path component: {name}")
    checkComponents name rest

def checkEntryName (name : String) : Except Thrown Unit := do
  guardThat (name ≠ "") (invalid "tar entry name is empty")
  guardThat ('\x00' ∉ name.toList) (invalid s!"tar entry name contains a NUL byte: {name}")
  guardThat ('\\' ∉ name.toList) (invalid s!"tar entry name contains a backslash: {name}")
  guardThat (name.toList.head? ≠ some '/' ∧ startsWithDrive name = false)
    (invalid s!"tar entry name is absolute: {name}")
  checkComponents name (name.toList.splitOn '/')

/-! ## Headers -/

def byteSum (block : Bytes) : Nat := (block.map UInt8.toNat).sum

/-- `encodeHeaderBlock` up to the checksum, with spaces in its field. -/
def unsummedHeader (name : String) (size mtime mode : Int) : Except Thrown Bytes := do
  let block := overwrite (List.replicate blockSize 0) 0 (utf8Bytes name)
  let block ← writeOctalField block 100 8 mode "mode"
  let block ← writeOctalField block 108 8 0 "uid"
  let block ← writeOctalField block 116 8 0 "gid"
  let sizeField ← encodeTarSize size
  let block := overwrite block 124 sizeField
  let block ← writeOctalField block 136 12 mtime "mtime"
  let block := overwrite block 148 (List.replicate 8 0x20)
  let block := overwrite block 156 [typeflagRegular]
  return overwrite block 257 ustarMagic

/-- The checksum as six digits, a NUL and a space. -/
def setChecksum (block : Bytes) : Bytes :=
  overwrite (overwrite (overwrite block 148 (octalText (byteSum block) 6)) 154 [0x00]) 155 [0x20]

def encodeHeaderBlock (name : String) (size mtime mode : Int) : Except Thrown Bytes :=
  setChecksum <$> unsummedHeader name size mtime mode

/-! ## The writer -/

/-- The entry that was added last. Its writer is the only one that can take bytes: the writers
of the entries before it are finished. -/
structure OpenEntry where
  name : String
  size : Nat
  remaining : Nat
  finished : Bool

structure TarWriter where
  mode : Int
  /-- What was written to the sink, write by write. -/
  sink : List Bytes
  openEntry : Option OpenEntry
  sealed : Bool

def createTarWriter (mode : Int) : Except Thrown TarWriter := do
  guardThat (0 ≤ mode ∧ mode ≤ 0o7777)
    (.rangeError "tar entry mode must be an integer between 0 and 0o7777")
  return ⟨mode, [], none, false⟩

namespace TarWriter

def write (w : TarWriter) (bytes : Bytes) : TarWriter := { w with sink := w.sink ++ [bytes] }

/-- `openEntry === null || openEntry.finished`. -/
def checkClosed (w : TarWriter) : Except Thrown Unit :=
  match w.openEntry with
  | none => .ok ()
  | some entry =>
    guardThat (entry.finished = true)
      (invalidTransition s!"tar entry is still open: {entry.name}")

/-- `mtime` is what the clock gives. -/
def addEntry (w : TarWriter) (name : String) (size mtime : Int) : Except Thrown TarWriter := do
  guardThat (w.sealed = false) (invalidTransition "tar writer is already finished")
  w.checkClosed
  guardThat (0 ≤ size) (.rangeError "tar entry size must be a non-negative bigint")
  checkEntryName name
  guardThat ((utf8Bytes name).length ≤ headerNameBytes)
    (invalid s!"tar entry name exceeds {headerNameBytes} bytes of UTF-8: {name}")
  guardThat (0 ≤ mtime ∧ mtime ≤ maxSafeInteger ∧ mtime ≤ octalSizeLimit)
    (.rangeError "tar clock must return seconds since the epoch that fit the mtime field")
  let header ← encodeHeaderBlock name size mtime w.mode
  return { w.write header with openEntry := some ⟨name, size.toNat, size.toNat, false⟩ }

/-- `append` of the entry's writer. -/
def append (w : TarWriter) (chunk : Bytes) : Except Thrown TarWriter :=
  match w.openEntry with
  | none => .error (invalidTransition "tar entry is already finished")
  | some entry => do
    guardThat (entry.finished = false)
      (invalidTransition s!"tar entry is already finished: {entry.name}")
    guardThat (chunk.length ≤ entry.remaining)
      (invalid s!"tar entry received more bytes than its declared size: {entry.name}")
    return { w.write chunk with
      openEntry := some { entry with remaining := entry.remaining - chunk.length } }

/-- The zeros after an entry of `size` bytes. -/
def padding (size : Nat) : Nat := (blockSize - size % blockSize) % blockSize

/-- `finish` of the entry's writer. -/
def finishEntry (w : TarWriter) : Except Thrown TarWriter :=
  match w.openEntry with
  | none => .error (invalidTransition "tar entry is already finished")
  | some entry => do
    guardThat (entry.finished = false)
      (invalidTransition s!"tar entry is already finished: {entry.name}")
    guardThat (entry.remaining = 0)
      (invalid (s!"tar entry closed with {entry.remaining} of {entry.size} bytes unwritten: " ++
        entry.name))
    let padded := if 0 < padding entry.size then
      w.write (List.replicate (padding entry.size) 0) else w
    return { padded with openEntry := some { entry with finished := true } }

def finish (w : TarWriter) : Except Thrown TarWriter := do
  guardThat (w.sealed = false) (invalidTransition "tar writer is already finished")
  w.checkClosed
  return { w.write (List.replicate (blockSize * endMarkerBlocks) 0) with sealed := true }

/-- The bytes that arrived at the sink. -/
def archive (w : TarWriter) : Bytes := w.sink.flatten

end TarWriter

/-! ## The reader -/

/-- The values a generator yields, and what it throws after them. -/
structure Yields (α : Type) where
  values : List α
  thrown : Option Thrown

def Yields.cons {α : Type} (a : α) (y : Yields α) : Yields α := { y with values := a :: y.values }

structure TarReaderOptions where
  maxEntries : Option Int
  maxBytes : Option Int
  maxNameLength : Option Int

/-- Options that `readTar` takes. -/
structure TarBounds where
  maxEntries : Nat
  maxBytes : Nat
  maxNameLength : Nat

/-- The defaults and checks of `readTar`. -/
def readerBounds (options : TarReaderOptions) : Except Thrown TarBounds := do
  let maxEntries := options.maxEntries.getD 1000000
  let maxBytes := options.maxBytes.getD maxSafeInteger
  let maxNameLength := options.maxNameLength.getD headerNameBytes
  guardThat (0 ≤ maxEntries ∧ maxEntries ≤ maxSafeInteger)
    (.rangeError "maxEntries must be a non-negative safe integer")
  guardThat (0 ≤ maxBytes) (.rangeError "maxBytes must be a non-negative bigint")
  guardThat (1 ≤ maxNameLength ∧ maxNameLength ≤ headerNameBytes)
    (.rangeError s!"maxNameLength must be an integer between 1 and {headerNameBytes}")
  return ⟨maxEntries.toNat, maxBytes.toNat, maxNameLength.toNat⟩

def isZeroBlock (block : Bytes) : Bool := block.all fun b => b == 0

def readBlock (source : Bytes) (offset : Nat) : Option Bytes :=
  if source.length < offset + blockSize then none
  else
    let block := window source offset blockSize
    if block.length = blockSize then some block else none

/-- The digits of the stored checksum. -/
def checksumDigits (block : Bytes) : Bytes := window block 148 6

/-- The sum of a block with spaces in the checksum field. -/
def checksum (block : Bytes) : Nat :=
  ((List.range blockSize).map fun index =>
    if 148 ≤ index ∧ index < 156 then 0x20 else (block.getD index 0).toNat).sum

def verifyChecksum (block : Bytes) : Except Thrown Unit := do
  guardThat ((checksumDigits block).all isOctalDigit = true)
    (invalid "malformed tar header checksum field")
  guardThat (window block 154 1 = [0x00] ∧ window block 155 1 = [0x20])
    (invalid "malformed tar header checksum field")
  guardThat (checksum block = octalValue 0 (checksumDigits block))
    (corrupt "tar header checksum mismatch")

def typeflagMessage (typeflag : UInt8) : String :=
  "tar entry has unsupported typeflag " ++
    Json.quote (String.singleton (Char.ofNat typeflag.toNat)) ++
    ": only regular files are allowed"

structure TarHeader where
  name : String
  size : Nat
  deriving DecidableEq

def parseHeaderBlock (block : Bytes) (maxNameLength : Nat) : Except Thrown TarHeader := do
  verifyChecksum block
  guardThat (window block 257 8 = ustarMagic) (invalid "tar header is not a POSIX ustar header")
  let typeflag := block.getD 156 0
  guardThat (typeflag = typeflagRegular ∨ typeflag = 0x00) (invalid (typeflagMessage typeflag))
  guardThat (isZeroBlock (window block 157 100) = true)
    (invalid "tar header carries a link name")
  guardThat (isZeroBlock (window block 329 171) = true)
    (invalid "tar header carries device or prefix fields, which are unsupported")
  let nameField := window block 0 headerNameBytes
  let nameBytes := nameField.takeWhile fun b => b != 0
  guardThat (isZeroBlock (nameField.drop nameBytes.length) = true)
    (invalid "tar entry name has data after its terminator")
  guardThat (nameBytes.length ≤ maxNameLength)
    (invalid s!"tar entry name exceeds the name length bound of {maxNameLength} bytes")
  let name ← orThrow (decodeUtf8 nameBytes) (invalid "tar entry name is not valid UTF-8")
  checkEntryName name
  let _ ← parseOctalField (window block 100 8) "mode"
  let _ ← parseOctalField (window block 108 8) "uid"
  let _ ← parseOctalField (window block 116 8) "gid"
  let _ ← parseOctalField (window block 136 12) "mtime"
  let size ← parseTarSize (window block 124 12)
  return ⟨name, size⟩

def entryChunks (source : Bytes) (position remaining : Nat) : Yields Bytes :=
  if remaining = 0 then ⟨[], none⟩
  else
    let wanted := min remaining entryChunkSize
    let chunk := window source position wanted
    if chunk.length ≠ wanted then ⟨[], some (corrupt "tar archive ends inside entry data")⟩
    else (entryChunks source (position + wanted) (remaining - wanted)).cons chunk
  termination_by remaining
  decreasing_by
    unfold entryChunkSize
    omega

structure TarEntry where
  name : String
  size : Nat
  dataOffset : Nat
  deriving DecidableEq

def TarEntry.chunks (entry : TarEntry) (source : Bytes) : Yields Bytes :=
  entryChunks source entry.dataOffset entry.size

/-- The variables of `iterateTar`. -/
structure TarCursor where
  offset : Nat
  entries : Nat
  totalBytes : Nat
  seen : List String

/-- After the end marker there are zeros only. -/
def checkTrailer (source : Bytes) (offset : Nat) : Except Thrown Unit :=
  if offset < source.length then do
    let block ← orThrow (readBlock source offset)
      (invalid "tar archive carries data after its end-of-archive marker")
    guardThat (isZeroBlock block = true)
      (invalid "tar archive carries data after its end-of-archive marker")
    checkTrailer source (offset + blockSize)
  else .ok ()
  termination_by source.length - offset
  decreasing_by
    unfold blockSize
    omega

/-- Where the block after an entry starts. -/
def paddedEnd (dataOffset size : Nat) : Nat := dataOffset + size + TarWriter.padding size

/-- The variables after the entry of a header. -/
def TarCursor.after (cursor : TarCursor) (header : TarHeader) : TarCursor where
  offset := paddedEnd (cursor.offset + blockSize) header.size
  entries := cursor.entries + 1
  totalBytes := cursor.totalBytes + header.size
  seen := header.name :: cursor.seen

/-- The entry of a header block at the cursor. -/
def readEntry (source : Bytes) (bounds : TarBounds) (cursor : TarCursor) (block : Bytes) :
    Except Thrown (TarEntry × TarCursor) := do
  let header ← parseHeaderBlock block bounds.maxNameLength
  guardThat (cursor.entries + 1 ≤ bounds.maxEntries)
    (invalid s!"tar archive exceeds the entry count bound of {bounds.maxEntries}")
  guardThat (cursor.totalBytes + header.size ≤ bounds.maxBytes)
    (invalid s!"tar archive exceeds the total byte bound of {bounds.maxBytes}")
  guardThat (paddedEnd (cursor.offset + blockSize) header.size ≤ source.length)
    (corrupt "tar archive ends inside entry data")
  guardThat (header.name ∉ cursor.seen)
    (invalid s!"duplicate tar entry name: {header.name}")
  return (⟨header.name, header.size, cursor.offset + blockSize⟩, cursor.after header)

/-- One round of the loop of `iterateTar`; `none` at the end of the archive. -/
def nextEntry (source : Bytes) (bounds : TarBounds) (cursor : TarCursor) :
    Except Thrown (Option (TarEntry × TarCursor)) := do
  guardThat (cursor.offset ≠ source.length)
    (corrupt "tar archive has no end-of-archive marker")
  let block ← orThrow (readBlock source cursor.offset)
    (corrupt "tar archive ends inside a header block")
  if isZeroBlock block = true then
    (fun _ => none) <$> checkTrailer source (cursor.offset + blockSize)
  else some <$> readEntry source bounds cursor block

theorem readEntry_offset {source block : Bytes} {bounds : TarBounds} {cursor cursor' : TarCursor}
    {entry : TarEntry} (h : readEntry source bounds cursor block = .ok (entry, cursor')) :
    cursor.offset + blockSize ≤ cursor'.offset ∧ cursor'.offset ≤ source.length := by
  unfold readEntry at h
  obtain ⟨header, -, h⟩ := bind_eq_ok.mp h
  obtain ⟨_, -, h⟩ := bind_eq_ok.mp h
  obtain ⟨_, -, h⟩ := bind_eq_ok.mp h
  obtain ⟨_, hend, h⟩ := bind_eq_ok.mp h
  obtain ⟨_, -, h⟩ := bind_eq_ok.mp h
  have hfits := guardThat_eq_ok.mp hend
  cases h
  refine ⟨?_, hfits⟩
  show cursor.offset + blockSize ≤ cursor.offset + blockSize + header.size + _
  omega

theorem nextEntry_offset {source : Bytes} {bounds : TarBounds} {cursor cursor' : TarCursor}
    {entry : TarEntry} (h : nextEntry source bounds cursor = .ok (some (entry, cursor'))) :
    source.length - cursor'.offset < source.length - cursor.offset := by
  unfold nextEntry at h
  obtain ⟨_, -, h⟩ := bind_eq_ok.mp h
  obtain ⟨block, -, h⟩ := bind_eq_ok.mp h
  split at h
  · obtain ⟨-, -, h⟩ := map_eq_ok.mp h
    cases h
  · obtain ⟨next, hnext, h⟩ := map_eq_ok.mp h
    cases h
    have hoffset := readEntry_offset hnext
    unfold blockSize at hoffset
    omega

def iterateTar (source : Bytes) (bounds : TarBounds) (cursor : TarCursor) : Yields TarEntry :=
  match _h : nextEntry source bounds cursor with
  | .error e => ⟨[], some e⟩
  | .ok none => ⟨[], none⟩
  | .ok (some (entry, cursor')) => (iterateTar source bounds cursor').cons entry
  termination_by source.length - cursor.offset
  decreasing_by exact nextEntry_offset _h

theorem iterateTar_next {source : Bytes} {bounds : TarBounds} {cursor cursor' : TarCursor}
    {entry : TarEntry} (h : nextEntry source bounds cursor = .ok (some (entry, cursor'))) :
    iterateTar source bounds cursor = (iterateTar source bounds cursor').cons entry := by
  rw [iterateTar]
  split
  · next he => rw [h] at he; cases he
  · next he => rw [h] at he; cases he
  · next he => rw [h] at he; cases he; rfl

theorem iterateTar_done {source : Bytes} {bounds : TarBounds} {cursor : TarCursor}
    (h : nextEntry source bounds cursor = .ok none) :
    iterateTar source bounds cursor = ⟨[], none⟩ := by
  rw [iterateTar]
  split
  · next he => rw [h] at he; cases he
  · rfl
  · next he => rw [h] at he; cases he

def readTar (source : Bytes) (options : TarReaderOptions) : Except Thrown (Yields TarEntry) := do
  let bounds ← readerBounds options
  return iterateTar source bounds ⟨0, 0, 0, []⟩

end DumpLedger.Tar
