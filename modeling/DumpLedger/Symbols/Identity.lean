import DumpLedger.Symbols.Buffers
import DumpLedger.Symbols.StorePath

/-!
# Symbol identities

A PDB is an MSF container: a superblock, a block map that lists the blocks of the stream
directory, and the directory, which lists the blocks of each stream. The identity of the PDB is in
the header of stream 1. A PE image has its identity in two fields of its headers.

The parsers read the file where its own fields point, so every range is checked first. A file that
is of another kind has no identity; one that claims to be a PDB and cannot be read is an error.
-/

namespace DumpLedger.Symbols

open Lib

structure PdbIdentity where
  debugFile : Units
  debugId : String
  deriving DecidableEq

structure PeIdentity where
  codeFile : Units
  codeId : String
  deriving DecidableEq

/-- The first 29 bytes of the magic; three zeros follow. -/
def msfMagic : String := "Microsoft C/C++ MSF 7.00\r\n\x1aDS"

def msfSuperblockSize : Nat := 32
def msfBlockSizeOffset : Nat := 32
def msfNumDirectoryBytesOffset : Nat := 44
def msfBlockMapAddrOffset : Nat := 52
def msfMinBlockSize : Nat := 512
def msfMaxBlockSize : Nat := 1 <<< 30

/-- `MSF_NIL_STREAM_SIZE`: a stream that is absent owns no blocks. -/
def msfNilStreamSize : Nat := 0xffffffff

/-- Version, signature, age and GUID. -/
def pdbInfoHeaderBytes : Nat := 4 + 4 + 4 + 16

/-- `PDB_INFO_VERSIONS`. -/
def pdbInfoVersions : List Nat :=
  [19941610, 19950623, 19950814, 19960307, 19970604, 19990604, 20000404, 20030902, 20091201,
    20140508]

def dosSignature : Nat := 0x5a4d
def dosELfanewOffset : Nat := 0x3c
def peSignature : String := "PE\x00\x00"
def coffHeaderBytes : Nat := 20
def coffTimestampOffset : Nat := 4
def coffOptionalHeaderSizeOffset : Nat := 16
def optionalHeaderSizeOfImageOffset : Nat := 56
def optionalHeaderMinBytes : Nat := optionalHeaderSizeOfImageOffset + 4

/-! ## Errors -/

def symbolIdentityUnreadable (detail : String) : Thrown :=
  .ledgerError .symbolIdentityUnreadable s!"unreadable symbol identity: {detail}"

def require (c : Prop) [Decidable c] (detail : String) : Walk Unit :=
  if c then pure () else throw (symbolIdentityUnreadable detail)

/-- What was read, when it is not `undefined`. -/
def orUnreadable {α : Type} (x : Parse α) (detail : String) : Walk α := do
  match ← x.run with
  | some a => return a
  | none => throw (symbolIdentityUnreadable detail)

/-- The check of the name that a caller gave. -/
def requireSegment (label : String) (name : Units) : Walk Unit :=
  match storeSegmentProblem name with
  | some problem =>
    throw (invalidInput s!"{label} is not a usable store path segment ({problem})")
  | none => pure ()

/-! ## Identifiers -/

/-- The GUID is 16 bytes by construction. -/
def formatSymsrvDebugId (guid : Bytes) (age : Nat) : Walk String := do
  let data1 ← getUint guid 0 4
  let data2 ← getUint guid 4 2
  let data3 ← getUint guid 6 2
  let rest := (List.range' 8 8).map fun index => upperHex 2 (guid.getD index 0).toNat
  return upperHex 8 data1 ++ upperHex 4 data2 ++ upperHex 4 data3 ++ String.join rest ++
    upperHex 1 age

def formatPeCodeId (timestamp sizeOfImage : Nat) : String :=
  upperHex 8 timestamp ++ upperHex 1 sizeOfImage

/-! ## CodeView records -/

/-- Best effort: whatever is wrong with a record, it names nothing. -/
def parseRsdsCodeViewRecord (bytes : Bytes) : Parse PdbIdentity := do
  guard (matchesAscii bytes 0 "RSDS" = true)
  guard (rsdsHeaderBytes + 1 ≤ bytes.length)
  let age ← readUint32 bytes 20
  let pathLength ← OptionT.mk (pure ((bytes.drop rsdsHeaderBytes).idxOf? 0))
  let path ← OptionT.mk (pure (decodeUtf8 (window bytes rsdsHeaderBytes pathLength)))
  guard (DumpLedger.controlCharacterIndex path = none)
  let debugFile ← OptionT.mk (pure (fileNameFromPath path))
  guard (debugFileNameProblem debugFile = none)
  let debugId ← OptionT.lift (formatSymsrvDebugId (window bytes 4 16) age)
  return ⟨utf16 debugFile, debugId⟩

/-! ## Blocks -/

def looksLikeMsf (bytes : Bytes) : Bool :=
  decide (msfSuperblockSize ≤ bytes.length) && matchesAscii bytes 0 msfMagic &&
    (window bytes msfMagic.length (msfSuperblockSize - msfMagic.length)).all fun b => b == 0

/-- `Math.ceil(bytes / blockSize)`. -/
def blocksOf (bytes blockSize : Nat) : Nat := (bytes + blockSize - 1) / blockSize

section Blocks

variable {file : Bytes} (reader : ByteReader file) (blockSize : Nat)

/-- The loop of `readConsecutiveBlocksFrom`. -/
def consecutiveLoop (byteCount block copied : Nat) (out : Bytes) : Parse Bytes :=
  if _hmore : copied < byteCount then
    let start := block * blockSize
    let take := min (min blockSize (file.length - start)) (byteCount - copied)
    if file.length / blockSize < block then failure
    else if _htake : take = 0 then failure
    else do
      let chunk ← reader.read start take
      guard (chunk.length = take)
      let out ← OptionT.lift (setBytes out chunk copied)
      consecutiveLoop byteCount (block + 1) (copied + take) out
  else return out
termination_by byteCount - copied

def readConsecutiveBlocksFrom (startBlock byteCount : Nat) : Parse Bytes := do
  let out ← OptionT.lift (newBuffer byteCount)
  consecutiveLoop reader blockSize byteCount startBlock 0 out

/-- How many bytes were copied, and the buffer they were copied into. -/
structure Copied where
  count : Nat
  target : Bytes

def copyBlockIntoFrom (block : Nat) (target : Bytes) (targetOffset byteCount : Nat) :
    Parse Copied :=
  let start := block * blockSize
  let take := min (min blockSize (file.length - start)) byteCount
  if file.length / blockSize < block then failure
  else if take = 0 then failure
  else do
    let chunk ← reader.read start take
    guard (chunk.length = take)
    let target ← OptionT.lift (setBytes target chunk targetOffset)
    return ⟨take, target⟩

end Blocks

/-! ## PDB files -/

/-- The fields of the superblock that the walk uses. -/
structure Superblock where
  blockSize : Nat
  numDirectoryBytes : Nat
  blockMapAddr : Nat
  deriving DecidableEq

def superblockOf (size : Nat) (superblock : Bytes) : Walk Superblock := do
  require (56 ≤ superblock.length) "superblock is truncated"
  let blockSize ← orUnreadable (readUint32 superblock msfBlockSizeOffset)
    "superblock is truncated"
  let numDirectoryBytes ← orUnreadable (readUint32 superblock msfNumDirectoryBytesOffset)
    "superblock is truncated"
  let blockMapAddr ← orUnreadable (readUint32 superblock msfBlockMapAddrOffset)
    "superblock is truncated"
  require (msfMinBlockSize ≤ blockSize ∧ blockSize ≤ msfMaxBlockSize ∧
      blockSize &&& (blockSize - 1) = 0)
    s!"block size {blockSize} is not a supported power of two"
  require (blockSize ≤ size) "block size exceeds the artifact size"
  require (numDirectoryBytes ≠ 0) "stream directory is empty"
  require (numDirectoryBytes ≤ size ∧ numDirectoryBytes ≤ msfMaxDirectoryBytes)
    "stream directory is larger than the artifact"
  return ⟨blockSize, numDirectoryBytes, blockMapAddr⟩

section Pdb

variable {file : Bytes} (reader : ByteReader file)

/-- Only a file with the magic is read as a PDB. -/
def readSuperblock : Parse Superblock := do
  let probe ← reader.read 0 (min file.length 56)
  guard (looksLikeMsf probe = true)
  OptionT.lift (superblockOf file.length probe)

/-- The loop that assembles the directory: `left` entries of the block map are still to come. -/
def directoryLoop (s : Superblock) (blockMap : Bytes) :
    (left index copied : Nat) → Bytes → Walk Copied
  | 0, _, copied, directory => return ⟨copied, directory⟩
  | left + 1, index, copied, directory =>
    if copied < s.numDirectoryBytes then do
      let block ← orUnreadable (readUint32 blockMap (index * 4)) "block map is truncated"
      let took ← orUnreadable
        (copyBlockIntoFrom reader s.blockSize block directory copied
          (s.numDirectoryBytes - copied))
        "stream directory block is out of range"
      directoryLoop s blockMap left (index + 1) (copied + took.count) took.target
    else return ⟨copied, directory⟩

/-- The stream directory. Its blocks are those that the block map lists. -/
def readStreamDirectory (s : Superblock) : Walk Bytes := do
  let directoryBlockCount := blocksOf s.numDirectoryBytes s.blockSize
  let blockMap ← orUnreadable
    (readConsecutiveBlocksFrom reader s.blockSize s.blockMapAddr (directoryBlockCount * 4))
    "block map is out of range"
  let directory ← newBuffer s.numDirectoryBytes
  let copied ← directoryLoop reader s blockMap directoryBlockCount 0 0 directory
  require (copied.count = s.numDirectoryBytes) "stream directory is truncated"
  return copied.target

variable (directory : Bytes) (blockSize : Nat)

/-- The blocks that a stream of a size owns. -/
def streamBlocks (size : Nat) : Nat :=
  if size = msfNilStreamSize then 0 else blocksOf size blockSize

/-- The block lists follow the size table, one after the other. -/
def blockListOffset (streamIndex streamCount : Nat) : Parse Nat :=
  (List.range streamIndex).foldlM (fun listOffset index => do
    let size ← readUint32 directory (4 + index * 4)
    return listOffset + streamBlocks blockSize size * 4) (4 + streamCount * 4)

/-- The loop of `readStreamPrefix`: `left` entries of the block list are still to come. -/
def streamLoop (listOffset scanBytes : Nat) : (left entry copied : Nat) → Bytes → Parse Bytes
  | 0, _, _, out => return out
  | left + 1, entry, copied, out =>
    if copied < scanBytes then do
      let block ← readUint32 directory (listOffset + entry * 4)
      guard (block ≤ file.length / blockSize)
      let start := block * blockSize
      let take := min blockSize (scanBytes - copied)
      guard (start + take ≤ file.length)
      let chunk ← reader.read start take
      guard (chunk.length = take)
      let out ← OptionT.lift (setBytes out chunk copied)
      streamLoop listOffset scanBytes left (entry + 1) (copied + take) out
    else return out

/-- The head of a stream. -/
def readStreamPrefix (streamIndex streamCount scanBytes : Nat) : Parse Bytes := do
  let listOffset ← blockListOffset directory blockSize streamIndex streamCount
  let needed := blocksOf scanBytes blockSize
  guard (listOffset + needed * 4 ≤ directory.length)
  let out ← OptionT.lift (newBuffer scanBytes)
  streamLoop reader directory blockSize listOffset scanBytes needed 0 0 out

def readPdbInfoIdentity (debugFile : Units) : Walk PdbIdentity := do
  let streamCount ← orUnreadable (readUint32 directory 0) "stream directory is truncated"
  require (2 ≤ streamCount) "PDB Info stream (stream 1) is missing"
  require (4 + streamCount * 4 ≤ directory.length) "stream size table is truncated"
  let stream1Size ← orUnreadable (readUint32 directory 8) "stream size table is truncated"
  require (pdbInfoHeaderBytes ≤ stream1Size)
    s!"PDB Info stream is {stream1Size} bytes; too small for its header"
  let header ← orUnreadable
    (readStreamPrefix reader directory blockSize 1 streamCount pdbInfoHeaderBytes)
    "PDB Info stream is out of range"
  let version ← orUnreadable (readUint32 header 0)
    "PDB Info stream version undefined is not a known PdbImpV"
  require (version ∈ pdbInfoVersions)
    s!"PDB Info stream version {version} is not a known PdbImpV"
  let age ← orUnreadable (readUint32 header 8) "PDB Info stream header is truncated"
  let debugId ← formatSymsrvDebugId (window header 12 16) age
  return ⟨debugFile, debugId⟩

end Pdb

section Parsers

variable {file : Bytes} (reader : ByteReader file)

def parsePdbIdentityFrom (debugFile : Units) : Parse PdbIdentity := do
  OptionT.lift (requireSegment "debugFile" debugFile)
  let superblock ← readSuperblock reader
  let directory ← OptionT.lift (readStreamDirectory reader superblock)
  OptionT.lift (readPdbInfoIdentity reader directory superblock.blockSize debugFile)

/-! ## PE images -/

/-- The COFF header sits where `e_lfanew` says. -/
def parsePeIdentityFrom (codeFile : Units) : Parse PeIdentity := do
  OptionT.lift (requireSegment "codeFile" codeFile)
  guard (dosELfanewOffset + 4 ≤ file.length)
  let dosHeader ← reader.read 0 (dosELfanewOffset + 4)
  let magic ← readUint16 dosHeader 0
  guard (magic = dosSignature)
  let peOffset ← readUint32 dosHeader dosELfanewOffset
  guard (peOffset ≤ file.length - 4)
  let signature ← reader.read peOffset 4
  guard (matchesAscii signature 0 peSignature = true)
  let coffOffset := peOffset + 4
  guard (coffOffset ≤ file.length - coffHeaderBytes)
  let coff ← reader.read coffOffset coffHeaderBytes
  let timestamp ← readUint32 coff coffTimestampOffset
  let sizeOfOptionalHeader ← readUint16 coff coffOptionalHeaderSizeOffset
  guard (optionalHeaderMinBytes ≤ sizeOfOptionalHeader)
  -- this range is not compared with the size of the file: the source refuses it
  let optional ← reader.read (coffOffset + coffHeaderBytes + optionalHeaderSizeOfImageOffset) 4
  let sizeOfImage ← readUint32 optional 0
  return ⟨codeFile, formatPeCodeId timestamp sizeOfImage⟩

end Parsers

def parsePdbIdentity (bytes : Bytes) (debugFile : Units) : Parse PdbIdentity :=
  parsePdbIdentityFrom (byteReaderOf bytes) debugFile

def parsePeIdentity (bytes : Bytes) (codeFile : Units) : Parse PeIdentity :=
  parsePeIdentityFrom (byteReaderOf bytes) codeFile

end DumpLedger.Symbols
