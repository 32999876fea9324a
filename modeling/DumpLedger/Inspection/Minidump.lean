import DumpLedger.Domain.Json
import DumpLedger.Domain.Lifecycle
import DumpLedger.Inspection.CodeView
import DumpLedger.Inspection.RandomAccess
import DumpLedger.Lib.JsonSyntax

/-!
# The minidump inspector

A minidump is a header, a directory of streams, and the streams. The inspector looks at the
structure, at the two lists of captured memory, and at the names of the modules; the captured
memory itself is never read.

The names of modules are UTF-16 as they stand in the file, lone surrogates included.
-/

namespace DumpLedger.Minidump

open Lib

def headerSize : Nat := 32

def directoryEntrySize : Nat := 12

/-- `MINIDUMP_VERSION`. -/
def minidumpVersion : Nat := 0xa793

/-- `MINI_DUMP_WITH_FULL_MEMORY`. -/
def miniDumpWithFullMemory : Nat := 2

def maxStreams : Nat := 4096

def maxMemoryRanges : Nat := 65536

def maxModules : Nat := 4096

def maxStringBytes : Nat := 65536

/-- `MAX_MODULE_CV_RECORD_BYTES`. -/
def maxModuleCvRecordBytes : Nat := 65536

/-- `MAX_MODULE_METADATA_BYTES`. -/
def maxModuleMetadataBytes : Nat := 4 * 1024 * 1024

/-! ## Streams -/

namespace StreamType

def moduleList : Nat := 4
def memoryList : Nat := 5
def exception : Nat := 6
def systemInfo : Nat := 7
def memory64List : Nat := 9
def memoryInfoList : Nat := 16

end StreamType

/-- `CRITICAL_STREAM_TYPES`. -/
def criticalStreamTypes : List Nat :=
  [StreamType.moduleList, StreamType.memoryList, StreamType.exception, StreamType.systemInfo,
    StreamType.memory64List, StreamType.memoryInfoList]

structure DirectoryEntry where
  type : Nat
  dataSize : Nat
  rva : Nat
  deriving DecidableEq, Repr

structure MemoryFacts where
  bytes : Nat
  ranges : Nat
  deriving DecidableEq, Repr

structure ModuleFact where
  name : Option Units
  baseOfImage : Nat
  sizeOfImage : Nat
  timestamp : Nat
  debugFile : Option String
  debugId : Option String
  deriving DecidableEq, Repr

structure ExceptionFacts where
  exceptionCode : Nat
  exceptionAddress : Nat
  deriving DecidableEq, Repr

structure MinidumpFacts where
  coverage : CoverageKind
  minidumpFlags : Nat
  capturedMemoryBytes : Nat
  memoryRangeCount : Nat
  hasMemoryListStream : Bool
  hasMemory64ListStream : Bool
  architecture : Option String
  exceptionCode : Option Nat
  exceptionAddress : Option Nat
  modules : Option (List ModuleFact)
  deriving DecidableEq, Repr

/-- `entries.find((entry) => entry.type === type)`. -/
def findEntry (entries : List DirectoryEntry) (type : Nat) : Option DirectoryEntry :=
  entries.find? fun entry => entry.type == type

def requireStreamBytes (entry : DirectoryEntry) (required : Nat) (context : String) :
    Inspect Unit :=
  require (required ≤ entry.dataSize) .malformedStream
    s!"{context} exceeds its declared stream size"

/-- A step for each index below `count`, with an accumulator. -/
def forIndex {β : Type} (count : Nat) (start : β) (f : β → Nat → Inspect β) : Inspect β :=
  Prog.foldEach f start (List.range count)

section Source

variable (source : RandomAccessSource)

/-! ## Memory -/

def inspectMemoryList (entry : DirectoryEntry) : Inspect MemoryFacts := do
  requireStreamBytes entry 4 "MemoryListStream header"
  let header ← readExact source entry.rva 4 "MemoryListStream count"
  let count := uintLE header 0 4
  require (count ≤ maxMemoryRanges) .impossibleCount
    s!"memory range count {count} exceeds {maxMemoryRanges}"
  let descriptorBytes ← checkedMultiply count 16 "MemoryListStream descriptors"
  let size ← checkedAdd 4 descriptorBytes "MemoryListStream size"
  requireStreamBytes entry size "MemoryListStream descriptors"
  let capturedBytes ← forIndex count 0 fun capturedBytes index => do
    let position ← checkedMultiply index 16 "memory descriptor offset"
    let position ← checkedAdd 4 position "memory descriptor offset"
    let offset ← checkedAdd entry.rva position "memory descriptor offset"
    let descriptor ← readExact source offset 16 "memory descriptor"
    let virtualAddress := uintLE descriptor 0 8
    let dataSize := uintLE descriptor 8 4
    let dataRva := uintLE descriptor 12 4
    let _ ← checkedAdd virtualAddress dataSize "memory virtual range"
    ensureRange source dataRva dataSize "captured memory range"
    checkedAdd capturedBytes dataSize "captured memory byte total"
  return { bytes := capturedBytes, ranges := count }

def inspectMemory64List (entry : DirectoryEntry) : Inspect MemoryFacts := do
  requireStreamBytes entry 16 "Memory64ListStream header"
  let header ← readExact source entry.rva 16 "Memory64ListStream header"
  let count := uintLE header 0 8
  require (count ≤ maxMemoryRanges) .impossibleCount
    s!"memory range count {count} exceeds {maxMemoryRanges}"
  let descriptorBytes ← checkedMultiply count 16 "Memory64ListStream descriptors"
  let size ← checkedAdd 16 descriptorBytes "Memory64ListStream size"
  requireStreamBytes entry size "Memory64ListStream descriptors"
  let capturedBytes ← forIndex count 0 fun capturedBytes index => do
    let position ← checkedMultiply index 16 "memory64 descriptor offset"
    let position ← checkedAdd 16 position "memory64 descriptor offset"
    let offset ← checkedAdd entry.rva position "memory64 descriptor offset"
    let descriptor ← readExact source offset 16 "memory64 descriptor"
    let virtualAddress := uintLE descriptor 0 8
    let dataSize := uintLE descriptor 8 8
    let _ ← checkedAdd virtualAddress dataSize "memory64 virtual range"
    checkedAdd capturedBytes dataSize "captured memory byte total"
  ensureRange source (uintLE header 8 8) capturedBytes "captured Memory64 payload"
  return { bytes := capturedBytes, ranges := count }

def inspectMemoryInfoList (entry : DirectoryEntry) : Inspect Unit := do
  requireStreamBytes entry 16 "MemoryInfoListStream header"
  let header ← readExact source entry.rva 16 "MemoryInfoListStream header"
  let headerSize := uintLE header 0 4
  let entrySize := uintLE header 4 4
  let count := uintLE header 8 8
  require (16 ≤ headerSize ∧ 48 ≤ entrySize) .malformedStream
    "MemoryInfoListStream has undersized records"
  require (count ≤ maxMemoryRanges) .impossibleCount
    s!"memory info count {count} exceeds {maxMemoryRanges}"
  let entryBytes ← checkedMultiply count entrySize "MemoryInfoListStream entries"
  let totalSize ← checkedAdd headerSize entryBytes "MemoryInfoListStream size"
  requireStreamBytes entry totalSize "MemoryInfoListStream entries"

/-! ## The system and the exception -/

def architectureName : Nat → Option String
  | 0 => some "x86"
  | 5 => some "arm"
  | 6 => some "ia64"
  | 9 => some "x86_64"
  | 12 => some "arm64"
  | _ => none

def inspectArchitecture (entry : DirectoryEntry) : Inspect (Option String) := do
  requireStreamBytes entry 56 "SystemInfoStream"
  let bytes ← readExact source entry.rva 2 "processor architecture"
  return architectureName (uintLE bytes 0 2)

def inspectException (entry : DirectoryEntry) : Inspect ExceptionFacts := do
  requireStreamBytes entry 160 "ExceptionStream"
  let bytes ← readExact source entry.rva 36 "exception record prefix"
  let parameterCount := uintLE bytes 32 4
  require (parameterCount ≤ 15) .impossibleCount
    s!"exception parameter count {parameterCount} exceeds 15"
  return { exceptionCode := uintLE bytes 8 4, exceptionAddress := uintLE bytes 24 8 }

/-! ## Modules -/

/-- `new MetadataBudget()`. -/
def newBudget : Inspect Unit :=
  Prog.modify fun s => { s with remaining := maxModuleMetadataBytes - 1024 }

/-- `budget.consume(bytes)`. -/
def consume (bytes : Nat) : Inspect Unit := do
  let remaining ← Prog.gets InspectionState.remaining
  require (bytes ≤ remaining) .resourceLimit "aggregate module metadata exceeds its byte budget"
  Prog.modify fun s => { s with remaining := remaining - bytes }

/-- `toString("utf16le")` of an even number of bytes. -/
def utf16leUnits : Bytes → Units
  | low :: high :: rest => (low.toNat + 256 * high.toNat).toUInt16 :: utf16leUnits rest
  | _ => []

def readMinidumpString (rva : Nat) : Inspect Units := do
  let header ← readExact source rva 4 "module name length"
  let byteLength := uintLE header 0 4
  require (byteLength ≤ maxStringBytes) .resourceLimit
    s!"module name length {byteLength} exceeds {maxStringBytes}"
  require (byteLength % 2 = 0) .malformedStream "module name has an odd UTF-16 byte length"
  let contentsRva ← checkedAdd rva 4 "module name offset"
  consume (byteLength * 3)
  let contents ← readExact source contentsRva byteLength "module name"
  return utf16leUnits contents

/-- The name a descriptor points at, if it points at one. -/
def readModuleName (nameRva : Nat) : Inspect (Option Units) :=
  if nameRva = 0 then pure none else some <$> readMinidumpString source nameRva

/-- Whatever goes wrong with the record itself, the module has no identity then. -/
def readCodeViewIdentity (descriptor : Bytes) : Inspect (Option PdbIdentity) := do
  let dataSize := uintLE descriptor 76 4
  let rva := uintLE descriptor 80 4
  if rva = 0 ∨ dataSize = 0 then return none
  else
    let length := min dataSize maxModuleCvRecordBytes
    consume (length * 6)
    tryCatch (do
      let record ← readExact source rva length "module CodeView record"
      return parseRsdsCodeViewRecord record) fun _ => return none

def inspectModule (rva index : Nat) : Inspect ModuleFact := do
  let position ← checkedMultiply index 108 "module descriptor offset"
  let position ← checkedAdd 4 position "module descriptor offset"
  let offset ← checkedAdd rva position "module descriptor offset"
  let descriptor ← readExact source offset 108 "module descriptor"
  let name ← readModuleName source (uintLE descriptor 20 4)
  let identity ← readCodeViewIdentity source descriptor
  return {
    name
    baseOfImage := uintLE descriptor 0 8
    sizeOfImage := uintLE descriptor 8 4
    timestamp := uintLE descriptor 16 4
    debugFile := identity.map PdbIdentity.debugFile
    debugId := identity.map PdbIdentity.debugId }

def inspectModules (entry : DirectoryEntry) : Inspect (List ModuleFact) := do
  requireStreamBytes entry 4 "ModuleListStream header"
  let header ← readExact source entry.rva 4 "ModuleListStream count"
  let count := uintLE header 0 4
  require (count ≤ maxModules) .impossibleCount s!"module count {count} exceeds {maxModules}"
  let descriptorBytes ← checkedMultiply count 108 "ModuleListStream descriptors"
  let size ← checkedAdd 4 descriptorBytes "ModuleListStream size"
  requireStreamBytes entry size "ModuleListStream descriptors"
  newBudget
  consume (count * 256)
  forIndex count [] fun modules index => do
    let module ← inspectModule source entry.rva index
    return modules ++ [module]

/-! ## The file -/

/-- The directory as far as it is read, and the critical types seen in it. -/
structure DirectoryScan where
  entries : List DirectoryEntry
  seenCritical : List Nat

def parseDirectoryEntry (bytes : Bytes) : DirectoryEntry where
  type := uintLE bytes 0 4
  dataSize := uintLE bytes 4 4
  rva := uintLE bytes 8 4

/-- A stream that is not empty lies within the file. -/
def ensureStreamData (entry : DirectoryEntry) : Inspect Unit :=
  if 0 < entry.dataSize then ensureRange source entry.rva entry.dataSize "stream data"
  else pure ()

/-- The critical types seen so far, with the one of `entry`. -/
def addCritical (seenCritical : List Nat) (entry : DirectoryEntry) : Inspect (List Nat) :=
  if entry.type ∈ criticalStreamTypes then do
    require (entry.type ∉ seenCritical) .duplicateStream
      s!"critical stream type {entry.type} occurs more than once"
    return seenCritical ++ [entry.type]
  else return seenCritical

def readDirectoryEntry (directoryRva : Nat) (scan : DirectoryScan) (index : Nat) :
    Inspect DirectoryScan := do
  let position ← checkedMultiply index directoryEntrySize "directory entry offset"
  let entryOffset ← checkedAdd directoryRva position "directory entry offset"
  let bytes ← readExact source entryOffset directoryEntrySize "directory entry"
  let entry := parseDirectoryEntry bytes
  ensureStreamData source entry
  let seenCritical ← addCritical scan.seenCritical entry
  return { entries := scan.entries ++ [entry], seenCritical }

/-- `toString("ascii")`: the high bit of every byte is dropped. -/
def asciiText (bytes : Bytes) : String :=
  String.ofList (bytes.map fun byte => Char.ofNat (byte &&& 0x7f).toNat)

def coverageOf (flags : Nat) (hasCapturedMemoryStream : Bool) : CoverageKind :=
  if flags &&& miniDumpWithFullMemory ≠ 0 then .fullMemoryDeclared
  else if hasCapturedMemoryStream = true then .partialMemory
  else .unknown

/-- What an inspector does with a stream that may be absent. -/
def inspectStream {α : Type} (stream : Option DirectoryEntry) (inspect : DirectoryEntry → Inspect α) :
    Inspect (Option α) :=
  match stream with
  | none => pure none
  | some entry => some <$> inspect entry

def inspectMinidump : Inspect MinidumpFacts := do
  let header ← readExact source 0 headerSize "minidump header"
  require (asciiText (window header 0 4) = "MDMP") .invalidSignature
    "minidump signature is not MDMP"
  let version := uintLE header 4 4
  require (version % 65536 = minidumpVersion) .unsupportedVersion
    s!"unsupported minidump version 0x{String.ofList (Nat.toDigits 16 version)}"
  let streamCount := uintLE header 8 4
  require (streamCount ≤ maxStreams) .impossibleCount
    s!"stream count {streamCount} exceeds {maxStreams}"
  let directoryRva := uintLE header 12 4
  require (¬(0 < streamCount ∧ directoryRva < headerSize)) .malformedStream
    "stream directory overlaps the minidump header"
  let directoryBytes ← checkedMultiply streamCount directoryEntrySize "stream directory size"
  ensureRange source directoryRva directoryBytes "stream directory"
  let scan ← forIndex streamCount ⟨[], []⟩ (readDirectoryEntry source directoryRva)
  let entries := scan.entries
  let memoryList := findEntry entries StreamType.memoryList
  let memory64List := findEntry entries StreamType.memory64List
  let _ ← inspectStream (findEntry entries StreamType.memoryInfoList) (inspectMemoryInfoList source)
  let memoryListFacts ← inspectStream memoryList (inspectMemoryList source)
  let memoryListFacts := memoryListFacts.getD ⟨0, 0⟩
  let memory64Facts ← inspectStream memory64List (inspectMemory64List source)
  let memory64Facts := memory64Facts.getD ⟨0, 0⟩
  let capturedMemoryBytes ← checkedAdd memoryListFacts.bytes memory64Facts.bytes
    "captured memory byte total"
  let flags := uintLE header 24 8
  let architecture ← inspectStream (findEntry entries StreamType.systemInfo)
    (inspectArchitecture source)
  let exceptionFacts ← inspectStream (findEntry entries StreamType.exception)
    (inspectException source)
  let modules ← inspectStream (findEntry entries StreamType.moduleList) (inspectModules source)
  return {
    coverage := coverageOf flags (memoryList.isSome || memory64List.isSome)
    minidumpFlags := flags
    capturedMemoryBytes
    memoryRangeCount := memoryListFacts.ranges + memory64Facts.ranges
    hasMemoryListStream := memoryList.isSome
    hasMemory64ListStream := memory64List.isSome
    architecture := architecture.join
    exceptionCode := exceptionFacts.map ExceptionFacts.exceptionCode
    exceptionAddress := exceptionFacts.map ExceptionFacts.exceptionAddress
    modules }

/-- The facts or the failure, and the state the inspection has ended in. -/
def runInspection : Except InspectionThrow MinidumpFacts × InspectionState :=
  inspectMinidump source { reads := [], remaining := 0 }

/-- `inspect`: whatever is thrown becomes an error of the result. -/
def inspect : Except InspectionError MinidumpFacts :=
  (runInspection source).1.mapError InspectionThrow.error

/-- The reads an inspection issues, by offset and length. -/
def inspectReads : List (Nat × Nat) := (runInspection source).2.reads

end Source

end DumpLedger.Minidump
