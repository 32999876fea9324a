import DumpLedger.Ledger.Catalog

/-!
# Symbol coverage

The modules an inspection found, and which of them the symbol store has an artifact for. The
facts are stored JSON of any server version: what is not plain bounded text reads as absent.

A module whose path lies in a system directory is marked: its symbols are not this store's.
-/

namespace DumpLedger

open Lib

/-- `MAX_MODULE_NAME_LENGTH`. -/
def maxModuleNameLength : Nat := 1024

/-- `MAX_DEBUG_FILE_LENGTH`. -/
def maxDebugFileLength : Nat := 255

/-- `MAX_DEBUG_ID_LENGTH`. -/
def maxDebugIdLength : Nat := 64

/-- The objects among the elements of `facts.modules`, when that is an array. -/
def factModules (facts : Option JsonObject) : Option (List JsonObject) :=
  match facts.bind fun o => o.get? "modules" with
  | some (.arr elements) =>
    some (elements.filterMap fun
      | .obj members => some members
      | _ => none)
  | _ => none

structure ModuleSymbolFacts where
  name : Option String
  debugFile : Option String
  debugId : Option String

def moduleSymbolFacts (entry : JsonObject) : ModuleSymbolFacts where
  name := factText (entry.get? "name") maxModuleNameLength
  debugFile := factText (entry.get? "debugFile") maxDebugFileLength
  debugId := factText (entry.get? "debugId") maxDebugIdLength

def symbolKey (debugFile debugId : String) : String := debugFile ++ "\x00" ++ debugId

/-- `isDebugSymbolArtifact`. -/
def StoredSymbolArtifact.isDebug (a : StoredSymbolArtifact) : Bool :=
  decide (a.kind = .pdb) && a.debugFile.isSome && a.debugId.isSome

def StoredSymbolArtifact.symbolKey (a : StoredSymbolArtifact) : String :=
  DumpLedger.symbolKey (a.debugFile.elim "" BoundedText.text) (a.debugId.elim "" BoundedText.text)

/-- The symbols of a snapshot. -/
def SqliteLedger.debugSymbols (l : SqliteLedger) : List StoredSymbolArtifact :=
  l.listSymbolArtifacts.filter StoredSymbolArtifact.isDebug

/-- `symbolIndex(symbols).get(key)`: the last entry with a key wins. -/
def indexedSymbol (symbols : List StoredSymbolArtifact) (key : String) :
    Option StoredSymbolArtifact :=
  (symbols.filter fun symbol => decide (symbol.symbolKey = key)).getLast?

def systemModuleRoots : List String :=
  ["\\windows\\system32\\", "\\windows\\syswow64\\", "\\windows\\winsxs\\"]

/-- The roots are ASCII, so the case of other letters does not matter. -/
def isSystemModulePath (name : Option String) : Bool :=
  match name with
  | none => false
  | some name =>
    let normalized := name.toList.map fun c => if c = '/' then '\\' else c.toLower
    systemModuleRoots.any fun root => decide (root.toList <:+: normalized)

inductive ModuleSymbolStatus
  | present | missing | unidentified
  deriving DecidableEq

structure ModuleSymbolCoverage where
  name : Option String
  debugFile : Option String
  debugId : Option String
  status : ModuleSymbolStatus
  artifactId : Option SymbolArtifactId
  system : Bool

def moduleSymbolCoverage (symbols : List StoredSymbolArtifact) (entry : JsonObject) :
    ModuleSymbolCoverage :=
  let identity := moduleSymbolFacts entry
  let coverage (status : ModuleSymbolStatus) (artifactId : Option SymbolArtifactId) :
      ModuleSymbolCoverage :=
    ⟨identity.name, identity.debugFile, identity.debugId, status, artifactId,
      isSystemModulePath identity.name⟩
  match identity.debugFile, identity.debugId with
  | some debugFile, some debugId =>
    match indexedSymbol symbols (symbolKey debugFile debugId) with
    | some artifact => coverage .present (some artifact.artifactId)
    | none => coverage .missing none
  | _, _ => coverage .unidentified none

/-- The coverage of each module, in stored order. -/
def symbolCoverageFor (facts : Option JsonObject) (symbols : List StoredSymbolArtifact) :
    List ModuleSymbolCoverage :=
  match factModules facts with
  | some modules => modules.map (moduleSymbolCoverage symbols)
  | none => []

end DumpLedger
