import DumpLedger.Http.SymbolCoverage
import DumpLedger.Lib.Grouping
import DumpLedger.Lib.Utf16

/-!
# Missing symbols of a case

The identities that the case page asks for: over the available dumps of the case, one entry for
each pair that no stored artifact has, with the dumps that need it.
-/

namespace DumpLedger

open Lib

structure MissingSymbolIdentity where
  debugFile : String
  debugId : String
  dumpIds : List DumpId

/-- `compareCodeUnits` is not positive. -/
def codeUnitsLe (left right : String) : Bool := decide (utf16 left ≤ utf16 right)

def identityLe (left right : String × String) : Bool :=
  if left.1 = right.1 then codeUnitsLe left.2 right.2 else codeUnitsLe left.1 right.1

/-- The pair of a module that no artifact is stored for. System modules are not asked for. -/
def missingIdentity? (symbols : List StoredSymbolArtifact) (entry : JsonObject) :
    Option (String × String) :=
  let identity := moduleSymbolFacts entry
  match identity.debugFile, identity.debugId with
  | some debugFile, some debugId =>
    if isSystemModulePath identity.name = true then none
    else if (indexedSymbol symbols (symbolKey debugFile debugId)).isSome = true then none
    else some (debugFile, debugId)
  | _, _ => none

/-- What a dump adds to the groups. -/
def missingInDump (symbols : List StoredSymbolArtifact) (dump : DumpRow) :
    List ((String × String) × DumpId) :=
  match factModules dump.inspectionFacts with
  | none => []
  | some modules =>
    (modules.filterMap (missingIdentity? symbols)).map fun identity => (identity, dump.dumpId)

def pairKey (identity : String × String) : String := symbolKey identity.1 identity.2

/-- What the available dumps of a case add to the groups. -/
def missingPairs (l : SqliteLedger) (caseId : CaseId) : List ((String × String) × DumpId) :=
  let dumps := l.dumps.sorted.filter fun dump =>
    decide (dump.caseId = caseId) && decide (dump.phase = .available)
  dumps.flatMap (missingInDump l.debugSymbols)

/-- `grouped`, from the snapshot `l`. -/
def missingGroups (l : SqliteLedger) (caseId : CaseId) : List (Group (String × String) DumpId) :=
  Group.addAll pairKey (missingPairs l caseId)

def missingSymbolsFor (l : SqliteLedger) (caseId : CaseId) : List MissingSymbolIdentity :=
  ((missingGroups l caseId).mergeSort fun a b => identityLe a.first b.first).map fun group =>
    { debugFile := group.first.1
      debugId := group.first.2
      dumpIds := group.members.mergeSort fun a b => decide (a ≤ b) }

end DumpLedger
