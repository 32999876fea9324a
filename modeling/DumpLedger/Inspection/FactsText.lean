import DumpLedger.Domain.JsonPrint
import DumpLedger.Inspection.VaultInspectionPort

/-!
# The text of the facts

`JSON.stringify(serializeFacts(facts))`, from the code units of the names: a surrogate without
its pair is escaped, where the text that the ledger keeps has U+FFFD.
-/

namespace DumpLedger

open Lib Minidump

/-! ## The value that is written -/

section Values

variable {α : Type}

def optionalField (name : String) (write : α → JsonValue) (value : Option α) :
    List (String × JsonValue) :=
  value.elim [] fun a => [(name, write a)]

/-- `value.toString()` of a bigint. -/
def bigintValue (n : Nat) : JsonValue := jsonString (utf16 (toString n))

def booleanValue (b : Bool) : JsonValue := .literal (.bool b)

def textValue (s : String) : JsonValue := jsonString (utf16 s)

end Values

def moduleFields (module : ModuleFact) : List (String × JsonValue) :=
  optionalField "name" jsonString module.name ++
    [("baseOfImage", bigintValue module.baseOfImage),
      ("sizeOfImage", jsonNumber module.sizeOfImage),
      ("timestamp", jsonNumber module.timestamp)] ++
    optionalField "debugFile" textValue module.debugFile ++
    optionalField "debugId" textValue module.debugId

def modulesValue (modules : List ModuleFact) : JsonValue :=
  jsonArray (modules.map fun module => jsonObject (moduleFields module))

def factsFields (facts : MinidumpFacts) : List (String × JsonValue) :=
  [("minidumpFlags", bigintValue facts.minidumpFlags),
    ("capturedMemoryBytes", bigintValue facts.capturedMemoryBytes),
    ("memoryRangeCount", jsonNumber facts.memoryRangeCount),
    ("hasMemoryListStream", booleanValue facts.hasMemoryListStream),
    ("hasMemory64ListStream", booleanValue facts.hasMemory64ListStream)] ++
  optionalField "architecture" textValue facts.architecture ++
  optionalField "exceptionCode" bigintValue facts.exceptionCode ++
  optionalField "exceptionAddress" bigintValue facts.exceptionAddress ++
  optionalField "modules" modulesValue facts.modules

/-- `JSON.stringify(serializeFacts(facts))`. -/
def stringifyFacts (facts : MinidumpFacts) : Units := jsonStringify (jsonObject (factsFields facts))

end DumpLedger
