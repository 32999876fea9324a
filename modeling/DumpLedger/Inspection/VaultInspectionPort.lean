import DumpLedger.Engine.Plan
import DumpLedger.Inspection.Minidump
import DumpLedger.Lib.Utf16

/-!
# The inspection port of the engine

The engine asks for the outcome of an inspection; the port opens the immutable object, runs the
inspector and writes its facts as a JSON object. Integers of 64 bits become decimal text.

A name with a lone surrogate is written with U+FFFD in its place; `Json` holds no others.
-/

namespace DumpLedger

open Lib Minidump

/-- `IO_ERROR`. -/
def ioErrorOutcome : InspectionOutcome :=
  .rejected "io-error: immutable dump could not be inspected"

/-- The text of code units, with U+FFFD for a lone surrogate. -/
def wellFormedText : Units → List Char
  | [] => []
  | u :: rest =>
    match rest with
    | v :: after =>
      if Lib.isHighSurrogate u && Lib.isLowSurrogate v then
        Char.ofNat (0x10000 + (u.toNat - 0xD800) * 0x400 + (v.toNat - 0xDC00)) ::
          wellFormedText after
      else wellFormedUnit u :: wellFormedText (v :: after)
    | [] => [wellFormedUnit u]
where
  wellFormedUnit (u : CodeUnit) : Char :=
    if Lib.isHighSurrogate u || Lib.isLowSurrogate u then '\uFFFD' else Char.ofNat u.toNat

/-- A member that is left out when there is no value. -/
def optionalMember {α : Type} (name : String) (write : α → Json) (value : Option α) : JsonObject :=
  value.elim [] fun a => [(name, write a)]

def numberJson (n : Nat) : Json := .num (.int n)

/-- `value.toString()` of a bigint. -/
def decimalJson (n : Nat) : Json := .str (toString n)

def serializeModule (module : ModuleFact) : JsonObject :=
  optionalMember "name" (fun name => .str (String.ofList (wellFormedText name))) module.name ++
    [("baseOfImage", decimalJson module.baseOfImage),
      ("sizeOfImage", numberJson module.sizeOfImage),
      ("timestamp", numberJson module.timestamp)] ++
    optionalMember "debugFile" .str module.debugFile ++
    optionalMember "debugId" .str module.debugId

def serializeFacts (facts : MinidumpFacts) : JsonObject :=
  [("minidumpFlags", decimalJson facts.minidumpFlags),
    ("capturedMemoryBytes", decimalJson facts.capturedMemoryBytes),
    ("memoryRangeCount", numberJson facts.memoryRangeCount),
    ("hasMemoryListStream", .bool facts.hasMemoryListStream),
    ("hasMemory64ListStream", .bool facts.hasMemory64ListStream)] ++
  optionalMember "architecture" .str facts.architecture ++
  optionalMember "exceptionCode" decimalJson facts.exceptionCode ++
  optionalMember "exceptionAddress" decimalJson facts.exceptionAddress ++
  optionalMember "modules" (fun modules => .arr (modules.map fun m => .obj (serializeModule m)))
    facts.modules

/-- The outcome for the object a dump has in the vault, if it has one. -/
def inspectVaultObject : Option Bytes → InspectionOutcome
  | none => ioErrorOutcome
  | some bytes =>
    match inspect (bufferSource bytes) with
    | .ok facts => .accepted facts.coverage (serializeFacts facts)
    | .error error => .rejected s!"{error.code.text}: {error.message}"

/-! ## What is written -/

theorem get?_append {a b : JsonObject} {key : String} :
    JsonObject.get? (a ++ b) key = (JsonObject.get? a key).or (JsonObject.get? b key) :=
  List.lookup_append

theorem get?_optionalMember {α : Type} {name key : String} {write : α → Json} {value : Option α} :
    JsonObject.get? (optionalMember name write value) key =
      if key = name then value.map write else none := by
  cases value with
  | none => simp [optionalMember, JsonObject.get?]
  | some a =>
    by_cases hkey : key = name
    · simp [optionalMember, JsonObject.get?, hkey]
    · have hne : (key == name) = false := by simpa using hkey
      simp [optionalMember, JsonObject.get?, List.lookup, hkey, hne]

theorem serializeFacts_architecture (facts : MinidumpFacts) :
    JsonObject.get? (serializeFacts facts) "architecture" = facts.architecture.map .str := by
  simp only [serializeFacts, get?_append, get?_optionalMember]
  simp [JsonObject.get?, List.lookup]

theorem serializeFacts_exceptionCode (facts : MinidumpFacts) :
    JsonObject.get? (serializeFacts facts) "exceptionCode" =
      facts.exceptionCode.map decimalJson := by
  simp only [serializeFacts, get?_append, get?_optionalMember]
  simp [JsonObject.get?, List.lookup]

end DumpLedger
