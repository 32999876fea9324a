import DumpLedger.Domain.RichReport
import DumpLedger.Lib.ByteFields

/-!
# Rich analyses

An analysis may be stored with a detail: the canonical text of its rich report, and the digest of
that text. The report has to name the analysis, and its identifier is the digest of what names the
analysis.
-/

namespace DumpLedger.RichReport

open Lib JsValue

/-- `RichAnalysisDetail`. -/
structure Detail where
  reportJson : Units
  reportDigest : Units

/-- `RichAnalysisBinding`. -/
structure Binding where
  dumpId : Units
  inputSha256 : Units
  kind : Units
  analyzerName : Units
  analyzerVersion : Units
  outcome : Units
  summary : Units
  facts : JsValue

def identityKeys : List String :=
  ["dumpId", "inputSha256", "kind", "analyzerName", "analyzerVersion"]

/-- `binding[k]` for these keys. -/
def Binding.identity (binding : Binding) : List Units :=
  [binding.dumpId, binding.inputSha256, binding.kind, binding.analyzerName,
    binding.analyzerVersion]

/-- What the identifier of the report is the digest of. -/
def identityPreimage (binding : Binding) : Bytes :=
  lengthPrefixed 8 (binding.identity.map encodeText)

/-- `v === n`. -/
def isNumber (v : Option JsValue) (n : Nat) : Bool :=
  match v with
  | some (.number (some q)) => decide (q = n)
  | _ => false

/-- `v === w` of texts that may be `null`. -/
def sameText : Option JsValue → Option JsValue → Bool
  | some .null, some .null => true
  | some (.string s), some (.string t) => decide (s = t)
  | _, _ => false

/-- The facts of the analysis repeat what the report says. -/
def checkFacts (facts report : JsValue) (detail : Detail) : Except Thrown Unit := do
  let exception ← field report "exception"
  let stack ← field report "stack"
  let cause ← field report "rootCause"
  guardThat (isNumber (prop facts "schemaVersion") 2 = true ∧
    textProp facts "reportId" = textProp report "reportId" ∧
    textProp facts "reportDigest" = some detail.reportDigest ∧
    sameText (prop facts "exceptionCode") (prop exception "code") = true ∧
    isNumber (prop facts "frameCount") (elementsProp stack "frames").length = true ∧
    textProp facts "causeStatus" = textProp cause "status") invalidRich

section

variable (sha256 : Bytes → Units) (numeral : ℚ → JsonNumber)

/-- The body of `assertRichAnalysis`. -/
def checkRichAnalysis (detail : Detail) (binding : Binding) : Except Thrown Unit := do
  guardThat (richUtf8Bytes detail.reportJson ≤ maxRichReportBytes ∧
    digestPattern detail.reportDigest = true ∧
    sha256 (encodeText detail.reportJson) = detail.reportDigest) invalidRich
  let parsed ← orThrow (parseDocument detail.reportJson) (.otherError "SyntaxError")
  let report := jsValue parsed.value
  validateRichDocument report
  let identity ← field report "identity"
  guardThat (jsonStringify (print numeral (stable report)) = detail.reportJson) invalidRich
  guardThat (identityKeys.map (textProp identity) = binding.identity.map some) invalidRich
  guardThat (textProp report "reportId" =
      some (utf16 "r2_" ++ sha256 (identityPreimage binding)) ∧
    textProp report "outcome" = some binding.outcome ∧
    textProp report "summary" = some binding.summary) invalidRich
  checkFacts binding.facts report detail

def assertRichAnalysis (detail : Detail) (binding : Binding) : Except Thrown Detail :=
  match checkRichAnalysis sha256 numeral detail binding with
  | .ok _ => .ok detail
  | .error _ => .error (invalidInput "canonical report or digest binding is invalid")

end

end DumpLedger.RichReport
