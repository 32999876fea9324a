import DumpLedger.Domain.JsonText
import DumpLedger.Http.EventFeed
import DumpLedger.Http.SymbolCoverage
import DumpLedger.Lib.Base64Url

/-!
# The catalog search

`GET /api/v1/dumps`: a page of the dump catalog as JSON. The cursor is the base64url text of
the JSON array `[receivedAt, dumpId]` of the last row.

Bytes that are no UTF-8 are read with replacement characters; such a text names no timestamp
and no dump, so it is refused here as it is there.

`decodeCatalogCursor_encode` says that a cursor the server wrote is one it reads.
-/

namespace DumpLedger

open Lib

/-! ## The cursor -/

/-- `MAX_CATALOG_CURSOR_LENGTH`. -/
def maxCatalogCursorLength : Nat := 256

def catalogCursorText (after : DumpCatalogAfter) : String :=
  Json.stringify (.arr [.str after.receivedAt.text, .str after.dumpId.text])

def encodeCatalogCursor (after : DumpCatalogAfter) : String :=
  String.ofList (Base64Url.encode (utf8Bytes (catalogCursorText after)))

/-- The two elements of the array. -/
def parseCatalogCursorJson (text : String) : Except Thrown (JsonValue × JsonValue) :=
  match (jsonParse text).bind arrayElements? with
  | some [first, second] => .ok (first, second)
  | _ => .error (invalidInput "cursor is invalid")

def decodeCatalogCursor (cursor : String) : Except Thrown DumpCatalogAfter := do
  guardThat (cursor ≠ "" ∧ utf16Length cursor ≤ maxCatalogCursorLength ∧
    cursor.toList.all Base64Url.isCharacter = true) (invalidInput "cursor is invalid")
  let bytes := Base64Url.decode cursor.toList
  guardThat (Base64Url.encode bytes = cursor.toList) (invalidInput "cursor is invalid")
  let text ← orThrow (String.fromUTF8? ⟨bytes.toArray⟩) (invalidInput "cursor is invalid")
  let (first, second) ← parseCatalogCursorJson text
  let receivedAt ← orThrow (stringText? first) (invalidInput "cursor is invalid")
  let receivedAt ← catalogIdentifier (assertIsoTimestamp receivedAt "cursor") "cursor"
  let dumpId ← orThrow (stringText? second) (invalidInput "cursor is invalid")
  let dumpId ← catalogIdentifier (parseDumpId dumpId) "cursor"
  return { receivedAt, dumpId }

/-! ## A cursor is read back -/

section Cursor

variable (after : DumpCatalogAfter)

/-- The array of the two texts, without blanks. -/
def catalogCursorDocument : JsonDocument where
  before := []
  value := .array (.cons [] (.string (quoted after.receivedAt.text)) []
    (.last [] (.string (quoted after.dumpId.text)) []))
  after := []

theorem catalogCursorText_eq : catalogCursorText after =
    "[" ++ (Json.quote after.receivedAt.text ++ "," ++ Json.quote after.dumpId.text) ++ "]" := by
  unfold catalogCursorText
  simp only [Json.stringify, Json.stringifyElements, String.intercalate_cons_cons,
    String.intercalate_singleton]

theorem utf16_catalogCursorText :
    utf16 (catalogCursorText after) = (catalogCursorDocument after).text := by
  have hopen : utf16 "[" = [unitOf '['] := by decide
  have hcomma : utf16 "," = [unitOf ','] := by decide
  have hclose : utf16 "]" = [unitOf ']'] := by decide
  rw [catalogCursorText_eq]
  simp only [utf16_append, utf16_quote, hopen, hcomma, hclose]
  simp [JsonDocument.text, catalogCursorDocument, JsonValue.text, JsonElements.text, blanks]

theorem parseCatalogCursorJson_text : parseCatalogCursorJson (catalogCursorText after) =
    .ok (.string (quoted after.receivedAt.text), .string (quoted after.dumpId.text)) := by
  unfold parseCatalogCursorJson jsonParse
  rw [utf16_catalogCursorText, parseDocument_text]
  rfl

theorem isPlainText_dump : IsPlainText "dump" := by
  intro c hc
  have hchars : c = 'd' ∨ c = 'u' ∨ c = 'm' ∨ c = 'p' := by
    simpa using hc
  rcases hchars with rfl | rfl | rfl | rfl <;> decide

theorem length_catalogCursorText : (utf8Bytes (catalogCursorText after)).length ≤ 65 := by
  have htime := isPlainText_timestamp after.receivedAt
  have hdump := isPlainText_identifier isPlainText_dump after.dumpId
  have htimeLength := (isTimestampPart_of_instant after.receivedAt.valid).1
  obtain ⟨body, htext, hbody, -⟩ := identifier_text after.dumpId
  have hdumpLength : after.dumpId.text.toList.length = 31 := by
    rw [htext, List.length_append, List.length_cons, hbody]
    rfl
  have hsize : (utf8Bytes (catalogCursorText after)).length =
      (catalogCursorText after).utf8ByteSize := rfl
  rw [hsize, catalogCursorText_eq, quote_plain htime, quote_plain hdump]
  simp only [String.utf8ByteSize_append, utf8ByteSize_plain htime, utf8ByteSize_plain hdump,
    hdumpLength]
  show 1 + (1 + _ + 1 + 1 + (1 + 31 + 1)) + 1 ≤ 65
  omega

theorem utf16Length_ascii {cs : List Char} (h : ∀ c ∈ cs, c.toNat < 128) :
    utf16Length (String.ofList cs) = cs.length := by
  unfold utf16Length
  rw [String.toList_ofList]
  induction cs with
  | nil => rfl
  | cons c cs ih =>
    have hc : c.toNat < 0x10000 := (h c List.mem_cons_self).trans (by decide)
    rw [List.map_cons, List.sum_cons, ih fun d hd => h d (List.mem_cons_of_mem c hd),
      if_pos hc, List.length_cons, Nat.add_comm]

/-- The server's cursors have the form it asks for. -/
theorem encodeCatalogCursor_form : encodeCatalogCursor after ≠ "" ∧
    utf16Length (encodeCatalogCursor after) ≤ maxCatalogCursorLength ∧
      (encodeCatalogCursor after).toList.all Base64Url.isCharacter = true := by
  have hlength := length_catalogCursorText after
  have hchars : ∀ c ∈ Base64Url.encode (utf8Bytes (catalogCursorText after)),
      Base64Url.isCharacter c = true :=
    Base64Url.encode_forall (fun _ => Base64Url.isCharacter_character) _
  have hascii : ∀ c ∈ Base64Url.encode (utf8Bytes (catalogCursorText after)), c.toNat < 128 :=
    Base64Url.encode_forall (fun _ => Base64Url.character_ascii) _
  unfold encodeCatalogCursor
  refine ⟨?_, ?_, ?_⟩
  · intro hempty
    have hnil := congrArg String.toList hempty
    rw [String.toList_ofList] at hnil
    have hzero := congrArg List.length hnil
    rw [Base64Url.length_encode] at hzero
    have hpos : 0 < (utf8Bytes (catalogCursorText after)).length := by
      have hsize : (utf8Bytes (catalogCursorText after)).length =
          (catalogCursorText after).utf8ByteSize := rfl
      rw [hsize, catalogCursorText_eq, String.utf8ByteSize_append]
      exact Nat.succ_pos _
    simp only [List.length_nil, String.toList_empty] at hzero
    omega
  · rw [utf16Length_ascii hascii, Base64Url.length_encode]
    unfold maxCatalogCursorLength
    omega
  · rw [String.toList_ofList, List.all_eq_true]
    exact hchars

/-- **A cursor the server wrote is one it reads.** -/
theorem decodeCatalogCursor_encode :
    decodeCatalogCursor (encodeCatalogCursor after) = .ok after := by
  have hchars : (encodeCatalogCursor after).toList =
      Base64Url.encode (utf8Bytes (catalogCursorText after)) := String.toList_ofList
  have hdump : parseDumpId after.dumpId.text = .ok after.dumpId := parseIdentifier_text _
  unfold decodeCatalogCursor
  rw [guardThat_of (encodeCatalogCursor_form after), hchars, Base64Url.decode_encode, bind_ok]
  dsimp only
  rw [guardThat_of rfl, fromUTF8?_utf8Bytes]
  simp only [bind_ok, orThrow_some, parseCatalogCursorJson_text, stringText?_quoted,
    assertIsoTimestamp_text, hdump, catalogIdentifier]
  rfl

end Cursor

/-! ## The page -/

structure DumpCatalogParams where
  caseId : Option String
  customerId : Option String
  phase : Option DumpPhase
  validation : Option ValidationState
  receivedAfter : Option String
  receivedBefore : Option String
  architecture : Option String
  exceptionCode : Option JsNumber
  sha256 : Option String
  cursor : Option String

structure DumpCatalogSymbolCoverage where
  present : Nat
  missing : Nat
  unidentified : Nat

structure DumpCatalogEntry where
  dumpId : DumpId
  caseId : CaseId
  customerId : CustomerId
  phase : DumpPhase
  validation : ValidationState
  originalName : BoundedText 1024
  byteSize : Option Nat
  sha256 : Option Sha256
  receivedAt : IsoTimestamp
  availableAt : Option IsoTimestamp
  purgeAt : Option IsoTimestamp
  architecture : Option String
  exceptionCode : Option Nat
  exceptionAddress : Option Nat
  symbolCoverage : DumpCatalogSymbolCoverage

structure DumpCatalogResponse where
  dumps : List DumpCatalogEntry
  nextCursor : Option String

def catalogFilterOf (params : DumpCatalogParams) : Except Thrown DumpCatalogFilter := do
  let caseId ← forOption params.caseId fun caseId =>
    catalogIdentifier (parseCaseId caseId) "caseId"
  let customerId ← forOption params.customerId fun customerId =>
    catalogIdentifier (parseCustomerId customerId) "customerId"
  return {
    caseId, customerId
    phase := params.phase
    validation := params.validation
    receivedAfter := params.receivedAfter
    receivedBefore := params.receivedBefore
    architecture := params.architecture
    exceptionCode := params.exceptionCode
    sha256 := params.sha256 }

def catalogSymbolCoverage (facts : Option JsonObject) (symbols : List StoredSymbolArtifact) :
    DumpCatalogSymbolCoverage :=
  let statuses := (symbolCoverageFor facts symbols).map ModuleSymbolCoverage.status
  { present := statuses.count .present
    missing := statuses.count .missing
    unidentified := statuses.count .unidentified }

/-- A row with the symbol coverage of the dump's facts. -/
def catalogEntryOf (row : DumpCatalogRow) (dump : Option DumpRow)
    (symbols : List StoredSymbolArtifact) : DumpCatalogEntry where
  dumpId := row.dumpId
  caseId := row.caseId
  customerId := row.customerId
  phase := row.phase
  validation := row.validation
  originalName := row.originalName
  byteSize := row.byteSize
  sha256 := row.sha256
  receivedAt := row.receivedAt
  availableAt := row.availableAt
  purgeAt := row.purgeAt
  architecture := row.architecture
  exceptionCode := row.exceptionCode
  exceptionAddress := row.exceptionAddress
  symbolCoverage := catalogSymbolCoverage
    (dump.bind fun d => if d.inspectionError = none then d.inspectionFacts else none) symbols

def catalogResponseOf (rows : List DumpCatalogRow) (nextAfter : Option DumpCatalogAfter)
    (l : SqliteLedger) : DumpCatalogResponse where
  dumps := rows.map fun row => catalogEntryOf row (l.dumps.find? row.dumpId) l.debugSymbols
  nextCursor := nextAfter.map encodeCatalogCursor

/-- `searchDumps` of the application. -/
def searchDumps (l : SqliteLedger) (sqlText : Json → Option String) (params : DumpCatalogParams) :
    Except Thrown DumpCatalogResponse := do
  let after ← forOption params.cursor decodeCatalogCursor
  let filter ← catalogFilterOf params
  let page ← l.searchDumps sqlText filter after
  return catalogResponseOf page.rows page.nextAfter l

end DumpLedger
