import DumpLedger.Properties.BundleAcceptance
import DumpLedger.Transfer.LedgerCopy

/-!
# Reading a backup

The importer checks each column of the copy that it is handed. What the engine has written passes
these checks, up to one: a grant may have more slots than the importer takes.

* `readDump_columns`, `readGrant_columns`, … — a row is read as it was written
* `readBundleLedger_copy` — when a backup is read at all
-/

namespace DumpLedger.ImportSession

open Lib Vocabulary

/-! ## Columns -/

section Columns

variable {row : Row} {key : String}

theorem rowString_text {s : String} (h : row key = .text s) : rowString row key = .ok s := by
  rw [rowString, h]

theorem rowNullableString_textOrNull {o : Option String} (h : row key = textOrNull o) :
    rowNullableString row key = .ok o := by
  rw [rowNullableString, h]
  cases o <;> rfl

theorem isIsoTimestamp_text (t : IsoTimestamp) : isIsoTimestamp t.text = true := t.valid

theorem checkIso_text (t : IsoTimestamp) : checkIso key t.text = .ok () :=
  guardThat_of (isIsoTimestamp_text t)

theorem rowIso_text {t : IsoTimestamp} (h : row key = .text t.text) :
    rowIso row key = .ok t.text := by
  rw [rowIso, rowString_text h, bind_ok, checkIso_text]
  rfl

theorem rowNullableIso_textOrNull {o : Option IsoTimestamp}
    (h : row key = textOrNull (o.map fun t => t.text)) :
    rowNullableIso row key = .ok (o.map fun t => t.text) := by
  rw [rowNullableIso, rowNullableString_textOrNull h, bind_ok]
  cases o with
  | none => rfl
  | some t =>
    simp only [Option.map_some, forOption, checkIso_text, bind_ok]
    rfl

theorem parseAs_of {α : Type} {parse : String → Except Thrown α} {value what : String} {a : α}
    (h : parse value = .ok a) : parseAs key parse value what = .ok a := by
  rw [parseAs, h]
  rfl

theorem rowId_text {α : Type} {parse : String → Except Thrown α} {value : String} {a : α}
    (hrow : row key = .text value) (h : parse value = .ok a) : rowId row key parse = .ok a := by
  rw [rowId, hrow]
  exact parseAs_of h

theorem rowNullableId_textOrNull {α : Type} {parse : String → Except Thrown α} {text : α → String}
    {o : Option α} (hrow : row key = textOrNull (o.map text))
    (h : ∀ a, parse (text a) = .ok a) : rowNullableId row key parse = .ok o := by
  rw [rowNullableId, rowNullableString_textOrNull hrow, bind_ok]
  cases o with
  | none => rfl
  | some a =>
    rw [Option.map_some, forOption, parseAs_of (h a)]
    rfl

theorem rowEnum_text {α : Type} {parse : String → Except Thrown α} {value : String} {a : α}
    (hrow : row key = .text value) (h : parse value = .ok a) : rowEnum row key parse = .ok a := by
  rw [rowEnum, hrow]
  exact parseAs_of h

theorem rowNullableCoverage_textOrNull {o : Option CoverageKind}
    (h : row key = textOrNull (o.map text)) : rowNullableCoverage row key = .ok o := by
  rw [rowNullableCoverage, h]
  cases o with
  | none => rfl
  | some kind =>
    show (parseAs key (parseMember CoverageKind) (text kind) "coverage kind" >>= _) = _
    rw [parseAs_of (parseMember_text kind)]
    rfl

theorem parseDecimal_bigintText (n : Nat) : parseDecimal key (bigintText n) = .ok n := by
  have hunits : utf16 (bigintText n) = decimalText n := rfl
  rw [parseDecimal, hunits, guardThat_of (decimalPattern_decimalText n), bind_ok,
    decimalUnits_decimalText]
  rfl

theorem rowDecimal_text {n : Nat} (h : row key = .text (bigintText n)) :
    rowDecimal row key = .ok n := by
  rw [rowDecimal, rowString_text h, bind_ok, parseDecimal_bigintText]

theorem rowNullableDecimal_textOrNull {o : Option Nat}
    (h : row key = textOrNull (o.map bigintText)) : rowNullableDecimal row key = .ok o := by
  rw [rowNullableDecimal, rowNullableString_textOrNull h, bind_ok]
  cases o with
  | none => rfl
  | some n =>
    rw [Option.map_some, forOption, parseDecimal_bigintText]
    rfl

/-- The importer takes up to 16 slots. -/
theorem rowSlotCount_int {n m : Nat} (h : row key = .number (.int n)) :
    rowSlotCount row key = .ok m ↔ n = m ∧ n ≤ 16 := by
  rw [rowSlotCount, h, orThrow_eq_ok]
  constructor
  · intro hbounded
    have hle := (JsNumber.bounded?_eq_some hbounded).2
    by_cases hsafe : n ≤ 9007199254740991
    · by_cases hn : n ≤ 16
      · have heq := JsNumber.bounded?_int (Nat.zero_le n) hn hsafe
        exact ⟨Option.some.inj (heq.symm.trans hbounded), hn⟩
      · have hint : (JsNumber.int (n : Int)).safeInteger? = some (n : Int) := if_pos (by omega)
        rw [JsNumber.bounded?, hint] at hbounded
        dsimp only at hbounded
        rw [if_neg (by omega)] at hbounded
        cases hbounded
    · have hint : (JsNumber.int (n : Int)).safeInteger? = none := if_neg (by omega)
      rw [JsNumber.bounded?, hint] at hbounded
      cases hbounded
  · rintro ⟨rfl, hle⟩
    exact JsNumber.bounded?_int (Nat.zero_le n) hle (by omega)

theorem rowJsonObject_textOrNull {c : Conversions} {stringify : JsonObject → String}
    {o : Option JsonObject} (hrow : row key = textOrNull (o.map stringify))
    (h : ∀ object, o = some object → c.parseJson (stringify object) = some (.obj object)) :
    rowJsonObject row key c = .ok o := by
  rw [rowJsonObject, hrow]
  cases o with
  | none => rfl
  | some object =>
    simp only [Option.map_some, textOrNull, h object rfl]

end Columns

/-! ## Rows -/

/-- What the importer relies on: a stored object is parsed as it was, and a number is itself. -/
structure ReadsBack (c : Conversions) (stringify : JsonObject → String) (l : SqliteLedger) :
    Prop where
  facts : ∀ d ∈ l.dumps, ∀ facts, d.inspectionFacts = some facts →
    c.parseJson (stringify facts) = some (.obj facts)
  details : ∀ e ∈ l.auditEvents, c.parseJson (stringify e.detail) = some (.obj e.detail)
  numbers : ∀ n, c.toNumber (.number n) = n

section Rows

variable {c : Conversions} {stringify : JsonObject → String}

theorem readCustomer_columns (hnumbers : ∀ n, c.toNumber (.number n) = n) (r : CustomerRow) :
    readCustomer c (customerColumns r) = .ok (customerRecord r) := by
  have hid : rowId (customerColumns r) "customer_id" parseCustomerId = .ok r.customerId :=
    rowId_text rfl (parseCustomerId_text _)
  have hname : rowString (customerColumns r) "display_name" = .ok r.displayName.text :=
    rowString_text rfl
  have hcreated : rowIso (customerColumns r) "created_at" = .ok r.createdAt.text :=
    rowIso_text rfl
  have hno : c.toNumber (customerColumns r "customer_no") = .int r.customerNo := hnumbers _
  rw [readCustomer, hid, bind_ok, hname, bind_ok, hcreated, bind_ok, hno]
  rfl

theorem readCase_columns (r : CaseRow) : readCase (caseColumns r) = .ok (caseRecord r) := by
  have hid : rowId (caseColumns r) "case_id" parseCaseId = .ok r.caseId :=
    rowId_text rfl (parseIdentifier_text _)
  have hcustomer : rowId (caseColumns r) "customer_id" parseCustomerId = .ok r.customerId :=
    rowId_text rfl (parseCustomerId_text _)
  have htitle : rowString (caseColumns r) "title" = .ok r.title.text := rowString_text rfl
  have hstatus : rowEnum (caseColumns r) "status" parseCaseStatus = .ok r.status :=
    rowEnum_text rfl (parseMember_text _)
  have hcreated : rowIso (caseColumns r) "created_at" = .ok r.createdAt.text := rowIso_text rfl
  rw [readCase, hid, bind_ok, hcustomer, bind_ok, htitle, bind_ok, hstatus, bind_ok, hcreated,
    bind_ok]
  rfl

/-- A grant that the importer has slots for. -/
def FewSlots (g : GrantRow) : Prop := g.maxUploads ≤ 16 ∧ g.uploadsUsed ≤ 16

theorem readGrant_columns {r : GrantRow} {record : ImportGrantRecord} :
    readGrant (grantColumns r) = .ok record ↔ record = grantRecord r ∧ FewSlots r := by
  have hid : rowId (grantColumns r) "grant_id" parseGrantId = .ok r.grantId :=
    rowId_text rfl (parseIdentifier_text _)
  have hcase : rowId (grantColumns r) "case_id" parseCaseId = .ok r.caseId :=
    rowId_text rfl (parseIdentifier_text _)
  have hdigest : rowString (grantColumns r) "secret_digest" = .ok r.secretDigest.text :=
    rowString_text rfl
  have hstate : rowEnum (grantColumns r) "state" parseTokenState = .ok r.state :=
    rowEnum_text rfl (parseMember_text _)
  have hexpires : rowIso (grantColumns r) "expires_at" = .ok r.expiresAt.text := rowIso_text rfl
  have hbytes : rowDecimal (grantColumns r) "max_bytes" = .ok (r.maxBytes : Nat) :=
    rowDecimal_text rfl
  have hconsumed : rowNullableId (grantColumns r) "consumed_by_dump_id" parseDumpId =
      .ok r.consumedByDumpId :=
    rowNullableId_textOrNull rfl fun a => parseIdentifier_text a
  have hcreated : rowIso (grantColumns r) "created_at" = .ok r.createdAt.text := rowIso_text rfl
  rw [readGrant, hid, bind_ok, hcase, bind_ok, hdigest, bind_ok, hstate, bind_ok, hexpires, bind_ok,
    hbytes, bind_ok, hconsumed]
  have hmax : ∀ m, rowSlotCount (grantColumns r) "max_uploads" = .ok m ↔
      r.maxUploads = m ∧ r.maxUploads ≤ 16 := fun m => rowSlotCount_int rfl
  have hused : ∀ m, rowSlotCount (grantColumns r) "uploads_used" = .ok m ↔
      r.uploadsUsed = m ∧ r.uploadsUsed ≤ 16 := fun m => rowSlotCount_int rfl
  simp only [bind_eq_ok, hmax, hused, hcreated, bind_ok, pure_eq_ok]
  constructor
  · rintro ⟨_, ⟨rfl, hleMax⟩, _, ⟨rfl, hleUsed⟩, rfl⟩
    exact ⟨rfl, hleMax, hleUsed⟩
  · rintro ⟨rfl, hleMax, hleUsed⟩
    exact ⟨_, ⟨rfl, hleMax⟩, _, ⟨rfl, hleUsed⟩, rfl⟩

theorem readDump_columns {r : DumpRow}
    (hfacts : ∀ facts, r.inspectionFacts = some facts →
      c.parseJson (stringify facts) = some (.obj facts)) :
    readDump c (dumpColumns stringify r) = .ok (dumpRow r) := by
  have hid : rowId (dumpColumns stringify r) "dump_id" parseDumpId = .ok r.dumpId :=
    rowId_text rfl (parseIdentifier_text _)
  have hcase : rowId (dumpColumns stringify r) "case_id" parseCaseId = .ok r.caseId :=
    rowId_text rfl (parseIdentifier_text _)
  have hphase : rowEnum (dumpColumns stringify r) "phase" parseDumpPhase = .ok r.phase :=
    rowEnum_text rfl (parseMember_text _)
  have hname : rowString (dumpColumns stringify r) "original_name" = .ok r.originalName.text :=
    rowString_text rfl
  have hsize : rowNullableDecimal (dumpColumns stringify r) "byte_size" = .ok r.byteSize :=
    rowNullableDecimal_textOrNull rfl
  have hsha : rowNullableString (dumpColumns stringify r) "sha256" =
      .ok (r.sha256.map Sha256.text) :=
    rowNullableString_textOrNull rfl
  have hvalidation : rowEnum (dumpColumns stringify r) "validation" parseValidationState =
      .ok r.validation :=
    rowEnum_text rfl (parseMember_text _)
  have hcoverage : rowNullableCoverage (dumpColumns stringify r) "coverage" = .ok r.coverage :=
    rowNullableCoverage_textOrNull rfl
  have herror : rowNullableString (dumpColumns stringify r) "inspection_error" =
      .ok r.inspectionError :=
    rowNullableString_textOrNull rfl
  have hfacts' : rowJsonObject (dumpColumns stringify r) "inspection_facts_json" c =
      .ok r.inspectionFacts :=
    rowJsonObject_textOrNull rfl hfacts
  have hreceived : rowIso (dumpColumns stringify r) "received_at" = .ok r.receivedAt.text :=
    rowIso_text rfl
  have havailable : rowNullableIso (dumpColumns stringify r) "available_at" =
      .ok (r.availableAt.map fun t => t.text) :=
    rowNullableIso_textOrNull rfl
  have hpurge : rowNullableIso (dumpColumns stringify r) "purge_at" =
      .ok (r.purgeAt.map fun t => t.text) :=
    rowNullableIso_textOrNull rfl
  have hpurged : rowNullableIso (dumpColumns stringify r) "purged_at" =
      .ok (r.purgedAt.map fun t => t.text) :=
    rowNullableIso_textOrNull rfl
  rw [readDump, hid, bind_ok, hcase, bind_ok, hphase, bind_ok, hname, bind_ok, hsize, bind_ok, hsha,
    bind_ok, hvalidation, bind_ok, hcoverage, bind_ok, herror, bind_ok, hfacts', bind_ok, hreceived,
    bind_ok, havailable, bind_ok, hpurge, bind_ok, hpurged, bind_ok]
  rfl

theorem readAuditEvent_columns {r : AuditEventRow}
    (hdetail : c.parseJson (stringify r.detail) = some (.obj r.detail)) :
    readAuditEvent c (auditColumns stringify r) = .ok (auditEvent r) := by
  have hid : rowId (auditColumns stringify r) "event_id" parseAuditEventId = .ok r.eventId :=
    rowId_text rfl (parseIdentifier_text _)
  have hoccurred : rowIso (auditColumns stringify r) "occurred_at" = .ok r.occurredAt.text :=
    rowIso_text rfl
  have haction : rowString (auditColumns stringify r) "action" = .ok r.action.text :=
    rowString_text rfl
  have hcustomer : rowNullableId (auditColumns stringify r) "customer_id" parseCustomerId =
      .ok r.customerId :=
    rowNullableId_textOrNull rfl fun a => parseCustomerId_text a
  have hcase : rowNullableId (auditColumns stringify r) "case_id" parseCaseId = .ok r.caseId :=
    rowNullableId_textOrNull rfl fun a => parseIdentifier_text a
  have hdump : rowNullableId (auditColumns stringify r) "dump_id" parseDumpId = .ok r.dumpId :=
    rowNullableId_textOrNull rfl fun a => parseIdentifier_text a
  have hobject : rowJsonObject (fun _ => auditColumns stringify r "detail_json") "detail" c =
      .ok (some r.detail) := by
    rw [rowJsonObject]
    simp only [auditColumns, hdetail]
  rw [readAuditEvent, hid, bind_ok, hoccurred, bind_ok, haction, bind_ok, hcustomer, bind_ok, hcase,
    bind_ok, hdump, bind_ok, hobject, bind_ok]
  rfl

end Rows

/-! ## The copy -/

theorem readEach_eq_ok {α β : Type} {read : α → Except Thrown β} {l : List α} {bs : List β} :
    readEach read l = .ok bs ↔ List.Forall₂ (fun a b => read a = .ok b) l bs := by
  induction l generalizing bs with
  | nil =>
    rw [readEach, List.forall₂_nil_left_iff, Except.ok.injEq]
    exact eq_comm
  | cons a rest ih =>
    simp only [readEach, bind_eq_ok, pure_eq_ok, ih]
    constructor
    · rintro ⟨b, hb, bs, hbs, rfl⟩
      exact .cons hb hbs
    · intro h
      cases h with
      | cons hb hbs => exact ⟨_, hb, _, hbs, rfl⟩

/-- Rows that are read as they were written. -/
theorem readEach_map {α β γ : Type} {read : α → Except Thrown β} {write : γ → α} {f : γ → β}
    {l : List γ} (h : ∀ a ∈ l, read (write a) = .ok (f a)) :
    readEach read (l.map write) = .ok (l.map f) := by
  rw [readEach_eq_ok, List.forall₂_map_left_iff, List.forall₂_map_right_iff]
  exact List.forall₂_same.mpr h

theorem readEach_grants {l : List GrantRow} {records : List ImportGrantRecord} :
    readEach readGrant (l.map grantColumns) = .ok records ↔
      records = l.map grantRecord ∧ ∀ g ∈ l, FewSlots g := by
  rw [readEach_eq_ok, List.forall₂_map_left_iff]
  constructor
  · intro h
    induction h with
    | nil => simp
    | @cons g record rest records hg hrest ih =>
      obtain ⟨rfl, hfew⟩ := readGrant_columns.mp hg
      obtain ⟨rfl, hall⟩ := ih
      exact ⟨rfl, List.forall_mem_cons.mpr ⟨hfew, hall⟩⟩
  · rintro ⟨rfl, hall⟩
    rw [List.forall₂_map_right_iff]
    exact List.forall₂_same.mpr fun g hg => readGrant_columns.mpr ⟨rfl, hall g hg⟩

theorem mapError_eq_ok {α : Type} {x : Except Thrown α} {f : Thrown → Thrown} {a : α} :
    x.mapError f = .ok a ↔ x = .ok a := by
  cases x <;> simp [Except.mapError]

/-- **A backup is read as the ledger it is of**, if it has no canonical reports, and if no grant
has more slots than the importer takes. -/
theorem readBundleLedger_copy {c : Conversions} {stringify : JsonObject → String}
    {applyMigrations : BundleDatabase → Except Thrown BundleDatabase} {currentVersion : Nat}
    {l : SqliteLedger} (h : ReadsBack c stringify l) {rows : BundleRows} :
    readBundleLedger c applyMigrations currentVersion (.ok (ledgerCopy stringify l)) = .ok rows ↔
      rows = bundleRows l ∧ l.analysisDetails.isEmpty = true ∧ ∀ g ∈ l.grants, FewSlots g := by
  have hopen : openBundleLedger applyMigrations currentVersion (ledgerCopy stringify l) =
      .ok (ledgerCopy stringify l) := by
    have htables : checkEach (fun table => guardThat
        (table ∈ (ledgerCopy stringify l).tables)
        (corrupt s!"bundle ledger is missing the {table} table")) requiredTables = .ok () :=
      checkEach_eq_ok.mpr fun table htable => guardThat_of htable
    have horder : (some Ordering.eq : Option Ordering) ≠ some .gt := by decide
    unfold openBundleLedger
    rw [show (ledgerCopy stringify l).version = .ok ("11", some .eq) from rfl, bind_ok]
    dsimp only
    rw [htables, bind_ok, guardThat_of horder, bind_ok]
    rfl
  have hcustomers : readEach (readCustomer c) (l.customers.sorted.map customerColumns) =
      .ok (l.customers.sorted.map customerRecord) :=
    readEach_map fun r _ => readCustomer_columns h.numbers r
  have hcases : readEach readCase (l.cases.sorted.map caseColumns) =
      .ok (l.cases.sorted.map caseRecord) :=
    readEach_map fun r _ => readCase_columns r
  have hdumps : readEach (readDump c) (l.dumps.sorted.map (dumpColumns stringify)) =
      .ok (l.dumps.sorted.map dumpRow) :=
    readEach_map fun d hd => readDump_columns (h.facts d (Table.mem_sorted.mp hd))
  have hevents : readEach (readAuditEvent c) (l.auditEvents.rows.map (auditColumns stringify)) =
      .ok (l.auditEvents.rows.map auditEvent) :=
    readEach_map fun e he => readAuditEvent_columns (h.details e he)
  rw [readBundleLedger, mapError_eq_ok, bind_ok, hopen, bind_ok]
  simp only [readBundleRows, ledgerCopy, bind_ok, bind_eq_ok, guardThat_eq_ok, hcustomers, hcases,
    hdumps, hevents, readEach_grants, pure_eq_ok, exists_const, Bool.not_eq_false']
  constructor
  · rintro ⟨hempty, grants, ⟨rfl, hfew⟩, rfl⟩
    exact ⟨rfl, hempty, fun g hg => hfew g (Table.mem_sorted.mpr hg)⟩
  · rintro ⟨rfl, hempty, hfew⟩
    exact ⟨hempty, _, ⟨rfl, fun g hg => hfew g (Table.mem_sorted.mp hg)⟩, rfl⟩

namespace CopySample

theorem isIso_created : isIsoTimestamp "2026-01-01T00:00:00.000Z" = true := by decide

def createdAt : IsoTimestamp := ⟨"2026-01-01T00:00:00.000Z", isIso_created⟩

theorem customerId_valid : isCustomerId "00000000-0000-4000-8000-000000000001" = true := by decide

theorem displayName_valid : isBoundedText 200 "Acme" = true := by decide

def customer : CustomerRow where
  customerId := ⟨"00000000-0000-4000-8000-000000000001", customerId_valid⟩
  displayName := ⟨"Acme", displayName_valid⟩
  createdAt := createdAt
  customerNo := 1

theorem caseId_valid : isIdentifier "case" "case_00000000000000000000000001" = true := by decide

theorem title_valid : isBoundedText 500 "Crash on start" = true := by decide

def caseRow : CaseRow where
  caseId := ⟨"case_00000000000000000000000001", caseId_valid⟩
  customerId := customer.customerId
  title := ⟨"Crash on start", title_valid⟩
  status := .new
  createdAt := createdAt

theorem grantId_valid : isIdentifier "grant" "grant_00000000000000000000000001" = true := by decide

def digest : String := "a4ad39506530dc8135d54fe87ee41d82d99b34717886f5496ed1e11d6f9e929d"

theorem digest_valid : isBoundedText 128 digest = true := by decide

theorem maxBytes_pos : 0 < 1024 := by decide

/-- A grant of as many slots. -/
def grant (slots : Nat) (h : 1 ≤ slots ∧ slots ≤ maxGrantUploadSlots) : GrantRow where
  grantId := ⟨"grant_00000000000000000000000001", grantId_valid⟩
  caseId := caseRow.caseId
  secretDigest := ⟨digest, digest_valid⟩
  state := .issued
  expiresAt := createdAt
  maxBytes := ⟨1024, maxBytes_pos⟩
  maxUploads := slots
  uploadsUsed := 0
  consumedByDumpId := none
  createdAt := createdAt
  maxUploads_between := h
  uploadsUsed_le := Nat.zero_le _

theorem eventId_valid : isIdentifier "audit" "audit_00000000000000000000000000" = true := by decide

theorem action_valid : isBoundedText 64 "CreateCustomer" = true := by decide

def event : AuditEventRow where
  eventId := ⟨"audit_00000000000000000000000000", eventId_valid⟩
  occurredAt := createdAt
  action := ⟨"CreateCustomer", action_valid⟩
  customerId := some customer.customerId
  caseId := none
  dumpId := none
  detail := []

def ledger (slots : Nat) (h : 1 ≤ slots ∧ slots ≤ maxGrantUploadSlots) : SqliteLedger :=
  { SqliteLedger.fresh with
    customers := ⟨[customer], List.nodup_singleton _⟩
    cases := ⟨[caseRow], List.nodup_singleton _⟩
    grants := ⟨[grant slots h], List.nodup_singleton _⟩
    auditEvents := ⟨[event], List.nodup_singleton _⟩ }

def stringify (object : JsonObject) : String := (Json.obj object).stringify

/-- `JSON.parse`, on the one object that is stored. -/
def conversions : Conversions where
  parseJson text := if text = "\x7b\x7d" then some (.obj []) else none
  toNumber
    | .number n => n
    | _ => .other "NaN"

theorem readsBack {slots : Nat} {h : 1 ≤ slots ∧ slots ≤ maxGrantUploadSlots} :
    ReadsBack conversions stringify (ledger slots h) where
  facts d hd := absurd hd Table.not_mem_empty
  details e he := by
    rw [List.mem_singleton.mp he]
    have hprinted : stringify [] = "\x7b\x7d" := by decide
    show (if stringify [] = "\x7b\x7d" then some (Json.obj []) else none) = some (Json.obj [])
    exact if_pos hprinted
  numbers _ := rfl

end CopySample

/-- A backup with a grant of one slot is read, and one with a grant of 17 slots is not. -/
theorem readBundleLedger_copy_samples :
    readBundleLedger CopySample.conversions .ok 11
        (.ok (ledgerCopy CopySample.stringify (CopySample.ledger 1 (by decide)))) =
      .ok (bundleRows (CopySample.ledger 1 (by decide))) ∧
    ∀ rows, readBundleLedger CopySample.conversions .ok 11
        (.ok (ledgerCopy CopySample.stringify (CopySample.ledger 17 (by decide)))) ≠ .ok rows := by
  constructor
  · refine (readBundleLedger_copy CopySample.readsBack).mpr ⟨rfl, rfl, ?_⟩
    intro g hg
    rw [List.mem_singleton.mp hg]
    exact ⟨by decide, by decide⟩
  · intro rows hrows
    obtain ⟨-, -, hfew⟩ := (readBundleLedger_copy CopySample.readsBack).mp hrows
    have hslots : 17 ≤ 16 := (hfew _ List.mem_cons_self).1
    exact absurd hslots (by decide)

end DumpLedger.ImportSession
