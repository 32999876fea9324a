import DumpLedger.Engine.Imports
import DumpLedger.Transfer.ImportSession

/-!
# The backup as its reader sees it

A bundle carries a backup of the ledger. `ledgerCopy` is what SQLite answers for it: each row with
the columns it was written with, in the order that is asked for.
-/

namespace DumpLedger.ImportSession

open Lib Vocabulary

def textOrNull : Option String → SqlValue
  | none => .null
  | some s => .text s

/-- `byteSize.toString()`. -/
def bigintText (n : Nat) : String := String.ofList (Nat.toDigits 10 n)

def customerColumns (c : CustomerRow) : Row
  | "customer_id" => .text c.customerId.text
  | "display_name" => .text c.displayName.text
  | "created_at" => .text c.createdAt.text
  | "customer_no" => .number (.int c.customerNo)
  | _ => .null

def caseColumns (c : CaseRow) : Row
  | "case_id" => .text c.caseId.text
  | "customer_id" => .text c.customerId.text
  | "title" => .text c.title.text
  | "status" => .text (text c.status)
  | "created_at" => .text c.createdAt.text
  | _ => .null

def grantColumns (g : GrantRow) : Row
  | "grant_id" => .text g.grantId.text
  | "case_id" => .text g.caseId.text
  | "secret_digest" => .text g.secretDigest.text
  | "state" => .text (text g.state)
  | "expires_at" => .text g.expiresAt.text
  | "max_bytes" => .text (bigintText g.maxBytes)
  | "max_uploads" => .number (.int g.maxUploads)
  | "uploads_used" => .number (.int g.uploadsUsed)
  | "consumed_by_dump_id" => textOrNull (g.consumedByDumpId.map fun id => id.text)
  | "created_at" => .text g.createdAt.text
  | _ => .null

section Copy

variable (stringify : JsonObject → String)

def dumpColumns (d : DumpRow) : Row
  | "dump_id" => .text d.dumpId.text
  | "case_id" => .text d.caseId.text
  | "phase" => .text (text d.phase)
  | "original_name" => .text d.originalName.text
  | "byte_size" => textOrNull (d.byteSize.map bigintText)
  | "sha256" => textOrNull (d.sha256.map Sha256.text)
  | "validation" => .text (text d.validation)
  | "coverage" => textOrNull (d.coverage.map text)
  | "inspection_error" => textOrNull d.inspectionError
  | "inspection_facts_json" => textOrNull (d.inspectionFacts.map stringify)
  | "received_at" => .text d.receivedAt.text
  | "available_at" => textOrNull (d.availableAt.map fun t => t.text)
  | "purge_at" => textOrNull (d.purgeAt.map fun t => t.text)
  | "purged_at" => textOrNull (d.purgedAt.map fun t => t.text)
  | _ => .null

def auditColumns (e : AuditEventRow) : Row
  | "event_id" => .text e.eventId.text
  | "occurred_at" => .text e.occurredAt.text
  | "action" => .text e.action.text
  | "customer_id" => textOrNull (e.customerId.map fun id => id.text)
  | "case_id" => textOrNull (e.caseId.map fun id => id.text)
  | "dump_id" => textOrNull (e.dumpId.map fun id => id.text)
  | "detail_json" => .text (stringify e.detail)
  | _ => .null

/-- A backup of a ledger that is at the running version. -/
def ledgerCopy (l : SqliteLedger) : BundleDatabase where
  version := .ok ("11", some .eq)
  tables := requiredTables
  hasAnalysisDetails := .ok (!l.analysisDetails.isEmpty)
  customers := .ok (l.customers.sorted.map customerColumns)
  cases := .ok (l.cases.sorted.map caseColumns)
  grants := .ok (l.grants.sorted.map grantColumns)
  dumps := .ok (l.dumps.sorted.map (dumpColumns stringify))
  auditEvents := .ok (l.auditEvents.rows.map (auditColumns stringify))

end Copy

/-! ## What is read of it -/

def customerRecord (c : CustomerRow) : ImportCustomerRecord where
  customerId := c.customerId.text
  displayName := c.displayName.text
  createdAt := c.createdAt.text
  customerNo := some (.int c.customerNo)

def caseRecord (c : CaseRow) : ImportCaseRecord where
  caseId := c.caseId.text
  customerId := c.customerId.text
  title := c.title.text
  status := text c.status
  createdAt := c.createdAt.text

def grantRecord (g : GrantRow) : ImportGrantRecord where
  grantId := g.grantId.text
  caseId := g.caseId.text
  secretDigest := g.secretDigest.text
  state := text g.state
  expiresAt := g.expiresAt.text
  maxBytes := (g.maxBytes : Nat)
  maxUploads := some (.int g.maxUploads)
  uploadsUsed := some (.int g.uploadsUsed)
  consumedByDumpId := g.consumedByDumpId.map fun id => id.text
  createdAt := g.createdAt.text

def dumpRow (d : DumpRow) : BundleDumpRow where
  dumpId := d.dumpId
  caseId := d.caseId
  phase := d.phase
  originalName := d.originalName.text
  byteSize := d.byteSize
  sha256 := d.sha256.map Sha256.text
  validation := d.validation
  coverage := d.coverage
  inspectionError := d.inspectionError
  inspectionFacts := d.inspectionFacts
  receivedAt := d.receivedAt.text
  availableAt := d.availableAt.map fun t => t.text
  purgeAt := d.purgeAt.map fun t => t.text
  purgedAt := d.purgedAt.map fun t => t.text

def auditEvent (e : AuditEventRow) : BundleAuditEvent where
  dumpId := e.dumpId
  record := e.importRecord

def bundleRows (l : SqliteLedger) : BundleRows where
  customers := l.customers.sorted.map customerRecord
  cases := l.cases.sorted.map caseRecord
  grants := l.grants.sorted.map grantRecord
  dumps := l.dumps.sorted.map dumpRow
  auditEvents := l.auditEvents.rows.map auditEvent

end DumpLedger.ImportSession
