import DumpLedger.Http.Contracts.Fields

/-!
# The deliveries of a webhook on the wire

`GET /api/v1/webhooks/<webhookId>/deliveries`: what the server encodes, and what a client decodes.
-/

namespace DumpLedger.Decode

open Lib

/-- `MAX_WEBHOOK_ACTION_LENGTH`. -/
def maxWebhookActionLength : Nat := 64

/-- `MAX_WEBHOOK_RESPONSE_ITEMS`. -/
def maxWebhookResponseItems : Nat := 4096

/-- `WEBHOOK_DELIVERY_STATUSES`. -/
def webhookDeliveryStatuses : List Units := ["pending", "delivered", "exhausted"].map utf16

def webhookDeliveryStatusDecoder : Decoder Units := oneOf webhookDeliveryStatuses "status"

/-- `WEBHOOK_CURSOR_PATTERN`. -/
def webhookCursorPattern (string : Units) : Bool :=
  decide (string.length = 16) && unitsMatch Char.isDigit string

def webhookCursorField (label : String) : Decoder Units :=
  text { max := 16, label, pattern := some webhookCursorPattern }

structure WebhookDelivery where
  id : Units
  subscriptionId : Units
  eventCursor : Units
  action : Units
  dumpId : Option Units
  status : Units
  attempts : Nat
  lastStatusCode : Option Nat
  lastError : Option Units
  nextAttemptAt : Option Units
  deliveredAt : Option Units
  createdAt : Units
  deriving DecidableEq

def webhookDeliveryShape : Shape Decoded :=
  [("id", field (asText (identifierField "id"))),
    ("subscriptionId", field (asText (identifierField "subscriptionId"))),
    ("eventCursor", field (asText (webhookCursorField "eventCursor"))),
    ("action", field (asText (text { max := maxWebhookActionLength, label := "action" }))),
    ("dumpId", field (asNullable (asText (identifierField "dumpId")))),
    ("status", field (asText webhookDeliveryStatusDecoder)),
    ("attempts", field (asInteger (counterField "attempts"))),
    ("lastStatusCode", field (asNullable (asInteger
      (integerField { min := some 100, max := some 599, label := "lastStatusCode" })))),
    ("lastError", field (asNullable (asText (text { max := maxTextLength, label := "lastError" })))),
    ("nextAttemptAt", field (asNullable (asText (canonicalTimestamp "nextAttemptAt")))),
    ("deliveredAt", field (asNullable (asText (canonicalTimestamp "deliveredAt")))),
    ("createdAt", field (asText (canonicalTimestamp "createdAt")))].map
      fun (name, spec) => (utf16 name, spec)

def decodeWebhookDelivery : Decoder WebhookDelivery := fun value path => do
  let decoded ← object webhookDeliveryShape "webhook delivery" value path
  return {
    id := (member decoded "id").units
    subscriptionId := (member decoded "subscriptionId").units
    eventCursor := (member decoded "eventCursor").units
    action := (member decoded "action").units
    dumpId := (member decoded "dumpId").nullable Decoded.units
    status := (member decoded "status").units
    attempts := (member decoded "attempts").nat
    lastStatusCode := (member decoded "lastStatusCode").nullable Decoded.nat
    lastError := (member decoded "lastError").nullable Decoded.units
    nextAttemptAt := (member decoded "nextAttemptAt").nullable Decoded.units
    deliveredAt := (member decoded "deliveredAt").nullable Decoded.units
    createdAt := (member decoded "createdAt").units }

def optionalJson {α : Type} (value : Option α) (json : α → JsonValue) : JsonValue :=
  (value.map json).getD jsonNull

def encodeWebhookDelivery (delivery : WebhookDelivery) : JsonValue :=
  jsonObject
    [("id", jsonString delivery.id), ("subscriptionId", jsonString delivery.subscriptionId),
      ("eventCursor", jsonString delivery.eventCursor), ("action", jsonString delivery.action),
      ("dumpId", optionalJson delivery.dumpId jsonString), ("status", jsonString delivery.status),
      ("attempts", jsonNumber delivery.attempts),
      ("lastStatusCode", optionalJson delivery.lastStatusCode jsonNumber),
      ("lastError", optionalJson delivery.lastError jsonString),
      ("nextAttemptAt", optionalJson delivery.nextAttemptAt jsonString),
      ("deliveredAt", optionalJson delivery.deliveredAt jsonString),
      ("createdAt", jsonString delivery.createdAt)]

structure WebhookDeliveriesResponse where
  deliveries : List WebhookDelivery
  deriving DecidableEq

def decodeWebhookDeliveriesResponse : Decoder WebhookDeliveriesResponse := fun value path => do
  let decoded ← object
    [(utf16 "deliveries", field (arrayOf decodeWebhookDelivery
      { label := "deliveries", maxLength := some maxWebhookResponseItems }))]
    "webhook deliveries response" value path
  return ⟨(decoded.lookup (utf16 "deliveries")).getD []⟩

def encodeWebhookDeliveriesResponse (response : WebhookDeliveriesResponse) : JsonValue :=
  jsonObject [("deliveries", jsonArray (response.deliveries.map encodeWebhookDelivery))]

end DumpLedger.Decode
