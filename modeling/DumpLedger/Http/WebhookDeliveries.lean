import DumpLedger.Http.Contracts.Webhooks
import DumpLedger.Http.EventFeed
import DumpLedger.Webhooks.Storage

/-!
# The delivery history of a webhook

What the operator is shown of the deliveries of a subscription: the stored rows, the latest first.
-/

namespace DumpLedger

open Lib Decode

def WebhookDeliveryStatus.units : WebhookDeliveryStatus → Units
  | pending => utf16 "pending"
  | delivered => utf16 "delivered"
  | exhausted => utf16 "exhausted"

/-- One stored delivery row as the operator is shown it. -/
def webhookDeliveryOf (record : WebhookDeliveryRecord) : WebhookDelivery where
  id := utf16 record.deliveryId
  subscriptionId := utf16 record.subscriptionId
  eventCursor := utf16 (formatEventCursor record.eventRowid)
  action := utf16 record.action.text
  dumpId := record.dumpId.map fun dumpId => utf16 dumpId.text
  status := record.status.units
  attempts := record.attempts
  lastStatusCode := record.lastStatusCode
  lastError := record.lastError.map utf16
  nextAttemptAt := record.nextAttemptAt.map fun t => utf16 t.text
  deliveredAt := record.deliveredAt.map fun t => utf16 t.text
  createdAt := utf16 record.createdAt.text

/-- The deliveries of a subscription that there is. -/
def webhookDeliveries (storage : WebhookStorage) (webhookId : String) :
    Option WebhookDeliveriesResponse :=
  if storage.subscriptions.contains webhookId = true then
    some ⟨(storage.listDeliveries webhookId 50).map webhookDeliveryOf⟩
  else none

end DumpLedger
