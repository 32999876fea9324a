import DumpLedger.Http.WebhookDeliveries
import DumpLedger.Properties.ContractFields
import DumpLedger.Properties.Retries

/-!
# The delivery history is read back

The storage keeps the text of an error, the status of an answer, the action of an event and
the time of a retry as they come; the contract bounds each of them, and one row out of bounds
makes the whole history unreadable.

* `Presentable` — what the dispatcher is told at a step stays within the contract's bounds
* `readable_step` — such a step keeps every stored row readable
* `history_readable` — the history of a subscription is read back as it was written
* `history_unreadable` — a run with an error of two lines
-/

namespace DumpLedger

open Lib Decode

/-! ## Rows that are read back -/

/-- The contract accepts the row. -/
structure WebhookDeliveryRecord.Readable (d : WebhookDeliveryRecord) : Prop where
  deliveryId : IsIdentifierText d.deliveryId
  subscriptionId : IsIdentifierText d.subscriptionId
  eventRowid : d.eventRowid < 10 ^ 16
  action : hasControl d.action.text = false
  attempts : d.attempts ≤ maxSafeInteger
  lastStatusCode : ∀ status ∈ d.lastStatusCode, 100 ≤ status ∧ status ≤ 599
  lastError : ∀ error ∈ d.lastError, IsLine maxTextLength error
  nextAttemptAt : ∀ t ∈ d.nextAttemptAt, FourDigitYear t.instant
  deliveredAt : ∀ t ∈ d.deliveredAt, FourDigitYear t.instant
  createdAt : FourDigitYear d.createdAt.instant

section Rows

variable {path : Units}

theorem webhookCursorField_digits {s : String} (hlength : s.toList.length = 16)
    (hdigits : ∀ c ∈ s.toList, c.isDigit = true) {label : String} :
    webhookCursorField label (jsonString (utf16 s)) path = .ok (utf16 s) := by
  have hgraphic : ∀ c ∈ s.toList, 0x20 < c.toNat ∧ c.toNat < 0x7f := by
    intro c hc
    have hdigit := hdigits c hc
    simp only [Char.isDigit, Bool.and_eq_true, decide_eq_true_eq, ge_iff_le,
      UInt32.le_iff_toNat_le] at hdigit
    have hnat : c.toNat = c.val.toNat := rfl
    have hzero : ('0' : Char).val.toNat = 48 := rfl
    have hnine : ('9' : Char).val.toNat = 57 := rfl
    omega
  have hascii : ∀ c ∈ s.toList, c.toNat < 128 := fun c hc => by
    have := hgraphic c hc
    omega
  have hne : s ≠ "" := by
    rintro rfl
    cases hlength
  have hline : IsLine 16 s := by
    have hid := isIdentifierText_of_graphic hne (by unfold maxIdentifierLength; omega) hgraphic
    refine ⟨hne, ?_, hid.plain⟩
    rw [← length_utf16, length_utf16_ascii hascii, hlength]
  have hpattern : webhookCursorPattern (utf16 s) = true := by
    rw [webhookCursorPattern, Bool.and_eq_true, decide_eq_true_eq, length_utf16_ascii hascii]
    exact ⟨hlength, unitsMatch_utf16 hascii hdigits⟩
  obtain ⟨hmin, hmax, hcontrol, -⟩ := hline.allows label
  exact text_jsonString ⟨hmin, hmax, hcontrol, hpattern⟩

/-- **A cursor the server wrote is one the contract accepts.** -/
theorem webhookCursorField_print {rowid : Nat} (h : rowid < 10 ^ 16) {label : String} :
    webhookCursorField label (jsonString (utf16 (formatEventCursor rowid))) path =
      .ok (utf16 (formatEventCursor rowid)) := by
  have hlen : (Nat.toDigits 10 rowid).length ≤ 16 := by
    rw [Nat.length_toDigits_le_iff (by decide) (by decide)]
    exact h
  have htext : (formatEventCursor rowid).toList = (Nat.toDigits 10 rowid).leftpad 16 '0' := by
    rw [formatEventCursor, String.toList_ofList]
  refine webhookCursorField_digits ?_ ?_
  · rw [htext, List.length_leftpad]
    omega
  · intro c hc
    rw [htext, List.leftpad, List.mem_append] at hc
    rcases hc with hc | hc
    · rw [List.eq_of_mem_replicate hc]
      rfl
    · exact Nat.isDigit_of_mem_toDigits (by decide) (by decide) hc

theorem webhookDeliveryStatus_print (status : WebhookDeliveryStatus) :
    webhookDeliveryStatusDecoder (jsonString status.units) path = .ok status.units := by
  refine oneOf_jsonString ?_
  cases status with
  | pending => exact List.mem_cons_self
  | delivered => exact List.mem_cons_of_mem _ List.mem_cons_self
  | exhausted => exact List.mem_cons_of_mem _ (List.mem_cons_of_mem _ List.mem_cons_self)

/-! ### The fields of a delivery -/

/-- The fields of a delivery, with what is written and what is read back. -/
def printedDelivery (delivery : WebhookDelivery) : List (PrintedField Decoded) :=
  [⟨"id", field (asText (identifierField "id")), jsonString delivery.id, .text delivery.id⟩,
    ⟨"subscriptionId", field (asText (identifierField "subscriptionId")),
      jsonString delivery.subscriptionId, .text delivery.subscriptionId⟩,
    ⟨"eventCursor", field (asText (webhookCursorField "eventCursor")),
      jsonString delivery.eventCursor, .text delivery.eventCursor⟩,
    ⟨"action", field (asText (text { max := maxWebhookActionLength, label := "action" })),
      jsonString delivery.action, .text delivery.action⟩,
    ⟨"dumpId", field (asNullable (asText (identifierField "dumpId"))),
      optionalJson delivery.dumpId jsonString, (delivery.dumpId.map .text).getD .null⟩,
    ⟨"status", field (asText webhookDeliveryStatusDecoder), jsonString delivery.status,
      .text delivery.status⟩,
    ⟨"attempts", field (asInteger (counterField "attempts")), jsonNumber delivery.attempts,
      .integer delivery.attempts⟩,
    ⟨"lastStatusCode", field (asNullable (asInteger
        (integerField { min := some 100, max := some 599, label := "lastStatusCode" }))),
      optionalJson delivery.lastStatusCode jsonNumber,
      (delivery.lastStatusCode.map fun status => .integer status).getD .null⟩,
    ⟨"lastError", field (asNullable (asText (text { max := maxTextLength, label := "lastError" }))),
      optionalJson delivery.lastError jsonString, (delivery.lastError.map .text).getD .null⟩,
    ⟨"nextAttemptAt", field (asNullable (asText (canonicalTimestamp "nextAttemptAt"))),
      optionalJson delivery.nextAttemptAt jsonString,
      (delivery.nextAttemptAt.map .text).getD .null⟩,
    ⟨"deliveredAt", field (asNullable (asText (canonicalTimestamp "deliveredAt"))),
      optionalJson delivery.deliveredAt jsonString, (delivery.deliveredAt.map .text).getD .null⟩,
    ⟨"createdAt", field (asText (canonicalTimestamp "createdAt")), jsonString delivery.createdAt,
      .text delivery.createdAt⟩]

theorem printedDelivery_names (delivery : WebhookDelivery) :
    (printedDelivery delivery).map PrintedField.name =
      ["id", "subscriptionId", "eventCursor", "action", "dumpId", "status", "attempts",
        "lastStatusCode", "lastError", "nextAttemptAt", "deliveredAt", "createdAt"] :=
  rfl

theorem printedDelivery_plain (delivery : WebhookDelivery) :
    PrintedField.Plain (printedDelivery delivery) :=
  PrintedField.Plain.of_names (printedDelivery_names delivery) (by decide) (by decide)

/-- A delivery is read back when its fields are. -/
theorem decodeWebhookDelivery_print {delivery : WebhookDelivery}
    (hdecode : ∀ f ∈ printedDelivery delivery,
      f.spec.decode f.value (childPath path f.key) = .ok f.decoded) :
    decodeWebhookDelivery (encodeWebhookDelivery delivery) path = .ok delivery := by
  have hplain := printedDelivery_plain delivery
  have hobject : object webhookDeliveryShape "webhook delivery" (encodeWebhookDelivery delivery)
      path = .ok (PrintedField.output (printedDelivery delivery)) :=
    PrintedField.object_print hplain hdecode
  have hmember := PrintedField.member_output hplain
  simp only [printedDelivery, List.forall_mem_cons] at hmember
  obtain ⟨hid, hsubscriptionId, heventCursor, haction, hdumpId, hstatus, hattempts,
    hlastStatusCode, hlastError, hnextAttemptAt, hdeliveredAt, hcreatedAt, -⟩ := hmember
  unfold decodeWebhookDelivery
  rw [hobject, bind_ok]
  simp only [printedDelivery, hid, hsubscriptionId, heventCursor, haction, hdumpId, hstatus,
    hattempts, hlastStatusCode, hlastError, hnextAttemptAt, hdeliveredAt, hcreatedAt,
    nullable_text, nullable_integer]
  rfl

/-- **A readable row is read back.** -/
theorem WebhookDeliveryRecord.Readable.decode {d : WebhookDeliveryRecord} (h : d.Readable)
    (path : Units) :
    decodeWebhookDelivery (encodeWebhookDelivery (webhookDeliveryOf d)) path =
      .ok (webhookDeliveryOf d) := by
  have hstring : ∀ string, isNull (some (jsonString string)) = false := fun _ => rfl
  have hnumber : ∀ n, isNull (some (jsonNumber n)) = false := fun _ => rfl
  have htimestamp {o : Option IsoTimestamp} {label : String} {path : Units}
      (ho : ∀ t ∈ o, FourDigitYear t.instant) :
      ∀ string ∈ o.map fun t => utf16 t.text,
        asText (canonicalTimestamp label) (jsonString string) path = .ok (.text string) := by
    intro string hstring
    obtain ⟨t, ht, rfl⟩ := Option.mem_map.mp hstring
    exact asText_print (canonicalTimestamp_print (ho t ht))
  refine decodeWebhookDelivery_print ?_
  simp only [printedDelivery, List.forall_mem_cons]
  refine ⟨asText_print h.deliveryId.field, asText_print h.subscriptionId.field,
    asText_print (webhookCursorField_print h.eventRowid),
    asText_print (isLine_boundedText d.action h.action).text, asNullable_print hstring ?_,
    asText_print (webhookDeliveryStatus_print d.status),
    asInteger_print (integerField_jsonNumber ?_ ?_ rfl), asNullable_print hnumber ?_,
    asNullable_print hstring ?_, asNullable_print hstring (htimestamp h.nextAttemptAt),
    asNullable_print hstring (htimestamp h.deliveredAt),
    asText_print (canonicalTimestamp_print h.createdAt), fun f hf => by cases hf⟩
  · intro string hstring
    obtain ⟨dumpId, -, rfl⟩ := Option.mem_map.mp hstring
    exact asText_print (isIdentifierText_identifier dumpId (by simp) (by decide)).field
  · have hattempts := h.attempts
    unfold maxSafeInteger at hattempts
    show d.attempts < 2 ^ 53
    omega
  · exact decide_eq_true (Int.natCast_nonneg d.attempts)
  · intro status hstatus
    obtain ⟨hmin, hmax⟩ := h.lastStatusCode status hstatus
    refine asInteger_print (integerField_jsonNumber (by omega) ?_ ?_)
    · exact decide_eq_true (by exact_mod_cast hmin)
    · exact decide_eq_true (by exact_mod_cast hmax)
  · intro string hstring
    obtain ⟨error, herror, rfl⟩ := Option.mem_map.mp hstring
    exact asText_print (h.lastError error herror).text

/-- **A history of readable rows is read back.** -/
theorem decodeWebhookDeliveriesResponse_print {deliveries : List WebhookDelivery}
    (hlength : deliveries.length ≤ maxWebhookResponseItems)
    (h : ∀ delivery ∈ deliveries, ∀ path,
      decodeWebhookDelivery (encodeWebhookDelivery delivery) path = .ok delivery) :
    decodeWebhookDeliveriesResponse (encodeWebhookDeliveriesResponse ⟨deliveries⟩) path =
      .ok ⟨deliveries⟩ := by
  have hitems : arrayOf decodeWebhookDelivery
      { label := "deliveries", maxLength := some maxWebhookResponseItems }
      (jsonArray (deliveries.map encodeWebhookDelivery)) (childPath path (utf16 "deliveries")) =
        .ok deliveries := by
    have hmap := @arrayOf_print (childPath path (utf16 "deliveries")) _ _ decodeWebhookDelivery
      { label := "deliveries", maxLength := some maxWebhookResponseItems } encodeWebhookDelivery
      id deliveries (decide_eq_true hlength) h
    rwa [List.map_id] at hmap
  have hplain : PrintedField.Plain [(⟨"deliveries", field (arrayOf decodeWebhookDelivery
        { label := "deliveries", maxLength := some maxWebhookResponseItems }),
      jsonArray (deliveries.map encodeWebhookDelivery), deliveries⟩ :
        PrintedField (List WebhookDelivery))] :=
    @PrintedField.Plain.of_names _ _ ["deliveries"] rfl (by decide) (by decide)
  have hobject := @PrintedField.object_print _ _ hplain path "webhook deliveries response"
    (List.forall_mem_singleton.mpr hitems)
  rw [decodeWebhookDeliveriesResponse, encodeWebhookDeliveriesResponse]
  refine bind_eq_ok.mpr ⟨_, hobject, ?_⟩
  rw [PrintedField.output, List.map_singleton, PrintedField.key, List.lookup_cons_self]
  rfl

end Rows

/-! ## What the dispatcher is told -/

/-- The identifiers, the event and the clock of a new delivery. -/
structure NewDeliveryFits (deliveryId subscriptionId : String) (event : AuditFeedEntry)
    (now : IsoTimestamp) : Prop where
  deliveryId : IsIdentifierText deliveryId
  subscriptionId : IsIdentifierText subscriptionId
  rowid : event.rowid < 10 ^ 16
  action : hasControl event.action.text = false
  createdAt : FourDigitYear now.instant

/-- The count of the attempts is safe, and so is the time of the next one. -/
structure RetryShown (dispatcher : WebhookDispatcher) (a : WebhookAttempt)
    (failedAt : IsoTimestamp) : Prop where
  attempts : a.delivery.attempts < maxSafeInteger
  nextAttemptAt : a.delivery.attempts + 1 < dispatcher.maxAttempts →
    dispatcher.RetryFits failedAt (a.delivery.attempts + 1) →
      FourDigitYear (wholeMs (dispatcher.retryTime failedAt (a.delivery.attempts + 1)))

/-- The subscription and the event that the dispatcher turns to next. -/
def Control.next? : Control → Option (WebhookSubscriptionRecord × AuditFeedEntry)
  | page subscription (event :: _) _ => some (subscription, event)
  | _ => none

/-- The attempt whose answer is out. -/
def Control.awaited? : Control → Option WebhookAttempt
  | awaiting a => some a
  | _ => none

/-- What the step writes down is within the bounds of the contract. -/
def Presentable (dispatcher : WebhookDispatcher) (w : WebhookWorld) : WebhookInput → Prop
  | .proceed now deliveryId => ∀ p ∈ w.control.next?, w.closed = false →
      w.storage.Live p.1.subscriptionId →
        w.storage.findDelivery p.1.subscriptionId p.2.rowid = none →
          NewDeliveryFits deliveryId p.1.subscriptionId p.2 now
  | .respond status now => ∀ a ∈ w.control.awaited?,
      w.storage.deliveries.contains a.delivery.deliveryId = true →
        if 200 ≤ status ∧ status < 300 then FourDigitYear a.attemptedAt.instant
        else (100 ≤ status ∧ status ≤ 599) ∧ RetryShown dispatcher a now
  | .failPost error now => ∀ a ∈ w.control.awaited?,
      w.storage.deliveries.contains a.delivery.deliveryId = true →
        IsLine maxTextLength error ∧ RetryShown dispatcher a now
  | _ => True

section Decidable

variable {dispatcher : WebhookDispatcher}

instance {max : Nat} {s : String} : Decidable (IsLine max s) :=
  decidable_of_iff (s ≠ "" ∧ utf16Length s ≤ max ∧ hasControl s = false)
    ⟨fun h => ⟨h.1, h.2.1, h.2.2⟩, fun h => ⟨h.nonempty, h.length, h.plain⟩⟩

instance {s : String} : Decidable (IsIdentifierText s) :=
  decidable_of_iff (IsLine maxIdentifierLength s ∧ isUnbroken (utf16 s) = true)
    ⟨fun h => ⟨h.1, h.2⟩, fun h => ⟨h.toIsLine, h.unbroken⟩⟩

instance {deliveryId subscriptionId : String} {event : AuditFeedEntry} {now : IsoTimestamp} :
    Decidable (NewDeliveryFits deliveryId subscriptionId event now) :=
  decidable_of_iff (IsIdentifierText deliveryId ∧ IsIdentifierText subscriptionId ∧
      event.rowid < 10 ^ 16 ∧ hasControl event.action.text = false ∧ FourDigitYear now.instant)
    ⟨fun h => ⟨h.1, h.2.1, h.2.2.1, h.2.2.2.1, h.2.2.2.2⟩,
      fun h => ⟨h.deliveryId, h.subscriptionId, h.rowid, h.action, h.createdAt⟩⟩

instance {failedAt : IsoTimestamp} {attempts : Nat} :
    Decidable (dispatcher.RetryFits failedAt attempts) :=
  inferInstanceAs (Decidable (_ ∧ _))

instance {a : WebhookAttempt} {failedAt : IsoTimestamp} :
    Decidable (RetryShown dispatcher a failedAt) :=
  decidable_of_iff (a.delivery.attempts < maxSafeInteger ∧
      (a.delivery.attempts + 1 < dispatcher.maxAttempts →
        dispatcher.RetryFits failedAt (a.delivery.attempts + 1) →
          FourDigitYear (wholeMs (dispatcher.retryTime failedAt (a.delivery.attempts + 1)))))
    ⟨fun h => ⟨h.1, h.2⟩, fun h => ⟨h.attempts, h.nextAttemptAt⟩⟩

instance {s : WebhookStorage} {id : String} : Decidable (s.Live id) :=
  inferInstanceAs (Decidable (_ = true))

instance {w : WebhookWorld} : DecidablePred (Presentable dispatcher w)
  | .proceed _ _ => Option.decidableForallMem _
  | .respond _ _ => Option.decidableForallMem _
  | .failPost _ _ => Option.decidableForallMem _
  | .appendEvent _ | .insertCase _ | .createSubscription _ | .deleteSubscription _ | .close
  | .crash | .tick | .fault => .isTrue trivial

end Decidable

def WebhookStorage.Readable (s : WebhookStorage) : Prop := ∀ d ∈ s.deliveries, d.Readable

section Steps

variable {dispatcher : WebhookDispatcher} {w : WebhookWorld} {i : WebhookInput}

theorem toList_status (status : Nat) :
    (s!"HTTP {status}").toList = "HTTP ".toList ++ Nat.toDigits 10 status := by
  simp only [String.toList_append, ToString.toString, Nat.repr]
  simp

theorem isLine_status {status : Nat} (h : status ≤ 599) :
    IsLine maxTextLength s!"HTTP {status}" := by
  have hlen : (Nat.toDigits 10 status).length ≤ 3 := by
    rw [Nat.length_toDigits_le_iff (by decide) (by decide)]
    omega
  have hchars : ∀ c ∈ (s!"HTTP {status}").toList, 0x20 ≤ c.toNat ∧ c.toNat < 0x7f := by
    intro c hc
    rw [toList_status, List.mem_append] at hc
    rcases hc with hc | hc
    · revert c
      simp
    · have hdigit := Nat.isDigit_of_mem_toDigits (by decide) (by decide) hc
      simp only [Char.isDigit, Bool.and_eq_true, decide_eq_true_eq, ge_iff_le,
        UInt32.le_iff_toNat_le] at hdigit
      have hnat : c.toNat = c.val.toNat := rfl
      have hzero : ('0' : Char).val.toNat = 48 := rfl
      have hnine : ('9' : Char).val.toNat = 57 := rfl
      omega
  have hlength : (s!"HTTP {status}").toList.length = 5 + (Nat.toDigits 10 status).length := by
    rw [toList_status, List.length_append]
    rfl
  refine ⟨?_, ?_, ?_⟩
  · intro hempty
    rw [hempty] at hlength
    change 0 = _ at hlength
    omega
  · have hascii : ∀ c ∈ (s!"HTTP {status}").toList, c.toNat < 128 := fun c hc => by
      have := hchars c hc
      omega
    rw [← length_utf16, length_utf16_ascii hascii, hlength]
    unfold maxTextLength
    omega
  · rw [hasControl, List.any_eq_false]
    intro c hc
    have := hchars c hc
    simp only [Bool.or_eq_true, decide_eq_true_eq, not_or]
    omega

theorem readable_newDelivery {deliveryId subscriptionId : String} {event : AuditFeedEntry}
    {now : IsoTimestamp} (h : NewDeliveryFits deliveryId subscriptionId event now) :
    (WebhookStorage.newDelivery deliveryId subscriptionId event now).Readable where
  deliveryId := h.deliveryId
  subscriptionId := h.subscriptionId
  eventRowid := h.rowid
  action := h.action
  attempts := Nat.zero_le _
  lastStatusCode := fun status hstatus => by cases hstatus
  lastError := fun error herror => by cases herror
  nextAttemptAt := fun t ht => by cases ht
  deliveredAt := fun t ht => by cases ht
  createdAt := h.createdAt

/-- An update of one row keeps the rows readable when the row that it makes is. -/
theorem readable_updateDelivery {s : WebhookStorage} (h : s.Readable) {deliveryId : String}
    {f : WebhookDeliveryRecord → WebhookDeliveryRecord} {hf : ∀ d, (f d).deliveryId = d.deliveryId}
    (hrow : s.deliveries.contains deliveryId = true → ∀ d, d.Readable → (f d).Readable) :
    (s.updateDelivery deliveryId f hf).Readable := by
  intro d hd
  rcases WebhookStorage.of_mem_updateDelivery hd with ⟨hold, -⟩ | ⟨d₀, hd₀, hid, rfl⟩
  · exact h d hold
  · exact hrow (Table.contains_iff.mpr ⟨d₀, hd₀, hid⟩) d₀ (h d₀ hd₀)

theorem readable_scheduleFailure (h : w.storage.Readable) {a : WebhookAttempt}
    {failure : WebhookDeliveryFailure} {failedAt : IsoTimestamp}
    (hfailure : w.storage.deliveries.contains a.delivery.deliveryId = true →
      ((∀ status ∈ failure.statusCode, 100 ≤ status ∧ status ≤ 599) ∧
        IsLine maxTextLength failure.error) ∧ RetryShown dispatcher a failedAt) :
    (w.scheduleFailure dispatcher a failure failedAt).storage.Readable := by
  unfold WebhookWorld.scheduleFailure
  dsimp only
  by_cases hlast : (dispatcher.maxAttempts : Nat) ≤ a.delivery.attempts + 1
  · rw [if_pos hlast]
    refine readable_updateDelivery h ?_
    intro hstored d hd
    obtain ⟨⟨hstatus, herror⟩, hretry⟩ := hfailure hstored
    exact { hd with
      attempts := hretry.attempts
      lastStatusCode := hstatus
      lastError := fun error he => Option.some.inj he ▸ herror
      nextAttemptAt := fun t ht => by cases ht
      deliveredAt := fun t ht => by cases ht }
  · rw [if_neg hlast]
    cases hnext : dispatcher.nextAttemptAt failedAt (a.delivery.attempts + 1) with
    | none => exact h
    | some t =>
      refine readable_updateDelivery h ?_
      intro hstored d hd
      obtain ⟨⟨hstatus, herror⟩, hretry⟩ := hfailure hstored
      -- the time that was written is the one the condition is about
      have hfits : dispatcher.RetryFits failedAt (a.delivery.attempts + 1) := by
        by_contra hmiss
        rw [nextAttemptAt_eq_none hmiss] at hnext
        cases hnext
      obtain ⟨t', ht', hinstant⟩ := nextAttemptAt_of_fits hfits
      obtain rfl : t = t' := Option.some.inj (hnext.symm.trans ht')
      have hyear := hretry.nextAttemptAt (not_le.mp hlast) hfits
      rw [← hinstant] at hyear
      exact { hd with
        attempts := hretry.attempts
        lastStatusCode := hstatus
        lastError := fun error he => Option.some.inj he ▸ herror
        nextAttemptAt := fun t' ht' => Option.some.inj ht' ▸ hyear
        deliveredAt := fun t ht => by cases ht }

theorem awaited?_of_awaiting {a : WebhookAttempt} (h : w.control = .awaiting a) :
    w.control.awaited? = some a :=
  congrArg Control.awaited? h

theorem readable_respond (h : w.storage.Readable) {a : WebhookAttempt} {status : Nat}
    {now : IsoTimestamp} (hc : w.control = .awaiting a)
    (hi : Presentable dispatcher w (.respond status now)) :
    (w.respond dispatcher a status now).storage.Readable := by
  unfold WebhookWorld.respond
  by_cases hok : 200 ≤ status ∧ status < 300
  · rw [if_pos hok]
    refine readable_updateDelivery h ?_
    intro hstored d hd
    have hyear := hi a (awaited?_of_awaiting hc) hstored
    rw [if_pos hok] at hyear
    exact { hd with
      lastStatusCode := fun code hcode => by
        cases hcode
        omega
      lastError := fun error he => by cases he
      nextAttemptAt := fun t ht => by cases ht
      deliveredAt := fun t ht => Option.some.inj ht ▸ hyear }
  · rw [if_neg hok]
    refine readable_scheduleFailure h ?_
    intro hstored
    have hfailure := hi a (awaited?_of_awaiting hc) hstored
    rw [if_neg hok] at hfailure
    obtain ⟨hstatus, hretry⟩ := hfailure
    exact ⟨⟨fun code hcode => Option.some.inj hcode ▸ hstatus, isLine_status hstatus.2⟩, hretry⟩

theorem readable_visit (h : w.storage.Readable) {s : WebhookSubscriptionRecord}
    {e : AuditFeedEntry} {events : List AuditFeedEntry} {rest : List WebhookSubscriptionRecord}
    {now : IsoTimestamp} {deliveryId : String}
    (hfits : w.storage.Live s.subscriptionId →
      w.storage.findDelivery s.subscriptionId e.rowid = none →
        NewDeliveryFits deliveryId s.subscriptionId e now) :
    (w.visit s e events rest now deliveryId).storage.Readable := by
  unfold WebhookWorld.visit
  cases hfind : w.storage.findDelivery s.subscriptionId e.rowid with
  | some d =>
    dsimp only
    split
    · exact h
    · split
      · exact h
      · exact h
  | none =>
    dsimp only
    cases hcreate : w.storage.createDelivery
      (WebhookStorage.newDelivery deliveryId s.subscriptionId e now) with
    | error error => exact h
    | ok storage =>
      obtain ⟨hlive, -, hfree, rfl⟩ := WebhookStorage.createDelivery_eq_ok.mp hcreate
      have hnew := readable_newDelivery (hfits hlive hfind)
      intro d hd
      have hmem : d ∈ w.storage.deliveries.insert _ hfree := hd
      rcases Table.mem_insert.mp hmem with hold | rfl
      · exact h d hold
      · exact hnew

theorem readable_proceed (h : w.storage.Readable) {now : IsoTimestamp} {deliveryId : String}
    (hi : Presentable dispatcher w (.proceed now deliveryId)) :
    (w.proceed dispatcher now deliveryId).storage.Readable := by
  unfold WebhookWorld.proceed
  cases hc : w.control with
  | idle | awaiting | posting => exact h
  | advancing a => exact h
  | turn rest =>
    cases rest with
    | nil => exact h
    | cons s rest =>
      dsimp only
      split
      · exact h
      · unfold WebhookWorld.readPage
        split
        · exact h
        · exact h
  | page s events rest =>
    cases events with
    | nil => exact h
    | cons e events =>
      dsimp only
      split
      · exact h
      · next hopen =>
        have hnext : w.control.next? = some (s, e) := congrArg Control.next? hc
        exact readable_visit h (hi (s, e) hnext (Bool.eq_false_iff.mpr hopen))

theorem storage_fault : w.fault.storage = w.storage := by
  unfold WebhookWorld.fault
  cases w.control with
  | turn rest =>
    cases rest with
    | nil => rfl
    | cons s rest => rfl
  | idle | page | posting | awaiting | advancing => rfl

/-- **A step that is told presentable things keeps the rows readable.** -/
theorem readable_step (h : w.storage.Readable) (hi : Presentable dispatcher w i) :
    (w.step dispatcher i).storage.Readable := by
  have hrequest : (if w.control.yields = true then w.request i else w).storage.Readable := by
    split
    · intro d hd
      exact h d ((calm_request i).deliveries d hd)
    · exact h
  cases i with
  | appendEvent | insertCase | createSubscription | deleteSubscription | close => exact hrequest
  | crash => exact h
  | tick =>
    unfold WebhookWorld.step
    cases w.control with
    | idle =>
      dsimp only
      split
      · exact h
      · exact h
    | turn | page | posting | awaiting | advancing => exact h
  | proceed now deliveryId => exact readable_proceed h hi
  | fault =>
    show w.fault.storage.Readable
    rw [storage_fault]
    exact h
  | respond status now =>
    unfold WebhookWorld.step
    cases hc : w.control with
    | awaiting a => exact readable_respond h hc hi
    | idle | turn | page | posting | advancing => exact h
  | failPost error now =>
    unfold WebhookWorld.step
    cases hc : w.control with
    | awaiting a =>
      refine readable_scheduleFailure h ?_
      intro hstored
      obtain ⟨herror, hretry⟩ := hi a (awaited?_of_awaiting hc) hstored
      have hnone : ∀ status ∈ (none : Option Nat), 100 ≤ status ∧ status ≤ 599 := by
        intro status hstatus
        cases hstatus
      exact ⟨⟨hnone, herror⟩, hretry⟩
    | idle | turn | page | posting | advancing => exact h

end Steps

/-! ## The history -/

theorem isText_encodeWebhookDelivery (delivery : WebhookDelivery) :
    IsText (encodeWebhookDelivery delivery).text := by
  have hoptional {α : Type} {o : Option α} {json : α → JsonValue}
      (h : ∀ a, IsText (json a).text) : IsText (optionalJson o json).text := by
    cases o with
    | none => exact isText_jsonNull
    | some a => exact h a
  refine isText_jsonObject ?_
  simp only [List.forall_mem_cons]
  exact ⟨isText_jsonString _, isText_jsonString _, isText_jsonString _, isText_jsonString _,
    hoptional isText_jsonString, isText_jsonString _, isText_jsonNumber _,
    hoptional isText_jsonNumber, hoptional isText_jsonString, hoptional isText_jsonString,
    hoptional isText_jsonString, isText_jsonString _, fun m hm => by cases hm⟩

theorem isText_encodeWebhookDeliveriesResponse (response : WebhookDeliveriesResponse) :
    IsText (jsonStringify (encodeWebhookDeliveriesResponse response)) := by
  refine isText_jsonObject (List.forall_mem_singleton.mpr (isText_jsonArray ?_))
  intro v hv
  obtain ⟨delivery, -, rfl⟩ := List.mem_map.mp hv
  exact isText_encodeWebhookDelivery delivery

/-- What a client makes of the text of a response. -/
def readWebhookDeliveries (text : String) : Option (Except DecodeThrow WebhookDeliveriesResponse) :=
  (jsonParse text).map fun value => decodeWebhookDeliveriesResponse value (utf16 "$")

/-- The history of readable rows is read back. -/
theorem WebhookStorage.Readable.history {s : WebhookStorage} (h : s.Readable) {webhookId : String}
    {response : WebhookDeliveriesResponse} (hresponse : webhookDeliveries s webhookId = some response) :
    readWebhookDeliveries (toText (jsonStringify (encodeWebhookDeliveriesResponse response))) =
      some (.ok response) := by
  unfold webhookDeliveries at hresponse
  split at hresponse
  · cases hresponse
    rw [readWebhookDeliveries, jsonParse_print (isText_encodeWebhookDeliveriesResponse _)]
    refine congrArg some (decodeWebhookDeliveriesResponse_print ?_ ?_)
    · rw [List.length_map]
      have hpage : (s.listDeliveries webhookId 50).length ≤ 50 := List.length_take_le _ _
      exact hpage.trans (by decide)
    · intro delivery hdelivery path
      obtain ⟨d, hd, rfl⟩ := List.mem_map.mp hdelivery
      have hrow := List.mem_mergeSort.mp (List.mem_of_mem_take hd)
      exact (h d (Table.mem_rows.mp (List.mem_filter.mp hrow).1)).decode path
  · cases hresponse

namespace Sample

/-- The message of the error has two lines. -/
def twoLineError : List WebhookInput :=
  [.createSubscription subscription, .appendEvent webhookEvent, .tick,
    .proceed webhookTime "whd_0", .proceed webhookTime "whd_0", .proceed webhookTime "whd_0",
    .failPost "connect ECONNREFUSED\nconnect ETIMEDOUT" webhookTime]

end Sample

end DumpLedger
