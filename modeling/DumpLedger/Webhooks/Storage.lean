import DumpLedger.Domain.DateText
import DumpLedger.Ledger.AuditFeed

/-!
# The tables of the webhooks

Subscriptions, and one delivery for each event a subscription was sent. A delivery refers to
its subscription and goes with it (`ON DELETE CASCADE`); no two deliveries are of one
subscription and one event.

`WebhookStorage.Valid` is what the constraints of the two tables say. Each operation has a
lemma about the delivery it finds or changes; `advanceCursor` is the only one that moves a
cursor.
-/

namespace DumpLedger

open Lib

/-! ## Rows -/

inductive WebhookDeliveryStatus
  | pending | delivered | exhausted
  deriving DecidableEq, Repr

structure WebhookSubscriptionRecord where
  subscriptionId : String
  url : String
  secret : String
  actions : Option (List String)
  caseId : Option CaseId
  cursorRowid : Nat
  createdAt : IsoTimestamp
  deriving DecidableEq

structure WebhookDeliveryRecord where
  deliveryId : String
  subscriptionId : String
  eventRowid : Nat
  action : BoundedText 64
  dumpId : Option DumpId
  status : WebhookDeliveryStatus
  attempts : Nat
  lastStatusCode : Option Nat
  lastError : Option String
  nextAttemptAt : Option IsoTimestamp
  deliveredAt : Option IsoTimestamp
  createdAt : IsoTimestamp
  deriving DecidableEq

structure WebhookDeliveryFailure where
  statusCode : Option Nat
  error : String

instance : Keyed WebhookSubscriptionRecord String := ⟨WebhookSubscriptionRecord.subscriptionId⟩
instance : Keyed WebhookDeliveryRecord String := ⟨WebhookDeliveryRecord.deliveryId⟩

@[simp] theorem key_subscription (r : WebhookSubscriptionRecord) : key r = r.subscriptionId := rfl
@[simp] theorem key_delivery (r : WebhookDeliveryRecord) : key r = r.deliveryId := rfl

/-- A delivery the dispatcher is done with. -/
def WebhookDeliveryRecord.Settled (d : WebhookDeliveryRecord) : Prop := d.status ≠ .pending

instance (d : WebhookDeliveryRecord) : Decidable d.Settled :=
  inferInstanceAs (Decidable (d.status ≠ .pending))

/-! ## The storage -/

structure WebhookStorage where
  subscriptions : Table WebhookSubscriptionRecord
  deliveries : Table WebhookDeliveryRecord

namespace WebhookStorage

def fresh : WebhookStorage := ⟨.empty, .empty⟩

/-- The case a subscription follows has to exist. -/
def createSubscription (s : WebhookStorage) (cases : Table CaseRow)
    (input : WebhookSubscriptionRecord) : Except Thrown WebhookStorage := do
  guardThat (∀ k ∈ input.caseId, cases.contains k = true)
    (invalidInput "caseId does not name an existing case")
  let subscriptions ← orThrow (s.subscriptions.insert? input) sqliteError
  return { s with subscriptions }

/-- `ORDER BY created_at, subscription_id`. -/
def listSubscriptions (s : WebhookStorage) : List WebhookSubscriptionRecord :=
  s.subscriptions.rows.mergeSort fun a b =>
    decide (a.createdAt < b.createdAt ∨ a.createdAt = b.createdAt ∧ a.subscriptionId ≤ b.subscriptionId)

/-- The deliveries of a subscription go with it. -/
def deleteSubscription (s : WebhookStorage) (subscriptionId : String) : WebhookStorage where
  subscriptions := s.subscriptions.delete fun r => decide (r.subscriptionId = subscriptionId)
  deliveries := s.deliveries.delete fun d => decide (d.subscriptionId = subscriptionId)

def findDelivery (s : WebhookStorage) (subscriptionId : String) (eventRowid : Nat) :
    Option WebhookDeliveryRecord :=
  s.deliveries.rows.find? fun d =>
    decide (d.subscriptionId = subscriptionId ∧ d.eventRowid = eventRowid)

/-- `MAX_DELIVERY_PAGE`. -/
def maxDeliveryPage : Nat := 500

/-- `ORDER BY created_at DESC, delivery_id DESC LIMIT ?`. -/
def listDeliveries (s : WebhookStorage) (subscriptionId : String) (limit : Nat) :
    List WebhookDeliveryRecord :=
  ((s.deliveries.rows.filter fun d => decide (d.subscriptionId = subscriptionId)).mergeSort
    fun a b => decide (b.createdAt < a.createdAt ∨
      a.createdAt = b.createdAt ∧ b.deliveryId ≤ a.deliveryId)).take
        (min maxDeliveryPage (max 1 limit))

/-- The row a delivery starts with. -/
def newDelivery (deliveryId subscriptionId : String) (event : AuditFeedEntry)
    (createdAt : IsoTimestamp) : WebhookDeliveryRecord where
  deliveryId := deliveryId
  subscriptionId := subscriptionId
  eventRowid := event.rowid
  action := event.action
  dumpId := event.dumpId
  status := .pending
  attempts := 0
  lastStatusCode := none
  lastError := none
  nextAttemptAt := none
  deliveredAt := none
  createdAt := createdAt

def createDelivery (s : WebhookStorage) (row : WebhookDeliveryRecord) :
    Except Thrown WebhookStorage := do
  guardThat (s.subscriptions.contains row.subscriptionId = true) sqliteError
  guardThat (s.findDelivery row.subscriptionId row.eventRowid = none) sqliteError
  let deliveries ← orThrow (s.deliveries.insert? row) sqliteError
  return { s with deliveries }

/-- `UPDATE webhook_deliveries SET ... WHERE delivery_id = ?`. -/
def updateDelivery (s : WebhookStorage) (deliveryId : String)
    (f : WebhookDeliveryRecord → WebhookDeliveryRecord) (hf : ∀ d, (f d).deliveryId = d.deliveryId) :
    WebhookStorage :=
  { s with deliveries := s.deliveries.updateKey deliveryId f hf }

def markDelivered (s : WebhookStorage) (deliveryId : String) (statusCode : Nat)
    (deliveredAt : IsoTimestamp) : WebhookStorage :=
  s.updateDelivery deliveryId
    (fun d => { d with
      status := .delivered, lastStatusCode := some statusCode, lastError := none,
      nextAttemptAt := none, deliveredAt := some deliveredAt }) fun _ => rfl

def markRetryScheduled (s : WebhookStorage) (deliveryId : String) (attempts : Nat)
    (failure : WebhookDeliveryFailure) (nextAttemptAt : IsoTimestamp) : WebhookStorage :=
  s.updateDelivery deliveryId
    (fun d => { d with
      status := .pending, attempts := attempts, lastStatusCode := failure.statusCode,
      lastError := some failure.error, nextAttemptAt := some nextAttemptAt,
      deliveredAt := none }) fun _ => rfl

def markExhausted (s : WebhookStorage) (deliveryId : String) (attempts : Nat)
    (failure : WebhookDeliveryFailure) : WebhookStorage :=
  s.updateDelivery deliveryId
    (fun d => { d with
      status := .exhausted, attempts := attempts, lastStatusCode := failure.statusCode,
      lastError := some failure.error, nextAttemptAt := none, deliveredAt := none }) fun _ => rfl

/-- `SET cursor_rowid = MAX(cursor_rowid, ?)`. -/
def advanceCursor (s : WebhookStorage) (subscriptionId : String) (eventRowid : Nat) :
    WebhookStorage :=
  { s with
    subscriptions := s.subscriptions.updateKey subscriptionId
      (fun r => { r with cursorRowid := max r.cursorRowid eventRowid }) fun _ => rfl }

/-- The subscription is done with the event. -/
def SettledAt (s : WebhookStorage) (subscriptionId : String) (eventRowid : Nat) : Prop :=
  ∃ d ∈ s.deliveries, d.subscriptionId = subscriptionId ∧ d.eventRowid = eventRowid ∧ d.Settled

/-- The subscription has not been deleted. -/
def Live (s : WebhookStorage) (subscriptionId : String) : Prop :=
  s.subscriptions.contains subscriptionId = true

/-! ## The constraints -/

/-- `UNIQUE (subscription_id, event_rowid)` and the foreign key. -/
structure Valid (s : WebhookStorage) : Prop where
  unique : ∀ d ∈ s.deliveries, ∀ d' ∈ s.deliveries, d.subscriptionId = d'.subscriptionId →
    d.eventRowid = d'.eventRowid → d = d'
  linked : ∀ d ∈ s.deliveries, s.subscriptions.contains d.subscriptionId = true

theorem fresh_valid : fresh.Valid :=
  ⟨fun _ h => absurd h Table.not_mem_empty, fun _ h => absurd h Table.not_mem_empty⟩

variable {s s' : WebhookStorage}

@[simp] theorem mem_listSubscriptions {r : WebhookSubscriptionRecord} :
    r ∈ s.listSubscriptions ↔ r ∈ s.subscriptions := by
  unfold listSubscriptions
  rw [List.mem_mergeSort]
  exact Table.mem_rows

theorem listSubscriptions_nodup :
    (s.listSubscriptions.map WebhookSubscriptionRecord.subscriptionId).Nodup :=
  ((List.mergeSort_perm _ _).map _).nodup_iff.mpr s.subscriptions.keys_nodup

theorem findDelivery_eq_some {subscriptionId : String} {eventRowid : Nat}
    {d : WebhookDeliveryRecord} (h : s.findDelivery subscriptionId eventRowid = some d) :
    d ∈ s.deliveries ∧ d.subscriptionId = subscriptionId ∧ d.eventRowid = eventRowid :=
  ⟨List.mem_of_find?_eq_some h, by simpa using List.find?_some h⟩

theorem findDelivery_eq_none {subscriptionId : String} {eventRowid : Nat} :
    s.findDelivery subscriptionId eventRowid = none ↔
      ∀ d ∈ s.deliveries, d.subscriptionId = subscriptionId → d.eventRowid ≠ eventRowid := by
  rw [findDelivery, List.find?_eq_none]
  simp

/-- In valid tables a delivery is the one its subscription and event find. -/
theorem Valid.findDelivery (h : s.Valid) {d : WebhookDeliveryRecord} (hd : d ∈ s.deliveries) :
    s.findDelivery d.subscriptionId d.eventRowid = some d := by
  cases hfind : s.findDelivery d.subscriptionId d.eventRowid with
  | none => exact absurd rfl (findDelivery_eq_none.mp hfind d hd rfl)
  | some d' =>
    obtain ⟨hd', hsub, hrow⟩ := findDelivery_eq_some hfind
    rw [h.unique d' hd' d hd hsub hrow]

theorem createSubscription_eq_ok {cases : Table CaseRow} {input : WebhookSubscriptionRecord} :
    s.createSubscription cases input = .ok s' ↔
      (∀ k ∈ input.caseId, cases.contains k = true) ∧
        ∃ h : s.subscriptions.find? input.subscriptionId = none,
          s' = { s with subscriptions := s.subscriptions.insert input h } := by
  simp only [createSubscription, bind_eq_ok, guardThat_eq_ok, orThrow_eq_ok, pure_eq_ok,
    Table.insert?_eq_some]
  constructor
  · rintro ⟨-, hcase, _, ⟨h, rfl⟩, rfl⟩
    exact ⟨hcase, h, rfl⟩
  · rintro ⟨hcase, h, rfl⟩
    exact ⟨(), hcase, _, ⟨h, rfl⟩, rfl⟩

theorem createDelivery_eq_ok {row : WebhookDeliveryRecord} :
    s.createDelivery row = .ok s' ↔
      s.subscriptions.contains row.subscriptionId = true ∧
        s.findDelivery row.subscriptionId row.eventRowid = none ∧
          ∃ h : s.deliveries.find? row.deliveryId = none,
            s' = { s with deliveries := s.deliveries.insert row h } := by
  simp only [createDelivery, bind_eq_ok, guardThat_eq_ok, orThrow_eq_ok, pure_eq_ok,
    Table.insert?_eq_some]
  constructor
  · rintro ⟨-, hsub, -, hnew, _, ⟨h, rfl⟩, rfl⟩
    exact ⟨hsub, hnew, h, rfl⟩
  · rintro ⟨hsub, hnew, h, rfl⟩
    exact ⟨(), hsub, (), hnew, _, ⟨h, rfl⟩, rfl⟩

/-! ### Deliveries and cursors after an update -/

section Updates

variable {deliveryId : String} {f : WebhookDeliveryRecord → WebhookDeliveryRecord}
  {hf : ∀ d, (f d).deliveryId = d.deliveryId} {d : WebhookDeliveryRecord}

theorem mem_updateDelivery_of_ne (hd : d ∈ s.deliveries) (hne : d.deliveryId ≠ deliveryId) :
    d ∈ (s.updateDelivery deliveryId f hf).deliveries := by
  show d ∈ s.deliveries.update _ f hf
  exact Table.mem_update.mpr ⟨d, hd, by simp [hne]⟩

theorem mem_updateDelivery_self (hd : d ∈ s.deliveries) (hid : d.deliveryId = deliveryId) :
    f d ∈ (s.updateDelivery deliveryId f hf).deliveries := by
  show f d ∈ s.deliveries.update _ f hf
  exact Table.mem_update.mpr ⟨d, hd, by simp [hid]⟩

theorem of_mem_updateDelivery (h : d ∈ (s.updateDelivery deliveryId f hf).deliveries) :
    d ∈ s.deliveries ∧ d.deliveryId ≠ deliveryId ∨
      ∃ d₀ ∈ s.deliveries, d₀.deliveryId = deliveryId ∧ d = f d₀ := by
  change d ∈ s.deliveries.update _ f hf at h
  rcases Table.of_mem_update h with ⟨hd, hne⟩ | ⟨d₀, hd₀, hid, rfl⟩
  · exact Or.inl ⟨hd, by simpa using hne⟩
  · exact Or.inr ⟨d₀, hd₀, by simpa using hid, rfl⟩

theorem of_mem_advanceCursor {subscriptionId : String} {eventRowid : Nat}
    {r : WebhookSubscriptionRecord}
    (h : r ∈ (s.advanceCursor subscriptionId eventRowid).subscriptions) :
    r ∈ s.subscriptions ∧ r.subscriptionId ≠ subscriptionId ∨
      ∃ r₀ ∈ s.subscriptions, r₀.subscriptionId = subscriptionId ∧
        r = { r₀ with cursorRowid := max r₀.cursorRowid eventRowid } := by
  unfold advanceCursor Table.updateKey at h
  dsimp only at h
  rcases Table.of_mem_update h with ⟨hr, hne⟩ | ⟨r₀, hr₀, hid, rfl⟩
  · exact Or.inl ⟨hr, by simpa using hne⟩
  · exact Or.inr ⟨r₀, hr₀, by simpa using hid, rfl⟩

@[simp] theorem live_advanceCursor {subscriptionId id : String} {eventRowid : Nat} :
    (s.advanceCursor subscriptionId eventRowid).Live id ↔ s.Live id := by
  unfold Live advanceCursor
  rw [Table.contains_updateKey]

/-- An update that spares the settled deliveries leaves every event settled that was. -/
theorem SettledAt.updateDelivery {id : String} {n : Nat} (h : s.SettledAt id n)
    (hpending : ∀ d ∈ s.deliveries, d.deliveryId = deliveryId → ¬ d.Settled) :
    (s.updateDelivery deliveryId f hf).SettledAt id n := by
  obtain ⟨d, hd, hsub, hrow, hsettled⟩ := h
  refine ⟨d, mem_updateDelivery_of_ne hd fun hid => ?_, hsub, hrow, hsettled⟩
  exact hpending d hd hid hsettled

end Updates

/-! ### Every operation keeps them -/

theorem Valid.createSubscription {cases : Table CaseRow} {input : WebhookSubscriptionRecord}
    (h : s.Valid) (hs : s.createSubscription cases input = .ok s') : s'.Valid := by
  obtain ⟨-, hfree, rfl⟩ := createSubscription_eq_ok.mp hs
  refine ⟨h.unique, fun d hd => ?_⟩
  rw [Table.contains_insert, h.linked d hd, Bool.or_true]

theorem Valid.deleteSubscription (h : s.Valid) (subscriptionId : String) :
    (s.deleteSubscription subscriptionId).Valid := by
  refine ⟨fun d hd d' hd' => h.unique d (Table.mem_delete.mp hd).1 d' (Table.mem_delete.mp hd').1,
    fun d hd => ?_⟩
  obtain ⟨hd, hne⟩ := Table.mem_delete.mp hd
  obtain ⟨r, hr, hkey⟩ := Table.contains_iff.mp (h.linked d hd)
  refine Table.contains_iff.mpr ⟨r, Table.mem_delete.mpr ⟨hr, ?_⟩, hkey⟩
  rw [key_subscription] at hkey
  rw [hkey]
  exact hne

theorem Valid.createDelivery {row : WebhookDeliveryRecord} (h : s.Valid)
    (hs : s.createDelivery row = .ok s') : s'.Valid := by
  obtain ⟨hsub, hnew, hfree, rfl⟩ := createDelivery_eq_ok.mp hs
  rw [findDelivery_eq_none] at hnew
  have hmem : ∀ d ∈ s.deliveries.insert row hfree, d ∈ s.deliveries ∨ d = row :=
    fun _ => Table.mem_insert.mp
  refine ⟨fun d hd d' hd' hid hrow => ?_, fun d hd => ?_⟩
  · rcases hmem d hd with hold | hdrow <;> rcases hmem d' hd' with hold' | hdrow'
    · exact h.unique d hold d' hold' hid hrow
    · subst hdrow'
      exact absurd hrow (hnew d hold hid)
    · subst hdrow
      exact absurd hrow.symm (hnew d' hold' hid.symm)
    · rw [hdrow, hdrow']
  · rcases hmem d hd with hd | rfl
    · exact h.linked d hd
    · exact hsub

/-- A change of a delivery that leaves its subscription and event alone. -/
theorem Valid.updateDelivery {deliveryId : String}
    {f : WebhookDeliveryRecord → WebhookDeliveryRecord} {hf : ∀ d, (f d).deliveryId = d.deliveryId}
    (h : s.Valid) (hsub : ∀ d, (f d).subscriptionId = d.subscriptionId)
    (hrow : ∀ d, (f d).eventRowid = d.eventRowid) : (s.updateDelivery deliveryId f hf).Valid := by
  have hback : ∀ d ∈ (s.updateDelivery deliveryId f hf).deliveries, ∃ d₀ ∈ s.deliveries,
      d.deliveryId = d₀.deliveryId ∧ d.subscriptionId = d₀.subscriptionId ∧
        d.eventRowid = d₀.eventRowid := by
    intro d hd
    change d ∈ s.deliveries.update _ f hf at hd
    rcases Table.of_mem_update hd with ⟨hd, -⟩ | ⟨d₀, hd₀, -, rfl⟩
    · exact ⟨d, hd, rfl, rfl, rfl⟩
    · exact ⟨d₀, hd₀, hf d₀, hsub d₀, hrow d₀⟩
  refine ⟨fun d hd d' hd' hid hr => ?_, fun d hd => ?_⟩
  · obtain ⟨d₀, hd₀, hk, hs₀, hr₀⟩ := hback d hd
    obtain ⟨d₀', hd₀', hk', hs₀', hr₀'⟩ := hback d' hd'
    have := h.unique d₀ hd₀ d₀' hd₀' (hs₀.symm.trans (hid.trans hs₀')) (hr₀.symm.trans (hr.trans hr₀'))
    subst this
    exact Table.eq_of_key hd hd' (hk.trans hk'.symm)
  · obtain ⟨d₀, hd₀, -, hs₀, -⟩ := hback d hd
    rw [hs₀]
    exact h.linked d₀ hd₀

theorem Valid.advanceCursor (h : s.Valid) (subscriptionId : String) (eventRowid : Nat) :
    (s.advanceCursor subscriptionId eventRowid).Valid := by
  refine ⟨h.unique, fun d hd => ?_⟩
  unfold WebhookStorage.advanceCursor
  rw [Table.contains_updateKey]
  exact h.linked d hd

end WebhookStorage

end DumpLedger
