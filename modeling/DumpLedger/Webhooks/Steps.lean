import DumpLedger.Webhooks.Dispatcher

/-!
# What a step of the dispatcher does

`WebhookStep` lists the steps: what other requests do while the dispatcher waits, and what
the dispatcher does at each place of its loop. `step_cases` says that every step is one of
them; the invariants follow by cases on it.
-/

namespace DumpLedger

open Lib

/-- What is left of the tick. -/
def Control.rest : Control → List WebhookSubscriptionRecord
  | idle => []
  | turn rest | page _ _ rest => rest
  | posting a | awaiting a | advancing a => a.rest

/-- When the dispatcher learns that its attempt has failed. -/
def WebhookInput.failedAt : WebhookInput → Option IsoTimestamp
  | .respond status now => if 200 ≤ status ∧ status < 300 then none else some now
  | .failPost _ now => some now
  | _ => none

/-- Other requests add to the trail and to the subscriptions, and take subscriptions away
with their deliveries. -/
structure Calm (i : WebhookInput) (w w' : WebhookWorld) : Prop where
  control : w'.control = w.control
  posts : w'.posts = w.posts
  failures : w'.failures = w.failures
  trail : TrailGrows w.auditEvents w'.auditEvents
  created : w'.created = w.created ∧
      (∀ r ∈ w'.storage.subscriptions, r ∈ w.storage.subscriptions) ∨
    ∃ record, i = .createSubscription record ∧ w'.created = w.created ++ [record] ∧
      ∀ r ∈ w'.storage.subscriptions, r ∈ w.storage.subscriptions ∨ r = record
  deliveries : ∀ d ∈ w'.storage.deliveries, d ∈ w.storage.deliveries
  kept : ∀ d ∈ w.storage.deliveries,
    w'.storage.subscriptions.contains d.subscriptionId = true → d ∈ w'.storage.deliveries
  valid : w.storage.Valid → w'.storage.Valid

/-- The control after a turn or a tick has been given up. -/
inductive GivesUp : Control → Control → Prop
  | tick (c : Control) : GivesUp c .idle
  | turn (c : Control) : GivesUp c (.turn c.rest)
  | skipped (s : WebhookSubscriptionRecord) (rest : List WebhookSubscriptionRecord) :
      GivesUp (.turn (s :: rest)) (.turn rest)

section Steps

variable (dispatcher : WebhookDispatcher) (i : WebhookInput) (w : WebhookWorld)

/-- The failure is on record as soon as the attempt is known to have failed. -/
def WebhookWorld.failed (a : WebhookAttempt) : List (String × Nat) :=
  w.failures ++ [(a.subscription.subscriptionId, a.event.rowid)]

inductive WebhookStep : WebhookWorld → Prop
  | same : WebhookStep w
  | request (w' : WebhookWorld) (h : Calm i w w') (hyields : w.control.yields = true) :
      WebhookStep w'
  | gaveUp (closed : Bool) (c : Control) (h : GivesUp w.control c) :
      WebhookStep { w with closed, control := c }
  | listed (h : w.control = .idle) :
      WebhookStep { w with control := .turn w.storage.listSubscriptions }
  | read (s : WebhookSubscriptionRecord) (rest : List WebhookSubscriptionRecord)
      (page : AuditFeedPage) (h : w.control = .turn (s :: rest))
      (hpage : readAuditEvents w.auditEvents (some s.cursorRowid) (feedFilterOf s)
        (some dispatcher.pageSize) = .ok page) :
      WebhookStep { w with control := .page s page.events rest }
  | passedBy (s : WebhookSubscriptionRecord) (e : AuditFeedEntry) (events : List AuditFeedEntry)
      (rest : List WebhookSubscriptionRecord) (d : WebhookDeliveryRecord)
      (h : w.control = .page s (e :: events) rest)
      (hd : w.storage.findDelivery s.subscriptionId e.rowid = some d) (hsettled : d.Settled) :
      WebhookStep { w with
        storage := w.storage.advanceCursor s.subscriptionId e.rowid
        control := .page s events rest }
  | resumed (a : WebhookAttempt)
      (h : w.control = .page a.subscription (a.event :: a.events) a.rest)
      (hd : w.storage.findDelivery a.subscription.subscriptionId a.event.rowid = some a.delivery)
      (hpending : ¬ a.delivery.Settled)
      (hdue : ∀ t ∈ a.delivery.nextAttemptAt, t.instant ≤ a.attemptedAt.instant) :
      WebhookStep { w with control := .posting a }
  | created (a : WebhookAttempt) (storage : WebhookStorage) (deliveryId : String)
      (h : w.control = .page a.subscription (a.event :: a.events) a.rest)
      (hrow : a.delivery = WebhookStorage.newDelivery deliveryId a.subscription.subscriptionId
        a.event a.attemptedAt)
      (hcreated : w.storage.createDelivery a.delivery = .ok storage) :
      WebhookStep { w with storage, control := .posting a }
  | posted (a : WebhookAttempt) (h : w.control = .posting a) :
      WebhookStep { w with
        control := .awaiting a
        posts := w.posts ++ [⟨a.subscription.subscriptionId, a.event.rowid,
          WebhookWorld.requestOf dispatcher a⟩] }
  | delivered (a : WebhookAttempt) (status : Nat) (h : w.control = .awaiting a) :
      WebhookStep { w with
        storage := w.storage.markDelivered a.delivery.deliveryId status a.attemptedAt
        control := .advancing a }
  | exhausted (a : WebhookAttempt) (failure : WebhookDeliveryFailure)
      (h : w.control = .awaiting a) (hlast : dispatcher.maxAttempts ≤ a.delivery.attempts + 1) :
      WebhookStep { w with
        storage := w.storage.markExhausted a.delivery.deliveryId (a.delivery.attempts + 1) failure
        control := .advancing a
        failures := w.failed a }
  | scheduled (a : WebhookAttempt) (failure : WebhookDeliveryFailure) (failedAt t : IsoTimestamp)
      (h : w.control = .awaiting a) (hfailed : i.failedAt = some failedAt)
      (hmore : a.delivery.attempts + 1 < dispatcher.maxAttempts)
      (ht : dispatcher.nextAttemptAt failedAt (a.delivery.attempts + 1) = some t) :
      WebhookStep { w with
        storage := w.storage.markRetryScheduled a.delivery.deliveryId (a.delivery.attempts + 1)
          failure t
        control := .turn a.rest
        failures := w.failed a }
  | lost (a : WebhookAttempt) (failedAt : IsoTimestamp)
      (h : w.control = .awaiting a) (hfailed : i.failedAt = some failedAt)
      (hmore : a.delivery.attempts + 1 < dispatcher.maxAttempts)
      (ht : dispatcher.nextAttemptAt failedAt (a.delivery.attempts + 1) = none) :
      WebhookStep { w with control := .turn a.rest, failures := w.failed a }
  | advanced (a : WebhookAttempt) (h : w.control = .advancing a) :
      WebhookStep { w with
        storage := w.storage.advanceCursor a.subscription.subscriptionId a.event.rowid
        control := .page a.subscription a.events a.rest }

end Steps

/-! ## Every step is one of them -/

section Cases

variable {dispatcher : WebhookDispatcher} {i : WebhookInput} {w : WebhookWorld}

theorem Calm.refl (i : WebhookInput) (w : WebhookWorld) : Calm i w w where
  control := rfl
  posts := rfl
  failures := rfl
  trail := TrailGrows.refl _
  created := Or.inl ⟨rfl, fun _ h => h⟩
  deliveries := fun _ h => h
  kept := fun _ h _ => h
  valid := id

theorem calm_request (i : WebhookInput) : Calm i w (w.request i) := by
  cases i with
  | appendEvent row =>
    cases h : w.auditEvents.insert? row with
    | none => simpa only [WebhookWorld.request, h] using Calm.refl _ w
    | some t =>
      obtain ⟨hfree, rfl⟩ := Table.insert?_eq_some.mp h
      simp only [WebhookWorld.request, h]
      exact { Calm.refl (.appendEvent row) w with trail := trailGrows_insert hfree }
  | insertCase row =>
    cases h : w.cases.insert? row with
    | none => simpa only [WebhookWorld.request, h] using Calm.refl _ w
    | some t =>
      simp only [WebhookWorld.request, h]
      exact { Calm.refl (.insertCase row) w with }
  | createSubscription record =>
    cases h : w.storage.createSubscription w.cases record with
    | error e => simpa only [WebhookWorld.request, h] using Calm.refl _ w
    | ok storage =>
      obtain ⟨-, hfree, rfl⟩ := WebhookStorage.createSubscription_eq_ok.mp h
      simp only [WebhookWorld.request, h]
      have hmem : ∀ r ∈ w.storage.subscriptions.insert record hfree,
          r ∈ w.storage.subscriptions ∨ r = record := fun _ => Table.mem_insert.mp
      exact { Calm.refl (.createSubscription record) w with
        created := Or.inr ⟨record, rfl, rfl, hmem⟩
        kept := fun _ hd _ => hd
        valid := fun hv => hv.createSubscription h }
  | deleteSubscription subscriptionId =>
    refine { Calm.refl (.deleteSubscription subscriptionId) w with
      created := Or.inl ⟨rfl, fun r hr => (Table.mem_delete.mp hr).1⟩
      deliveries := fun d hd => (Table.mem_delete.mp hd).1
      kept := fun d hd hlive => Table.mem_delete.mpr ⟨hd, ?_⟩
      valid := fun hv => hv.deleteSubscription subscriptionId }
    obtain ⟨r, hr, hkey⟩ := Table.contains_iff.mp hlive
    rw [← hkey]
    exact (Table.mem_delete.mp hr).2
  | close => exact { Calm.refl .close w with }
  | crash | tick | proceed | fault | respond | failPost => exact Calm.refl _ w

theorem fault_cases : WebhookStep dispatcher i w w.fault := by
  unfold WebhookWorld.fault
  cases hc : w.control with
  | idle => exact .same
  | turn rest =>
    cases rest with
    | nil => exact .gaveUp w.closed .idle (.tick _)
    | cons s rest => exact .gaveUp w.closed (.turn rest) (hc ▸ .skipped s rest)
  | page s events rest => exact .gaveUp w.closed (.turn rest) (hc ▸ .turn (.page s events rest))
  | posting a => exact .gaveUp w.closed (.turn a.rest) (hc ▸ .turn (.posting a))
  | awaiting a => exact .gaveUp w.closed (.turn a.rest) (hc ▸ .turn (.awaiting a))
  | advancing a => exact .gaveUp w.closed (.turn a.rest) (hc ▸ .turn (.advancing a))

theorem scheduleFailure_cases {a : WebhookAttempt} (h : w.control = .awaiting a)
    (failure : WebhookDeliveryFailure) {failedAt : IsoTimestamp}
    (hfailed : i.failedAt = some failedAt) :
    WebhookStep dispatcher i w (w.scheduleFailure dispatcher a failure failedAt) := by
  unfold WebhookWorld.scheduleFailure
  by_cases hlast : dispatcher.maxAttempts ≤ a.delivery.attempts + 1
  · rw [if_pos hlast]
    exact .exhausted a failure h hlast
  · rw [if_neg hlast]
    cases ht : dispatcher.nextAttemptAt failedAt (a.delivery.attempts + 1) with
    | none => exact .lost a failedAt h hfailed (not_le.mp hlast) ht
    | some t => exact .scheduled a failure failedAt t h hfailed (not_le.mp hlast) ht

theorem respond_cases {a : WebhookAttempt} (h : w.control = .awaiting a) (status : Nat)
    (now : IsoTimestamp) :
    WebhookStep dispatcher (.respond status now) w (w.respond dispatcher a status now) := by
  unfold WebhookWorld.respond
  by_cases hok : 200 ≤ status ∧ status < 300
  · rw [if_pos hok]
    exact .delivered a status h
  · rw [if_neg hok]
    exact scheduleFailure_cases h _ (if_neg hok)

theorem visit_cases {s : WebhookSubscriptionRecord} {e : AuditFeedEntry}
    {events : List AuditFeedEntry} {rest : List WebhookSubscriptionRecord}
    (h : w.control = .page s (e :: events) rest) (now : IsoTimestamp) (deliveryId : String) :
    WebhookStep dispatcher i w (w.visit s e events rest now deliveryId) := by
  have hleft : WebhookStep dispatcher i w { w with control := .turn rest } :=
    .gaveUp w.closed (.turn rest) (h ▸ .turn (.page s (e :: events) rest))
  unfold WebhookWorld.visit
  cases hd : w.storage.findDelivery s.subscriptionId e.rowid with
  | some d =>
    by_cases hsettled : d.Settled
    · simp only [if_pos hsettled]
      exact .passedBy s e events rest d h hd hsettled
    · simp only [if_neg hsettled]
      by_cases hdue : ∃ t ∈ d.nextAttemptAt, now.instant < t.instant
      · simp only [if_pos hdue]
        exact hleft
      · simp only [if_neg hdue]
        refine .resumed ⟨s, e, events, rest, d, now⟩ h hd hsettled fun t ht => ?_
        exact not_lt.mp fun hlt => hdue ⟨t, ht, hlt⟩
  | none =>
    dsimp only
    cases hcreate : w.storage.createDelivery
      (WebhookStorage.newDelivery deliveryId s.subscriptionId e now) with
    | error error => exact hleft
    | ok storage => exact .created ⟨s, e, events, rest, _, now⟩ storage deliveryId h rfl hcreate

theorem proceed_cases (now : IsoTimestamp) (deliveryId : String) :
    WebhookStep dispatcher i w (w.proceed dispatcher now deliveryId) := by
  unfold WebhookWorld.proceed
  cases hc : w.control with
  | idle | awaiting => exact .same
  | turn rest =>
    cases rest with
    | nil => exact .gaveUp w.closed .idle (.tick _)
    | cons s rest =>
      dsimp only
      split
      · exact .gaveUp w.closed .idle (.tick _)
      · unfold WebhookWorld.readPage
        cases hpage : readAuditEvents w.auditEvents (some s.cursorRowid) (feedFilterOf s)
          (some dispatcher.pageSize) with
        | ok page => exact .read s rest page hc hpage
        | error error => exact .gaveUp w.closed (.turn rest) (hc ▸ .skipped s rest)
  | page s events rest =>
    cases events with
    | nil => exact .gaveUp w.closed (.turn rest) (hc ▸ .turn (.page s [] rest))
    | cons e events =>
      dsimp only
      split
      · exact .gaveUp w.closed (.turn rest) (hc ▸ .turn (.page s (e :: events) rest))
      · exact visit_cases hc now deliveryId
  | posting a => exact .posted a hc
  | advancing a => exact .advanced a hc

/-- **Every step is one of the steps listed.** -/
theorem step_cases (i : WebhookInput) : WebhookStep dispatcher i w (w.step dispatcher i) := by
  have hrequest : WebhookStep dispatcher i w (if w.control.yields = true then w.request i else w) := by
    split
    · next hyields => exact .request _ (calm_request i) hyields
    · exact .same
  cases i with
  | crash => exact .gaveUp false .idle (.tick _)
  | tick =>
    unfold WebhookWorld.step
    cases hc : w.control with
    | idle =>
      dsimp only
      split
      · exact .same
      · exact .listed hc
    | turn | page | posting | awaiting | advancing => exact .same
  | proceed now deliveryId => exact proceed_cases now deliveryId
  | fault => exact fault_cases
  | respond status now =>
    unfold WebhookWorld.step
    cases hc : w.control with
    | awaiting a => exact respond_cases hc status now
    | idle | turn | page | posting | advancing => exact .same
  | failPost error now =>
    unfold WebhookWorld.step
    cases hc : w.control with
    | awaiting a => exact scheduleFailure_cases hc _ rfl
    | idle | turn | page | posting | advancing => exact .same
  | appendEvent | insertCase | createSubscription | deleteSubscription | close => exact hrequest

end Cases

end DumpLedger
