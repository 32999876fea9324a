import DumpLedger.Lib.Run
import DumpLedger.Webhooks.Payload
import DumpLedger.Webhooks.Storage

/-!
# The webhook dispatcher

A tick goes over the subscriptions; for each it reads a page of the audit feed and POSTs the
events one after another. Only the storage survives a crash.

`step` advances the dispatcher by one storage write at most, so that a crash can fall between
any two of them. `Control` is where the dispatcher stands. It yields to other requests at an
`await` and nowhere else: not between the write that creates a delivery and its POST, and not
between the update of a delivery and the advance of the cursor.
-/

namespace DumpLedger

open Lib

/-! ## Configuration -/

/-- The options of the constructor; a number that is not finite passes none of its checks. -/
structure WebhookDispatcherOptions where
  tickMs : Option ℚ
  timeoutMs : Option ℚ
  retryBaseMs : Option ℚ
  maxAttempts : Option ℚ
  pageSize : Option ℚ
  /-- `createHmac("sha256", secret)` of a body, as hexadecimal text. -/
  hmacSha256 : String → String → String

/-- What the constructor accepts. -/
structure WebhookDispatcher where
  tickMs : ℕ+
  timeoutMs : ℚ
  retryBaseMs : ℚ
  maxAttempts : ℕ+
  pageSize : ℕ+
  hmacSha256 : String → String → String
  timeoutMs_pos : 1 ≤ timeoutMs
  retryBaseMs_nonneg : 0 ≤ retryBaseMs

/-- `Number.isInteger(value) && value >= 1`. -/
def positiveInteger (value : ℚ) (name : String) : Except Thrown ℕ+ :=
  if h : value.den = 1 ∧ 1 ≤ value.num then
    .ok ⟨value.num.toNat, by omega⟩
  else .error (.rangeError s!"{name} must be positive")

namespace WebhookDispatcher

/-- The constructor. -/
def of (options : WebhookDispatcherOptions) : Except Thrown WebhookDispatcher := do
  let tickMs ← positiveInteger (options.tickMs.getD 2000) "tickMs"
  let timeoutMs := options.timeoutMs.getD 10000
  let retryBaseMs := options.retryBaseMs.getD 10000
  if timeoutMs_pos : 1 ≤ timeoutMs then
    if retryBaseMs_nonneg : 0 ≤ retryBaseMs then
      let maxAttempts ← positiveInteger (options.maxAttempts.getD 5) "maxAttempts"
      let pageSize ← positiveInteger (options.pageSize.getD 500) "pageSize"
      return { tickMs, timeoutMs, retryBaseMs, maxAttempts, pageSize,
               hmacSha256 := options.hmacSha256, timeoutMs_pos, retryBaseMs_nonneg }
    else throw (.rangeError "retryBaseMs must not be negative")
  else throw (.rangeError "timeoutMs must be positive")

end WebhookDispatcher

def feedFilterOf (subscription : WebhookSubscriptionRecord) : AuditFeedFilter where
  actions := subscription.actions
  caseId := subscription.caseId

/-! ## The schedule of the retries -/

/-- `5 ** n`; from 442 on it is `Infinity`. -/
def powerOfFive (n : Nat) : Option Nat := if n < 442 then some (5 ^ n) else none

/-- The integer part of a number of milliseconds, towards zero. -/
def wholeMs (x : ℚ) : Int := x.num.tdiv x.den

/-- `TimeClip`: the time value of a number of milliseconds, if a `Date` can hold it. -/
def timeClip (x : ℚ) : Option Int :=
  if -8640000000000000 ≤ x ∧ x ≤ 8640000000000000 then some (wholeMs x) else none

namespace WebhookDispatcher

/-- `failedAt + retryBaseMs * 5 ** (attempts - 1)`, with numbers taken as exact. -/
def retryTime (dispatcher : WebhookDispatcher) (failedAt : IsoTimestamp) (attempts : Nat) : ℚ :=
  failedAt.instant + dispatcher.retryBaseMs * 5 ^ (attempts - 1)

/-- `new Date(...).toISOString()` of the retry time; nothing where it throws. -/
def nextAttemptAt (dispatcher : WebhookDispatcher) (failedAt : IsoTimestamp) (attempts : Nat) :
    Option IsoTimestamp :=
  match powerOfFive (attempts - 1) with
  | none => none
  | some power =>
    match timeClip (failedAt.instant + dispatcher.retryBaseMs * power) with
    | none => none
    | some ms => toISOString ms

end WebhookDispatcher

/-! ## The state -/

/-- An event of a page and its delivery, with what is left of the page and of the tick. -/
structure WebhookAttempt where
  subscription : WebhookSubscriptionRecord
  event : AuditFeedEntry
  events : List AuditFeedEntry
  rest : List WebhookSubscriptionRecord
  delivery : WebhookDeliveryRecord
  attemptedAt : IsoTimestamp

inductive Control
  /-- No tick is running. -/
  | idle
  /-- Between two subscriptions of a tick. -/
  | turn (rest : List WebhookSubscriptionRecord)
  /-- Before the next event of a page. -/
  | page (subscription : WebhookSubscriptionRecord) (events : List AuditFeedEntry)
      (rest : List WebhookSubscriptionRecord)
  /-- The delivery is there, the POST is not out. -/
  | posting (a : WebhookAttempt)
  /-- The POST is out. -/
  | awaiting (a : WebhookAttempt)
  /-- The delivery is settled, the cursor does not know. -/
  | advancing (a : WebhookAttempt)

/-- The dispatcher gives way to other requests here. -/
def Control.yields : Control → Bool
  | idle | turn _ | page _ _ _ | awaiting _ => true
  | posting _ | advancing _ => false

/-- What the endpoint is sent. -/
structure WebhookRequest where
  url : String
  event : String
  delivery : String
  deliveredAt : String
  signature : String
  body : String

structure WebhookPost where
  subscriptionId : String
  eventRowid : Nat
  request : WebhookRequest

structure WebhookWorld where
  auditEvents : Table AuditEventRow
  cases : Table CaseRow
  storage : WebhookStorage
  closed : Bool
  control : Control
  /-- Every subscription ever made, as it was made. -/
  created : List WebhookSubscriptionRecord
  /-- Every POST that went out. -/
  posts : List WebhookPost
  /-- The subscription and the event of every attempt that failed. -/
  failures : List (String × Nat)

namespace WebhookWorld

/-- A process that has just started, over a trail that may be old. -/
def start (auditEvents : Table AuditEventRow) (cases : Table CaseRow) : WebhookWorld where
  auditEvents := auditEvents
  cases := cases
  storage := .fresh
  closed := false
  control := .idle
  created := []
  posts := []
  failures := []

end WebhookWorld

/-! ## One step -/

inductive WebhookInput
  /-- A transaction wrote an event. -/
  | appendEvent (row : AuditEventRow)
  | insertCase (row : CaseRow)
  | createSubscription (record : WebhookSubscriptionRecord)
  | deleteSubscription (subscriptionId : String)
  | close
  /-- The process died and was started again. -/
  | crash
  | tick
  /-- The dispatcher goes on to its next write or `await`. -/
  | proceed (now : IsoTimestamp) (deliveryId : String)
  /-- The dispatcher's next read or write throws. -/
  | fault
  /-- The endpoint answered. -/
  | respond (status : Nat) (now : IsoTimestamp)
  /-- `fetch` threw; the text is the error's own, or names the timeout. -/
  | failPost (error : String) (now : IsoTimestamp)

namespace WebhookWorld

section Step

variable (dispatcher : WebhookDispatcher) (w : WebhookWorld)

def requestOf (a : WebhookAttempt) : WebhookRequest :=
  let body := (Json.obj (eventPayloadOf a.event)).stringify
  { url := a.subscription.url
    event := a.event.action.text
    delivery := a.delivery.deliveryId
    deliveredAt := a.attemptedAt.text
    signature := "sha256=" ++ dispatcher.hmacSha256 a.subscription.secret body
    body := body }

/-- `#deliverPage` up to the loop. -/
def readPage (subscription : WebhookSubscriptionRecord) (rest : List WebhookSubscriptionRecord) :
    WebhookWorld :=
  match readAuditEvents w.auditEvents (some subscription.cursorRowid) (feedFilterOf subscription)
      (some dispatcher.pageSize) with
  | .ok page => { w with control := .page subscription page.events rest }
  | .error _ => { w with control := .turn rest }

/-- The body of the loop, up to the POST. -/
def visit (subscription : WebhookSubscriptionRecord) (event : AuditFeedEntry)
    (events : List AuditFeedEntry) (rest : List WebhookSubscriptionRecord) (now : IsoTimestamp)
    (deliveryId : String) : WebhookWorld :=
  match w.storage.findDelivery subscription.subscriptionId event.rowid with
  | some d =>
    if d.Settled then
      { w with
        storage := w.storage.advanceCursor subscription.subscriptionId event.rowid
        control := .page subscription events rest }
    else if ∃ t ∈ d.nextAttemptAt, now.instant < t.instant then { w with control := .turn rest }
    else { w with control := .posting ⟨subscription, event, events, rest, d, now⟩ }
  | none =>
    let row := WebhookStorage.newDelivery deliveryId subscription.subscriptionId event now
    match w.storage.createDelivery row with
    | .ok storage =>
      { w with storage, control := .posting ⟨subscription, event, events, rest, row, now⟩ }
    | .error _ => { w with control := .turn rest }

/-- `#scheduleFailure`. Past the times a `Date` can hold it throws, and nothing is written. -/
def scheduleFailure (a : WebhookAttempt) (failure : WebhookDeliveryFailure)
    (failedAt : IsoTimestamp) : WebhookWorld :=
  let attempts := a.delivery.attempts + 1
  let w := { w with failures := w.failures ++ [(a.subscription.subscriptionId, a.event.rowid)] }
  if dispatcher.maxAttempts ≤ attempts then
    { w with
      storage := w.storage.markExhausted a.delivery.deliveryId attempts failure
      control := .advancing a }
  else
    match dispatcher.nextAttemptAt failedAt attempts with
    | some nextAttemptAt =>
      { w with
        storage :=
          w.storage.markRetryScheduled a.delivery.deliveryId attempts failure nextAttemptAt
        control := .turn a.rest }
    | none => { w with control := .turn a.rest }

/-- The answer to a POST. -/
def respond (a : WebhookAttempt) (status : Nat) (now : IsoTimestamp) : WebhookWorld :=
  if 200 ≤ status ∧ status < 300 then
    { w with
      storage := w.storage.markDelivered a.delivery.deliveryId status a.attemptedAt
      control := .advancing a }
  else w.scheduleFailure dispatcher a ⟨some status, s!"HTTP {status}"⟩ now

def proceed (now : IsoTimestamp) (deliveryId : String) : WebhookWorld :=
  match w.control with
  | .idle | .awaiting _ => w
  | .turn [] => { w with control := .idle }
  | .turn (subscription :: rest) =>
    if w.closed = true then { w with control := .idle } else w.readPage dispatcher subscription rest
  | .page _ [] rest => { w with control := .turn rest }
  | .page subscription (event :: events) rest =>
    if w.closed = true then { w with control := .turn rest }
    else w.visit subscription event events rest now deliveryId
  | .posting a =>
    { w with
      control := .awaiting a
      posts := w.posts ++
        [⟨a.subscription.subscriptionId, a.event.rowid, requestOf dispatcher a⟩] }
  | .advancing a =>
    { w with
      storage := w.storage.advanceCursor a.subscription.subscriptionId a.event.rowid
      control := .page a.subscription a.events a.rest }

/-- An exception of one subscription's page ends its turn; one of the list ends the tick. -/
def fault : WebhookWorld :=
  match w.control with
  | .idle => w
  | .turn [] => { w with control := .idle }
  | .turn (_ :: rest) | .page _ _ rest => { w with control := .turn rest }
  | .posting a | .awaiting a | .advancing a => { w with control := .turn a.rest }

/-- What other requests do to the storage and the trail while the dispatcher waits. -/
def request : WebhookInput → WebhookWorld
  | .appendEvent row =>
    match w.auditEvents.insert? row with
    | some auditEvents => { w with auditEvents }
    | none => w
  | .insertCase row =>
    match w.cases.insert? row with
    | some cases => { w with cases }
    | none => w
  | .createSubscription record =>
    match w.storage.createSubscription w.cases record with
    | .ok storage => { w with storage, created := w.created ++ [record] }
    | .error _ => w
  | .deleteSubscription subscriptionId =>
    { w with storage := w.storage.deleteSubscription subscriptionId }
  | .close => { w with closed := true }
  | _ => w

def step : WebhookInput → WebhookWorld
  | .crash => { w with closed := false, control := .idle }
  | .tick =>
    match w.control with
    | .idle => if w.closed = true then w else { w with control := .turn w.storage.listSubscriptions }
    | _ => w
  | .proceed now deliveryId => w.proceed dispatcher now deliveryId
  | .fault => w.fault
  | .respond status now =>
    match w.control with
    | .awaiting a => w.respond dispatcher a status now
    | _ => w
  | .failPost error now =>
    match w.control with
    | .awaiting a => w.scheduleFailure dispatcher a ⟨none, error⟩ now
    | _ => w
  | i => if w.control.yields = true then w.request i else w

end Step

end WebhookWorld

end DumpLedger
