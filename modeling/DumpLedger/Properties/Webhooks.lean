import DumpLedger.Webhooks.Steps

/-!
# Ordered delivery

The dispatcher hands every subscription its events in the order of the trail, each until it is
settled and never again, whatever falls between two writes.

The invariant says where the cursor of a subscription stands: every matching event between the
place it started from and the cursor is settled, and what is left of the page in hand is the
front of what the feed owes from the cursor on (`OnPage`).

* `Dispatched` — the invariant; `dispatched_step`, `dispatched_run`
* `webhook_delivery` — order, settlement and the end of a subscription, along every run
-/

namespace DumpLedger

open Lib

/-! ## The assumption on identifiers -/

/-- A new subscription gets an identifier no subscription ever had: 16 random bytes. -/
def DrawsNewId (w : WebhookWorld) (i : WebhookInput) : Prop :=
  ∀ record, i = .createSubscription record →
    ∀ s ∈ w.created, s.subscriptionId ≠ record.subscriptionId

/-- The input is the creation of a subscription. -/
def WebhookInput.creates : WebhookInput → Bool
  | .createSubscription _ => true
  | _ => false

theorem drawsNewId_of_not_creates {w : WebhookWorld} {i : WebhookInput} (h : i.creates = false) :
    DrawsNewId w i := by
  intro record hi
  rw [hi] at h
  cases h

/-! ## The invariant -/

section Invariant

variable (w : WebhookWorld)

/-- What a subscription that was made as `r₀` and is now `r` has behind it. -/
structure PassedOver (r₀ r : WebhookSubscriptionRecord) : Prop where
  id : r₀.subscriptionId = r.subscriptionId
  filter : feedFilterOf r₀ = feedFilterOf r
  le : r₀.cursorRowid ≤ r.cursorRowid
  within : r.cursorRowid = r₀.cursorRowid ∨ r.cursorRowid ≤ w.auditEvents.rows.length
  settled : ∀ e ∈ matchingTrail w.auditEvents (feedFilterOf r₀), r₀.cursorRowid < e.rowid →
    e.rowid ≤ r.cursorRowid → w.storage.SettledAt r.subscriptionId e.rowid

/-- Subscriptions whose turn is still to come are as the tick read them. -/
structure Waiting (rest : List WebhookSubscriptionRecord) : Prop where
  nodup : (rest.map WebhookSubscriptionRecord.subscriptionId).Nodup
  created : ∀ s ∈ rest, ∃ s₀ ∈ w.created, s₀.subscriptionId = s.subscriptionId
  current : ∀ s ∈ rest, ∀ r ∈ w.storage.subscriptions,
    r.subscriptionId = s.subscriptionId → r = s

/-- The events in hand are the next ones the subscription is owed. -/
structure OnPage (s : WebhookSubscriptionRecord) (events : List AuditFeedEntry)
    (rest : List WebhookSubscriptionRecord) : Prop where
  created : ∃ s₀ ∈ w.created, s₀.subscriptionId = s.subscriptionId
  apart : ∀ s' ∈ rest, s'.subscriptionId ≠ s.subscriptionId
  waiting : Waiting w rest
  owed : ∀ r ∈ w.storage.subscriptions, r.subscriptionId = s.subscriptionId →
    feedFilterOf r = feedFilterOf s ∧
      events <+: owedEvents w.auditEvents (feedFilterOf s) (some r.cursorRowid)

/-- The delivery in hand is the one that is stored, as long as its subscription is there. -/
structure InFlight (a : WebhookAttempt) : Prop where
  subscription : a.delivery.subscriptionId = a.subscription.subscriptionId
  event : a.delivery.eventRowid = a.event.rowid
  pending : ¬ a.delivery.Settled
  only : ∀ d ∈ w.storage.deliveries, d.deliveryId = a.delivery.deliveryId → d = a.delivery
  stored : w.storage.Live a.subscription.subscriptionId → a.delivery ∈ w.storage.deliveries

/-- What holds of the dispatcher's own memory at each place. -/
def ControlOk : Control → Prop
  | .idle => True
  | .turn rest => Waiting w rest
  | .page s events rest => OnPage w s events rest
  | .posting a =>
    OnPage w a.subscription (a.event :: a.events) a.rest ∧ InFlight w a ∧
      a.delivery ∈ w.storage.deliveries
  | .awaiting a => OnPage w a.subscription (a.event :: a.events) a.rest ∧ InFlight w a
  | .advancing a =>
    OnPage w a.subscription (a.event :: a.events) a.rest ∧
      (w.storage.Live a.subscription.subscriptionId →
        w.storage.SettledAt a.subscription.subscriptionId a.event.rowid)

structure Dispatched : Prop where
  valid : w.storage.Valid
  once : (w.created.map WebhookSubscriptionRecord.subscriptionId).Nodup
  passed : ∀ r ∈ w.storage.subscriptions, ∃ r₀ ∈ w.created, PassedOver w r₀ r
  control : ControlOk w w.control

end Invariant

/-! ## What keeps its parts -/

section Parts

variable {w w' : WebhookWorld} {s : WebhookSubscriptionRecord} {events : List AuditFeedEntry}
  {rest : List WebhookSubscriptionRecord} {a : WebhookAttempt}

theorem Waiting.congr (h : Waiting w rest) (hcreated : ∀ s ∈ w.created, s ∈ w'.created)
    (hold : ∀ s ∈ rest, ∀ r ∈ w'.storage.subscriptions, r.subscriptionId = s.subscriptionId →
      r ∈ w.storage.subscriptions) : Waiting w' rest := by
  refine ⟨h.nodup, fun s hs => ?_, fun s hs r hr hid => h.current s hs r (hold s hs r hr hid) hid⟩
  obtain ⟨s₀, hs₀, hid⟩ := h.created s hs
  exact ⟨s₀, hcreated s₀ hs₀, hid⟩

theorem Waiting.tail (h : Waiting w (s :: rest)) : Waiting w rest :=
  ⟨(List.nodup_cons.mp h.nodup).2, fun s' hs' => h.created s' (List.mem_cons_of_mem _ hs'),
    fun s' hs' => h.current s' (List.mem_cons_of_mem _ hs')⟩

/-- Every place of the loop leaves the rest of the tick waiting. -/
theorem ControlOk.waiting {c : Control} (h : ControlOk w c) : Waiting w c.rest := by
  cases c with
  | idle => exact ⟨List.nodup_nil, fun _ hs => absurd hs List.not_mem_nil,
      fun _ hs => absurd hs List.not_mem_nil⟩
  | turn rest => exact h
  | page s events rest => exact OnPage.waiting h
  | posting a | awaiting a | advancing a => exact h.1.waiting

theorem OnPage.congr (h : OnPage w s events rest) (hcreated : ∀ s ∈ w.created, s ∈ w'.created)
    (htrail : TrailGrows w.auditEvents w'.auditEvents)
    (hold : ∀ s' ∈ s :: rest, ∀ r ∈ w'.storage.subscriptions,
      r.subscriptionId = s'.subscriptionId → r ∈ w.storage.subscriptions) :
    OnPage w' s events rest := by
  obtain ⟨s₀, hs₀, hid⟩ := h.created
  refine ⟨⟨s₀, hcreated s₀ hs₀, hid⟩, h.apart,
    h.waiting.congr hcreated fun s' hs' => hold s' (List.mem_cons_of_mem _ hs'),
    fun r hr hrid => ?_⟩
  obtain ⟨hfilter, howed⟩ := h.owed r (hold s List.mem_cons_self r hr hrid) hrid
  exact ⟨hfilter, howed.trans (htrail.owed _ _)⟩

theorem OnPage.same (h : OnPage w s events rest) (hcreated : w'.created = w.created)
    (htrail : w'.auditEvents = w.auditEvents)
    (hsubs : w'.storage.subscriptions = w.storage.subscriptions) : OnPage w' s events rest := by
  refine h.congr (fun _ hs => hcreated ▸ hs) (htrail ▸ TrailGrows.refl _) fun _ _ r hr _ => ?_
  rw [← hsubs]
  exact hr

/-- What was behind a subscription stays behind it while the trail grows. -/
theorem PassedOver.congr {r₀ r : WebhookSubscriptionRecord} (h : PassedOver w r₀ r)
    (htrail : TrailGrows w.auditEvents w'.auditEvents)
    (hsettled : ∀ n, w.storage.SettledAt r.subscriptionId n →
      w'.storage.SettledAt r.subscriptionId n) : PassedOver w' r₀ r := by
  refine ⟨h.id, h.filter, h.le, ?_, fun e he hlt hle => ?_⟩
  · rcases h.within with hsame | hlen
    · exact Or.inl hsame
    · exact Or.inr (hlen.trans htrail.length_le)
  · rcases h.within with hsame | hlen
    · omega
    · exact hsettled _ (h.settled e (htrail.mem_of_le he (hle.trans hlen)) hlt hle)

theorem PassedOver.new (r : WebhookSubscriptionRecord) : PassedOver w r r :=
  ⟨rfl, rfl, le_rfl, Or.inl rfl, fun _ _ hlt hle => absurd hle (not_le.mpr hlt)⟩

/-- The place of the dispatcher is about the trail, the storage and what was created. -/
theorem ControlOk.same {c : Control} (h : ControlOk w c) (hcreated : w'.created = w.created)
    (htrail : w'.auditEvents = w.auditEvents) (hstorage : w'.storage = w.storage) :
    ControlOk w' c := by
  have hsubs : w'.storage.subscriptions = w.storage.subscriptions := by rw [hstorage]
  have hflight {a : WebhookAttempt} (ha : InFlight w a) : InFlight w' a :=
    ⟨ha.subscription, ha.event, ha.pending, hstorage ▸ ha.only, hstorage ▸ ha.stored⟩
  cases c with
  | idle => trivial
  | turn rest =>
    exact Waiting.congr h (fun _ hs => hcreated ▸ hs) fun _ _ _ hr _ => hsubs ▸ hr
  | page s events rest => exact OnPage.same h hcreated htrail hsubs
  | posting a =>
    exact ⟨h.1.same hcreated htrail hsubs, hflight h.2.1, hstorage ▸ h.2.2⟩
  | awaiting a => exact ⟨h.1.same hcreated htrail hsubs, hflight h.2⟩
  | advancing a => exact ⟨h.1.same hcreated htrail hsubs, hstorage ▸ h.2⟩

theorem Dispatched.same (h : Dispatched w) (hcreated : w'.created = w.created)
    (htrail : w'.auditEvents = w.auditEvents) (hstorage : w'.storage = w.storage)
    (hcontrol : ControlOk w w'.control) : Dispatched w' := by
  refine ⟨hstorage ▸ h.valid, hcreated ▸ h.once, fun r hr => ?_,
    hcontrol.same hcreated htrail hstorage⟩
  rw [hstorage] at hr
  obtain ⟨r₀, hr₀, hp⟩ := h.passed r hr
  refine ⟨r₀, hcreated ▸ hr₀, hp.congr (htrail ▸ TrailGrows.refl _) fun n hn => ?_⟩
  rw [hstorage]
  exact hn

end Parts

/-! ## Other requests -/

section Requests

variable {w w' : WebhookWorld} {i : WebhookInput}

theorem Calm.old (h : Calm i w w') (hi : DrawsNewId w i) {r s₀ : WebhookSubscriptionRecord}
    (hr : r ∈ w'.storage.subscriptions) (hs₀ : s₀ ∈ w.created)
    (hid : s₀.subscriptionId = r.subscriptionId) : r ∈ w.storage.subscriptions := by
  rcases h.created with ⟨-, hsub⟩ | ⟨record, rfl, -, hsub⟩
  · exact hsub r hr
  · rcases hsub r hr with hr | rfl
    · exact hr
    · exact absurd hid (hi r rfl s₀ hs₀)

theorem Calm.created_subset (h : Calm i w w') : ∀ s ∈ w.created, s ∈ w'.created := by
  intro s hs
  rcases h.created with ⟨he, -⟩ | ⟨record, -, he, -⟩
  · rw [he]
    exact hs
  · rw [he]
    exact List.mem_append_left _ hs

theorem Calm.settledAt (h : Calm i w w') {id : String} (hlive : w'.storage.Live id) {n : Nat}
    (hs : w.storage.SettledAt id n) : w'.storage.SettledAt id n := by
  obtain ⟨d, hd, rfl, hrow, hsettled⟩ := hs
  exact ⟨d, h.kept d hd hlive, rfl, hrow, hsettled⟩

theorem InFlight.calm {a : WebhookAttempt} (h : InFlight w a) (hc : Calm i w w')
    (hlive : w'.storage.Live a.subscription.subscriptionId →
      w.storage.Live a.subscription.subscriptionId) : InFlight w' a := by
  refine ⟨h.subscription, h.event, h.pending, fun d hd => h.only d (hc.deliveries d hd),
    fun hl => hc.kept _ (h.stored (hlive hl)) ?_⟩
  rw [h.subscription]
  exact hl

/-- The dispatcher's place is not disturbed; between a write and its POST no request comes. -/
theorem ControlOk.calm {c : Control} (h : ControlOk w c) (hc : Calm i w w') (hi : DrawsNewId w i)
    (hyields : w' = w ∨ c.yields = true) : ControlOk w' c := by
  have hwaiting {rest : List WebhookSubscriptionRecord} (hw : Waiting w rest) :
      Waiting w' rest := by
    refine hw.congr hc.created_subset fun s hs r hr hid => ?_
    obtain ⟨s₀, hs₀, hs₀id⟩ := hw.created s hs
    exact hc.old hi hr hs₀ (hs₀id.trans hid.symm)
  have hpage {s : WebhookSubscriptionRecord} {events : List AuditFeedEntry}
      {rest : List WebhookSubscriptionRecord} (hp : OnPage w s events rest) :
      OnPage w' s events rest := by
    refine hp.congr hc.created_subset hc.trail fun s' hs' r hr hid => ?_
    rcases List.mem_cons.mp hs' with rfl | hs'
    · obtain ⟨s₀, hs₀, hs₀id⟩ := hp.created
      exact hc.old hi hr hs₀ (hs₀id.trans hid.symm)
    · obtain ⟨s₀, hs₀, hs₀id⟩ := hp.waiting.created s' hs'
      exact hc.old hi hr hs₀ (hs₀id.trans hid.symm)
  cases c with
  | idle => trivial
  | turn rest => exact hwaiting h
  | page s events rest => exact hpage h
  | awaiting a =>
    refine ⟨hpage h.1, h.2.calm hc fun hl => ?_⟩
    obtain ⟨r, hr, hid⟩ := Table.contains_iff.mp hl
    obtain ⟨s₀, hs₀, hs₀id⟩ := h.1.created
    exact Table.contains_iff.mpr ⟨r, hc.old hi hr hs₀ (hs₀id.trans hid.symm), hid⟩
  | posting a | advancing a =>
    rcases hyields with rfl | hyields
    · exact h
    · cases hyields

theorem dispatched_calm (h : Dispatched w) (hc : Calm i w w') (hi : DrawsNewId w i)
    (hyields : w' = w ∨ w.control.yields = true) : Dispatched w' := by
  refine ⟨hc.valid h.valid, ?_, fun r hr => ?_, ?_⟩
  · rcases hc.created with ⟨he, -⟩ | ⟨record, rfl, he, -⟩
    · rw [he]
      exact h.once
    · rw [he, List.map_append, List.map_singleton]
      refine List.nodup_append.mpr ⟨h.once, List.nodup_singleton _, fun id hid id' hid' heq => ?_⟩
      obtain ⟨s, hs, rfl⟩ := List.mem_map.mp hid
      exact hi record rfl s hs (heq.trans (List.mem_singleton.mp hid'))
  · by_cases hold : r ∈ w.storage.subscriptions
    · obtain ⟨r₀, hr₀, hp⟩ := h.passed r hold
      refine ⟨r₀, hc.created_subset r₀ hr₀, hp.congr hc.trail fun n => hc.settledAt ?_⟩
      exact Table.contains_iff.mpr ⟨r, hr, rfl⟩
    · rcases hc.created with ⟨-, hsub⟩ | ⟨record, rfl, he, hsub⟩
      · exact absurd (hsub r hr) hold
      · rcases hsub r hr with hr | rfl
        · exact absurd hr hold
        · exact ⟨r, by rw [he]; simp, PassedOver.new r⟩
  · rw [hc.control]
    exact h.control.calm hc hi hyields

end Requests

/-! ## The dispatcher's own steps -/

section Own

variable {dispatcher : WebhookDispatcher} {w : WebhookWorld} {i : WebhookInput}
  {s : WebhookSubscriptionRecord} {e : AuditFeedEntry} {events : List AuditFeedEntry}
  {rest : List WebhookSubscriptionRecord} {a : WebhookAttempt}

theorem waiting_listed (h : Dispatched w) : Waiting w w.storage.listSubscriptions := by
  refine ⟨WebhookStorage.listSubscriptions_nodup, fun s hs => ?_, fun s hs r hr hid => ?_⟩
  · obtain ⟨r₀, hr₀, hp⟩ := h.passed s (WebhookStorage.mem_listSubscriptions.mp hs)
    exact ⟨r₀, hr₀, hp.id⟩
  · exact Table.eq_of_key hr (WebhookStorage.mem_listSubscriptions.mp hs) hid

/-- A page is the front of what the subscription is owed. -/
theorem onPage_read {page : AuditFeedPage} (h : Waiting w (s :: rest))
    (hpage : readAuditEvents w.auditEvents (some s.cursorRowid) (feedFilterOf s)
      (some dispatcher.pageSize) = .ok page) : OnPage w s page.events rest := by
  refine ⟨h.created s List.mem_cons_self, fun s' hs' heq => ?_, h.tail, fun r hr hid => ?_⟩
  · exact (List.nodup_cons.mp h.nodup).1 (heq ▸ List.mem_map_of_mem hs')
  · obtain rfl := h.current s List.mem_cons_self r hr hid
    refine ⟨rfl, ?_⟩
    rw [(readAuditEvents_eq_ok.mp hpage).1]
    exact keysetPage_initial

/-- A matching event behind the head of the page is settled. -/
theorem settled_before {r₀ r : WebhookSubscriptionRecord} (hp : PassedOver w r₀ r)
    (hfilter : feedFilterOf r = feedFilterOf s)
    (howed : e :: events <+: owedEvents w.auditEvents (feedFilterOf s) (some r.cursorRowid))
    {e' : AuditFeedEntry} (he' : e' ∈ matchingTrail w.auditEvents (feedFilterOf r₀))
    (hlt : r₀.cursorRowid < e'.rowid) (hbefore : e'.rowid < e.rowid) :
    w.storage.SettledAt r.subscriptionId e'.rowid := by
  refine hp.settled e' he' hlt (not_lt.mp fun hcursor => ?_)
  -- an event above the cursor is owed, and the head of the page is the first one owed
  have hfilter₀ : feedFilterOf r₀ = feedFilterOf s := hp.filter.trans hfilter
  have howed' : e' ∈ owedEvents w.auditEvents (feedFilterOf s) (some r.cursorRowid) :=
    mem_owedEvents.mpr ⟨hfilter₀ ▸ he', hcursor⟩
  rw [(owedEvents_cons howed).1, List.mem_cons] at howed'
  rcases howed' with rfl | howed'
  · exact absurd hbefore (lt_irrefl _)
  · exact absurd hbefore (not_lt.mpr (le_of_lt (mem_owedEvents.mp howed').2))

/-- **The cursor moves over a settled event**, and the page goes on behind it. -/
theorem dispatched_advance (h : Dispatched w) (hpage : OnPage w s (e :: events) rest)
    (hsettled : w.storage.Live s.subscriptionId →
      w.storage.SettledAt s.subscriptionId e.rowid) :
    Dispatched { w with
      storage := w.storage.advanceCursor s.subscriptionId e.rowid
      control := .page s events rest } := by
  have hhead {r : WebhookSubscriptionRecord} (hr : r ∈ w.storage.subscriptions)
      (hid : r.subscriptionId = s.subscriptionId) :
      e ∈ matchingTrail w.auditEvents (feedFilterOf s) ∧ r.cursorRowid < e.rowid :=
    mem_owedEvents.mp (by rw [(owedEvents_cons (hpage.owed r hr hid).2).1]; simp)
  refine ⟨h.valid.advanceCursor _ _, h.once, fun r hr => ?_, ?_⟩
  · rcases WebhookStorage.of_mem_advanceCursor hr with ⟨hold, -⟩ | ⟨r, hmem₀, hid, rfl⟩
    · obtain ⟨r₀, hr₀, hp⟩ := h.passed r hold
      exact ⟨r₀, hr₀, hp.congr (TrailGrows.refl _) fun _ hn => hn⟩
    · obtain ⟨r₀, hr₀, hp⟩ := h.passed r hmem₀
      obtain ⟨hfilter, howed⟩ := hpage.owed r hmem₀ hid
      obtain ⟨hmem, hlt⟩ := hhead hmem₀ hid
      have hmax : max r.cursorRowid e.rowid = e.rowid := max_eq_right (le_of_lt hlt)
      refine ⟨r₀, hr₀, hp.id, hp.filter, ?_, Or.inr ?_, fun e' he' hlt' hle => ?_⟩
      · exact hp.le.trans (le_max_left _ _)
      · show max r.cursorRowid e.rowid ≤ _
        rw [hmax]
        exact rowid_le (List.mem_filter.mp hmem).1
      · change e'.rowid ≤ max r.cursorRowid e.rowid at hle
        rw [hmax] at hle
        show w.storage.SettledAt r.subscriptionId e'.rowid
        rcases lt_or_eq_of_le hle with hbefore | heq
        · exact settled_before hp hfilter howed he' hlt' hbefore
        · rw [heq, hid]
          exact hsettled (Table.contains_iff.mpr ⟨r, hmem₀, hid⟩)
  · refine ⟨hpage.created, hpage.apart, ?_, fun r hr hid => ?_⟩
    · refine hpage.waiting.congr (fun _ h => h) fun s' hs' r hr hid => ?_
      rcases WebhookStorage.of_mem_advanceCursor hr with ⟨hold, -⟩ | ⟨r, -, hid₀, rfl⟩
      · exact hold
      · exact absurd (hid.symm.trans hid₀) (hpage.apart s' hs')
    · rcases WebhookStorage.of_mem_advanceCursor hr with ⟨-, hne⟩ | ⟨r, hmem₀, hid₀, rfl⟩
      · exact absurd hid hne
      · obtain ⟨hfilter, howed⟩ := hpage.owed r hmem₀ hid₀
        refine ⟨hfilter, ?_⟩
        show events <+: owedEvents w.auditEvents (feedFilterOf s) (some (max r.cursorRowid e.rowid))
        rw [max_eq_right (le_of_lt (hhead hmem₀ hid₀).2)]
        exact (owedEvents_cons howed).2

/-- The delivery in hand is updated; no settled one is touched. -/
theorem dispatched_mark {f : WebhookDeliveryRecord → WebhookDeliveryRecord}
    {hf : ∀ d, (f d).deliveryId = d.deliveryId} {c : Control} {failures : List (String × Nat)}
    (h : Dispatched w) (hflight : InFlight w a)
    (hsub : ∀ d, (f d).subscriptionId = d.subscriptionId)
    (hrow : ∀ d, (f d).eventRowid = d.eventRowid)
    (hcontrol : ControlOk
      { w with
        storage := w.storage.updateDelivery a.delivery.deliveryId f hf
        control := c
        failures := failures } c) :
    Dispatched { w with
      storage := w.storage.updateDelivery a.delivery.deliveryId f hf
      control := c
      failures := failures } := by
  refine ⟨h.valid.updateDelivery hsub hrow, h.once, fun r hr => ?_, hcontrol⟩
  obtain ⟨r₀, hr₀, hp⟩ := h.passed r hr
  refine ⟨r₀, hr₀, hp.congr (TrailGrows.refl _) fun n hn => hn.updateDelivery ?_⟩
  intro d hd hid
  rw [hflight.only d hd hid]
  exact hflight.pending

/-- A delivery that is settled while its subscription is there settles the event. -/
theorem settledAt_mark {f : WebhookDeliveryRecord → WebhookDeliveryRecord}
    {hf : ∀ d, (f d).deliveryId = d.deliveryId} (hflight : InFlight w a)
    (hsub : ∀ d, (f d).subscriptionId = d.subscriptionId)
    (hrow : ∀ d, (f d).eventRowid = d.eventRowid) (hsettled : ∀ d, (f d).Settled)
    (hlive : w.storage.Live a.subscription.subscriptionId) :
    (w.storage.updateDelivery a.delivery.deliveryId f hf).SettledAt a.subscription.subscriptionId
      a.event.rowid :=
  ⟨f a.delivery, WebhookStorage.mem_updateDelivery_self (hflight.stored hlive) rfl,
    (hsub _).trans hflight.subscription, (hrow _).trans hflight.event, hsettled _⟩

theorem dispatched_created {storage : WebhookStorage} {deliveryId : String} (h : Dispatched w)
    (hpage : OnPage w a.subscription (a.event :: a.events) a.rest)
    (hrow : a.delivery = WebhookStorage.newDelivery deliveryId a.subscription.subscriptionId
      a.event a.attemptedAt)
    (hcreated : w.storage.createDelivery a.delivery = .ok storage) :
    Dispatched { w with storage, control := .posting a } := by
  have hvalid := h.valid.createDelivery hcreated
  obtain ⟨hlive, -, hfree, rfl⟩ := WebhookStorage.createDelivery_eq_ok.mp hcreated
  have hmem : a.delivery ∈ w.storage.deliveries.insert a.delivery hfree :=
    Table.mem_insert_self hfree
  refine ⟨hvalid, h.once, fun r hr => ?_, ?_, ?_, hmem⟩
  · obtain ⟨r₀, hr₀, hp⟩ := h.passed r hr
    refine ⟨r₀, hr₀, hp.congr (TrailGrows.refl _) fun n ⟨d, hd, hsettled⟩ => ?_⟩
    exact ⟨d, (Table.mem_insert (h := hfree)).mpr (Or.inl hd), hsettled⟩
  · exact hpage.congr (fun _ hs => hs) (TrailGrows.refl _) fun _ _ _ hr _ => hr
  · refine ⟨by rw [hrow]; rfl, by rw [hrow]; rfl, ?_, fun d hd hid => ?_, fun _ => hmem⟩
    · rw [hrow]
      exact fun hsettled => hsettled rfl
    · exact Table.eq_of_key hd hmem hid

/-- A pending delivery that was found is the one in flight. -/
theorem inFlight_found
    (hd : w.storage.findDelivery a.subscription.subscriptionId a.event.rowid = some a.delivery)
    (hpending : ¬ a.delivery.Settled) : InFlight w a := by
  obtain ⟨hmem, hsub, hrow⟩ := WebhookStorage.findDelivery_eq_some hd
  exact ⟨hsub, hrow, hpending, fun d hd hid => Table.eq_of_key hd hmem hid, fun _ => hmem⟩

/-- **The step.** -/
theorem dispatched_step (h : Dispatched w) (hi : DrawsNewId w i) :
    Dispatched (w.step dispatcher i) := by
  have hcontrol := h.control
  have hstep : WebhookStep dispatcher i w (w.step dispatcher i) := step_cases i
  generalize w.step dispatcher i = w' at hstep ⊢
  cases hstep with
  | same => exact h
  | request _ hc hyields => exact dispatched_calm h hc hi (Or.inr hyields)
  | gaveUp closed c hgives =>
    refine h.same rfl rfl rfl ?_
    generalize w.control = before at hcontrol hgives
    cases hgives with
    | tick c => trivial
    | turn c => exact hcontrol.waiting
    | skipped s rest => exact Waiting.tail hcontrol
  | listed hc => exact h.same rfl rfl rfl (waiting_listed h)
  | read s rest page hc hpage =>
    rw [hc] at hcontrol
    exact h.same rfl rfl rfl (onPage_read hcontrol hpage)
  | passedBy s e events rest d hc hd hsettled =>
    rw [hc] at hcontrol
    obtain ⟨hmem, hsub, hrow⟩ := WebhookStorage.findDelivery_eq_some hd
    exact dispatched_advance h hcontrol fun _ => ⟨d, hmem, hsub, hrow, hsettled⟩
  | resumed a hc hd hpending hdue =>
    rw [hc] at hcontrol
    refine h.same rfl rfl rfl ⟨hcontrol, inFlight_found hd hpending, ?_⟩
    exact (WebhookStorage.findDelivery_eq_some hd).1
  | created a storage deliveryId hc hrow hcreated =>
    rw [hc] at hcontrol
    exact dispatched_created h hcontrol hrow hcreated
  | posted a hc =>
    rw [hc] at hcontrol
    exact h.same rfl rfl rfl ⟨hcontrol.1, hcontrol.2.1⟩
  | delivered a status hc =>
    rw [hc] at hcontrol
    obtain ⟨hpage, hflight⟩ := hcontrol
    refine dispatched_mark h hflight (fun _ => rfl) (fun _ => rfl) ⟨hpage.same rfl rfl rfl, fun hlive => ?_⟩
    exact settledAt_mark hflight (fun _ => rfl) (fun _ => rfl) (fun _ => nofun) hlive
  | exhausted a failure hc hlast =>
    rw [hc] at hcontrol
    obtain ⟨hpage, hflight⟩ := hcontrol
    refine dispatched_mark h hflight (fun _ => rfl) (fun _ => rfl) ⟨hpage.same rfl rfl rfl, fun hlive => ?_⟩
    exact settledAt_mark hflight (fun _ => rfl) (fun _ => rfl) (fun _ => nofun) hlive
  | scheduled a failure failedAt t hc =>
    rw [hc] at hcontrol
    obtain ⟨hpage, hflight⟩ := hcontrol
    refine dispatched_mark h hflight (fun _ => rfl) (fun _ => rfl) ?_
    exact OnPage.waiting (hpage.same rfl rfl rfl)
  | lost a failedAt hc =>
    rw [hc] at hcontrol
    exact h.same rfl rfl rfl hcontrol.1.waiting
  | advanced a hc =>
    rw [hc] at hcontrol
    exact dispatched_advance h hcontrol.1 hcontrol.2

end Own

/-! ## What a step leaves of the past -/

section Past

variable {dispatcher : WebhookDispatcher} {w : WebhookWorld} {i : WebhookInput}

theorem created_step : ∀ s ∈ w.created, s ∈ (w.step dispatcher i).created := by
  intro s hs
  have hstep : WebhookStep dispatcher i w (w.step dispatcher i) := step_cases i
  generalize w.step dispatcher i = w' at hstep ⊢
  cases hstep with
  | request _ hc => exact hc.created_subset s hs
  | same | gaveUp | listed | read | passedBy | resumed | created | posted | delivered | exhausted
  | scheduled | lost | advanced => exact hs

/-- Where a subscription that is still there comes from; its cursor has not gone back. -/
theorem cursor_step (hi : DrawsNewId w i) {r s : WebhookSubscriptionRecord}
    (hr : r ∈ (w.step dispatcher i).storage.subscriptions) (hs : s ∈ w.created)
    (hid : s.subscriptionId = r.subscriptionId) :
    ∃ r₀ ∈ w.storage.subscriptions, r₀.subscriptionId = r.subscriptionId ∧
      r₀.cursorRowid ≤ r.cursorRowid := by
  have hadvance {id : String} {n : Nat} (hr : r ∈ (w.storage.advanceCursor id n).subscriptions) :
      ∃ r₀ ∈ w.storage.subscriptions, r₀.subscriptionId = r.subscriptionId ∧
        r₀.cursorRowid ≤ r.cursorRowid := by
    rcases WebhookStorage.of_mem_advanceCursor hr with ⟨hr, -⟩ | ⟨r₀, hr₀, -, rfl⟩
    · exact ⟨r, hr, rfl, le_rfl⟩
    · exact ⟨r₀, hr₀, rfl, le_max_left _ _⟩
  have hstep : WebhookStep dispatcher i w (w.step dispatcher i) := step_cases i
  generalize w.step dispatcher i = w' at hstep hr
  cases hstep with
  | request _ hc => exact ⟨r, hc.old hi hr hs hid, rfl, le_rfl⟩
  | passedBy | advanced => exact hadvance hr
  | created a storage deliveryId hc hrow hcreated =>
    obtain ⟨-, -, _, rfl⟩ := WebhookStorage.createDelivery_eq_ok.mp hcreated
    exact ⟨r, hr, rfl, le_rfl⟩
  | same | gaveUp | listed | read | resumed | posted | delivered | exhausted | scheduled | lost =>
    exact ⟨r, hr, rfl, le_rfl⟩

theorem live_step (hi : DrawsNewId w i) {id : String}
    (hcreated : ∃ s ∈ w.created, s.subscriptionId = id)
    (hlive : (w.step dispatcher i).storage.Live id) : w.storage.Live id := by
  obtain ⟨s, hs, rfl⟩ := hcreated
  obtain ⟨r, hr, hid⟩ := Table.contains_iff.mp hlive
  obtain ⟨r₀, hr₀, hid₀, -⟩ := cursor_step hi hr hs hid.symm
  exact Table.contains_iff.mpr ⟨r₀, hr₀, hid₀.trans hid⟩

/-- A settled event stays settled as long as the subscription is there. -/
theorem settled_step (h : Dispatched w) {id : String} {n : Nat}
    (hsettled : w.storage.SettledAt id n) (hlive : (w.step dispatcher i).storage.Live id) :
    (w.step dispatcher i).storage.SettledAt id n := by
  have hcontrol := h.control
  have hstep : WebhookStep dispatcher i w (w.step dispatcher i) := step_cases i
  generalize w.step dispatcher i = w' at hstep hlive ⊢
  have hmark {a : WebhookAttempt} (hflight : InFlight w a) :
      ∀ d ∈ w.storage.deliveries, d.deliveryId = a.delivery.deliveryId → ¬ d.Settled := by
    intro d hd hid
    rw [hflight.only d hd hid]
    exact hflight.pending
  cases hstep with
  | request _ hc => exact hc.settledAt hlive hsettled
  | created a storage deliveryId hc hrow hcreated =>
    obtain ⟨-, -, hfree, rfl⟩ := WebhookStorage.createDelivery_eq_ok.mp hcreated
    obtain ⟨d, hd, hrest⟩ := hsettled
    exact ⟨d, (Table.mem_insert (h := hfree)).mpr (Or.inl hd), hrest⟩
  | delivered a status hc =>
    rw [hc] at hcontrol
    exact hsettled.updateDelivery (hmark hcontrol.2)
  | exhausted a failure hc hlast =>
    rw [hc] at hcontrol
    exact hsettled.updateDelivery (hmark hcontrol.2)
  | scheduled a failure failedAt t hc =>
    rw [hc] at hcontrol
    exact hsettled.updateDelivery (hmark hcontrol.2)
  | same | gaveUp | listed | read | passedBy | resumed | posted | lost | advanced => exact hsettled

end Past

/-! ## POSTs -/

/-- An event the subscription is due: it is there, and everything before the event is settled. -/
structure PostAllowed (w : WebhookWorld) (post : WebhookPost) : Prop where
  live : w.storage.Live post.subscriptionId
  unsettled : ¬ w.storage.SettledAt post.subscriptionId post.eventRowid
  inOrder : ∃ r₀ ∈ w.created, r₀.subscriptionId = post.subscriptionId ∧
    r₀.cursorRowid < post.eventRowid ∧
    (∃ e ∈ matchingTrail w.auditEvents (feedFilterOf r₀), e.rowid = post.eventRowid) ∧
    ∀ e ∈ matchingTrail w.auditEvents (feedFilterOf r₀), r₀.cursorRowid < e.rowid →
      e.rowid < post.eventRowid → w.storage.SettledAt post.subscriptionId e.rowid

section Posts

variable {dispatcher : WebhookDispatcher} {w : WebhookWorld} {i : WebhookInput}

/-- The delivery of a POST is the pending one of its event. -/
theorem postAllowed_posting {a : WebhookAttempt} (h : Dispatched w)
    (hc : w.control = .posting a) :
    PostAllowed w ⟨a.subscription.subscriptionId, a.event.rowid,
      WebhookWorld.requestOf dispatcher a⟩ := by
  have hcontrol := h.control
  rw [hc] at hcontrol
  obtain ⟨hpage, hflight, hstored⟩ := hcontrol
  have hlive : w.storage.Live a.subscription.subscriptionId := by
    rw [← hflight.subscription]
    exact h.valid.linked _ hstored
  refine ⟨hlive, fun ⟨d, hd, hsub, hrow, hsettled⟩ => ?_, ?_⟩
  · have heq : d = a.delivery := h.valid.unique d hd a.delivery hstored
      (hsub.trans hflight.subscription.symm) (hrow.trans hflight.event.symm)
    exact hflight.pending (heq ▸ hsettled)
  · obtain ⟨r, hr, hid⟩ := Table.contains_iff.mp hlive
    obtain ⟨r₀, hr₀, hp⟩ := h.passed r hr
    obtain ⟨hfilter, howed⟩ := hpage.owed r hr hid
    have hfilter₀ : feedFilterOf r₀ = feedFilterOf a.subscription := hp.filter.trans hfilter
    obtain ⟨hmem, hlt⟩ : a.event ∈ matchingTrail w.auditEvents (feedFilterOf a.subscription) ∧
        r.cursorRowid < a.event.rowid := by
      refine mem_owedEvents.mp ?_
      rw [(owedEvents_cons howed).1]
      exact List.mem_cons_self
    have hid' : r.subscriptionId = a.subscription.subscriptionId := hid
    refine ⟨r₀, hr₀, hp.id.trans hid', hp.le.trans_lt hlt, ⟨a.event, hfilter₀ ▸ hmem, rfl⟩,
      fun e he hlt₀ hbefore => ?_⟩
    rw [← hid']
    exact settled_before hp hfilter howed he hlt₀ hbefore

/-- **A step POSTs only what is allowed.** -/
theorem post_step (h : Dispatched w) :
    ∃ posts, (w.step dispatcher i).posts = w.posts ++ posts ∧
      ∀ post ∈ posts, PostAllowed w post := by
  have hstep : WebhookStep dispatcher i w (w.step dispatcher i) := step_cases i
  generalize w.step dispatcher i = w' at hstep ⊢
  cases hstep with
  | posted a hc =>
    refine ⟨_, rfl, fun post hpost => ?_⟩
    rw [List.mem_singleton.mp hpost]
    exact postAllowed_posting h hc
  | request _ hc => exact ⟨[], by rw [hc.posts, List.append_nil], fun _ hp => absurd hp (by simp)⟩
  | same | gaveUp | listed | read | passedBy | resumed | created | delivered | exhausted | scheduled
  | lost | advanced => exact ⟨[], (List.append_nil _).symm, fun _ hp => absurd hp (by simp)⟩

/-- The dispatcher has nothing more to send: the event is settled or the subscription gone. -/
structure EventFinished (w : WebhookWorld) (id : String) (n : Nat) : Prop where
  created : ∃ s ∈ w.created, s.subscriptionId = id
  done : w.storage.SettledAt id n ∨ ¬ w.storage.Live id

theorem finished_step (h : Dispatched w) (hi : DrawsNewId w i) {id : String} {n : Nat}
    (hf : EventFinished w id n) : EventFinished (w.step dispatcher i) id n := by
  obtain ⟨⟨s, hs, hid⟩, hdone⟩ := hf
  refine ⟨⟨s, created_step s hs, hid⟩, ?_⟩
  by_cases hlive : (w.step dispatcher i).storage.Live id
  · rcases hdone with hsettled | hgone
    · exact Or.inl (settled_step h hsettled hlive)
    · exact absurd (live_step hi ⟨s, hs, hid⟩ hlive) hgone
  · exact Or.inr hlive

/-- The POSTs of an event to a subscription. -/
def WebhookWorld.postsOf (w : WebhookWorld) (id : String) (n : Nat) : List WebhookPost :=
  w.posts.filter fun post => decide (post.subscriptionId = id ∧ post.eventRowid = n)

theorem postsOf_step (h : Dispatched w) {id : String} {n : Nat} (hf : EventFinished w id n) :
    (w.step dispatcher i).postsOf id n = w.postsOf id n := by
  obtain ⟨posts, hposts, hallowed⟩ : ∃ posts, (w.step dispatcher i).posts = w.posts ++ posts ∧
    ∀ post ∈ posts, PostAllowed w post := post_step h
  unfold WebhookWorld.postsOf
  rw [hposts, List.filter_append]
  refine (congrArg _ (List.filter_eq_nil_iff.mpr fun post hpost => ?_)).trans (List.append_nil _)
  intro hmatch
  obtain ⟨rfl, rfl⟩ : post.subscriptionId = id ∧ post.eventRowid = n := of_decide_eq_true hmatch
  rcases hf.done with hsettled | hgone
  · exact (hallowed post hpost).unsettled hsettled
  · exact hgone (hallowed post hpost).live

/-- A settled event has been sent, and so has the one whose answer is awaited. -/
structure Sent (w : WebhookWorld) : Prop where
  settled : ∀ d ∈ w.storage.deliveries, d.Settled → w.postsOf d.subscriptionId d.eventRowid ≠ []
  awaiting : ∀ a, w.control = .awaiting a →
    w.postsOf a.subscription.subscriptionId a.event.rowid ≠ []

theorem mem_postsOf {id : String} {n : Nat} {post : WebhookPost} :
    post ∈ w.postsOf id n ↔ post ∈ w.posts ∧ post.subscriptionId = id ∧ post.eventRowid = n := by
  unfold WebhookWorld.postsOf
  rw [List.mem_filter, decide_eq_true_iff]

theorem postsOf_append {w' : WebhookWorld} {posts : List WebhookPost} {id : String} {n : Nat}
    (hposts : w'.posts = w.posts ++ posts) (h : w.postsOf id n ≠ []) : w'.postsOf id n ≠ [] := by
  obtain ⟨post, hpost⟩ := List.exists_mem_of_ne_nil _ h
  obtain ⟨hmem, hof⟩ := mem_postsOf.mp hpost
  refine List.ne_nil_of_mem (mem_postsOf.mpr ⟨?_, hof⟩)
  rw [hposts]
  exact List.mem_append_left _ hmem

/-- An answer updates the delivery in flight, whose event has been sent. -/
theorem sent_mark {a : WebhookAttempt} {f : WebhookDeliveryRecord → WebhookDeliveryRecord}
    {hf : ∀ d, (f d).deliveryId = d.deliveryId} {c : Control} {failures : List (String × Nat)}
    (h : Sent w) (hc : w.control = .awaiting a) (hflight : InFlight w a)
    (hsub : ∀ d, (f d).subscriptionId = d.subscriptionId)
    (hrow : ∀ d, (f d).eventRowid = d.eventRowid) (hnext : ∀ a', c ≠ .awaiting a') :
    Sent { w with
      storage := w.storage.updateDelivery a.delivery.deliveryId f hf
      control := c
      failures := failures } := by
  refine ⟨fun d hd hsettled => ?_, fun a' ha' => absurd ha' (hnext a')⟩
  rcases WebhookStorage.of_mem_updateDelivery hd with ⟨hold, -⟩ | ⟨d₀, hd₀, hid, rfl⟩
  · exact h.settled d hold hsettled
  · rw [hsub, hrow, hflight.only d₀ hd₀ hid, hflight.subscription, hflight.event]
    exact h.awaiting a hc

/-- What was sent stays sent under a step that settles nothing and awaits nothing. -/
theorem Sent.congr {w' : WebhookWorld} (h : Sent w) (hposts : w'.posts = w.posts)
    (hold : ∀ d ∈ w'.storage.deliveries, d.Settled → d ∈ w.storage.deliveries)
    (hcontrol : ∀ a, w'.control = .awaiting a → w.control = .awaiting a) : Sent w' := by
  have hposts' : w'.posts = w.posts ++ [] := by rw [hposts, List.append_nil]
  exact ⟨fun d hd hs => postsOf_append hposts' (h.settled d (hold d hd hs) hs),
    fun a ha => postsOf_append hposts' (h.awaiting a (hcontrol a ha))⟩

theorem GivesUp.ne_awaiting {c c' : Control} (h : GivesUp c c') (a : WebhookAttempt) :
    c' ≠ .awaiting a := by
  cases h <;> exact nofun

theorem sent_step (h : Dispatched w) (hs : Sent w) : Sent (w.step dispatcher i) := by
  have hcontrol := h.control
  have hstep : WebhookStep dispatcher i w (w.step dispatcher i) := step_cases i
  generalize w.step dispatcher i = w' at hstep ⊢
  cases hstep with
  | same => exact hs
  | request _ hc =>
    exact hs.congr hc.posts (fun d hd _ => hc.deliveries d hd) fun a ha => hc.control ▸ ha
  | posted a hc =>
    refine ⟨fun d hd hsettled => postsOf_append rfl (hs.settled d hd hsettled), fun a' ha' => ?_⟩
    cases ha'
    exact List.ne_nil_of_mem (mem_postsOf.mpr
      ⟨List.mem_append_right _ (List.mem_singleton_self _), rfl, rfl⟩)
  | created a storage deliveryId hc hrow hcreated =>
    obtain ⟨-, -, hfree, rfl⟩ := WebhookStorage.createDelivery_eq_ok.mp hcreated
    refine hs.congr rfl (fun d hd hsettled => ?_) (fun _ => nofun)
    have hmem : d ∈ w.storage.deliveries ∨ d = a.delivery := (Table.mem_insert (h := hfree)).mp hd
    rcases hmem with hd | rfl
    · exact hd
    · rw [hrow] at hsettled
      exact absurd rfl hsettled
  | delivered a status hc =>
    rw [hc] at hcontrol
    exact sent_mark hs hc hcontrol.2 (fun _ => rfl) (fun _ => rfl) (fun _ => nofun)
  | exhausted a failure hc hlast =>
    rw [hc] at hcontrol
    exact sent_mark hs hc hcontrol.2 (fun _ => rfl) (fun _ => rfl) (fun _ => nofun)
  | scheduled a failure failedAt t hc =>
    rw [hc] at hcontrol
    exact sent_mark hs hc hcontrol.2 (fun _ => rfl) (fun _ => rfl) (fun _ => nofun)
  | gaveUp closed c hgives =>
    exact hs.congr rfl (fun _ hd _ => hd) fun a ha => absurd ha (hgives.ne_awaiting a)
  | listed | read | passedBy | resumed | lost | advanced =>
    exact hs.congr rfl (fun _ hd _ => hd) (fun _ => nofun)

end Posts

/-! ## Runs -/

section Runs

variable (dispatcher : WebhookDispatcher) {w : WebhookWorld} {inputs : List WebhookInput}

theorem dispatched_start (auditEvents : Table AuditEventRow) (cases : Table CaseRow) :
    Dispatched (.start auditEvents cases) ∧ Sent (.start auditEvents cases) :=
  ⟨⟨WebhookStorage.fresh_valid, List.nodup_nil, fun _ h => absurd h Table.not_mem_empty, trivial⟩,
    fun _ h => absurd h Table.not_mem_empty, fun _ => nofun⟩

theorem dispatched_run (h : Dispatched w ∧ Sent w)
    (hids : Along (WebhookWorld.step dispatcher) DrawsNewId w inputs) :
    Dispatched (run (WebhookWorld.step dispatcher) w inputs) ∧
      Sent (run (WebhookWorld.step dispatcher) w inputs) :=
  invariant_along (I := fun w => Dispatched w ∧ Sent w)
    (fun _ _ h hi => ⟨dispatched_step h.1 hi, sent_step h.1 h.2⟩) h hids

/-- A cursor at the end of a run was no further on at its start. -/
theorem cursor_run (hids : Along (WebhookWorld.step dispatcher) DrawsNewId w inputs)
    {r s : WebhookSubscriptionRecord}
    (hr : r ∈ (run (WebhookWorld.step dispatcher) w inputs).storage.subscriptions)
    (hs : s ∈ w.created) (hid : s.subscriptionId = r.subscriptionId) :
    ∃ r₀ ∈ w.storage.subscriptions, r₀.subscriptionId = r.subscriptionId ∧
      r₀.cursorRowid ≤ r.cursorRowid := by
  induction inputs generalizing w with
  | nil => exact ⟨r, hr, rfl, le_rfl⟩
  | cons i inputs ih =>
    obtain ⟨r₁, hr₁, hid₁, hle₁⟩ := ih hids.2 hr (created_step s hs)
    obtain ⟨r₀, hr₀, hid₀, hle₀⟩ := cursor_step hids.1 hr₁ hs (hid.trans hid₁.symm)
    exact ⟨r₀, hr₀, hid₀.trans hid₁, hle₀.trans hle₁⟩

/-- Once an event is settled, or its subscription gone, no further POST of it goes out. -/
theorem postsOf_run (h : Dispatched w)
    (hids : Along (WebhookWorld.step dispatcher) DrawsNewId w inputs) {id : String} {n : Nat}
    (hf : EventFinished w id n) :
    (run (WebhookWorld.step dispatcher) w inputs).postsOf id n = w.postsOf id n := by
  induction inputs generalizing w with
  | nil => rfl
  | cons i inputs ih =>
    rw [run_cons, ih (dispatched_step h hids.1) hids.2 (finished_step h hids.1 hf)]
    exact postsOf_step h hf

/-- **Ordered delivery.** Let `w` be the state after the inputs `before`, and `w'` the one after
`later` as well. No cursor goes back; behind a cursor every matching event is settled; a POST
goes out only to a subscription that is there, for an unsettled event with nothing unsettled
before it; nothing is sent of an event that is settled or of a subscription that is gone; a
settled event has been sent; and an event has one delivery at most. -/
theorem webhook_delivery (auditEvents : Table AuditEventRow) (cases : Table CaseRow)
    (before later : List WebhookInput)
    (hids : Along (WebhookWorld.step dispatcher) DrawsNewId (.start auditEvents cases)
      (before ++ later)) :
    let w := run (WebhookWorld.step dispatcher) (.start auditEvents cases) before
    let w' := run (WebhookWorld.step dispatcher) (.start auditEvents cases) (before ++ later)
    (∀ r ∈ w.storage.subscriptions, ∀ r' ∈ w'.storage.subscriptions,
      r.subscriptionId = r'.subscriptionId → r.cursorRowid ≤ r'.cursorRowid) ∧
    (∀ r ∈ w.storage.subscriptions, ∃ r₀ ∈ w.created, r₀.subscriptionId = r.subscriptionId ∧
      feedFilterOf r₀ = feedFilterOf r ∧
      ∀ e ∈ matchingTrail w.auditEvents (feedFilterOf r), r₀.cursorRowid < e.rowid →
        e.rowid ≤ r.cursorRowid → w.storage.SettledAt r.subscriptionId e.rowid) ∧
    (∀ i, ∃ posts, (w.step dispatcher i).posts = w.posts ++ posts ∧
      ∀ post ∈ posts, PostAllowed w post) ∧
    (∀ id n, EventFinished w id n → w'.postsOf id n = w.postsOf id n) ∧
    (∀ id n, w.storage.SettledAt id n → w.postsOf id n ≠ []) ∧
    (∀ d ∈ w.storage.deliveries, ∀ d' ∈ w.storage.deliveries,
      d.subscriptionId = d'.subscriptionId → d.eventRowid = d'.eventRowid → d = d') := by
  intro w w'
  have hw' : w' = run (WebhookWorld.step dispatcher) w later := run_append
  obtain ⟨hbefore, hlater⟩ := along_append.mp hids
  obtain ⟨h, hsent⟩ := dispatched_run dispatcher (dispatched_start auditEvents cases) hbefore
  rw [hw']
  refine ⟨fun r hr r' hr' hid => ?_, fun r hr => ?_, fun i => post_step h,
    fun id n => postsOf_run dispatcher h hlater, ?_, h.valid.unique⟩
  · obtain ⟨r₀, hr₀, hp⟩ := h.passed r hr
    obtain ⟨r₁, hr₁, hid₁, hle⟩ := cursor_run dispatcher hlater hr' hr₀ (hp.id.trans hid)
    obtain rfl : r = r₁ := Table.eq_of_key hr hr₁ (hid.trans hid₁.symm)
    exact hle
  · obtain ⟨r₀, hr₀, hp⟩ := h.passed r hr
    exact ⟨r₀, hr₀, hp.id, hp.filter, hp.filter ▸ hp.settled⟩
  · rintro id n ⟨d, hd, rfl, rfl, hsettled⟩
    exact hsent.settled d hd hsettled

end Runs

/-! ## A run -/

namespace Sample

def webhookTime : IsoTimestamp := ⟨"2026-03-01T00:00:00.000Z", by decide⟩

/-- A minute later, when the first retry is due. -/
def webhookLaterTime : IsoTimestamp := ⟨"2026-03-01T00:01:00.000Z", by decide⟩

def webhookDispatcher : WebhookDispatcher where
  tickMs := 2000
  timeoutMs := 10000
  retryBaseMs := 10000
  maxAttempts := 5
  pageSize := 500
  hmacSha256 := fun _ body => body
  timeoutMs_pos := by decide
  retryBaseMs_nonneg := by decide

/-- A subscription to every event. -/
def subscription : WebhookSubscriptionRecord where
  subscriptionId := "wh_0"
  url := "https://example.test/hook"
  secret := "secret"
  actions := none
  caseId := none
  cursorRowid := 0
  createdAt := webhookTime

def webhookEvent : AuditEventRow where
  eventId := ⟨"audit_00000000000000000000000000", by decide⟩
  occurredAt := webhookTime
  action := AuditAction.createCustomer.stored
  customerId := none
  caseId := none
  dumpId := none
  detail := []

/-- The first attempt fails, and the second succeeds. -/
def webhookBefore : List WebhookInput :=
  let later := webhookLaterTime
  [.createSubscription subscription, .appendEvent webhookEvent, .tick,
    .proceed webhookTime "whd_0", .proceed webhookTime "whd_0", .proceed webhookTime "whd_0",
    .failPost "fetch failed" webhookTime, .proceed webhookTime "whd_0", .tick,
    .proceed later "whd_1", .proceed later "whd_1", .proceed later "whd_1", .respond 204 later]

/-- The process dies before the cursor moves, and starts again. -/
def webhookLater : List WebhookInput :=
  [.crash, .tick, .proceed webhookTime "whd_2", .proceed webhookTime "whd_2",
    .proceed webhookTime "whd_2", .proceed webhookTime "whd_2"]

theorem webhook_ids : Along (WebhookWorld.step webhookDispatcher) DrawsNewId
    (.start .empty .empty) (webhookBefore ++ webhookLater) :=
  ⟨fun _ _ _ hs => absurd hs List.not_mem_nil,
    along_mono (fun _ _ => drawsNewId_of_not_creates) (along_of_all (by decide))⟩

end Sample

/-- The event goes out twice, and not again after it was settled. -/
theorem webhook_delivery_retried :
    ((run (WebhookWorld.step Sample.webhookDispatcher) (.start .empty .empty)
      (Sample.webhookBefore ++ Sample.webhookLater)).postsOf "wh_0" 1).length = 2 := by
  have hbefore : ∃ w, run (WebhookWorld.step Sample.webhookDispatcher) (.start .empty .empty)
        Sample.webhookBefore = w ∧
      (∃ d ∈ w.storage.deliveries.rows, d.subscriptionId = "wh_0" ∧ d.eventRowid = 1 ∧ d.Settled) ∧
        (∃ s ∈ w.created, s.subscriptionId = "wh_0") ∧ (w.postsOf "wh_0" 1).length = 2 :=
    ⟨_, rfl, by decide +kernel⟩
  obtain ⟨w, hw, ⟨d, hd, hof⟩, hcreated, hlength⟩ := hbefore
  obtain ⟨-, -, -, hfinished, -⟩ := webhook_delivery Sample.webhookDispatcher .empty .empty
    Sample.webhookBefore Sample.webhookLater Sample.webhook_ids
  rw [hw] at hfinished
  rw [hfinished "wh_0" 1 ⟨hcreated, Or.inl ⟨d, Table.mem_rows.mp hd, hof⟩⟩]
  exact hlength

end DumpLedger
