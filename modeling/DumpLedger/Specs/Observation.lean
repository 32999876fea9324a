import DumpLedger.Ledger.Analyses
import DumpLedger.Ledger.Lifecycle
import DumpLedger.Specs.DumpLedger

/-!
# What the specification sees of a ledger

`observe` reads the rows of a ledger as the variables of the specification. The token of a
dump stands in no column: it is the grant of the last `BeginUpload` event of the dump.

* `observe_audited` — an event that begins no upload is not seen
* `observe_transitionDump` — a transaction on one dump is seen as the new row of that dump
-/

namespace DumpLedger

open Lib Function

/-- The grant a `BeginUpload` event of the dump names. -/
def AuditEventRow.uploadGrantText? (dumpId : DumpId) (e : AuditEventRow) : Option String :=
  if e.action = AuditAction.beginUpload.stored ∧ e.dumpId = some dumpId then
    match JsonObject.get? e.detail "grantId" with
    | some (.str grantId) => some grantId
    | _ => none
  else none

namespace SqliteLedger

/-- `grantIdByDumpId.get(dumpId)`: later events overwrite earlier ones. -/
def uploadGrant (l : SqliteLedger) (dumpId : DumpId) : Option GrantId :=
  (l.auditEvents.rows.filterMap (AuditEventRow.uploadGrantText? dumpId)).getLast?.bind
    fun text => (parseGrantId text).toOption

/-- The abstraction map. -/
def observe (l : SqliteLedger) : Spec.State where
  caseStatus c := (l.cases.find? c).map CaseRow.status
  tokenState t := (l.grants.find? t).map GrantRow.state
  tokenCase t := (l.grants.find? t).map GrantRow.caseId
  tokenMaxUploads t := ((l.grants.find? t).map GrantRow.maxUploads).getD 0
  dumpToken d := if l.dumps.contains d = true then l.uploadGrant d else none
  tokenUploads t := ((l.grants.find? t).map GrantRow.uploadsUsed).getD 0
  dumpPhase d := (l.dumps.find? d).map DumpRow.phase
  dumpCase d := (l.dumps.find? d).map DumpRow.caseId
  blobState d := ((l.dumps.find? d).map DumpRow.blobState).getD .none
  digestRecorded := {d | ∃ row, l.dumps.find? d = some row ∧ row.sha256.isSome = true}
  analysisRecorded := {d | ∃ a ∈ l.analyses, a.identity.dumpId = d}
  validation d := ((l.dumps.find? d).map DumpRow.validation).getD .notChecked
  coverage d := (l.dumps.find? d).bind DumpRow.coverage
  downloadable := {d | ∃ row, l.dumps.find? d = some row ∧ row.downloadable = true}

end SqliteLedger

/-- The variables of one dump, as its row has them. -/
def Spec.State.withDump (s : Spec.State) (d : DumpId) (row : DumpRow) : Spec.State :=
  { s with
    dumpPhase := update s.dumpPhase d (some row.phase)
    dumpCase := update s.dumpCase d (some row.caseId)
    blobState := update s.blobState d row.blobState
    digestRecorded := {d' | if d' = d then row.sha256.isSome = true else d' ∈ s.digestRecorded}
    validation := update s.validation d row.validation
    coverage := update s.coverage d row.coverage
    downloadable := {d' | if d' = d then row.downloadable = true else d' ∈ s.downloadable} }

namespace SqliteLedger

/-! ## Events -/

section Events

variable {l l' : SqliteLedger} {event : EventIdentity} {action : AuditAction}
  {customerId : Option CustomerId} {caseId : Option CaseId} {dumpId : Option DumpId}
  {detail : JsonObject}

theorem uploadGrant_audited
    (he : l.auditEvents.find? (auditRow event action customerId caseId dumpId detail).eventId =
      none)
    (h : action ≠ .beginUpload) (d : DumpId) :
    (l.audited (auditRow event action customerId caseId dumpId detail) he).uploadGrant d =
      l.uploadGrant d := by
  have hstored : action.stored ≠ AuditAction.beginUpload.stored := by
    intro hs
    cases action <;> first | exact h rfl | exact absurd (congrArg BoundedText.text hs) (by decide)
  have hnone : AuditEventRow.uploadGrantText? d
      (auditRow event action customerId caseId dumpId detail) = none := if_neg fun hb => hstored hb.1
  show ((l.auditEvents.rows ++ [_]).filterMap _).getLast?.bind _ = _
  rw [List.filterMap_append, List.filterMap_cons_none hnone, List.filterMap_nil, List.append_nil]
  rfl

/-- The dump an upload begins with is told by its event. -/
theorem uploadGrant_beginUpload {d : DumpId} {g : GrantId}
    (he : l.auditEvents.find?
      (auditRow event .beginUpload customerId caseId (some d) [("grantId", .str g.text)]).eventId =
        none) (d' : DumpId) :
    (l.audited (auditRow event .beginUpload customerId caseId (some d)
      [("grantId", .str g.text)]) he).uploadGrant d' =
        if d' = d then some g else l.uploadGrant d' := by
  show ((l.auditEvents.rows ++ [_]).filterMap _).getLast?.bind _ = _
  rw [List.filterMap_append]
  by_cases hd : d' = d
  · subst hd
    have hsome : AuditEventRow.uploadGrantText? d'
        (auditRow event .beginUpload customerId caseId (some d') [("grantId", .str g.text)]) =
          some g.text := by
      rw [AuditEventRow.uploadGrantText?, if_pos ⟨rfl, rfl⟩]
      rfl
    have hparse : parseGrantId g.text = .ok g := parseIdentifier_eq_ok.mpr rfl
    rw [List.filterMap_cons_some hsome, List.filterMap_nil, List.getLast?_concat, if_pos rfl]
    simp only [Option.bind_some, hparse]
    rfl
  · have hnone : AuditEventRow.uploadGrantText? d'
        (auditRow event .beginUpload customerId caseId (some d) [("grantId", .str g.text)]) =
          none := if_neg fun hb => hd (Option.some.inj hb.2).symm
    rw [List.filterMap_cons_none hnone, List.filterMap_nil, List.append_nil, if_neg hd]
    rfl

/-- Two ledgers with the same rows of the tables that are read look the same. -/
theorem observe_congr (hcases : l'.cases = l.cases) (hgrants : l'.grants = l.grants)
    (hdumps : l'.dumps = l.dumps) (hanalyses : l'.analyses = l.analyses)
    (htrail : ∀ d, l'.uploadGrant d = l.uploadGrant d) : l'.observe = l.observe := by
  simp only [observe, hcases, hgrants, hdumps, hanalyses, htrail]

/-- **An event that begins no upload is not seen.** -/
theorem observe_audited
    (he : l.auditEvents.find? (auditRow event action customerId caseId dumpId detail).eventId =
      none) (h : action ≠ .beginUpload) :
    (l.audited (auditRow event action customerId caseId dumpId detail) he).observe = l.observe :=
  observe_congr rfl rfl rfl rfl (uploadGrant_audited he h)

end Events

/-! ## Rows -/

section Rows

variable {l l' : SqliteLedger} {event : EventIdentity} {action : AuditAction}

theorem observe_case {c : CaseId} {row : CaseRow} (hc : l.cases.find? c = some row)
    (status : CaseStatus) :
    { l with
      cases := l.cases.updateKey c (fun r => { r with status }) (fun _ => rfl) }.observe =
      { l.observe with caseStatus := update l.observe.caseStatus c (some status) } := by
  refine Spec.State.ext ?_ rfl rfl rfl rfl rfl rfl rfl rfl rfl rfl rfl rfl rfl
  funext c'
  by_cases he : c' = c
  · subst he
    simp [observe, Table.find?_updateKey_self hc]
  · simp [observe, Table.find?_updateKey_ne (Ne.symm he), he]

theorem observe_grantState {t : GrantId} {row : GrantRow} (ht : l.grants.find? t = some row)
    (state : TokenState) :
    { l with
      grants := l.grants.updateKey t (fun g => { g with state }) (fun _ => rfl) }.observe =
      { l.observe with tokenState := update l.observe.tokenState t (some state) } := by
  have hfind : ∀ t', (l.grants.updateKey t (fun g => { g with state }) (fun _ => rfl)).find? t' =
      if t' = t then some { row with state } else l.grants.find? t' := by
    intro t'
    by_cases he : t' = t
    · rw [if_pos he, he, Table.find?_updateKey_self ht]
    · rw [if_neg he, Table.find?_updateKey_ne (Ne.symm he)]
  refine Spec.State.ext rfl ?_ ?_ ?_ rfl ?_ rfl rfl rfl rfl rfl rfl rfl rfl <;> funext t' <;>
    by_cases he : t' = t <;> simp [observe, hfind, he, ht]

theorem observe_newGrant {g : GrantRow} (hg : l.grants.find? g.grantId = none)
    (hunused : g.uploadsUsed = 0) :
    { l with grants := l.grants.insert g hg }.observe =
      { l.observe with
        tokenState := update l.observe.tokenState g.grantId (some g.state)
        tokenCase := update l.observe.tokenCase g.grantId (some g.caseId)
        tokenMaxUploads := update l.observe.tokenMaxUploads g.grantId g.maxUploads } := by
  have hfind : ∀ t, (l.grants.insert g hg).find? t =
      if t = g.grantId then some g else l.grants.find? t :=
    fun t => (Table.find?_insert (h := hg)).trans (if_congr eq_comm rfl rfl)
  refine Spec.State.ext rfl ?_ ?_ ?_ rfl ?_ rfl rfl rfl rfl rfl rfl rfl rfl <;> funext t <;>
    by_cases ht : t = g.grantId
  all_goals simp [observe, hfind, ht, hg, hunused]

theorem observe_dump {d : DumpId} {row : DumpRow} (hd : l.dumps.find? d = some row)
    (f : DumpRow → DumpRow) (hf : ∀ r, (f r).dumpId = r.dumpId) :
    { l with dumps := l.dumps.updateKey d f hf }.observe = l.observe.withDump d (f row) := by
  have hfind : ∀ d', (l.dumps.updateKey d f hf).find? d' =
      if d' = d then some (f row) else l.dumps.find? d' := by
    intro d'
    by_cases he : d' = d
    · rw [if_pos he, he, Table.find?_updateKey_self hd]
    · rw [if_neg he, Table.find?_updateKey_ne (Ne.symm he)]
  refine Spec.State.ext rfl rfl rfl rfl ?_ rfl ?_ ?_ ?_ ?_ rfl ?_ ?_ ?_
  · funext d'
    simp [observe, Spec.State.withDump, uploadGrant]
  all_goals
    ext1 d'
    by_cases he : d' = d <;> simp [observe, Spec.State.withDump, hfind, he]

/-- **A transaction on one dump.** -/
theorem observe_transitionDump {d : DumpId} {expected : List DumpPhase} {f : DumpRow → DumpRow}
    {hf : ∀ r, (f r).dumpId = r.dumpId} {extraPredicate : DumpRow → Bool}
    (h : l.transitionDump d expected event action f hf extraPredicate = .ok l')
    (haction : action ≠ .beginUpload) :
    ∃ row, l.dumps.find? d = some row ∧ expected.contains row.phase = true ∧
      extraPredicate row = true ∧ l'.observe = l.observe.withDump d (f row) := by
  obtain ⟨row, c, hd, hp, hx, -, -, he, rfl⟩ := transitionDump_eq_ok.mp h
  exact ⟨row, hd, hp, hx,
    (observe_audited _ haction).trans (observe_dump hd f hf)⟩

end Rows

/-! ## Transactions -/

section Transactions

variable {l l' : SqliteLedger} {event : EventIdentity}

theorem observe_transitionCase {c : CaseId} {expected : List CaseStatus} {action : AuditAction}
    {next : CaseStatus} (h : l.transitionCase c expected event action next = .ok l')
    (haction : action ≠ .beginUpload) :
    ∃ status, l.observe.caseStatus c = some status ∧ expected.contains status = true ∧
      l'.observe = { l.observe with caseStatus := update l.observe.caseStatus c (some next) } := by
  obtain ⟨row, hc, hp, -, he, rfl⟩ := transitionCase_eq_ok.mp h
  refine ⟨row.status, by simp [observe, hc], hp, ?_⟩
  exact (observe_audited _ haction).trans (observe_case hc next)

/-- The issued grants of the case are revoked, and no others. -/
theorem observe_closeCase {c : CaseId} {ids : List GrantId} (h : l.closeCase c event = .ok (ids, l')) :
    (Spec.Action.closeCase c).enabled l.observe ∧
      l'.observe = (Spec.Action.closeCase c).next l.observe := by
  obtain ⟨row, hc, hstatus, -, -, he, rfl⟩ := closeCase_eq_ok.mp h
  refine ⟨by simp [Spec.Action.enabled, observe, hc, hstatus], ?_⟩
  refine (observe_audited _ (by decide)).trans ?_
  have hcases := congrArg Spec.State.caseStatus (observe_case hc .closed)
  have hfind : ∀ t, (l.grantsRevokedFor c).find? t = (l.grants.find? t).map fun g =>
      if g.caseId = c ∧ g.state = .issued then { g with state := .revoked } else g := by
    intro t
    simp [grantsRevokedFor, Table.find?_update]
  refine Spec.State.ext hcases ?_ ?_ ?_ rfl ?_ rfl rfl rfl rfl rfl rfl rfl rfl <;> funext t <;>
    cases hg : l.grants.find? t with
  | none => simp [observe, Spec.Action.next, hfind, hg]
  | some g =>
    by_cases hgc : g.caseId = c ∧ g.state = .issued
    · simp [observe, Spec.Action.next, hfind, hg, hgc]
    · simp [observe, Spec.Action.next, hfind, hg, hgc]

theorem observe_issueGrant {t : GrantId} {c : CaseId} {secretDigest : BoundedText 128}
    {expiresAt : IsoTimestamp} {maxBytes : ℕ+} {maxUploads : Nat}
    {hmax : 1 ≤ maxUploads ∧ maxUploads ≤ maxGrantUploadSlots}
    (h : l.issueGrant t c secretDigest expiresAt maxBytes maxUploads hmax event = .ok l') :
    (Spec.Action.issueToken t c maxUploads).enabled l.observe ∧
      l'.observe = (Spec.Action.issueToken t c maxUploads).next l.observe := by
  obtain ⟨row, hc, hopen, -, -, hnew, he, rfl⟩ := issueGrant_eq_ok.mp h
  refine ⟨⟨by simp [observe, hnew], row.status, by simp [observe, hc], hopen⟩, ?_⟩
  exact (observe_audited _ (by decide)).trans (observe_newGrant hnew rfl)

theorem observe_transitionGrant {t : GrantId} {next : GrantEnd}
    (h : l.transitionGrant t next event = .ok l') :
    l.observe.tokenState t = some .issued ∧
      l'.observe =
        { l.observe with tokenState := update l.observe.tokenState t (some next.state) } := by
  obtain ⟨g, c, hg, hissued, -, -, he, rfl⟩ := transitionGrant_eq_ok.mp h
  refine ⟨by simp [observe, hg, hissued], ?_⟩
  refine (observe_audited _ ?_).trans (observe_grantState hg next.state)
  cases next <;> decide

theorem observe_beginUpload {t : GrantId} {d : DumpId} {originalName : BoundedText 1024}
    (h : l.beginUpload t d originalName event = .ok l') :
    (Spec.Action.beginUpload t d).enabled l.observe ∧
      l'.observe = (Spec.Action.beginUpload t d).next l.observe := by
  obtain ⟨g, c, hg, hc, hopen, hissued, hslot, -, hd, he, hl⟩ := beginUpload_eq_ok.mp h
  refine ⟨⟨by simp [observe, hg, hissued],
    ⟨g.caseId, by simp [observe, hg], c.status, by simp [observe, hc], hopen⟩,
    by simpa [observe, hg] using hslot, by simp [observe, hd], by simp [observe, hd]⟩, ?_⟩
  have hcases : l'.cases = l.cases := by rw [hl]; rfl
  have hanalyses : l'.analyses = l.analyses := by rw [hl]; rfl
  have hgrant : ∀ t', l'.grants.find? t' =
      if t' = t then some (g.takeSlot d) else l.grants.find? t' := by
    intro t'
    have hgrants : l'.grants = l.grants.updateKey t (GrantRow.takeSlot d)
        (GrantRow.takeSlot_grantId d) := by rw [hl]; rfl
    by_cases ht : t' = t
    · rw [hgrants, if_pos ht, ht, Table.find?_updateKey_self hg]
    · rw [hgrants, if_neg ht, Table.find?_updateKey_ne (Ne.symm ht)]
  have hdump : ∀ d', l'.dumps.find? d' =
      if d' = d then some (DumpRow.receiving d g.caseId originalName event.occurredAt)
      else l.dumps.find? d' := by
    intro d'
    have hdumps : l'.dumps = l.dumps.insert
        (DumpRow.receiving d g.caseId originalName event.occurredAt) hd := by rw [hl]; rfl
    rw [hdumps]
    exact (Table.find?_insert (h := hd)).trans (if_congr eq_comm rfl rfl)
  -- the event just written is the last one of its dump
  have htoken : ∀ d', l'.uploadGrant d' = if d' = d then some t else l.uploadGrant d' := by
    intro d'
    rw [hl]
    exact uploadGrant_beginUpload he d'
  clear hl
  refine Spec.State.ext ?_ ?_ ?_ ?_ ?_ ?_ ?_ ?_ ?_ ?_ ?_ ?_ ?_ ?_
  · simp [observe, Spec.Action.next, hcases]
  · funext t'
    by_cases ht : t' = t
    · by_cases hlast : g.uploadsUsed + 1 ≥ g.maxUploads <;>
        simp [observe, Spec.Action.next, hgrant, ht, hg, GrantRow.takeSlot_state hslot, hlast]
    · simp [observe, Spec.Action.next, hgrant, ht]
  · funext t'
    by_cases ht : t' = t <;>
      simp [observe, Spec.Action.next, hgrant, ht, hg, GrantRow.takeSlot_caseId]
  · funext t'
    by_cases ht : t' = t <;> simp [observe, Spec.Action.next, hgrant, ht, hg]
  · have hcontains : ∀ d', l'.dumps.contains d' = (decide (d' = d) || l.dumps.contains d') := by
      intro d'
      by_cases hd' : d' = d <;> simp [Table.contains, hdump, hd']
    funext d'
    by_cases hd' : d' = d <;> simp [observe, Spec.Action.next, hcontains, hd', htoken]
  · funext t'
    by_cases ht : t' = t
    · simp [observe, Spec.Action.next, hgrant, ht, hg, GrantRow.takeSlot_uploadsUsed hslot]
    · simp [observe, Spec.Action.next, hgrant, ht]
  all_goals
    ext1 d'
    by_cases hd' : d' = d <;>
      simp [observe, Spec.Action.next, hdump, hd', hd, hg, hanalyses, DumpRow.receiving]

end Transactions

end SqliteLedger

end DumpLedger
