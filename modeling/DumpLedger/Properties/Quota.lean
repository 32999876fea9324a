import DumpLedger.Engine.Reads
import DumpLedger.Engine.Run

/-!
# The quota of a grant and the upload gate

The quota of a grant is read, `BeginUpload` judges it. The read looks at the state of the grant
only, so it still offers the slots of a grant whose expiry has passed and which nobody expired.

* `beginUpload_succeeds_iff` — when an upload begins
* `quota_agrees_iff` — when the quota and the gate say the same
-/

namespace DumpLedger

open Lib SqliteLedger

section Gate

variable {options : EngineOptions} {host : Host} {w : World} {now : IsoTimestamp}

/-- The grant of a secret that is a text a grant can have. -/
def grantOf (options : EngineOptions) (w : World) (grantSecret : String) : Option GrantRow :=
  match assertText grantSecret "grantSecret" 1024 with
  | .error _ => none
  | .ok secret => w.ledger.findGrantByDigest (options.digests.digestSecret secret.text).bounded

theorem grantOf_eq_some {grantSecret : String} {g : GrantRow} :
    grantOf options w grantSecret = some g ↔
      ∃ secret : BoundedText 1024, assertText grantSecret "grantSecret" 1024 = .ok secret ∧
        w.ledger.findGrantByDigest (options.digests.digestSecret secret.text).bounded = some g := by
  unfold grantOf
  cases assertText grantSecret "grantSecret" 1024 with
  | error e => simp
  | ok secret => simp

/-- The quota there is: the slots of an issued or a consumed grant. -/
theorem grantQuota_eq_some {grantSecret : String} {q : GrantQuota} :
    grantQuota options w grantSecret = .ok (some q) ↔
      ∃ g, grantOf options w grantSecret = some g ∧ (g.state = .issued ∨ g.state = .consumed) ∧
        q = { maxUploads := g.maxUploads, uploadsUsed := g.uploadsUsed, maxBytes := g.maxBytes,
              expiresAt := g.expiresAt } := by
  unfold grantQuota grantOf
  cases assertText grantSecret "grantSecret" 1024 with
  | error e => simp
  | ok secret =>
    simp only [bind_ok]
    cases w.ledger.findGrantByDigest (options.digests.digestSecret secret.text).bounded with
    | none => simp
    | some g =>
      by_cases hstate : g.state ≠ .issued ∧ g.state ≠ .consumed
      · simp only [if_pos hstate, pure_eq_ok]
        constructor
        · intro h
          cases h
        · rintro ⟨g', hg', hor, -⟩
          cases hg'
          tauto
      · simp only [if_neg hstate, pure_eq_ok, Option.some.injEq, exists_eq_left']
        constructor
        · intro h
          exact ⟨by tauto, h.symm⟩
        · rintro ⟨-, h⟩
          exact h.symm

/-- A dump identifier nothing was made under. -/
structure Host.DrawsFreshDump (host : Host) (w : World) : Prop where
  row : w.ledger.dumps.find? host.dumpId = none
  staging : w.vaults.dumps.staging.find? host.dumpId = none

/-- **When an upload begins**: the grant is issued, its expiry lies ahead, it has a slot left and
its case is not closed. -/
theorem beginUpload_succeeds_iff (options : EngineOptions) (grantSecret : String)
    (name : BoundedText 1024)
    (hu : host.Undisturbed w) (hl : Linked w.ledger) (hnow : now.text = host.now)
    (hfresh : host.DrawsFreshDump w) :
    (execute options host w (.beginUpload grantSecret name.text)).1.succeeded = true ↔
      ∃ g c, grantOf options w grantSecret = some g ∧ g.state = .issued ∧ now < g.expiresAt ∧
        g.uploadsUsed < g.maxUploads ∧ w.ledger.cases.find? g.caseId = some c ∧
        c.status ≠ .closed := by
  constructor
  · intro h
    obtain ⟨p, r, hplan, -, htx, -⟩ := execute_succeeded h
    obtain ⟨t, ht, hplan⟩ := plan_eq_ok.mp hplan
    obtain rfl : t = now := IsoTimestamp.ext (ht.trans hnow.symm)
    simp only [planAt, planBeginUpload, bind_eq_ok, orThrow_eq_ok, guardThat_eq_ok,
      pure_eq_ok] at hplan
    obtain ⟨secret, hsecret, _, -, g, hg, -, -, -, ⟨-, hexpiry⟩, -, hissued, rfl⟩ := hplan
    obtain ⟨hnone, -⟩ | ⟨op, hop, -, hrun⟩ := transaction_eq_ok.mp htx
    · cases hnone
    cases hop
    obtain ⟨g', c, hg', hc, hstatus, -, hslot, -⟩ :=
      beginUpload_eq_ok.mp (LedgerOp.noResult_eq_ok.mp hrun).1
    have hsame : w.ledger.grants.find? g.grantId = some g :=
      Table.find?_key (findGrantByDigest_eq_some hg).1
    rw [hsame] at hg'
    cases hg'
    exact ⟨g, c, grantOf_eq_some.mpr ⟨secret, hsecret, hg⟩, hissued, hexpiry, hslot, hc, hstatus⟩
  · rintro ⟨g, c, hgrant, hissued, hexpiry, hslot, hc, hstatus⟩
    obtain ⟨secret, hsecret, hg⟩ := grantOf_eq_some.mp hgrant
    obtain ⟨hmem, -⟩ := findGrantByDigest_eq_some hg
    have hcu := hl.case_customer c (Table.mem_of_find? hc)
    obtain ⟨s, hs⟩ : ∃ s, w.vaults.dumps.createStaging host.nowMs host.dumpId = .ok s :=
      ⟨_, ObjectStore.createStaging_eq_ok.mpr ⟨hfresh.staging, rfl⟩⟩
    have hplan := plan_eq_ok.mpr ⟨now, hnow, show planAt options host w now
        (.beginUpload grantSecret name.text) = .ok _ by
      simp only [planAt, planBeginUpload, hsecret, assertText_text, bind_ok, hg, orThrow_some,
        bind_eq_ok, guardThat_eq_ok, pure_eq_ok, exists_and_left, exists_const]
      exact ⟨by simp [hissued], ⟨by simp [hissued], hexpiry⟩, hissued, rfl⟩⟩
    rw [execute_of_done hplan
      (operation_eq_ok.mpr (.inr ⟨_, rfl, hu.storage, bind_eq_ok.mpr ⟨s, hs, rfl⟩⟩)) hu.crash
      (transaction_eq_ok.mpr (.inr ⟨_, rfl, hu.ledger, LedgerOp.noResult_eq_ok.mpr
        ⟨beginUpload_eq_ok.mpr ⟨g, c, Table.find?_key hmem, hc, hstatus, hissued, hslot, hcu,
          hfresh.row, hu.event, rfl⟩, rfl⟩⟩))]
    rfl

/-! ## Agreement -/

/-- `grant.state === "expired" || grant.expiresAt <= occurredAt`. -/
def GrantRow.Expired (g : GrantRow) (now : IsoTimestamp) : Prop :=
  g.state = .expired ∨ g.expiresAt ≤ now

/-- The quota shows a free slot exactly if an upload would begin, and there is no quota of a grant
that is unknown, revoked or expired. -/
structure QuotaAgrees (options : EngineOptions) (host : Host) (w : World) (now : IsoTimestamp)
    (grantSecret name : String) : Prop where
  gate : (∃ q, grantQuota options w grantSecret = .ok (some q) ∧ q.uploadsUsed < q.maxUploads) ↔
    (execute options host w (.beginUpload grantSecret name)).1.succeeded = true
  nothing : (∀ g, grantOf options w grantSecret = some g → g.state = .revoked ∨ g.Expired now) →
    ∀ q, grantQuota options w grantSecret ≠ .ok (some q)

/-- An issued or consumed grant of the secret has its expiry ahead; a consumed one has no slot
left, and the case of an issued one with a slot left is not closed. -/
def QuotaCurrent (options : EngineOptions) (w : World) (now : IsoTimestamp)
    (grantSecret : String) : Prop :=
  ∀ g, grantOf options w grantSecret = some g →
    (g.state = .issued ∨ g.state = .consumed → now < g.expiresAt) ∧
    (g.state = .consumed → g.maxUploads ≤ g.uploadsUsed) ∧
    (g.state = .issued → g.uploadsUsed < g.maxUploads →
      ∀ c, w.ledger.cases.find? g.caseId = some c → c.status ≠ .closed)

theorem quotaAgrees_iff {grantSecret : String} (name : BoundedText 1024)
    (hu : host.Undisturbed w) (hl : Linked w.ledger) (hnow : now.text = host.now)
    (hfresh : host.DrawsFreshDump w) :
    QuotaAgrees options host w now grantSecret name.text ↔
      QuotaCurrent options w now grantSecret := by
  have hgate := beginUpload_succeeds_iff options grantSecret name hu hl hnow hfresh
  constructor
  · rintro ⟨hagree, hnothing⟩ g hg
    refine ⟨fun hstate => ?_, fun hconsumed => ?_, fun hissued hslot c hc => ?_⟩
    · by_contra hpast
      refine hnothing (fun g' hg' => ?_) _ (grantQuota_eq_some.mpr ⟨g, hg, hstate, rfl⟩)
      rw [hg] at hg'
      cases hg'
      exact Or.inr (Or.inr (not_lt.mp hpast))
    · by_contra hslot
      have hsucc := hagree.mp
        ⟨_, grantQuota_eq_some.mpr ⟨g, hg, Or.inr hconsumed, rfl⟩, Nat.lt_of_not_le hslot⟩
      obtain ⟨g', c, hg', hissued, -⟩ := hgate.mp hsucc
      rw [hg] at hg'
      cases hg'
      rw [hconsumed] at hissued
      cases hissued
    · have hsucc := hagree.mp ⟨_, grantQuota_eq_some.mpr ⟨g, hg, Or.inl hissued, rfl⟩, hslot⟩
      obtain ⟨g', c', hg', -, -, -, hc', hopen⟩ := hgate.mp hsucc
      rw [hg] at hg'
      cases hg'
      rw [hc] at hc'
      cases hc'
      exact hopen
  · intro hcurrent
    constructor
    · rw [hgate]
      constructor
      · rintro ⟨q, hq, hslot⟩
        obtain ⟨g, hg, hstate, rfl⟩ := grantQuota_eq_some.mp hq
        obtain ⟨hexpiry, hconsumed, hopen⟩ := hcurrent g hg
        have hissued : g.state = .issued := by
          refine hstate.resolve_right fun hc => ?_
          exact absurd hslot (Nat.not_lt.mpr (hconsumed hc))
        obtain ⟨secret, -, hfound⟩ := grantOf_eq_some.mp hg
        obtain ⟨c, hc, hid⟩ := Table.contains_iff.mp
          (hl.grant_case g (findGrantByDigest_eq_some hfound).1)
        have hcase : w.ledger.cases.find? g.caseId = some c := Table.find?_eq_some.mpr ⟨hc, hid⟩
        exact ⟨g, c, hg, hissued, hexpiry hstate, hslot, hcase, hopen hissued hslot c hcase⟩
      · rintro ⟨g, c, hg, hissued, -, hslot, -, -⟩
        exact ⟨_, grantQuota_eq_some.mpr ⟨g, hg, Or.inl hissued, rfl⟩, hslot⟩
    · intro hgone q hq
      obtain ⟨g, hg, hstate, -⟩ := grantQuota_eq_some.mp hq
      have hexpiry := (hcurrent g hg).1 hstate
      obtain hrevoked | hexpired | hpast := hgone g hg
      · rw [hrevoked] at hstate
        simp at hstate
      · rw [hexpired] at hstate
        simp at hstate
      · exact absurd hexpiry (not_lt.mpr hpast)

end Gate

/-- **The quota agrees with the gate exactly while the grant is current.** In every reachable
state, for a host nothing goes wrong in and a name and a dump identifier that are valid. -/
theorem quota_agrees_iff (options : EngineOptions) (events : List Event) (host : Host)
    (now : IsoTimestamp) (grantSecret : String) (name : BoundedText 1024)
    (hu : host.Undisturbed (reached options events)) (hnow : now.text = host.now)
    (hfresh : host.DrawsFreshDump (reached options events)) :
    QuotaAgrees options host (reached options events) now grantSecret name.text ↔
      QuotaCurrent options (reached options events) now grantSecret :=
  quotaAgrees_iff name hu (reached_linked events) hnow hfresh

namespace Sample

/-- A customer, a case and a grant that nobody has used. -/
def grantRun : List Event := uploadRun.take 3

/-- A host whose clock shows `now`. -/
def hostAt (now : String) : Host := { host 3 with now }

theorem hostAt_undisturbed {now : String} (h : isIsoTimestamp now = true) :
    (hostAt now).Undisturbed (reached options grantRun) where
  clock := ⟨⟨now, h⟩, rfl⟩
  storage := rfl
  ledger := rfl
  crash := rfl
  event := by
    show (reached options grantRun).ledger.auditEvents.find? (auditId 3) = none
    decide

theorem hostAt_fresh {now : String} : (hostAt now).DrawsFreshDump (reached options grantRun) where
  row := by
    show (reached options grantRun).ledger.dumps.find? (host 3).dumpId = none
    decide
  staging := by
    show (reached options grantRun).vaults.dumps.staging.find? (host 3).dumpId = none
    decide

theorem grantOf_grantRun :
    (grantOf options (reached options grantRun) "0123456789abcdefghijklmnop").map
        (fun g => (g.state, g.expiresAt.text)) = some (.issued, "2026-02-01T00:00:00.000Z") := by
  decide

theorem issueTime_valid : isIsoTimestamp "2026-01-01T00:00:00.000Z" = true := by
  decide

end Sample

open Sample in
/-- At the time of the issue both agree: the quota shows the slot and the upload would begin. -/
theorem quota_agrees_new :
    QuotaAgrees options (hostAt "2026-01-01T00:00:00.000Z") (reached options grantRun)
      ⟨"2026-01-01T00:00:00.000Z", issueTime_valid⟩ "0123456789abcdefghijklmnop" "crash.dmp" := by
  refine (quota_agrees_iff options grantRun (hostAt "2026-01-01T00:00:00.000Z")
    ⟨"2026-01-01T00:00:00.000Z", issueTime_valid⟩ "0123456789abcdefghijklmnop"
    ⟨"crash.dmp", by decide⟩ (hostAt_undisturbed (by decide)) rfl
    hostAt_fresh).mpr ?_
  intro g hg
  have hstate := grantOf_grantRun
  rw [hg, Option.map_some, Option.some.injEq, Prod.mk.injEq] at hstate
  obtain ⟨hissued, hexpiry⟩ := hstate
  refine ⟨fun _ => ?_, fun hconsumed => ?_, fun _ _ c hc => ?_⟩
  · rw [show g.expiresAt = ⟨"2026-02-01T00:00:00.000Z", by decide⟩ from
      IsoTimestamp.ext hexpiry]
    show "2026-01-01T00:00:00.000Z" < "2026-02-01T00:00:00.000Z"
    decide
  · rw [hissued] at hconsumed
    cases hconsumed
  · have hall : ∀ c ∈ (reached options grantRun).ledger.cases.rows, c.status ≠ .closed := by
      decide
    exact hall c (Table.mem_of_find? hc)

open Sample in
/-- At the instant of its expiry the quota still offers the slot of a grant. -/
theorem quota_outlives_grant :
    (hostAt "2026-02-01T00:00:00.000Z").Undisturbed (reached options grantRun) ∧
      (hostAt "2026-02-01T00:00:00.000Z").DrawsFreshDump (reached options grantRun) ∧
      ¬ QuotaAgrees options (hostAt "2026-02-01T00:00:00.000Z") (reached options grantRun)
        ⟨"2026-02-01T00:00:00.000Z", by decide⟩ "0123456789abcdefghijklmnop"
        "crash.dmp" := by
  have hu := @hostAt_undisturbed "2026-02-01T00:00:00.000Z" (by decide)
  refine ⟨hu, hostAt_fresh, fun h => ?_⟩
  have hcurrent := (quotaAgrees_iff ⟨"crash.dmp", by decide⟩ hu
    (reached_linked grantRun) rfl hostAt_fresh).mp h
  obtain ⟨g, hg, hstate⟩ := Option.map_eq_some_iff.mp grantOf_grantRun
  obtain ⟨hissued, hexpiry⟩ := Prod.mk.inj hstate
  have hahead := (hcurrent g hg).1 (Or.inl hissued)
  rw [show g.expiresAt = ⟨"2026-02-01T00:00:00.000Z", by decide⟩ from
    IsoTimestamp.ext hexpiry] at hahead
  exact lt_irrefl _ hahead

end DumpLedger
