import DumpLedger.Engine.Run
import DumpLedger.Engine.Storage

/-!
# The symbol store

The ledger keeps a module row for each identity pair and an artifact row for each stored
artifact; the vault keeps the artifact's bytes. `SealSymbol` promotes the bytes before it
writes the rows, `PurgeSymbol` removes them before it deletes the rows.

* `symbolTables_run` — one artifact per module row, whatever the transactions
* `symbolVault_step` — an artifact row for each object, as long as the module identifier of
  a pair to be sealed is free and nothing fails between the two stores
* `symbol_store` — what a caller sees of it, at every point of a run
-/

namespace DumpLedger

open Lib SqliteLedger

/-! ## The two tables -/

/-- A module row stands for one artifact, of the kind whose pair it holds. -/
structure SymbolTables (sha256 : Bytes → Sha256) (l : SqliteLedger) : Prop where
  linked : ∀ a ∈ l.symbolArtifacts, ∃ m ∈ l.modules, ∃ i, m.moduleId = a.moduleId ∧
    m.identity a.kind = some i ∧ a.moduleId = moduleIdFor sha256 i
  referenced : ∀ m ∈ l.modules, ∃ a ∈ l.symbolArtifacts, a.moduleId = m.moduleId
  single : ∀ a ∈ l.symbolArtifacts, ∀ b ∈ l.symbolArtifacts, a.moduleId = b.moduleId → a = b
  oneKind : ∀ m ∈ l.modules, ∀ kind kind' i i', m.identity kind = some i →
    m.identity kind' = some i' → kind = kind'

section Tables

variable {sha256 : Bytes → Sha256} {l l' : SqliteLedger} {event : EventIdentity}

/-- The row the lookup by a pair stops at. -/
theorem resolvesTo_of_find? {i : SymbolIdentity} {kind : SymbolArtifactKind} {a : SymbolArtifactRow}
    (h : (l.symbolArtifacts.rows.find? fun a => decide (l.resolvesTo a i kind)) = some a) :
    a ∈ l.symbolArtifacts ∧ l.resolvesTo a i kind :=
  ⟨List.mem_of_find?_eq_some h, by simpa using List.find?_some h⟩

theorem symbolTables_fresh : SymbolTables sha256 .fresh :=
  ⟨fun _ h => absurd h Table.not_mem_empty, fun _ h => absurd h Table.not_mem_empty,
    fun _ h => absurd h Table.not_mem_empty, fun _ h => absurd h Table.not_mem_empty⟩

namespace SymbolTables

/-- The module row of an artifact is found by its identifier. -/
theorem find_module (h : SymbolTables sha256 l) {a : SymbolArtifactRow}
    (ha : a ∈ l.symbolArtifacts) : ∃ m i, l.modules.find? a.moduleId = some m ∧
      m.identity a.kind = some i ∧ a.moduleId = moduleIdFor sha256 i := by
  obtain ⟨m, hm, i, hid, hi, hmod⟩ := h.linked a ha
  exact ⟨m, i, Table.find?_eq_some.mpr ⟨hm, hid⟩, hi, hmod⟩

/-- What an artifact resolves by determines its module identifier. -/
theorem moduleId_of_resolvesTo (h : SymbolTables sha256 l) {a : SymbolArtifactRow}
    (ha : a ∈ l.symbolArtifacts) {i : SymbolIdentity} {kind : SymbolArtifactKind}
    (hr : l.resolvesTo a i kind) : a.moduleId = moduleIdFor sha256 i := by
  obtain ⟨rfl, m, hm, hi⟩ := hr
  obtain ⟨m', i', hm', hi', hmod⟩ := h.find_module ha
  rw [Option.mem_def, hm', Option.some.injEq] at hm
  subst hm
  rw [hi', Option.some.injEq] at hi
  rw [hmod, hi]

/-- At most one artifact resolves to an identity of a kind. -/
theorem unique (h : SymbolTables sha256 l) {a b : SymbolArtifactRow} (ha : a ∈ l.symbolArtifacts)
    (hb : b ∈ l.symbolArtifacts) {i : SymbolIdentity} {kind : SymbolArtifactKind}
    (hra : l.resolvesTo a i kind) (hrb : l.resolvesTo b i kind) : a = b :=
  h.single a ha b hb
    ((h.moduleId_of_resolvesTo ha hra).trans (h.moduleId_of_resolvesTo hb hrb).symm)

theorem joined_isSome (h : SymbolTables sha256 l) {a : SymbolArtifactRow}
    (ha : a ∈ l.symbolArtifacts) : ∃ m, l.joined a = some (StoredSymbolArtifact.ofRows a m) ∧
      l.modules.find? a.moduleId = some m := by
  obtain ⟨m, i, hm, -, -⟩ := h.find_module ha
  exact ⟨m, by rw [joined, hm]; rfl, hm⟩

theorem findSymbolArtifact_eq_none (h : SymbolTables sha256 l) {i : SymbolIdentity}
    {kind : SymbolArtifactKind} :
    l.findSymbolArtifact i kind = none ↔ ∀ a ∈ l.symbolArtifacts, ¬ l.resolvesTo a i kind := by
  rw [findSymbolArtifact, Option.bind_eq_none_iff]
  constructor
  · intro hnone a ha hr
    cases hf : l.symbolArtifacts.rows.find? fun a => decide (l.resolvesTo a i kind) with
    | none => exact List.find?_eq_none.mp hf a ha (decide_eq_true hr)
    | some b =>
      obtain ⟨m, hm, -⟩ := h.joined_isSome (resolvesTo_of_find? hf).1
      rw [hnone b hf] at hm
      cases hm
  · intro hnone b hb
    exact absurd (resolvesTo_of_find? hb).2 (hnone b (resolvesTo_of_find? hb).1)

/-- A stored artifact is one row that resolves to the pair, and the only one. -/
theorem findSymbolArtifact_eq_some (h : SymbolTables sha256 l) {i : SymbolIdentity}
    {kind : SymbolArtifactKind} {artifact : StoredSymbolArtifact} :
    l.findSymbolArtifact i kind = some artifact ↔
      ∃ a ∈ l.symbolArtifacts, l.resolvesTo a i kind ∧ l.joined a = some artifact := by
  rw [findSymbolArtifact, Option.bind_eq_some_iff]
  constructor
  · rintro ⟨a, hf, hj⟩
    exact ⟨a, (resolvesTo_of_find? hf).1, (resolvesTo_of_find? hf).2, hj⟩
  · rintro ⟨a, ha, hr, hj⟩
    cases hf : l.symbolArtifacts.rows.find? fun a => decide (l.resolvesTo a i kind) with
    | none => exact absurd (decide_eq_true hr) (List.find?_eq_none.mp hf a ha)
    | some b =>
      have heq := h.unique (resolvesTo_of_find? hf).1 ha (resolvesTo_of_find? hf).2 hr
      exact ⟨b, rfl, by rw [heq, hj]⟩

end SymbolTables

/-! ### Sealing and purging -/

/-- The rows of an artifact that is sealed. -/
structure SealedRows (sha256 : Bytes → Sha256) (l l' : SqliteLedger)
    (insert : SymbolArtifactInsert) (event : EventIdentity) : Prop where
  modules : ∃ h, l'.modules = l.modules.insert
    (ModuleRow.ofIdentity (moduleIdFor sha256 insert.identity) insert.kind insert.identity
      insert.product insert.version insert.arch event.occurredAt) h
  artifacts : ∃ h, l'.symbolArtifacts = l.symbolArtifacts.insert
    ⟨insert.artifactId, moduleIdFor sha256 insert.identity, insert.kind, insert.byteSize,
      insert.sha256, event.occurredAt⟩ h

/-- A module row with the pair of a kind has its artifact, so a pair that is not stored has
no module row either. -/
theorem insertModule_of_not_stored (ht : SymbolTables sha256 l) {i : SymbolIdentity}
    {kind : SymbolArtifactKind} (hnone : l.findSymbolArtifact i kind = none) :
    ¬ ∃ m ∈ l.modules, m.identity kind = some i := by
  rintro ⟨m, hm, hi⟩
  obtain ⟨a, ha, hid⟩ := ht.referenced m hm
  obtain ⟨m', i', hm', hi', -⟩ := ht.find_module ha
  obtain rfl : m' = m := Table.eq_of_key (Table.mem_of_find? hm') hm
    ((Table.key_of_find? hm').trans hid)
  obtain rfl := ht.oneKind m' hm _ _ _ _ hi' hi
  exact (ht.findSymbolArtifact_eq_none.mp hnone) a ha ⟨rfl, m', hm', hi⟩

theorem sealSymbolArtifact_rows (ht : SymbolTables sha256 l) {insert : SymbolArtifactInsert}
    {out : StoredSymbolArtifact × Bool}
    (h : sealSymbolArtifact sha256 l insert event = .ok (out, l')) :
    (l.findSymbolArtifact insert.identity insert.kind = some out.1 ∧ out.2 = true ∧ l' = l) ∨
      (l.findSymbolArtifact insert.identity insert.kind = none ∧ out.2 = false ∧
        l'.findSymbolArtifact insert.identity insert.kind = some out.1 ∧
        out.1.artifactId = insert.artifactId ∧ SealedRows sha256 l l' insert event) := by
  obtain ⟨artifact, deduplicated⟩ := out
  rcases sealSymbolArtifact_ok_cases h with ⟨hs, rfl, rfl⟩ | ⟨hn, rfl, l₁, l₂, h₁, h₂, he, hl, hf, hid⟩
  · exact Or.inl ⟨hs, rfl, rfl⟩
  · refine Or.inr ⟨hn, rfl, hf, hid, ?_⟩
    rcases insertModule_eq_ok.mp h₁ with ⟨hex, -⟩ | ⟨-, hm, rfl⟩
    · exact absurd hex (insertModule_of_not_stored ht hn)
    · obtain ⟨-, -, ha, rfl⟩ := insertSymbolArtifact_eq_ok.mp h₂
      subst hl
      exact ⟨⟨hm, rfl⟩, ⟨ha, rfl⟩⟩

theorem symbolTables_sealed (ht : SymbolTables sha256 l) {insert : SymbolArtifactInsert}
    (h : SealedRows sha256 l l' insert event) : SymbolTables sha256 l' := by
  obtain ⟨⟨hm, hmodules⟩, ⟨ha, hartifacts⟩⟩ := h
  have hfree : ∀ a ∈ l.symbolArtifacts, a.moduleId ≠ moduleIdFor sha256 insert.identity := by
    intro a hmem he
    obtain ⟨m, i, hfind, -, -⟩ := ht.find_module hmem
    rw [he] at hfind
    exact nomatch hfind.symm.trans hm
  refine ⟨fun a hmem => ?_, fun m hmem => ?_, fun a hmem b hmemb heq => ?_, fun m hmem => ?_⟩
  · rw [hartifacts, Table.mem_insert] at hmem
    rw [hmodules]
    rcases hmem with hmem | rfl
    · obtain ⟨m, hmm, i, hid, hi, hmod⟩ := ht.linked a hmem
      exact ⟨m, Table.mem_insert.mpr (Or.inl hmm), i, hid, hi, hmod⟩
    · refine ⟨_, Table.mem_insert.mpr (Or.inr rfl), insert.identity, rfl, ?_, rfl⟩
      rw [ModuleRow.identity_ofIdentity, if_pos rfl]
  · rw [hmodules, Table.mem_insert] at hmem
    rw [hartifacts]
    rcases hmem with hmem | rfl
    · obtain ⟨a, haa, hid⟩ := ht.referenced m hmem
      exact ⟨a, Table.mem_insert.mpr (Or.inl haa), hid⟩
    · exact ⟨_, Table.mem_insert.mpr (Or.inr rfl), rfl⟩
  · rw [hartifacts, Table.mem_insert] at hmem hmemb
    rcases hmem with hmem | rfl <;> rcases hmemb with hmemb | rfl
    · exact ht.single a hmem b hmemb heq
    · exact absurd heq (hfree a hmem)
    · exact absurd heq.symm (hfree b hmemb)
    · rfl
  · rw [hmodules, Table.mem_insert] at hmem
    rcases hmem with hmem | rfl
    · exact ht.oneKind m hmem
    · intro kind kind' i i' hi hi'
      rw [ModuleRow.identity_ofIdentity] at hi hi'
      by_cases h₁ : kind = insert.kind <;> by_cases h₂ : kind' = insert.kind
      · rw [h₁, h₂]
      · rw [if_neg h₂] at hi'
        cases hi'
      · rw [if_neg h₁] at hi
        cases hi
      · rw [if_neg h₁] at hi
        cases hi

/-- The pair a stored artifact is purged by is the one it resolves by. -/
theorem artifactIdentityPair_ofRows {a : SymbolArtifactRow} {m : ModuleRow} {i : SymbolIdentity} :
    artifactIdentityPair (StoredSymbolArtifact.ofRows a m) = .ok i ↔
      m.identity a.kind = some i := by
  unfold artifactIdentityPair
  cases hk : a.kind <;>
    simp only [StoredSymbolArtifact.ofRows, hk, orThrow_eq_ok, ModuleRow.identity]

/-- An artifact and its module row go together. -/
structure PurgedRows (l l' : SqliteLedger) (a : SymbolArtifactRow) : Prop where
  member : a ∈ l.symbolArtifacts
  modules : l'.modules = l.modules.delete fun m => decide (m.moduleId = a.moduleId)
  artifacts : l'.symbolArtifacts =
    l.symbolArtifacts.delete fun b => decide (b.artifactId = a.artifactId)

theorem purgeSymbolArtifact_rows (ht : SymbolTables sha256 l) {artifactId : SymbolArtifactId}
    (h : purgeSymbolArtifact sha256 l artifactId event = .ok l') :
    ∃ a, a.artifactId = artifactId ∧ PurgedRows l l' a := by
  obtain ⟨artifact, i, hfind, hpair, he, rfl⟩ := purgeSymbolArtifact_eq_ok.mp h
  obtain ⟨a, ha, hjoin⟩ := Option.bind_eq_some_iff.mp hfind
  have hmem := Table.mem_of_find? ha
  have hid : a.artifactId = artifactId := Table.key_of_find? ha
  obtain ⟨m, hm, hmod⟩ := ht.joined_isSome hmem
  rw [hm, Option.some.injEq] at hjoin
  subst hjoin
  have hi := artifactIdentityPair_ofRows.mp hpair
  have hmodule : a.moduleId = moduleIdFor sha256 i :=
    ht.moduleId_of_resolvesTo hmem ⟨rfl, m, hmod, hi⟩
  refine ⟨a, hid, hmem, ?_, ?_⟩
  · rw [hmodule]
    refine if_neg ?_
    rintro ⟨b, hb, hbm⟩
    rw [Table.mem_rows, Table.mem_delete] at hb
    have hba : b = a := ht.single b hb.1 a hmem (hbm.trans hmodule.symm)
    rw [hba, hid] at hb
    simp at hb
  · rw [hid]
    rfl

theorem symbolTables_purged (ht : SymbolTables sha256 l) {a : SymbolArtifactRow}
    (h : PurgedRows l l' a) : SymbolTables sha256 l' := by
  obtain ⟨hmem, hmodules, hartifacts⟩ := h
  have hkept : ∀ b, b ∈ l'.symbolArtifacts → b ∈ l.symbolArtifacts ∧ b.moduleId ≠ a.moduleId := by
    intro b hb
    rw [hartifacts, Table.mem_delete, decide_eq_false_iff_not] at hb
    exact ⟨hb.1, fun he => hb.2 (by rw [ht.single b hb.1 a hmem he])⟩
  refine ⟨fun b hb => ?_, fun m hm => ?_, fun b hb c hc => ?_, fun m hm => ?_⟩
  · obtain ⟨hb, hne⟩ := hkept b hb
    obtain ⟨m, hm, i, hid, hi, hmod⟩ := ht.linked b hb
    refine ⟨m, ?_, i, hid, hi, hmod⟩
    rw [hmodules, Table.mem_delete, decide_eq_false_iff_not]
    exact ⟨hm, fun he => hne (hid.symm.trans he)⟩
  · rw [hmodules, Table.mem_delete, decide_eq_false_iff_not] at hm
    obtain ⟨b, hb, hid⟩ := ht.referenced m hm.1
    refine ⟨b, ?_, hid⟩
    rw [hartifacts, Table.mem_delete, decide_eq_false_iff_not]
    exact ⟨hb, fun he => hm.2 (hid.symm.trans (by rw [Table.eq_of_key hb hmem he]))⟩
  · exact ht.single b (hkept b hb).1 c (hkept c hc).1
  · rw [hmodules, Table.mem_delete] at hm
    exact ht.oneKind m hm.1

/-- **Every transaction keeps the two tables in step.** -/
theorem symbolTables_run {op : LedgerOp} {r : LedgerResult} (ht : SymbolTables sha256 l)
    (h : op.run sha256 event l = .ok (r, l')) : SymbolTables sha256 l' := by
  have hchange := (run_changes h).symbols
  generalize hmodules : l'.modules = modules at hchange
  generalize hartifacts : l'.symbolArtifacts = artifacts at hchange
  cases hchange with
  | same =>
    obtain ⟨h₁, h₂, h₃, h₄⟩ := ht
    rw [← hmodules, ← hartifacts] at h₁ h₂
    rw [← hartifacts] at h₃
    rw [← hmodules] at h₄
    exact ⟨h₁, h₂, h₃, h₄⟩
  | «sealed» insert hop =>
    subst hop
    simp only [LedgerOp.run, LedgerOp.withResult_eq_ok] at h
    obtain ⟨out, hseal, -⟩ := h
    rcases sealSymbolArtifact_rows ht hseal with ⟨-, -, rfl⟩ | ⟨-, -, -, -, hrows⟩
    · exact ht
    · exact symbolTables_sealed ht hrows
  | purged artifactId hop =>
    subst hop
    simp only [LedgerOp.run, LedgerOp.noResult_eq_ok] at h
    obtain ⟨a, -, hrows⟩ := purgeSymbolArtifact_rows ht h.1
    exact symbolTables_purged ht hrows

variable (event) in
/-- A pair whose module identifier is free can be sealed under a free artifact identifier. -/
theorem sealSymbolArtifact_new (ht : SymbolTables sha256 l) {insert : SymbolArtifactInsert}
    (hnone : l.findSymbolArtifact insert.identity insert.kind = none)
    (hm : l.modules.find? (moduleIdFor sha256 insert.identity) = none)
    (ha : l.symbolArtifacts.find? insert.artifactId = none)
    (he : l.auditEvents.find? event.eventId = none) :
    ∃ artifact l', sealSymbolArtifact sha256 l insert event = .ok ((artifact, false), l') := by
  let moduleRow := ModuleRow.ofIdentity (moduleIdFor sha256 insert.identity) insert.kind
    insert.identity insert.product insert.version insert.arch event.occurredAt
  let artifactRow : SymbolArtifactRow := ⟨insert.artifactId, moduleIdFor sha256 insert.identity,
    insert.kind, insert.byteSize, insert.sha256, event.occurredAt⟩
  let l₁ : SqliteLedger := { l with modules := l.modules.insert moduleRow hm }
  let l₂ : SqliteLedger := { l₁ with symbolArtifacts := l.symbolArtifacts.insert artifactRow ha }
  let l₃ := l₂.audited (auditRow event .ingestSymbol none none none (ingestDetail insert)) he
  have h₁ : l.insertModule moduleRow insert.kind insert.identity = .ok l₁ :=
    insertModule_eq_ok.mpr (Or.inr ⟨insertModule_of_not_stored ht hnone, hm, rfl⟩)
  have h₂ : l₁.insertSymbolArtifact artifactRow = .ok l₂ := by
    refine insertSymbolArtifact_eq_ok.mpr ⟨?_, fun a hmem hid => ?_, ha, rfl⟩
    · exact Table.contains_iff.mpr ⟨moduleRow, Table.mem_insert_self hm, rfl⟩
    · obtain ⟨m, i, hfind, -, -⟩ := ht.find_module hmem
      rw [hid] at hfind
      exact nomatch hfind.symm.trans hm
  have h₃ : l₂.insertAudit event .ingestSymbol none none none (ingestDetail insert) = .ok l₃ :=
    insertAudit_eq_ok.mpr ⟨⟨by simp, by simp, by simp⟩, he, rfl⟩
  -- the row is read back before the transaction commits
  have ht₃ : SymbolTables sha256 l₃ :=
    symbolTables_sealed ht (⟨⟨hm, rfl⟩, ⟨ha, rfl⟩⟩ : SealedRows sha256 l l₃ insert event)
  have hmodule : l₃.modules.find? (moduleIdFor sha256 insert.identity) = some moduleRow :=
    Table.find?_insert_self hm
  have hread : l₃.findSymbolArtifact insert.identity insert.kind =
      some (StoredSymbolArtifact.ofRows artifactRow moduleRow) := by
    refine ht₃.findSymbolArtifact_eq_some.mpr
      ⟨artifactRow, Table.mem_insert_self ha, ⟨rfl, moduleRow, hmodule, ?_⟩, ?_⟩
    · exact ModuleRow.identity_ofIdentity.trans (if_pos rfl)
    · exact congrArg (Option.map _) hmodule
  refine ⟨StoredSymbolArtifact.ofRows artifactRow moduleRow, l₃, ?_⟩
  unfold sealSymbolArtifact
  rw [hnone]
  simp only [bind_eq_ok, orThrow_eq_ok, Option.filter_eq_some_iff, pure_eq_ok, decide_eq_true_eq]
  exact ⟨l₁, h₁, l₂, h₂, l₃, h₃, _, ⟨hread, rfl⟩, rfl⟩

end Tables

/-! ## The tables and the vault -/

/-- Every stored artifact has its object and every object its row; what is still being
staged has neither. -/
structure SymbolVault (w : World) : Prop where
  stored : ∀ id, w.ledger.symbolArtifacts.contains id = w.vaults.symbols.objects.contains id
  apart : ∀ id, w.ledger.symbolArtifacts.contains id = true →
    w.vaults.symbols.staging.contains id = false

/-- A pair that is not stored for the kind has a free module identifier: no artifact of the
other kind has taken it. -/
def ModuleFree (options : EngineOptions) (l : SqliteLedger) (insert : SymbolArtifactInsert) : Prop :=
  l.findSymbolArtifact insert.identity insert.kind = none →
    l.modules.find? (moduleIdFor options.digests.sha256 insert.identity) = none

/-- What a run of the symbol commands has to meet. -/
def SymbolCondition (options : EngineOptions) (w : World) : Event → Prop
  | .command host (.ingestSymbol _) => w.ledger.symbolArtifacts.contains host.symbolId = false
  | .command host (.sealSymbol fields) => host.Undisturbed w ∧
    ∀ insert, checkSealSymbol fields = .ok insert → ModuleFree options w.ledger insert
  | .command host (.purgeSymbol _) => host.Undisturbed w
  | _ => True

section Worlds

variable {options : EngineOptions} {host : Host} {w w' : World} {command : Command}

theorem symbolVault_fresh : SymbolVault .fresh := ⟨fun _ => rfl, fun _ h => nomatch h⟩

theorem SymbolVault.congr (h : SymbolVault w)
    (hrows : w'.ledger.symbolArtifacts = w.ledger.symbolArtifacts)
    (hobjects : w'.vaults.symbols.objects = w.vaults.symbols.objects)
    (hstaging : ∀ id, w.ledger.symbolArtifacts.contains id = true →
      w.vaults.symbols.staging.contains id = false →
        w'.vaults.symbols.staging.contains id = false) : SymbolVault w' where
  stored id := by rw [hrows, hobjects, h.stored id]
  apart id hid := by
    rw [hrows] at hid
    exact hstaging id hid (h.apart id hid)

variable (options w) in
/-- Only `SealSymbol` and `PurgeSymbol` write the two tables. -/
theorem step_tables {e : Event}
    (h : ∀ host command, e = .command host command →
      command.type ≠ .sealSymbol ∧ command.type ≠ .purgeSymbol) :
    (step options w e).ledger.symbolArtifacts = w.ledger.symbolArtifacts := by
  rcases step_ledger options w e with hl | ⟨host, command, p, op, r, hc⟩
  · rw [hl]
  · obtain ⟨hseal, hpurge⟩ := h host command hc.event
    rw [← plan_action hc.plan hc.ledger] at hseal hpurge
    have hchange := (run_changes hc.run).symbols
    generalize (step options w e).ledger.modules = modules,
      (step options w e).ledger.symbolArtifacts = artifacts at hchange ⊢
    cases hchange with
    | same => rfl
    | «sealed» _ hop => exact absurd (by rw [hop]; rfl) hseal
    | purged _ hop => exact absurd (by rw [hop]; rfl) hpurge

/-- A restart changes neither store's keys. -/
theorem SymbolVault.settle {out : Outcome × World} (h : SymbolVault out.2) :
    SymbolVault (settle out) := by
  obtain ⟨outcome, w⟩ := out
  cases outcome with
  | receipt _ => exact h
  | crashed => exact h.congr rfl rfl fun id _ hs => ObjectStore.contains_reopen.trans hs

variable (options w) in
/-- A caller's steps and a restart write staging files at most, and add or remove none. -/
theorem step_symbols {e : Event} (he : ∀ host command, e ≠ .command host command) :
    (step options w e).vaults.symbols.objects = w.vaults.symbols.objects ∧
      ∀ id, (step options w e).vaults.symbols.staging.contains id =
        w.vaults.symbols.staging.contains id := by
  cases e with
  | command host command => exact absurd rfl (he host command)
  | append | syncAndClose =>
    simp only [step, World.symbols_onDumps, implies_true, and_self]
  | stageImport | dropImport =>
    simp only [step]
    split <;> simp only [World.symbols_onDumps, implies_true, and_self]
  | appendSymbol nowMs artifactId bytes =>
    simp only [step]
    cases happ : w.vaults.symbols.append nowMs artifactId bytes with
    | error e => exact ⟨rfl, fun _ => rfl⟩
    | ok s =>
      obtain ⟨f, -, -, rfl⟩ := ObjectStore.append_eq_ok.mp happ
      exact ⟨rfl, fun _ => by simp only [World.onSymbols, Table.contains_updateKey]⟩
  | syncAndCloseSymbol artifactId =>
    simp only [step]
    cases hsync : w.vaults.symbols.syncAndClose artifactId with
    | error e => exact ⟨rfl, fun _ => rfl⟩
    | ok s =>
      obtain ⟨f, -, rfl⟩ := ObjectStore.syncAndClose_eq_ok.mp hsync
      exact ⟨rfl, fun _ => by simp only [World.onSymbols, Table.contains_updateKey]⟩
  | reopen => exact ⟨rfl, fun _ => ObjectStore.contains_reopen⟩

/-- The commands that touch no object: their rows and objects are as before. -/
theorem symbolVault_command (h : SymbolVault w)
    (hrows : (execute options host w command).2.ledger.symbolArtifacts = w.ledger.symbolArtifacts)
    (hstores : ∀ op, command.Stores host op → (∀ a, op ≠ .promoteSymbol a) ∧
      (∀ a, op ≠ .removeSymbol a) ∧ ∀ a, op = .createSymbolStaging a →
        w.ledger.symbolArtifacts.contains a = false) :
    SymbolVault (execute options host w command).2 := by
  have hs := execute_symbols options host w command
  generalize (execute options host w command).2 = w' at hrows hs ⊢
  generalize hsymbols : w'.vaults.symbols = symbols at hs
  cases hs with
  | kept => exact h.congr hrows (by rw [hsymbols]) fun id _ hid => by rw [hsymbols, hid]
  | @done op v' hop hrun =>
    obtain ⟨hpromote, hremove, hcreate⟩ := hstores op hop
    cases op with
    | promoteSymbol a => exact absurd rfl (hpromote a)
    | removeSymbol a => exact absurd rfl (hremove a)
    | createSymbolStaging a =>
      simp only [StorageOp.run, bind_eq_ok, pure_eq_ok] at hrun
      obtain ⟨s, hs, rfl⟩ := hrun
      obtain ⟨hfree, rfl⟩ := ObjectStore.createStaging_eq_ok.mp hs
      refine h.congr hrows (by rw [hsymbols]) fun id hid hstaged => ?_
      rw [hsymbols, Table.contains_insert, hstaged, Bool.or_false, decide_eq_false_iff_not]
      -- the new staging file has an identifier without a row
      rintro rfl
      exact Bool.false_ne_true ((hcreate a rfl).symm.trans hid)
    | removeSymbolStaging a =>
      cases hrun
      refine h.congr hrows (by rw [hsymbols]; rfl) fun id _ hstaged => ?_
      rw [hsymbols, ObjectStore.contains_removeStaging, hstaged, Bool.and_false]
    | createStaging | promote =>
      simp only [StorageOp.run, bind_eq_ok, pure_eq_ok] at hrun
      obtain ⟨_, -, rfl⟩ := hrun
      exact h.congr hrows (by rw [hsymbols]) fun id _ hid => by rw [hsymbols, hid]
    | removeStaging | remove =>
      cases hrun
      exact h.congr hrows (by rw [hsymbols]) fun id _ hid => by rw [hsymbols, hid]

/-! ### Sealing -/

variable {fields : SealSymbolFields} {insert : SymbolArtifactInsert} {occurredAt : IsoTimestamp}

variable (options w) in
theorem plan_sealSymbol (hclock : occurredAt.text = host.now)
    (hcheck : checkSealSymbol fields = .ok insert) :
    plan options host w (.sealSymbol fields) = .ok (sealSymbolPlan host w occurredAt insert) :=
  plan_eq_ok.mpr ⟨occurredAt, hclock, bind_eq_ok.mpr ⟨insert, hcheck, rfl⟩⟩

theorem sealSymbolPlan_some {existing : StoredSymbolArtifact}
    (h : w.ledger.findSymbolArtifact insert.identity insert.kind = some existing) :
    sealSymbolPlan host w occurredAt insert =
      { event := host.event occurredAt,
        storage := some (.removeSymbolStaging insert.artifactId),
        receipt :=
          { action := .sealSymbol, occurredAt, artifactId := some existing.artifactId,
            deduplicated := some true } } := by
  simp only [sealSymbolPlan, h]

theorem sealSymbolPlan_none
    (h : w.ledger.findSymbolArtifact insert.identity insert.kind = none) :
    sealSymbolPlan host w occurredAt insert =
      storagePlan host occurredAt (.promoteSymbol insert.artifactId) (.sealSymbolArtifact insert)
        { action := .sealSymbol, occurredAt } := by
  simp only [sealSymbolPlan, h]

variable (options) in
/-- An identity that is stored drops the staging file and nothing else. -/
theorem execute_seal_stored (hu : host.Undisturbed w) (hcheck : checkSealSymbol fields = .ok insert)
    {existing : StoredSymbolArtifact}
    (h : w.ledger.findSymbolArtifact insert.identity insert.kind = some existing) :
    ∃ receipt : TransitionSuccess, receipt.artifactId = some existing.artifactId ∧
      receipt.deduplicated = some true ∧
      execute options host w (.sealSymbol fields) = (.receipt (.success receipt),
        ⟨w.ledger, { w.vaults with
          symbols := w.vaults.symbols.removeStaging insert.artifactId }⟩) := by
  obtain ⟨t, ht⟩ := hu.clock
  have hplan := plan_sealSymbol options w ht hcheck
  rw [sealSymbolPlan_some h] at hplan
  exact ⟨_, rfl, rfl, execute_of_done hplan
    (operation_eq_ok.mpr (Or.inr ⟨_, rfl, hu.storage, rfl⟩)) hu.crash
    (transaction_eq_ok.mpr (Or.inl ⟨rfl, rfl, rfl⟩))⟩

/-- A closed staging file whose identity is not stored becomes an artifact. -/
theorem execute_seal_new (ht : SymbolTables options.digests.sha256 w.ledger) (hv : SymbolVault w)
    (hu : host.Undisturbed w) (hcheck : checkSealSymbol fields = .ok insert)
    (hfree : ModuleFree options w.ledger insert)
    (h : w.ledger.findSymbolArtifact insert.identity insert.kind = none)
    {f : StagingFile SymbolArtifactId}
    (hf : w.vaults.symbols.staging.find? insert.artifactId = some f) (hclosed : f.isOpen = false) :
    ∃ event artifact receipt l' ho,
      receipt.artifactId = some insert.artifactId ∧ receipt.deduplicated = some false ∧
      sealSymbolArtifact options.digests.sha256 w.ledger insert event =
        .ok ((artifact, false), l') ∧
      execute options host w (.sealSymbol fields) = (.receipt (.success receipt),
        ⟨l', { w.vaults with
          symbols :=
            { w.vaults.symbols.removeStaging insert.artifactId with
              objects := w.vaults.symbols.objects.insert ⟨insert.artifactId, f.bytes⟩ ho } }⟩) := by
  obtain ⟨t, hclock⟩ := hu.clock
  have hplan := plan_sealSymbol options w hclock hcheck
  rw [sealSymbolPlan_none h] at hplan
  -- what is staged has no row yet, so no object either
  have hrow : w.ledger.symbolArtifacts.contains insert.artifactId = false := by
    by_contra hne
    have := hv.apart insert.artifactId (Bool.eq_true_of_not_eq_false hne)
    rw [Table.contains_of_find? hf] at this
    cases this
  have hobject : w.vaults.symbols.objects.find? insert.artifactId = none :=
    Table.contains_eq_false.mp ((hv.stored insert.artifactId).symm.trans hrow)
  have hpromote := ObjectStore.promote_eq_ok.mpr (Or.inr ⟨f, hf, hclosed, hobject, rfl⟩)
  obtain ⟨artifact, l', hseal⟩ := sealSymbolArtifact_new (host.event t) ht h (hfree h)
    (Table.contains_eq_false.mp hrow) hu.event
  have hid : artifact.artifactId = insert.artifactId := by
    rcases sealSymbolArtifact_rows ht hseal with ⟨-, hfalse, -⟩ | ⟨-, -, -, hid, -⟩
    · cases hfalse
    · exact hid
  have hrun : (LedgerOp.sealSymbolArtifact insert).run options.digests.sha256 (host.event t)
      w.ledger = .ok (.artifact artifact false, l') := by
    rw [LedgerOp.run, LedgerOp.withResult_eq_ok]
    exact ⟨(artifact, false), hseal, rfl⟩
  exact ⟨host.event t, artifact, _, l', hobject, congrArg some hid, rfl, hseal,
    execute_storagePlan hu hplan (bind_eq_ok.mpr ⟨_, hpromote, rfl⟩) hrun⟩

theorem SealedRows.contains {l l' : SqliteLedger} {event : EventIdentity}
    (h : SealedRows options.digests.sha256 l l' insert event) (id : SymbolArtifactId) :
    l'.symbolArtifacts.contains id =
      (decide (insert.artifactId = id) || l.symbolArtifacts.contains id) := by
  obtain ⟨ha, hrows⟩ := h.artifacts
  rw [hrows, Table.contains_insert]
  rfl

theorem symbolVault_seal (ht : SymbolTables options.digests.sha256 w.ledger) (hv : SymbolVault w)
    (hu : host.Undisturbed w)
    (hfree : ∀ insert, checkSealSymbol fields = .ok insert → ModuleFree options w.ledger insert) :
    SymbolVault (execute options host w (.sealSymbol fields)).2 := by
  obtain ⟨t, hclock⟩ := hu.clock
  cases hcheck : checkSealSymbol fields with
  | error e =>
    have hplan : plan options host w (.sealSymbol fields) = .error e := by
      have ht : assertIsoTimestamp host.now "clock" = .ok t := assertIsoTimestamp_eq_ok.mpr hclock
      simp only [plan, ht, planAt, planSealSymbol, hcheck]
      rfl
    simp only [execute, hplan]
    exact hv
  | ok insert =>
    cases hfind : w.ledger.findSymbolArtifact insert.identity insert.kind with
    | some existing =>
      obtain ⟨_, -, -, hexec⟩ := execute_seal_stored options hu hcheck hfind
      rw [hexec]
      refine hv.congr rfl rfl fun id _ hstaged => ?_
      show (w.vaults.symbols.removeStaging _).staging.contains id = false
      rw [ObjectStore.contains_removeStaging, hstaged, Bool.and_false]
    | none =>
      have hplan := plan_sealSymbol options w hclock hcheck
      rw [sealSymbolPlan_none hfind] at hplan
      cases hpromote : w.vaults.symbols.promote insert.artifactId with
      | error e =>
        have hrun : (StorageOp.promoteSymbol insert.artifactId).run host.nowMs w.vaults =
            .error e := by
          simp only [StorageOp.run, hpromote]
          rfl
        rw [execute_of_throw hplan rfl hu.storage hrun]
        exact hv
      | ok s =>
        rcases ObjectStore.promote_eq_ok.mp hpromote with ⟨hnone, hobject, rfl⟩ | ⟨f, hf, hclosed, -, -⟩
        · -- the artifact is in place already: whatever the transaction says, nothing moved
          cases hseal : sealSymbolArtifact options.digests.sha256 w.ledger insert
              (host.event t) with
          | error e =>
            have hrun : (LedgerOp.sealSymbolArtifact insert).run options.digests.sha256
                (host.event t) w.ledger = .error e := by
              simp only [LedgerOp.run, LedgerOp.withResult, hseal]
              rfl
            rw [execute_storagePlan_error hu hplan (bind_eq_ok.mpr ⟨_, hpromote, rfl⟩) hrun]
            exact hv
          | ok out =>
            obtain ⟨out, l'⟩ := out
            rcases sealSymbolArtifact_rows ht hseal with ⟨hsome, -, -⟩ | ⟨-, -, -, -, hrows⟩
            · rw [hfind] at hsome
              cases hsome
            · obtain ⟨ha, -⟩ := hrows.artifacts
              have hrow := (hv.stored insert.artifactId).trans hobject
              exact absurd ((Table.contains_eq_false.mpr ha).symm.trans hrow) Bool.false_ne_true
        · obtain ⟨event, artifact, receipt, l', ho, -, -, hseal, hexec⟩ :=
            execute_seal_new ht hv hu hcheck (hfree insert hcheck) hfind hf hclosed
          rcases sealSymbolArtifact_rows ht hseal with ⟨-, hfalse, -⟩ | ⟨-, -, -, -, hrows⟩
          · cases hfalse
          rw [hexec]
          refine ⟨fun id => ?_, fun id hid => ?_⟩
          · show l'.symbolArtifacts.contains id = Table.contains (Table.insert _ _ ho) id
            rw [hrows.contains, Table.contains_insert, hv.stored]
            rfl
          · rw [hrows.contains, Bool.or_eq_true, decide_eq_true_eq] at hid
            show (w.vaults.symbols.removeStaging _).staging.contains id = false
            rw [ObjectStore.contains_removeStaging]
            rcases hid with rfl | hid
            · simp
            · rw [hv.apart id hid, Bool.and_false]

/-! ### Purging -/

theorem findSymbolArtifactById_ne_none (ht : SymbolTables options.digests.sha256 w.ledger)
    {id : SymbolArtifactId} :
    w.ledger.findSymbolArtifactById id ≠ none ↔
      ∃ a ∈ w.ledger.symbolArtifacts, a.artifactId = id := by
  rw [findSymbolArtifactById, ne_eq, Option.bind_eq_none_iff, not_forall]
  constructor
  · rintro ⟨a, ha⟩
    rw [Classical.not_imp] at ha
    exact ⟨a, Table.mem_of_find? ha.1, Table.key_of_find? ha.1⟩
  · rintro ⟨a, ha, rfl⟩
    refine ⟨a, fun h => ?_⟩
    obtain ⟨m, hm, -⟩ := ht.joined_isSome ha
    rw [h (Table.find?_key ha)] at hm
    cases hm

/-- An artifact can always be purged. -/
theorem execute_purge (ht : SymbolTables options.digests.sha256 w.ledger)
    (hu : host.Undisturbed w) {a : SymbolArtifactRow} (ha : a ∈ w.ledger.symbolArtifacts) :
    ∃ receipt l', PurgedRows w.ledger l' a ∧
      execute options host w (.purgeSymbol a.artifactId.text) = (.receipt (.success receipt),
        ⟨l', { w.vaults with symbols := w.vaults.symbols.remove a.artifactId }⟩) := by
  obtain ⟨t, hclock⟩ := hu.clock
  have hplan : plan options host w (.purgeSymbol a.artifactId.text) =
      .ok (storagePlan host t (.removeSymbol a.artifactId) (.purgeSymbolArtifact a.artifactId)
        { action := .purgeSymbol, occurredAt := t, artifactId := some a.artifactId }) := by
    refine plan_eq_ok.mpr ⟨t, hclock, bind_eq_ok.mpr ⟨a.artifactId,
      parseIdentifier_eq_ok.mpr rfl, bind_eq_ok.mpr ⟨(), guardThat_eq_ok.mpr ?_, rfl⟩⟩⟩
    exact (findSymbolArtifactById_ne_none ht).mpr ⟨a, ha, rfl⟩
  obtain ⟨m, hjoin, hmodule⟩ := ht.joined_isSome ha
  obtain ⟨m', i, hm', hi, -⟩ := ht.find_module ha
  rw [hmodule, Option.some.injEq] at hm'
  subst hm'
  have hfind : w.ledger.findSymbolArtifactById a.artifactId =
      some (StoredSymbolArtifact.ofRows a m) := by
    rw [findSymbolArtifactById, show w.ledger.symbolArtifacts.find? a.artifactId = some a from
      Table.find?_key ha]
    exact hjoin
  have hpurge : ∃ l', purgeSymbolArtifact options.digests.sha256 w.ledger a.artifactId
      (host.event t) = .ok l' :=
    ⟨_, purgeSymbolArtifact_eq_ok.mpr
      ⟨_, i, hfind, artifactIdentityPair_ofRows.mpr hi, hu.event, rfl⟩⟩
  obtain ⟨l', hpurge⟩ := hpurge
  obtain ⟨b, hb, hrows⟩ := purgeSymbolArtifact_rows ht hpurge
  obtain rfl : b = a := Table.eq_of_key hrows.member ha hb
  exact ⟨_, l', hrows, execute_storagePlan hu hplan rfl
    (LedgerOp.noResult_eq_ok.mpr ⟨hpurge, rfl⟩)⟩

theorem PurgedRows.contains {l l' : SqliteLedger} {a : SymbolArtifactRow} (h : PurgedRows l l' a)
    (id : SymbolArtifactId) :
    l'.symbolArtifacts.contains id = (decide (id ≠ a.artifactId) && l.symbolArtifacts.contains id) := by
  rw [h.artifacts, Table.contains, Table.find?_delete, Table.contains]
  cases hf : l.symbolArtifacts.find? id with
  | none => simp
  | some b =>
    have hid : b.artifactId = id := Table.key_of_find? hf
    by_cases he : id = a.artifactId <;> simp [Option.filter, hid, he]

theorem symbolVault_purge (ht : SymbolTables options.digests.sha256 w.ledger) (hv : SymbolVault w)
    (hu : host.Undisturbed w) (artifactId : String) :
    SymbolVault (execute options host w (.purgeSymbol artifactId)).2 := by
  cases hplan : plan options host w (.purgeSymbol artifactId) with
  | error e =>
    simp only [execute, hplan]
    exact hv
  | ok p =>
    obtain ⟨t, -, hat⟩ := plan_eq_ok.mp hplan
    obtain ⟨id, hid, hat⟩ := bind_eq_ok.mp hat
    obtain ⟨_, hguard, -⟩ := bind_eq_ok.mp hat
    obtain ⟨a, ha, rfl⟩ := (findSymbolArtifactById_ne_none ht).mp (guardThat_eq_ok.mp hguard)
    rw [← parseIdentifier_eq_ok.mp hid]
    obtain ⟨receipt, l', hrows, hexec⟩ := execute_purge ht hu ha
    rw [hexec]
    refine ⟨fun id => ?_, fun id hid => ?_⟩
    · show l'.symbolArtifacts.contains id = (w.vaults.symbols.remove a.artifactId).objects.contains id
      rw [hrows.contains, hv.stored, ObjectStore.contains_remove]
    · rw [hrows.contains, Bool.and_eq_true] at hid
      show (w.vaults.symbols.remove a.artifactId).staging.contains id = false
      rw [ObjectStore.staging_remove, ObjectStore.contains_removeStaging, hv.apart id hid.2,
        Bool.and_false]

/-! ### Every event -/

/-- **Rows and objects stay in step**, as long as nothing fails between the two stores and a
pair to be sealed has a free module identifier. -/
theorem symbolVault_step {e : Event} (ht : SymbolTables options.digests.sha256 w.ledger)
    (hv : SymbolVault w) (hcond : SymbolCondition options w e) : SymbolVault (step options w e) := by
  by_cases he : ∃ host command, e = .command host command
  · obtain ⟨host, command, rfl⟩ := he
    refine SymbolVault.settle ?_
    by_cases hseal : ∃ fields, command = .sealSymbol fields
    · obtain ⟨fields, rfl⟩ := hseal
      exact symbolVault_seal ht hv hcond.1 hcond.2
    by_cases hpurge : ∃ id, command = .purgeSymbol id
    · obtain ⟨id, rfl⟩ := hpurge
      exact symbolVault_purge ht hv hcond _
    have hrows := step_tables options w (e := .command host command)
      fun host' command' h => by
        cases h
        refine ⟨fun h => ?_, fun h => ?_⟩
        · cases command <;> cases h
          exact hseal ⟨_, rfl⟩
        · cases command <;> cases h
          exact hpurge ⟨_, rfl⟩
    rw [step, ledger_settle] at hrows
    refine symbolVault_command hv hrows fun op hop => ⟨?_, ?_, ?_⟩
    · rintro a rfl
      cases hop
      exact hseal ⟨_, rfl⟩
    · rintro a rfl
      cases hop
      exact hpurge ⟨_, rfl⟩
    · rintro a rfl
      cases hop
      exact hcond
  · obtain ⟨hobjects, hstaging⟩ := step_symbols options w
      fun host command h => he ⟨host, command, h⟩
    exact hv.congr (step_tables options w fun host command h => absurd ⟨host, command, h⟩ he) hobjects
      fun id _ hs => (hstaging id).trans hs

end Worlds

/-! ## What a caller sees -/

/-- A `SealSymbol` of a closed staging file stores it. -/
structure Seals (options : EngineOptions) (host : Host) (w : World) (fields : SealSymbolFields)
    (insert : SymbolArtifactInsert) (bytes : Bytes) : Prop where
  succeeds : (execute options host w (.sealSymbol fields)).1.succeeded = true
  row : ∃ artifact, (execute options host w (.sealSymbol fields)).2.ledger.findSymbolArtifact
    insert.identity insert.kind = some artifact ∧ artifact.artifactId = insert.artifactId
  object : (execute options host w (.sealSymbol fields)).2.vaults.symbols.object?
    insert.artifactId = some bytes

/-- A pair can be stored for a kind: every undisturbed `SealSymbol` of it stores it. -/
def Storable (options : EngineOptions) (w : World) (identity : SymbolIdentity)
    (kind : SymbolArtifactKind) : Prop :=
  ∀ host fields insert f, host.Undisturbed w → checkSealSymbol fields = .ok insert →
    insert.identity = identity → insert.kind = kind →
      w.vaults.symbols.staging.find? insert.artifactId = some f → f.isOpen = false →
        Seals options host w fields insert f.bytes

/-- A `SealSymbol` of a stored identity answers with the stored artifact and drops the
staging file. -/
structure Dedups (options : EngineOptions) (host : Host) (w : World) (fields : SealSymbolFields)
    (insert : SymbolArtifactInsert) (existing : StoredSymbolArtifact) : Prop where
  answers : ∃ receipt : TransitionSuccess,
    (execute options host w (.sealSymbol fields)).1 = .receipt (.success receipt) ∧
      receipt.artifactId = some existing.artifactId ∧ receipt.deduplicated = some true
  ledger : (execute options host w (.sealSymbol fields)).2.ledger = w.ledger
  objects : (execute options host w (.sealSymbol fields)).2.vaults.symbols.objects =
    w.vaults.symbols.objects
  staging : (execute options host w (.sealSymbol fields)).2.vaults.symbols.staging.find?
    insert.artifactId = none

structure SymbolStore (options : EngineOptions) (w : World) : Prop where
  unique : ∀ a ∈ w.ledger.symbolArtifacts, ∀ b ∈ w.ledger.symbolArtifacts, ∀ identity kind,
    w.ledger.resolvesTo a identity kind → w.ledger.resolvesTo b identity kind → a = b
  stored : ∀ a ∈ w.ledger.symbolArtifacts,
    w.vaults.symbols.objects.contains a.artifactId = true
  known : ∀ o ∈ w.vaults.symbols.objects, w.ledger.symbolArtifacts.contains o.id = true
  referenced : ∀ m ∈ w.ledger.modules, ∃ a ∈ w.ledger.symbolArtifacts, a.moduleId = m.moduleId
  seals : ∀ identity kind, w.ledger.findSymbolArtifact identity kind = none →
    w.ledger.modules.find? (moduleIdFor options.digests.sha256 identity) = none →
      Storable options w identity kind
  dedups : ∀ host fields insert existing, host.Undisturbed w →
    checkSealSymbol fields = .ok insert →
      w.ledger.findSymbolArtifact insert.identity insert.kind = some existing →
        Dedups options host w fields insert existing
  again : ∀ host identity kind existing, host.Undisturbed w →
    w.ledger.findSymbolArtifact identity kind = some existing →
      (execute options host w (.purgeSymbol existing.artifactId.text)).1.succeeded = true ∧
        Storable options (execute options host w (.purgeSymbol existing.artifactId.text)).2
          identity kind

section Callers

variable {options : EngineOptions} {host : Host} {w : World}

theorem storable_of_free (ht : SymbolTables options.digests.sha256 w.ledger) (hv : SymbolVault w)
    {identity : SymbolIdentity} {kind : SymbolArtifactKind}
    (hnone : w.ledger.findSymbolArtifact identity kind = none)
    (hfree : w.ledger.modules.find? (moduleIdFor options.digests.sha256 identity) = none) :
    Storable options w identity kind := by
  rintro host fields insert f hu hcheck rfl rfl hf hclosed
  obtain ⟨event, artifact, receipt, l', ho, -, -, hseal, hexec⟩ :=
    execute_seal_new ht hv hu hcheck (fun _ => hfree) hnone hf hclosed
  rcases sealSymbolArtifact_rows ht hseal with ⟨-, hfalse, -⟩ | ⟨-, -, hread, hid, -⟩
  · cases hfalse
  refine ⟨?_, ?_, ?_⟩
  · rw [hexec]
    rfl
  · rw [hexec]
    exact ⟨artifact, hread, hid⟩
  · rw [hexec]
    exact congrArg (Option.map StoredObject.bytes) (Table.find?_insert_self ho)

/-- A purged pair leaves neither a row of its kind nor its module behind. -/
theorem free_of_purged {l l' : SqliteLedger} {sha256 : Bytes → Sha256} {a : SymbolArtifactRow}
    {identity : SymbolIdentity} {kind : SymbolArtifactKind} (ht : SymbolTables sha256 l)
    (h : PurgedRows l l' a) (hr : l.resolvesTo a identity kind) :
    l'.findSymbolArtifact identity kind = none ∧
      l'.modules.find? (moduleIdFor sha256 identity) = none := by
  have ht' := symbolTables_purged ht h
  have hmodule := ht.moduleId_of_resolvesTo h.member hr
  have hfree : l'.modules.find? (moduleIdFor sha256 identity) = none := by
    rw [Table.find?_eq_none, h.modules]
    intro m hm hid
    rw [Table.mem_delete, decide_eq_false_iff_not] at hm
    exact hm.2 (hid.trans hmodule.symm)
  refine ⟨ht'.findSymbolArtifact_eq_none.mpr fun b hb hrb => ?_, hfree⟩
  obtain ⟨m, i, hm, -, -⟩ := ht'.find_module hb
  rw [ht'.moduleId_of_resolvesTo hb hrb, hfree] at hm
  cases hm

theorem symbolStore_of_tables (ht : SymbolTables options.digests.sha256 w.ledger)
    (hv : SymbolVault w) : SymbolStore options w where
  unique a ha b hb identity kind hra hrb := ht.unique ha hb hra hrb
  stored a ha := by
    rw [← hv.stored]
    exact Table.contains_of_find? (Table.find?_key ha)
  known o ho := by
    rw [hv.stored]
    exact Table.contains_of_find? (Table.find?_key ho)
  referenced := ht.referenced
  seals identity kind hnone hfree := storable_of_free ht hv hnone hfree
  dedups host fields insert existing hu hcheck hfind := by
    obtain ⟨receipt, hid, hdedup, hexec⟩ := execute_seal_stored options hu hcheck hfind
    refine ⟨⟨receipt, by rw [hexec], hid, hdedup⟩, by rw [hexec], by rw [hexec]; rfl, ?_⟩
    rw [hexec]
    exact ObjectStore.find?_removeStaging.trans (if_pos rfl)
  again host identity kind existing hu hfind := by
    obtain ⟨a, ha, hr, hjoin⟩ := ht.findSymbolArtifact_eq_some.mp hfind
    have hid : existing.artifactId = a.artifactId := by
      obtain ⟨m, hm, -⟩ := ht.joined_isSome ha
      rw [hm, Option.some.injEq] at hjoin
      rw [← hjoin]
      rfl
    rw [hid]
    obtain ⟨receipt, l', hrows, hexec⟩ := execute_purge ht hu ha
    have hv' := symbolVault_purge ht hv hu a.artifactId.text
    rw [hexec] at hv' ⊢
    obtain ⟨hnone, hfree⟩ := free_of_purged ht hrows hr
    exact ⟨rfl, storable_of_free (symbolTables_purged ht hrows) hv' hnone hfree⟩

/-- **The symbol store is consistent along every run** that seals a pair only under a free
module identifier, with nothing failing between the two stores. -/
theorem symbol_store (events : List Event)
    (h : Along (step options) (SymbolCondition options) World.fresh events) :
    SymbolStore options (reached options events) := by
  obtain ⟨ht, hv⟩ := invariant_along
    (I := fun w : World => SymbolTables options.digests.sha256 w.ledger ∧ SymbolVault w)
    (fun _ _ hi hcond =>
      ⟨ledger_step (fun _ _ _ _ _ => symbolTables_run) hi.1, symbolVault_step hi.1 hi.2 hcond⟩)
    ⟨symbolTables_fresh, symbolVault_fresh⟩ h
  exact symbolStore_of_tables ht hv

end Callers

namespace Sample

def symbolId (n : Fin 10) : SymbolArtifactId :=
  ⟨"symbol_0000000000000000000000000" ++ String.singleton (Nat.digitChar n),
    by revert n; decide +kernel⟩

/-- The pair `app`, `1`, as a symbol of `kind`. -/
def symbolFields (n : Fin 10) (kind : SymbolArtifactKind) : SealSymbolFields where
  artifactId := (symbolId n).text
  kind := kind
  file := "app"
  id := "1"
  byteSize := 4
  sha256 := "0bb2fcd163de4d5e0b8bebb54a4613f8693b546003870b8465a882cf080684f4"
  product := none
  version := none
  arch := none
  ingestAuth := none

/-- Four bytes are staged, closed and sealed. -/
def sealRun (n : Fin 10) (kind : SymbolArtifactKind) : List Event :=
  [.command { host n with symbolId := symbolId n } (.ingestSymbol (Vocabulary.text kind)),
    .appendSymbol 1767225600000 (symbolId n) [77, 68, 77, 80],
    .syncAndCloseSymbol (symbolId n),
    .command (host n) (.sealSymbol (symbolFields n kind))]

end Sample

/-- A symbol stored into an empty store. -/
theorem symbol_store_sealed :
    SymbolStore Sample.options (reached Sample.options (Sample.sealRun 0 .pdb)) :=
  symbol_store _ ⟨rfl, trivial, trivial,
    ⟨⟨⟨⟨"2026-01-01T00:00:00.000Z", by decide +kernel⟩, rfl⟩, rfl, rfl, rfl, by decide +kernel⟩,
      fun _ _ _ => Table.contains_eq_false.mp rfl⟩, trivial⟩

/-- The executable of a stored pair: its bytes are promoted, and its row is refused. -/
theorem symbol_store_other_kind :
    ¬ SymbolStore Sample.options
      (reached Sample.options (Sample.sealRun 0 .pdb ++ Sample.sealRun 1 .exe)) := by
  intro h
  have hobject : (reached Sample.options
      (Sample.sealRun 0 .pdb ++ Sample.sealRun 1 .exe)).vaults.symbols.objects.contains
        (Sample.symbolId 1) = true := by
    decide +kernel
  obtain ⟨o, ho, hid⟩ := Table.contains_iff.mp hobject
  have hrow := h.known o ho
  rw [show o.id = Sample.symbolId 1 from hid] at hrow
  exact absurd hrow (by decide +kernel)

end DumpLedger
