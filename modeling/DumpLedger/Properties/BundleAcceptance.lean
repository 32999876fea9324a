import DumpLedger.Properties.Manifest
import DumpLedger.Properties.TarReading
import DumpLedger.Transfer.ImportBundle

/-!
# What an accepted bundle promises

A bundle has three documents that nobody vouches for: the index of the archive, the manifest, and
the ledger. `openBundle` holds them against each other before anything of the import happens.

* `openBundle_eq_ok` — what was checked when a bundle is accepted
* `agrees_iff` — what is left to check after the acceptance: no declared dump has two rows
-/

namespace DumpLedger.ImportSession

open Lib Vocabulary Tar

/-! ## Loops and lookups -/

section Lists

variable {α β : Type}

theorem checkEach_eq_ok {check : α → Except Thrown Unit} {l : List α} {u : Unit} :
    checkEach check l = .ok u ↔ ∀ a ∈ l, check a = .ok () := by
  induction l with
  | nil => simp [checkEach]
  | cons a rest ih =>
    simp only [checkEach, bind_eq_ok, ih, List.forall_mem_cons, Unique.exists_iff]

theorem throwAfter_eq_ok {thrown : Option Thrown} {u : Unit} :
    throwAfter thrown = .ok u ↔ thrown = none := by
  cases thrown <;> simp [throwAfter]

theorem entryNamed_isSome {entries : List TarEntry} {name : String} :
    (entryNamed entries name).isSome = true ↔ ∃ e ∈ entries, e.name = name := by
  rw [entryNamed, List.find?_isSome]
  simp only [decide_eq_true_eq]

theorem entryNamed_eq_some {entries : List TarEntry} {name : String} {e : TarEntry}
    (h : entryNamed entries name = some e) : e ∈ entries ∧ e.name = name :=
  ⟨List.mem_of_find?_eq_some h, by simpa using List.find?_some h⟩

/-- The last element with a key is one of the list. -/
theorem mem_of_find?_reverse {p : α → Bool} {l : List α} {a : α}
    (h : l.reverse.find? p = some a) : a ∈ l ∧ p a = true :=
  ⟨List.mem_reverse.mp (List.mem_of_find?_eq_some h), List.find?_some h⟩

theorem find?_reverse_isSome {p : α → Bool} {l : List α} :
    (l.reverse.find? p).isSome = true ↔ ∃ a ∈ l, p a = true := by
  rw [List.find?_isSome]
  simp only [List.mem_reverse]

end Lists

theorem declaredDump_isSome {manifest : ExportManifest} {dumpId : DumpId} :
    (declaredDump manifest dumpId).isSome = true ↔
      dumpId ∈ manifest.dumps.map ExportManifestDump.dumpId := by
  rw [declaredDump, find?_reverse_isSome]
  simp only [decide_eq_true_eq, List.mem_map]

theorem declaredDump_eq_some {manifest : ExportManifest} {dumpId : DumpId}
    {declared : ExportManifestDump} (h : declaredDump manifest dumpId = some declared) :
    declared ∈ manifest.dumps ∧ declared.dumpId = dumpId := by
  obtain ⟨hmem, hid⟩ := mem_of_find?_reverse h
  exact ⟨hmem, of_decide_eq_true hid⟩

theorem isSkipped_iff {manifest : ExportManifest} {dumpId : DumpId} :
    isSkipped manifest dumpId = true ↔
      dumpId ∈ manifest.skipped.map ExportManifestSkipped.dumpId := by
  rw [isSkipped, List.any_eq_true]
  simp only [decide_eq_true_eq, List.mem_map]

/-! ## The entries of dumps -/

theorem toList_dumpEntryName (dumpId : DumpId) :
    (dumpEntryName dumpId).toList =
      "vault/".toList ++ dumpId.text.toList ++ "/original.dmp".toList := by
  simp [dumpEntryName, toString, String.toList_append]

/-- The pattern matches the names of the bytes of dumps only. -/
theorem dumpEntryName_of_vaultEntryId? {name idText : String} {dumpId : DumpId}
    (h : vaultEntryId? name = some idText) (hid : parseDumpId idText = .ok dumpId) :
    name = dumpEntryName dumpId := by
  have htext : dumpId.text = idText := parseIdentifier_eq_ok.mp hid
  unfold vaultEntryId? at h
  dsimp only at h
  split at h
  · next hmatch =>
    obtain ⟨hstart, hend, -, hlength, -⟩ := hmatch
    have hsome := Option.some.inj h
    have hrest : (name.toList.drop 6).take 31 ++ name.toList.drop 37 = name.toList.drop 6 := by
      have hdrop : (name.toList.drop 6).drop 31 = name.toList.drop 37 := by
        rw [List.drop_drop]
      rw [← hdrop, List.take_append_drop]
    have hbody : dumpId.text.toList = (name.toList.drop 6).take 31 := by
      rw [htext, ← hsome, String.toList_ofList]
    apply String.toList_injective
    rw [toList_dumpEntryName, hbody]
    calc name.toList = name.toList.take 6 ++ name.toList.drop 6 :=
          (List.take_append_drop 6 _).symm
      _ = "vault/".toList ++ ((name.toList.drop 6).take 31 ++ "/original.dmp".toList) := by
          rw [hstart, ← hend, hrest]
      _ = _ := (List.append_assoc ..).symm
  · cases h

/-! ## What was checked -/

theorem collectEntries_eq_ok {source : Bytes} {bounds : BundleBounds} {entries : List TarEntry}
    (h : collectEntries source bounds = .ok entries) :
    (∃ options, readTar source options = .ok ⟨entries, none⟩) ∧
      ∃ e ∈ entries, e.name = "manifest.json" ∧ e.size ≠ 0 := by
  simp only [collectEntries, bind_eq_ok, orThrow_eq_ok, guardThat_eq_ok, throwAfter_eq_ok,
    pure_eq_ok] at h
  obtain ⟨⟨values, thrown⟩, hread, _, -, _, hthrown, e, he, _, hsize, _, -, _, -, rfl⟩ := h
  dsimp only at hthrown
  subst hthrown
  obtain ⟨hmem, hname⟩ := entryNamed_eq_some he
  exact ⟨⟨_, hread⟩, e, hmem, hname, hsize.1⟩

/-- A row of a declared dump agrees with the manifest. -/
structure RowAgrees (declared : ExportManifestDump) (row : BundleDumpRow) : Prop where
  phase : row.phase = declared.phase.phase
  caseId : row.caseId = declared.caseId
  originalName : utf16 row.originalName = declared.originalName
  byteSize : row.byteSize = declared.byteSize
  sha256 : row.sha256 = declared.sha256.map Sha256.text

theorem checkDeclared_eq_ok {rows : BundleRows} {entries : List TarEntry}
    {declared : ExportManifestDump} {u : Unit} :
    checkDeclared rows entries declared = .ok u ↔
      (∃ row, rowOf rows declared.dumpId = some row ∧ RowAgrees declared row) ∧
        (declared.phase = .available → ∃ e ∈ entries, e.name = dumpEntryName declared.dumpId) := by
  simp only [checkDeclared, bind_eq_ok, orThrow_eq_ok, guardThat_eq_ok, exists_const,
    entryNamed_isSome]
  constructor
  · rintro ⟨row, hrow, hphase, ⟨hcase, hname⟩, ⟨hsize, hsha⟩, hentry⟩
    exact ⟨⟨row, hrow, hphase, hcase, hname, hsize, hsha⟩, hentry⟩
  · rintro ⟨⟨row, hrow, h⟩, hentry⟩
    exact ⟨row, hrow, h.phase, ⟨h.caseId, h.originalName⟩, ⟨h.byteSize, h.sha256⟩, hentry⟩

/-- An entry that the manifest declares: the bytes of an available dump, or a symbol. -/
def Declared (manifest : ExportManifest) (name : String) : Prop :=
  (∃ declared ∈ manifest.dumps, declared.phase = .available ∧
      name = dumpEntryName declared.dumpId) ∨
    ∃ symbol ∈ declaredSymbols manifest, name = symbol.entry

theorem declared_of_check {manifest : ExportManifest} {entry : TarEntry}
    (h : checkEntryDeclared manifest entry = .ok ()) (hmanifest : entry.name ≠ "manifest.json")
    (hledger : entry.name ≠ "ledger.sqlite") : Declared manifest entry.name := by
  unfold checkEntryDeclared at h
  rw [if_neg (not_or.mpr ⟨hmanifest, hledger⟩)] at h
  split at h
  · next hsymbol =>
    obtain ⟨symbol, hmem, hname⟩ := List.any_eq_true.mp hsymbol
    exact Or.inr ⟨symbol, hmem, (of_decide_eq_true hname).symm⟩
  · simp only [bind_eq_ok, orThrow_eq_ok, guardThat_eq_ok] at h
    obtain ⟨idText, hid, dumpId, hparse, declared, hdeclared, hphase⟩ := h
    obtain ⟨hmem, hkey⟩ := declaredDump_eq_some hdeclared
    refine Or.inl ⟨declared, hmem, hphase, ?_⟩
    rw [hkey]
    exact dumpEntryName_of_vaultEntryId? hid hparse

/-- The counts that the manifest has of the rows. -/
structure CountsAgree (manifest : ExportManifest) (rows : BundleRows) : Prop where
  customers : manifest.counts.customers = rows.customers.length
  cases : manifest.counts.cases = rows.cases.length
  grants : manifest.counts.grants = rows.grants.length
  auditEvents : ∀ count, manifest.counts.auditEvents = some count →
    count = (rows.auditEvents.filter (isCarried manifest)).length

/-- What `checkConsistency` lets through. -/
structure Consistent (manifest : ExportManifest) (rows : BundleRows) (entries : List TarEntry) :
    Prop where
  rowOf : ∀ declared ∈ manifest.dumps,
    ∃ row, ImportSession.rowOf rows declared.dumpId = some row ∧ RowAgrees declared row
  bytes : ∀ declared ∈ manifest.dumps, declared.phase = .available →
    ∃ e ∈ entries, e.name = dumpEntryName declared.dumpId
  listed : ∀ row ∈ rows.dumps, row.dumpId ∈ manifest.dumps.map ExportManifestDump.dumpId ∨
    row.dumpId ∈ manifest.skipped.map ExportManifestSkipped.dumpId
  symbols : ∀ symbol ∈ declaredSymbols manifest, ∃ e ∈ entries, e.name = symbol.entry
  declared : ∀ e ∈ entries, e.name ≠ "manifest.json" → e.name ≠ "ledger.sqlite" →
    Declared manifest e.name
  counts : CountsAgree manifest rows

theorem consistent_of_check {manifest : ExportManifest} {rows : BundleRows}
    {entries : List TarEntry} (h : checkConsistency manifest rows entries = .ok ()) :
    Consistent manifest rows entries := by
  simp only [checkConsistency, bind_eq_ok, checkEach_eq_ok, exists_const, checkCounts,
    guardThat_eq_ok] at h
  obtain ⟨hdeclared, hlisted, hsymbols, hentries, hcustomers, hcases, hgrants, hevents⟩ := h
  constructor
  case rowOf => exact fun d hd => (checkDeclared_eq_ok.mp (hdeclared d hd)).1
  case bytes => exact fun d hd => (checkDeclared_eq_ok.mp (hdeclared d hd)).2
  case listed =>
    intro row hrow
    have hor := guardThat_eq_ok.mp (hlisted row hrow)
    rwa [declaredDump_isSome, isSkipped_iff] at hor
  case symbols =>
    intro symbol hsymbol
    exact entryNamed_isSome.mp (guardThat_eq_ok.mp (hsymbols symbol hsymbol))
  case declared => exact fun e he => declared_of_check (hentries e he)
  case counts =>
    refine ⟨hcustomers, hcases, hgrants, fun count hcount => hevents count ?_⟩
    rw [hcount]
    rfl

/-- **What an accepted bundle has passed.** -/
theorem openBundle_eq_ok {sha256 : Bytes → Sha256} {options : ImportBundleOptions}
    {bundle : OpenBundle} (h : openBundle sha256 options = .ok bundle) :
    (∃ tarOptions, readTar bundle.source tarOptions = .ok ⟨bundle.entries, none⟩) ∧
      (∃ bytes, parseExportManifest bytes = .ok bundle.manifest) ∧
        Consistent bundle.manifest bundle.rows bundle.entries := by
  simp only [openBundle, bind_eq_ok, orThrow_eq_ok, guardThat_eq_ok, pure_eq_ok] at h
  obtain ⟨path, -, source, -, entries, hentries, manifestEntry, -, ledgerEntry, -, bytes, -,
    manifest, hparse, _, -, _, -, _, -, rows, -, _, hconsistent, rfl⟩ := h
  exact ⟨(collectEntries_eq_ok hentries).1, ⟨bytes, hparse⟩, consistent_of_check hconsistent⟩

theorem names_nodup {source : Bytes} {options : TarReaderOptions} {entries : List TarEntry}
    (h : readTar source options = .ok ⟨entries, none⟩) : (entries.map TarEntry.name).Nodup := by
  obtain ⟨bounds, -, h⟩ := bind_eq_ok.mp h
  rw [pure_eq_ok] at h
  have hsound : LoopSound source bounds ⟨0, 0, 0, []⟩ ⟨entries, none⟩ := by
    rw [← h]
    exact iterateTar_laid (Nat.zero_le _) (Nat.zero_le _)
  exact hsound.distinct

theorem rowOf_eq_some {rows : BundleRows} {dumpId : DumpId} {row : BundleDumpRow}
    (h : rowOf rows dumpId = some row) : row ∈ rows.dumps ∧ row.dumpId = dumpId := by
  obtain ⟨hmem, hid⟩ := mem_of_find?_reverse h
  exact ⟨hmem, of_decide_eq_true hid⟩

/-! ## The three documents -/

/-- The rows of the ledger that the manifest declares. -/
def declaredRows (bundle : OpenBundle) : List BundleDumpRow :=
  bundle.rows.dumps.filter fun row => (declaredDump bundle.manifest row.dumpId).isSome

/-- No declared dump has two rows. -/
def NoDoubledRow (bundle : OpenBundle) : Prop :=
  ((declaredRows bundle).map BundleDumpRow.dumpId).Nodup

instance (bundle : OpenBundle) : Decidable (NoDoubledRow bundle) :=
  inferInstanceAs (Decidable (List.Nodup _))

/-- The archive, the manifest and the ledger say the same. -/
structure Agrees (bundle : OpenBundle) : Prop where
  /-- Each name is there once, -/
  once : (bundle.entries.map TarEntry.name).Nodup
  /-- and it is declared. -/
  entries : ∀ name, name ≠ "manifest.json" → name ≠ "ledger.sqlite" →
    ((∃ e ∈ bundle.entries, e.name = name) ↔ Declared bundle.manifest name)
  listed : ∀ row ∈ bundle.rows.dumps,
    Xor (row.dumpId ∈ bundle.manifest.dumps.map ExportManifestDump.dumpId)
      (row.dumpId ∈ bundle.manifest.skipped.map ExportManifestSkipped.dumpId)
  present : ∀ declared ∈ bundle.manifest.dumps,
    ∃ row ∈ bundle.rows.dumps, row.dumpId = declared.dumpId
  rows : ∀ declared ∈ bundle.manifest.dumps, ∀ row ∈ bundle.rows.dumps,
    row.dumpId = declared.dumpId → RowAgrees declared row
  counts : CountsAgree bundle.manifest bundle.rows
  dumps : bundle.manifest.counts.dumps = (declaredRows bundle).length

section Accepted

variable {bundle : OpenBundle}

theorem mem_declaredRows {row : BundleDumpRow} :
    row ∈ declaredRows bundle ↔
      row ∈ bundle.rows.dumps ∧
        row.dumpId ∈ bundle.manifest.dumps.map ExportManifestDump.dumpId := by
  rw [declaredRows, List.mem_filter, declaredDump_isSome]

/-- The declared dumps are the ones that the declared rows are of. -/
theorem mem_declaredIds (h : Consistent bundle.manifest bundle.rows bundle.entries)
    {dumpId : DumpId} :
    dumpId ∈ (declaredRows bundle).map BundleDumpRow.dumpId ↔
      dumpId ∈ bundle.manifest.dumps.map ExportManifestDump.dumpId := by
  constructor
  · intro hid
    obtain ⟨row, hrow, rfl⟩ := List.mem_map.mp hid
    exact (mem_declaredRows.mp hrow).2
  · intro hid
    obtain ⟨declared, hdeclared, rfl⟩ := List.mem_map.mp hid
    obtain ⟨row, hrow, -⟩ := h.rowOf declared hdeclared
    obtain ⟨hmem, hkey⟩ := rowOf_eq_some hrow
    refine List.mem_map.mpr ⟨row, mem_declaredRows.mpr ⟨hmem, ?_⟩, hkey⟩
    rw [hkey]
    exact hid

/-- One row for each declared dump: the number of rows shows it. -/
theorem noDoubledRow_iff (h : Consistent bundle.manifest bundle.rows bundle.entries)
    (hvalid : bundle.manifest.Valid) :
    NoDoubledRow bundle ↔ bundle.manifest.counts.dumps = (declaredRows bundle).length := by
  have hids : (bundle.manifest.dumps.map ExportManifestDump.dumpId).Nodup :=
    (List.nodup_append.mp hvalid.unique).1
  have hcount : bundle.manifest.counts.dumps =
      (bundle.manifest.dumps.map ExportManifestDump.dumpId).length := by
    rw [hvalid.dumps_count, List.length_map]
  have hrows : (declaredRows bundle).length =
      ((declaredRows bundle).map BundleDumpRow.dumpId).length := by
    rw [List.length_map]
  rw [hcount, hrows, NoDoubledRow]
  constructor
  · intro hnodup
    have hperm := (List.perm_ext_iff_of_nodup hnodup hids).mpr fun id => mem_declaredIds h
    exact hperm.length_eq.symm
  · intro hlength
    have hsub : List.Subperm (bundle.manifest.dumps.map ExportManifestDump.dumpId)
        ((declaredRows bundle).map BundleDumpRow.dumpId) :=
      hids.subperm fun id hid => (mem_declaredIds h).mpr hid
    have hperm := hsub.perm_of_length_le hlength.ge
    exact hperm.nodup_iff.mp hids

/-- With one row for each dump, the row that was looked at is the only one. -/
theorem rowAgrees_of_noDoubledRow (h : Consistent bundle.manifest bundle.rows bundle.entries)
    (hone : NoDoubledRow bundle) {declared : ExportManifestDump}
    (hdeclared : declared ∈ bundle.manifest.dumps) {row : BundleDumpRow}
    (hrow : row ∈ bundle.rows.dumps) (hid : row.dumpId = declared.dumpId) :
    RowAgrees declared row := by
  obtain ⟨row', hrow', hagrees⟩ := h.rowOf declared hdeclared
  obtain ⟨hmem, hkey⟩ := rowOf_eq_some hrow'
  have hlisted : declared.dumpId ∈ bundle.manifest.dumps.map ExportManifestDump.dumpId :=
    List.mem_map_of_mem hdeclared
  have heq : row = row' := by
    refine List.inj_on_of_nodup_map hone (mem_declaredRows.mpr ⟨hrow, ?_⟩)
      (mem_declaredRows.mpr ⟨hmem, ?_⟩) (hid.trans hkey.symm)
    · rw [hid]
      exact hlisted
    · rw [hkey]
      exact hlisted
  rw [heq]
  exact hagrees

theorem agrees_iff (h : Consistent bundle.manifest bundle.rows bundle.entries)
    (hvalid : bundle.manifest.Valid) (honce : (bundle.entries.map TarEntry.name).Nodup) :
    Agrees bundle ↔ NoDoubledRow bundle := by
  constructor
  · intro hagrees
    exact (noDoubledRow_iff h hvalid).mpr hagrees.dumps
  · intro hone
    constructor
    case once => exact honce
    case entries =>
      intro name hmanifest hledger
      constructor
      · rintro ⟨e, he, rfl⟩
        exact h.declared e he hmanifest hledger
      · rintro (⟨declared, hdeclared, hphase, rfl⟩ | ⟨symbol, hsymbol, rfl⟩)
        · exact h.bytes declared hdeclared hphase
        · exact h.symbols symbol hsymbol
    case listed =>
      intro row hrow
      have hdisjoint := List.disjoint_of_nodup_append hvalid.unique
      rcases h.listed row hrow with hdump | hskipped
      · exact Or.inl ⟨hdump, fun hskipped => hdisjoint hdump hskipped⟩
      · exact Or.inr ⟨hskipped, fun hdump => hdisjoint hdump hskipped⟩
    case present =>
      intro declared hdeclared
      obtain ⟨row, hrow, -⟩ := h.rowOf declared hdeclared
      exact ⟨row, rowOf_eq_some hrow⟩
    case rows =>
      intro declared hdeclared row hrow hid
      exact rowAgrees_of_noDoubledRow h hone hdeclared hrow hid
    case counts => exact h.counts
    case dumps => exact (noDoubledRow_iff h hvalid).mp hone

end Accepted

end DumpLedger.ImportSession
