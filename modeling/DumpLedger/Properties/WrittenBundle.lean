import DumpLedger.Properties.BundleAcceptance
import DumpLedger.Transfer.ExportSession

/-!
# A bundle that was written

What an export seals is an archive of known entries. The importer finds them again, so whether it
opens the bundle is decided by the manifest, by the ledger, and by the names.

* `accepted_of_writeTar` — the writer has checked what it took
* `collectEntries_written` — the importer collects the entries that were written
* `openBundle_written` — opening the bundle, without the archive
-/

namespace DumpLedger.ImportSession

open Lib Vocabulary Tar

/-! ## What the writer took -/

section Writer

variable {w w' : TarWriter} {e : EntryInput}

theorem append_mode {chunk : Bytes} (h : w.append chunk = .ok w') : w'.mode = w.mode := by
  unfold TarWriter.append at h
  split at h
  · cases h
  · simp only [bind_eq_ok, pure_eq_ok] at h
    obtain ⟨_, -, _, -, rfl⟩ := h
    rfl

theorem appends_mode {chunks : List Bytes} (h : chunks.foldlM TarWriter.append w = .ok w') :
    w'.mode = w.mode := by
  induction chunks generalizing w with
  | nil =>
    cases h
    rfl
  | cons chunk rest ih =>
    rw [List.foldlM_cons, bind_eq_ok] at h
    obtain ⟨w₁, hfirst, hrest⟩ := h
    exact (ih hrest).trans (append_mode hfirst)

theorem finishEntry_mode (h : w.finishEntry = .ok w') : w'.mode = w.mode := by
  unfold TarWriter.finishEntry at h
  split at h
  · cases h
  · simp only [bind_eq_ok, pure_eq_ok] at h
    obtain ⟨_, -, _, -, rfl⟩ := h
    dsimp only
    split <;> rfl

theorem writeEntry_mode (h : writeEntry w e = .ok w') : w'.mode = w.mode := by
  simp only [writeEntry, bind_eq_ok] at h
  obtain ⟨added, hadd, filled, hfill, hfinish⟩ := h
  have hadded : added.mode = w.mode := by
    simp only [TarWriter.addEntry, bind_eq_ok, pure_eq_ok] at hadd
    obtain ⟨_, -, _, -, _, -, _, -, _, -, _, -, _, -, rfl⟩ := hadd
    rfl
  rw [finishEntry_mode hfinish, appends_mode hfill, hadded]

theorem accepted_of_writeEntries {mode : Int} {entries : List EntryInput} (hmode : w.mode = mode)
    (h : entries.foldlM writeEntry w = .ok w') : ∀ e ∈ entries, Accepted mode e := by
  induction entries generalizing w with
  | nil =>
    intro e he
    cases he
  | cons e rest ih =>
    rw [List.foldlM_cons, bind_eq_ok] at h
    obtain ⟨w₁, hfirst, hrest⟩ := h
    refine List.forall_mem_cons.mpr ⟨?_, ih ((writeEntry_mode hfirst).trans hmode) hrest⟩
    obtain ⟨added, hadd, -⟩ := bind_eq_ok.mp hfirst
    exact accepted_of_addEntry hmode hadd

/-- **The writer has checked the entries that it took.** -/
theorem accepted_of_writeTar {mode : Int} {entries : List EntryInput} {archive : Bytes}
    (h : writeTar mode entries = .ok archive) :
    (∃ fresh, createTarWriter mode = .ok fresh) ∧ ∀ e ∈ entries, Accepted mode e := by
  simp only [writeTar, bind_eq_ok] at h
  obtain ⟨w, hfresh, filled, hfill, -⟩ := h
  exact ⟨⟨w, hfresh⟩, accepted_of_writeEntries (createTarWriter_ready hfresh).1.mode_eq hfill⟩

end Writer

/-! ## The entries that are found again -/

/-- An archive of the entries `inputs`. -/
structure Written (archive : Bytes) (inputs : List EntryInput) : Prop where
  write : writeTar 0o644 inputs = .ok archive
  sizes : ∀ e ∈ inputs, (e.chunks.flatten.length : Int) = e.size
  printable : ∀ e ∈ inputs, PrintableAscii e.name
  distinct : (inputs.map EntryInput.name).Nodup

/-- The bytes that the entries have together. -/
def payloadBytes (inputs : List EntryInput) : Nat :=
  (inputs.map fun e => e.chunks.flatten.length).sum

theorem readTar_written {archive : Bytes} {inputs : List EntryInput} (h : Written archive inputs)
    {bounds : BundleBounds} (hcount : inputs.length ≤ maxBundleEntries)
    (hbytes : (payloadBytes inputs : Int) ≤ bounds.maxBundleBytes) :
    ∃ entries,
      readTar archive
          { maxEntries := some maxBundleEntries, maxBytes := some bounds.maxBundleBytes,
            maxNameLength := none } = .ok ⟨entries, none⟩ ∧
        List.Forall₂ (ReadBack archive) inputs entries := by
  obtain ⟨⟨fresh, hfresh⟩, haccepted⟩ := accepted_of_writeTar h.write
  obtain ⟨body, hsegments, hwrite⟩ := writeTar_segments hfresh haccepted h.sizes
  have harchive : archive = [] ++ (body ++ List.replicate 1024 0) :=
    Except.ok.inj (h.write.symm.trans hwrite)
  have hnonneg : 0 ≤ bounds.maxBundleBytes := (Nat.cast_nonneg _).trans hbytes
  have hbounds : readerBounds
      { maxEntries := some maxBundleEntries, maxBytes := some bounds.maxBundleBytes,
        maxNameLength := none } =
      .ok ⟨maxBundleEntries, bounds.maxBundleBytes.toNat, headerNameBytes⟩ := by
    have hentries : (0 : Int) ≤ (maxBundleEntries : Int) ∧
        (maxBundleEntries : Int) ≤ maxSafeInteger := by decide
    have hname : (1 : Int) ≤ (headerNameBytes : Int) ∧
        (headerNameBytes : Int) ≤ headerNameBytes := by decide
    simp only [readerBounds, Option.getD_some, Option.getD_none]
    rw [guardThat_of hentries, bind_ok, guardThat_of hnonneg, bind_ok, guardThat_of hname, bind_ok]
    rfl
  have hnew : ∀ e ∈ inputs, e.name ∉ (⟨0, 0, 0, []⟩ : TarCursor).seen :=
    fun _ _ => List.not_mem_nil
  obtain ⟨entries, hiterate, hread⟩ := @iterateTar_segments archive
    ⟨maxBundleEntries, bounds.maxBundleBytes.toNat, headerNameBytes⟩ inputs body
    hsegments [] ⟨0, 0, 0, []⟩ harchive rfl h.printable
    (fun e he => (haccepted e he).nameLength)
    (by simp only [Nat.zero_add]; exact hcount)
    (by simp only [Nat.zero_add]; unfold payloadBytes at hbytes; omega) hnew h.distinct
  refine ⟨entries, ?_, hread⟩
  unfold readTar
  rw [hbounds, bind_ok, hiterate]
  rfl

section Entries

variable {archive : Bytes} {inputs : List EntryInput} {entries : List TarEntry}

theorem names_of_readBack (h : List.Forall₂ (ReadBack archive) inputs entries) :
    entries.map TarEntry.name = inputs.map EntryInput.name := by
  induction h with
  | nil => rfl
  | cons hentry hrest ih => rw [List.map_cons, List.map_cons, hentry.name, ih]

/-- The checks of the rows look at the names of the entries only. -/
theorem checkConsistency_congr {manifest : ExportManifest} {rows : BundleRows}
    {others : List TarEntry} (h : entries.map TarEntry.name = others.map TarEntry.name) :
    checkConsistency manifest rows entries = .ok () ↔
      checkConsistency manifest rows others = .ok () := by
  have hnames : ∀ {name : String}, name ∈ entries.map TarEntry.name ↔
      name ∈ others.map TarEntry.name := by
    intro name
    rw [h]
  have hnamed : ∀ name, (entryNamed entries name).isSome = (entryNamed others name).isSome := by
    intro name
    rw [Bool.eq_iff_iff, entryNamed_isSome, entryNamed_isSome]
    simpa only [List.mem_map] using @hnames name
  have hdeclared : ∀ declared, checkDeclared rows entries declared =
      checkDeclared rows others declared := by
    intro declared
    unfold checkDeclared
    simp only [hnamed]
  have hsymbols : ∀ symbol, checkSymbolEntry entries symbol = checkSymbolEntry others symbol := by
    intro symbol
    unfold checkSymbolEntry
    simp only [hnamed]
  have heach : ∀ u, checkEach (checkEntryDeclared manifest) entries = .ok u ↔
      checkEach (checkEntryDeclared manifest) others = .ok u := by
    intro u
    simp only [checkEach_eq_ok]
    -- what is declared is a name
    have hname : ∀ es : List TarEntry, (∀ e ∈ es, checkEntryDeclared manifest e = .ok ()) ↔
        ∀ name ∈ es.map TarEntry.name, checkEntryDeclared manifest ⟨name, 0, 0⟩ = .ok () := by
      intro es
      rw [List.forall_mem_map]
      exact Iff.rfl
    rw [hname entries, hname others, h]
  simp only [checkConsistency, bind_eq_ok, heach]
  rw [funext hdeclared, funext hsymbols]

theorem flatten_streamChunks (bytes : Bytes) :
    (ExportSession.streamChunks bytes).flatten = bytes := by
  induction bytes using ExportSession.streamChunks.induct with
  | case1 => simp [ExportSession.streamChunks]
  | case2 bytes hne ih =>
    rw [ExportSession.streamChunks, if_neg hne, List.flatten_cons, ih, List.take_append_drop]

end Entries

/-! ## Opening it -/

def manifestInput (bytes : Bytes) : EntryInput := ⟨"manifest.json", bytes.length, 0, [bytes]⟩

def ledgerInput (bytes : Bytes) : EntryInput :=
  ⟨"ledger.sqlite", bytes.length, 0, ExportSession.streamChunks bytes⟩

/-- A bundle as it is written. -/
def bundleInputs (manifestBytes ledgerBytes : Bytes) (payloads : List EntryInput) :
    List EntryInput :=
  manifestInput manifestBytes :: ledgerInput ledgerBytes :: payloads

/-- The importer takes a bundle of this size. -/
structure WithinBounds (bounds : BundleBounds) (manifestBytes ledgerBytes : Bytes)
    (payloads : List EntryInput) : Prop where
  count : (bundleInputs manifestBytes ledgerBytes payloads).length ≤ maxBundleEntries
  bytes : (payloadBytes (bundleInputs manifestBytes ledgerBytes payloads) : Int) ≤
    bounds.maxBundleBytes
  manifest : manifestBytes ≠ [] ∧ manifestBytes.length ≤ bounds.maxManifestBytes
  ledger : ledgerBytes ≠ [] ∧ (ledgerBytes.length : Int) ≤ bounds.maxLedgerBytes

/-- A name that the importer looks at before the manifest says what it is for. -/
def ExpectedName (name : String) : Prop :=
  (vaultEntryId? name).isSome = true ∨ isSymbolEntry name = true

theorem throwAfter_none : throwAfter none = .ok () := rfl

theorem entryNamed_cons_self {e : TarEntry} {rest : List TarEntry} {name : String}
    (h : e.name = name) : entryNamed (e :: rest) name = some e :=
  List.find?_cons_of_pos (decide_eq_true h)

theorem entryNamed_cons_of_ne {e : TarEntry} {rest : List TarEntry} {name : String}
    (h : e.name ≠ name) : entryNamed (e :: rest) name = entryNamed rest name :=
  List.find?_cons_of_neg (by simpa using h)

section Opening

variable {archive manifestBytes ledgerBytes : Bytes} {payloads : List EntryInput}

/-- **The importer collects the entries that were written.** -/
theorem collectEntries_written {bounds : BundleBounds}
    (h : Written archive (bundleInputs manifestBytes ledgerBytes payloads))
    (hnames : ∀ e ∈ payloads, ExpectedName e.name)
    (hwithin : WithinBounds bounds manifestBytes ledgerBytes payloads) :
    ∃ manifest ledger rest,
      collectEntries archive bounds = .ok (manifest :: ledger :: rest) ∧
        ReadBack archive (manifestInput manifestBytes) manifest ∧
        ReadBack archive (ledgerInput ledgerBytes) ledger ∧
        List.Forall₂ (ReadBack archive) payloads rest := by
  obtain ⟨entries, hread, hback⟩ := readTar_written h hwithin.count hwithin.bytes
  obtain ⟨manifest, others, hmanifest, hothers, rfl⟩ := List.forall₂_cons_left_iff.mp hback
  obtain ⟨ledger, rest, hledger, hrest, rfl⟩ := List.forall₂_cons_left_iff.mp hothers
  refine ⟨manifest, ledger, rest, ?_, hmanifest, hledger, hrest⟩
  have hmanifestName : manifest.name = "manifest.json" := hmanifest.name
  have hledgerName : ledger.name = "ledger.sqlite" := hledger.name
  have hmanifestSize : manifest.size = manifestBytes.length := by
    have hsize : (manifest.size : Int) = manifestBytes.length := hmanifest.size
    exact_mod_cast hsize
  have hledgerSize : ledger.size = ledgerBytes.length := by
    have hsize : (ledger.size : Int) = ledgerBytes.length := hledger.size
    exact_mod_cast hsize
  have hexpected : checkEach checkEntryName (manifest :: ledger :: rest) = .ok () := by
    rw [checkEach_eq_ok, List.forall_mem_cons, List.forall_mem_cons]
    refine ⟨guardThat_of (Or.inl hmanifestName), guardThat_of (Or.inr (Or.inl hledgerName)), ?_⟩
    intro e he
    have hname : e.name ∈ payloads.map EntryInput.name := by
      rw [← names_of_readBack hrest]
      exact List.mem_map_of_mem he
    obtain ⟨input, hinput, heq⟩ := List.mem_map.mp hname
    have hor := hnames input hinput
    rw [heq] at hor
    exact guardThat_of (Or.inr (Or.inr hor))
  have hfirst : entryNamed (manifest :: ledger :: rest) "manifest.json" = some manifest :=
    entryNamed_cons_self hmanifestName
  have hsecond : entryNamed (manifest :: ledger :: rest) "ledger.sqlite" = some ledger := by
    rw [entryNamed_cons_of_ne (by rw [hmanifestName]; decide), entryNamed_cons_self hledgerName]
  have hmanifestBound : manifest.size ≠ 0 ∧ manifest.size ≤ bounds.maxManifestBytes := by
    rw [hmanifestSize]
    exact ⟨List.length_pos_of_ne_nil hwithin.manifest.1 |>.ne', hwithin.manifest.2⟩
  have hledgerBound : ledger.size ≠ 0 ∧ (ledger.size : Int) ≤ bounds.maxLedgerBytes := by
    rw [hledgerSize]
    exact ⟨List.length_pos_of_ne_nil hwithin.ledger.1 |>.ne', hwithin.ledger.2⟩
  unfold collectEntries
  rw [hread, bind_ok, hexpected, bind_ok]
  dsimp only
  rw [throwAfter_none, bind_ok, hfirst, orThrow_some,
    bind_ok, guardThat_of hmanifestBound, bind_ok, hsecond, orThrow_some, bind_ok,
    guardThat_of hledgerBound, bind_ok]
  rfl

theorem readEntryBytes_back {input : EntryInput} {entry : TarEntry}
    (h : ReadBack archive input entry) (hsize : (input.chunks.flatten.length : Int) = input.size) :
    readEntryBytes archive entry = .ok input.chunks.flatten := by
  have hlength : (entry.chunks archive).values.flatten.length = entry.size := by
    rw [h.bytes]
    have := h.size
    omega
  unfold readEntryBytes
  dsimp only
  rw [h.complete, throwAfter_none, bind_ok, guardThat_of hlength, bind_ok, h.bytes]
  rfl

/-- **Opening a bundle that was written**: the archive has no say in it. -/
theorem openBundle_written {sha256 : Bytes → Sha256} {options : ImportBundleOptions}
    {path : String} (hpath : checkBundlePath options.files options.bundlePath = .ok path)
    (hsource : openSource options.files path = .ok archive)
    (h : Written archive (bundleInputs manifestBytes ledgerBytes payloads))
    (hnames : ∀ e ∈ payloads, ExpectedName e.name)
    (hwithin : WithinBounds options.bounds manifestBytes ledgerBytes payloads) :
    ∃ entries,
      List.Forall₂ (ReadBack archive) (bundleInputs manifestBytes ledgerBytes payloads) entries ∧
        ∀ bundle, openBundle sha256 options = .ok bundle ↔
          ∃ manifest rows, parseExportManifest manifestBytes = .ok manifest ∧
            manifest.generator.schemaMigrations ≤ runningSchemaMigrations ∧
            options.writeLedgerCopy ledgerBytes = .ok () ∧
            readBundleLedger options.conversions options.applyMigrations runningSchemaMigrations
              (options.openLedger ledgerBytes) = .ok rows ∧
            checkConsistency manifest rows entries = .ok () ∧
            bundle =
              ⟨archive, manifest, base64UrlDigest (sha256 manifestBytes), rows, entries⟩ := by
  obtain ⟨manifestEntry, ledgerEntry, rest, hcollect, hmanifest, hledger, hrest⟩ :=
    collectEntries_written h hnames hwithin
  refine ⟨_, .cons hmanifest (.cons hledger hrest), fun bundle => ?_⟩
  have hmanifestName : manifestEntry.name = "manifest.json" := hmanifest.name
  have hledgerName : ledgerEntry.name = "ledger.sqlite" := hledger.name
  have hfirst : entryNamed (manifestEntry :: ledgerEntry :: rest) "manifest.json" =
      some manifestEntry :=
    entryNamed_cons_self hmanifestName
  have hsecond : entryNamed (manifestEntry :: ledgerEntry :: rest) "ledger.sqlite" =
      some ledgerEntry := by
    rw [entryNamed_cons_of_ne (by rw [hmanifestName]; decide), entryNamed_cons_self hledgerName]
  have hbytes : readEntryBytes archive manifestEntry = .ok manifestBytes := by
    rw [readEntryBytes_back hmanifest (by simp [manifestInput])]
    simp [manifestInput]
  have hflatten : (ledgerEntry.chunks archive).values.flatten = ledgerBytes := by
    rw [hledger.bytes]
    exact flatten_streamChunks ledgerBytes
  simp only [openBundle, hpath, bind_ok, hsource, hcollect, hfirst, hsecond, orThrow_some, hbytes,
    hflatten, hledger.complete, bind_eq_ok, guardThat_eq_ok, throwAfter_eq_ok, exists_const,
    pure_eq_ok]
  constructor
  · rintro ⟨manifest, hparse, hschema, _, hcopy, -, rows, hrows, _, hcheck, rfl⟩
    exact ⟨manifest, rows, hparse, hschema, hcopy, hrows, hcheck, rfl⟩
  · rintro ⟨manifest, rows, hparse, hschema, hcopy, hrows, hcheck, rfl⟩
    exact ⟨manifest, hparse, hschema, _, hcopy, trivial, rows, hrows, _, hcheck, rfl⟩

end Opening

end DumpLedger.ImportSession
