import DumpLedger.Engine.Run
import DumpLedger.Properties.LedgerCopy
import DumpLedger.Properties.ManifestCodec
import DumpLedger.Properties.WrittenBundle

/-!
# Opening a bundle

The three documents of a bundle that is opened agree, unless the ledger has two rows of a dump. The
bundle that shows both sides has one customer and one case with two dumps, one available and one
deleted; the rows that its ledger has for them, and the bytes that it carries, are left open, so
that a bundle may lie.

* `importRows_congr` — an import sees of an archive what it has for each dump
* `Sample.opens` — the small bundle is opened when its rows pass the checks
* `open_agrees` — the documents agree if and only if no declared dump has two rows
-/

namespace DumpLedger.ImportSession

open Lib Vocabulary Tar

/-! ## What an import sees of an archive -/

/-- The bytes of a dump that an archive has, by their number and their chunks. -/
def carried (bundle : OpenBundle) (dumpId : DumpId) : Option (Nat × Tar.Yields Bytes) :=
  (entryNamed bundle.entries (dumpEntryName dumpId)).map fun e => (e.size, e.chunks bundle.source)

/-- Two bundles without symbols that have the same rows, and the same bytes for each of them. -/
structure SameContent (bundle bundle' : OpenBundle) : Prop where
  manifest : bundle.manifest = bundle'.manifest
  manifestDigest : bundle.manifestDigest = bundle'.manifestDigest
  rows : bundle.rows = bundle'.rows
  noSymbols : declaredSymbols bundle.manifest = []
  carried : ∀ row ∈ bundle.rows.dumps, carried bundle row.dumpId = carried bundle' row.dumpId

section SameContent

variable {options : EngineOptions} {hosts : Nat → Host} {bundle bundle' : OpenBundle}

theorem dispositionDump_congr {v : SessionVariables} {declared : ExportManifestDump}
    {row : BundleDumpRow} (h : carried bundle row.dumpId = carried bundle' row.dumpId) :
    dispositionDump options hosts bundle v declared row =
      dispositionDump options hosts bundle' v declared row := by
  unfold carried at h
  unfold dispositionDump sourceChunks
  cases declared.phase with
  | available =>
    dsimp only
    cases he : entryNamed bundle.entries (dumpEntryName row.dumpId) with
    | none =>
      rw [he, Option.map_none, eq_comm, Option.map_eq_none_iff] at h
      rw [h]
    | some e =>
      rw [he, Option.map_some, eq_comm, Option.map_eq_some_iff] at h
      obtain ⟨e', he', hsame⟩ := h
      obtain ⟨hsize, hchunks⟩ := Prod.mk.inj hsame
      rw [he']
      -- the row has both a size and a hash, or nothing is read
      cases row.byteSize <;> cases row.sha256 <;> simp only [hsize, hchunks]
  | rejected => rfl
  | deleted => rfl

theorem stageDump_congr (h : SameContent bundle bundle') (dumpId : DumpId) :
    stageDump options hosts bundle dumpId = stageDump options hosts bundle' dumpId := by
  unfold stageDump
  rw [h.manifest, h.rows]
  refine congrArg (requirePhase .began >>= ·) (funext fun _ => ?_)
  cases declaredDump bundle'.manifest dumpId with
  | none => rfl
  | some declared =>
    refine congrArg (getSession >>= ·) (funext fun v => ?_)
    split
    · rfl
    · split
      · rfl
      · next row hrow =>
        have hmem : row ∈ bundle.rows.dumps := by
          rw [h.rows]
          exact List.mem_of_find?_eq_some hrow
        have hid : row.dumpId = dumpId := by simpa using List.find?_some hrow
        rw [dispositionDump_congr (h.carried row hmem)]

theorem importSymbols_congr (h : SameContent bundle bundle') :
    importSymbols options hosts bundle = importSymbols options hosts bundle' := by
  unfold importSymbols
  rw [← h.manifest, h.noSymbols]
  simp only [Prog.forEach]

theorem importDump_congr (h : SameContent bundle bundle') (row : BundleDumpRow) :
    importDump options hosts bundle row = importDump options hosts bundle' row := by
  unfold importDump
  rw [h.manifest, stageDump_congr h]

/-- A call reads a bundle without symbols by its rows and what it carries for them. -/
theorem perform_congr (h : SameContent bundle bundle') (call : SessionCall) :
    perform options hosts bundle call = perform options hosts bundle' call := by
  cases call with
  | begin =>
    unfold perform beginStep
    rw [h.manifest, h.manifestDigest]
  | importCustomer customerId =>
    unfold perform importCustomer
    rw [h.rows]
  | importCase caseId =>
    unfold perform importCase
    rw [h.rows]
  | importGrant grantId =>
    unfold perform importGrant fingerprintMismatch
    rw [h.rows, h.manifest]
  | stageDump dumpId => simp only [perform, stageDump_congr h]
  | importSymbols => simp only [perform, importSymbols_congr h]
  | finish =>
    show finish options hosts bundle = finish options hosts bundle'
    unfold finish allStepped importSummary
    have hreplay : replayEvent options hosts bundle = replayEvent options hosts bundle' := by
      unfold replayEvent
      rw [h.manifest]
    rw [h.rows, h.manifest, hreplay]
  | abandon => rfl
  | close => rfl

/-- And so does the whole import. -/
theorem importRows_congr (h : SameContent bundle bundle') :
    importRows options hosts bundle = importRows options hosts bundle' := by
  have hbegin : beginStep options hosts bundle = beginStep options hosts bundle' :=
    perform_congr h .begin
  have hcustomer : importCustomer options hosts bundle = importCustomer options hosts bundle' :=
    funext fun customerId => perform_congr h (.importCustomer customerId)
  have hcase : importCase options hosts bundle = importCase options hosts bundle' :=
    funext fun caseId => perform_congr h (.importCase caseId)
  have hgrant : importGrant options hosts bundle = importGrant options hosts bundle' :=
    funext fun grantId => perform_congr h (.importGrant grantId)
  have hdump : importDump options hosts bundle = importDump options hosts bundle' :=
    funext (importDump_congr h)
  have hfinish : finish options hosts bundle = finish options hosts bundle' :=
    perform_congr h .finish
  unfold importRows
  rw [hbegin, hcustomer, hcase, hgrant, importSymbols_congr h, hdump, hfinish, h.manifest, h.rows]

/-- An import of such a bundle finishes when its rows are brought in. -/
theorem finished_of_open {bundleOptions : ImportBundleOptions} {m : Machine}
    (hopen : openBundle options.digests.sha256 bundleOptions = .ok bundle)
    (h : SameContent bundle bundle')
    (hdone : (importRows options hosts bundle' ⟨m, {}, {}⟩).1.isOk = true) :
    (importBundle options hosts bundleOptions m).1.status = .finished := by
  have hrun : runImport options hosts bundleOptions ⟨m, {}, {}⟩ =
      importRows options hosts bundle ⟨m, {}, {}⟩ := by
    unfold runImport openImportSession
    rw [hopen]
    rfl
  unfold importBundle
  rw [hrun, importRows_congr h]
  dsimp only
  generalize importRows options hosts bundle' ⟨m, {}, {}⟩ = out at hdone ⊢
  obtain ⟨result, s⟩ := out
  cases result with
  | error e => cases hdone
  | ok u => rfl

end SameContent

namespace Sample

/-! ## Its parts -/

theorem isIso_created : isIsoTimestamp "2026-01-01T00:00:00.000Z" = true := by decide

def createdAt : IsoTimestamp := ⟨"2026-01-01T00:00:00.000Z", isIso_created⟩

def customer : CustomerRow where
  customerId := (DumpLedger.Sample.host 0).customerId
  displayName := ⟨"Acme", by decide⟩
  createdAt := createdAt
  customerNo := 1

def caseRow : CaseRow where
  caseId := (DumpLedger.Sample.host 0).caseId
  customerId := (DumpLedger.Sample.host 0).customerId
  title := ⟨"Crash on start", by decide⟩
  status := .new
  createdAt := createdAt

def availableId : DumpId := (DumpLedger.Sample.host 0).dumpId

def deletedId : DumpId := ⟨"dump_00000000000000000000000002", by decide⟩

def originalName : BoundedText 1024 := ⟨"crash.dmp", by decide⟩

def available : DumpRow where
  dumpId := availableId
  caseId := caseRow.caseId
  phase := .available
  blobState := .vault
  originalName := originalName
  byteSize := some 4
  sha256 := some (DumpLedger.Sample.sha256 [77, 68, 77, 80])
  validation := .valid
  coverage := some .unknown
  downloadable := true
  inspectionError := none
  inspectionFacts := none
  receivedAt := createdAt
  availableAt := some createdAt
  purgeAt := none
  purgedAt := none

def deleted : DumpRow :=
  { available with
    dumpId := deletedId, phase := .deleted, blobState := .none, downloadable := false,
    purgeAt := some createdAt, purgedAt := some createdAt }

def manifest : ExportManifest where
  createdAt := createdAt
  generator := { version := utf16 "0.1.0", schemaMigrations := 11 }
  grantKeyFingerprint := utf16 DumpLedger.Sample.options.fingerprint
  counts := { customers := 1, cases := 1, grants := 0, dumps := 2, auditEvents := none, symbols := none }
  skippedAnalyses := none
  skipped := []
  dumps := [
    { dumpId := availableId, caseId := caseRow.caseId, phase := .available,
      originalName := utf16 "crash.dmp", byteSize := some 4,
      sha256 := some (DumpLedger.Sample.sha256 [77, 68, 77, 80]),
      entry := some (dumpEntryName availableId) },
    { dumpId := deletedId, caseId := caseRow.caseId, phase := .deleted,
      originalName := utf16 "crash.dmp", byteSize := some 4,
      sha256 := some (DumpLedger.Sample.sha256 [77, 68, 77, 80]), entry := none }]
  symbols := none

def smallInputs : List Bytes := [[77, 68, 77, 80], [97, 112, 112, 0, 49]]

/-- SHA-256, on the inputs that an import of this bundle hashes: a payload, or the manifest. -/
def sha256 (bytes : Bytes) : Sha256 :=
  if bytes ∈ smallInputs then DumpLedger.Sample.sha256 bytes
  else ⟨"54d505e70367104f695ba7831970b793410729db128ab98c816e58e5cb091d8b", by decide⟩

def options : EngineOptions :=
  { DumpLedger.Sample.options with
    digests := { DumpLedger.Sample.options.digests with sha256 := sha256 } }

/-! ### The ledger -/

/-- No column of these rows is JSON, and each number of theirs is one already. -/
def conversions : Conversions where
  parseJson _ := none
  toNumber
    | .number n => n
    | _ => .other "NaN"

section Rows

variable (dumps : List DumpRow)

def database : BundleDatabase where
  version := .ok ("11", some .eq)
  tables := requiredTables
  hasAnalysisDetails := .ok false
  customers := .ok [customerColumns customer]
  cases := .ok [caseColumns caseRow]
  grants := .ok []
  dumps := .ok (dumps.map (dumpColumns fun _ => ""))
  auditEvents := .ok []

def rows : BundleRows where
  customers := [customerRecord customer]
  cases := [caseRecord caseRow]
  grants := []
  dumps := dumps.map dumpRow
  auditEvents := []

theorem readBundleLedger_database (hfacts : ∀ d ∈ dumps, d.inspectionFacts = none) :
    readBundleLedger conversions .ok runningSchemaMigrations (.ok (database dumps)) =
      .ok (rows dumps) := by
  have hopen : openBundleLedger .ok runningSchemaMigrations (database dumps) =
      .ok (database dumps) := rfl
  have hcustomers : readEach (readCustomer conversions) [customerColumns customer] =
      .ok [customerRecord customer] := by
    exact readEach_map (l := [customer]) fun c _ => readCustomer_columns (fun _ => rfl) c
  have hcases : readEach readCase [caseColumns caseRow] = .ok [caseRecord caseRow] := by
    exact readEach_map (l := [caseRow]) fun c _ => readCase_columns c
  have hdumps : readEach (readDump conversions) (dumps.map (dumpColumns fun _ => "")) =
      .ok (dumps.map dumpRow) := by
    refine readEach_map fun d hd => readDump_columns ?_
    intro facts hsome
    rw [hfacts d hd] at hsome
    cases hsome
  have hnone : readEach readGrant [] = .ok [] := rfl
  have hevents : readEach (readAuditEvent conversions) [] = .ok [] := rfl
  rw [readBundleLedger, mapError_eq_ok, bind_ok, hopen, bind_ok]
  simp only [readBundleRows, database, bind_ok, hcustomers, hcases, hnone, hdumps, hevents]
  rfl

end Rows

/-! ### The archive -/

/-- The start of a ledger file; what SQLite answers for it is `database`. -/
def ledgerBytes : Bytes := [83, 81, 76, 105, 116, 101, 32, 102, 111, 114, 109, 97, 116, 32, 51, 0]

def payload (bytes : Bytes) : EntryInput :=
  ⟨dumpEntryName availableId, bytes.length, 0, [bytes]⟩

def inputs (bytes : Bytes) : List EntryInput :=
  bundleInputs (serializeExportManifest manifest) ledgerBytes [payload bytes]

theorem header_of_small (name : String) {size : Int} (hpos : 0 ≤ size)
    (hsize : size ≤ octalSizeLimit) :
    ∃ header, encodeHeaderBlock name size 0 0o644 = .ok header := by
  have hfield (block : Bytes) (offset length : Nat) (value : Int) (label : String)
      (h : ¬ (value < 0 ∨ length - 1 < (Nat.toDigits 8 value.toNat).length)) :
      ∃ block', writeOctalField block offset length value label = .ok block' :=
    ⟨_, if_neg h⟩
  have htarSize : encodeTarSize size =
      .ok (overwrite (List.replicate 12 0) 0 (octalText size.toNat 11)) := by
    rw [encodeTarSize, if_neg (by omega), if_pos hsize]
  unfold encodeHeaderBlock unsummedHeader
  dsimp only
  obtain ⟨block₁, h₁⟩ := hfield (overwrite (List.replicate blockSize 0) 0 (utf8Bytes name)) 100 8
    0o644 "mode" (by decide)
  obtain ⟨block₂, h₂⟩ := hfield block₁ 108 8 0 "uid" (by decide)
  obtain ⟨block₃, h₃⟩ := hfield block₂ 116 8 0 "gid" (by decide)
  obtain ⟨block₄, h₄⟩ := hfield
    (overwrite block₃ 124 (overwrite (List.replicate 12 0) 0 (octalText size.toNat 11))) 136 12 0
    "mtime" (by decide)
  rw [h₁, bind_ok, h₂, bind_ok, h₃, bind_ok, htarSize, bind_ok, h₄, bind_ok]
  exact ⟨_, rfl⟩

/-- What the writer asks of an entry of a few bytes. -/
theorem accepted_of_small {name : String} {bytes : Bytes} {chunks : List Bytes}
    (hsize : (bytes.length : Int) ≤ octalSizeLimit) (hname : (Tar.checkEntryName name).isOk = true)
    (hlength : (utf8Bytes name).length ≤ headerNameBytes) :
    Accepted 0o644 ⟨name, bytes.length, 0, chunks⟩ where
  size_nonneg := Int.natCast_nonneg _
  name := by
    show Tar.checkEntryName name = .ok ()
    cases h : Tar.checkEntryName name with
    | error e =>
      rw [h] at hname
      cases hname
    | ok u => rfl
  nameLength := hlength
  mtime := (by decide : (0 : Int) ≤ 0 ∧ (0 : Int) ≤ maxSafeInteger ∧ (0 : Int) ≤ octalSizeLimit)
  header := header_of_small name (Int.natCast_nonneg _) hsize

theorem length_manifest : (serializeExportManifest manifest).length ≤ 3000 := by
  have hunits : (jsonStringify manifest.json).length ≤ 1000 := by decide +kernel
  have hbytes : (serializeExportManifest manifest).length ≤
      3 * (jsonStringify manifest.json).length :=
    length_encodeText_le (isText_manifest manifest)
  omega

def digestText : String := "VNUF5wNnEE9pW6eDGXC3k0EHKdsSirmMgW5Y5csJHYs"

/-- The text of the manifest starts with a brace. -/
theorem manifestBytes_ne {t : String} (ht : (utf16 t).head? ≠ some (unitOf '\x7b')) :
    serializeExportManifest manifest ≠ utf8Bytes t := by
  intro h
  obtain ⟨rest, hrest⟩ : ∃ rest, manifest.json.text = unitOf '\x7b' :: rest := ⟨_, rfl⟩
  have htext : toText manifest.json.text = t := utf8Bytes_injective h
  rw [← htext, utf16_toText (isText_manifest manifest), hrest] at ht
  exact ht rfl

theorem sha256_manifest : base64UrlDigest (sha256 (serializeExportManifest manifest)) =
    digestText := by
  have hsmall : serializeExportManifest manifest ∉ smallInputs := by
    have hdump : smallInputs = [utf8Bytes "MDMP", utf8Bytes "app\x001"] := by decide
    rw [hdump, List.mem_pair, not_or]
    exact ⟨manifestBytes_ne (by decide), manifestBytes_ne (by decide)⟩
  unfold sha256
  rw [if_neg hsmall]
  decide

/-- A payload that comes in one chunk. -/
def Short (bytes : Bytes) : Prop := 0 < bytes.length ∧ bytes.length ≤ entryChunkSize

theorem written_of_length {manifestBytes bytes : Bytes} (hmanifest : manifestBytes.length ≤ 3000)
    (hshort : Short bytes) :
    ∃ archive, Written archive (bundleInputs manifestBytes ledgerBytes [payload bytes]) := by
  have hledger : (ExportSession.streamChunks ledgerBytes).flatten = ledgerBytes :=
    flatten_streamChunks _
  have hsizes : ∀ e ∈ bundleInputs manifestBytes ledgerBytes [payload bytes],
      (e.chunks.flatten.length : Int) = e.size := by
    simp only [bundleInputs, List.mem_cons, List.not_mem_nil, or_false, forall_eq_or_imp,
      forall_eq, manifestInput, ledgerInput, payload, hledger, List.flatten_singleton,
      and_self]
  have haccepted : ∀ e ∈ bundleInputs manifestBytes ledgerBytes [payload bytes],
      Accepted 0o644 e := by
    have hbytes := hshort.2
    unfold entryChunkSize at hbytes
    simp only [bundleInputs, List.mem_cons, List.not_mem_nil, or_false, forall_eq_or_imp,
      forall_eq]
    refine ⟨accepted_of_small ?_ (by decide) (by decide),
      accepted_of_small (by decide) (by decide) (by decide),
      accepted_of_small ?_ (by decide) (by decide)⟩
    · unfold octalSizeLimit
      omega
    · unfold octalSizeLimit
      omega
  obtain ⟨body, -, hwrite⟩ := writeTar_segments rfl haccepted hsizes
  refine ⟨_, hwrite, hsizes, ?_, ?_⟩
  · have hall : ∀ name ∈ ["manifest.json", "ledger.sqlite", dumpEntryName availableId],
        name.toList.all (fun c => decide (0x20 ≤ c.toNat) && decide (c.toNat ≤ 0x7e)) = true := by
      decide
    intro e he c hc
    have hname : e.name ∈ ["manifest.json", "ledger.sqlite", dumpEntryName availableId] :=
      List.mem_map_of_mem (f := EntryInput.name) he
    simpa using List.all_eq_true.mp (hall _ hname) c hc
  · show ["manifest.json", "ledger.sqlite", dumpEntryName availableId].Nodup
    decide

theorem exists_written {bytes : Bytes} (hshort : Short bytes) :
    ∃ archive, Written archive (inputs bytes) :=
  written_of_length length_manifest hshort

/-- The path is there, and it is a regular file. -/
def importOptions (dumps : List DumpRow) (archive : Bytes) : ImportBundleOptions where
  files :=
    { resolve := fun path => path
      lstat := fun _ => some .regular
      openRead := fun _ => .ok (.regular, archive) }
  bundlePath := "bundle.tar"
  bounds := defaultBounds
  writeLedgerCopy _ := .ok ()
  openLedger _ := .ok (database dumps)
  applyMigrations := .ok
  conversions := conversions

theorem manifest_valid : manifest.Valid where
  generator := ⟨⟨by decide, by decide, by decide⟩, by decide⟩
  fingerprint := fingerprint_matches DumpLedger.Sample.isFingerprint_options
  counts :=
    ⟨by decide, by decide, by decide, by decide, fun _ h => (by cases h), fun _ h => (by cases h)⟩
  skippedAnalyses _ h := by cases h
  skipped _ h := by cases h
  dumps := by
    have hname : IsField maxOriginalNameLength (utf16 "crash.dmp") :=
      ⟨by decide, by decide, by decide⟩
    have hsize : ∀ n, some 4 = some n → ExportManifest.SizeValid n := by
      intro n hn
      cases hn
      exact sizeValid_of_lt (by decide)
    simp only [manifest, List.mem_cons, List.not_mem_nil, or_false, forall_eq_or_imp, forall_eq]
    exact ⟨⟨hname, hsize, fun _ => ⟨rfl, rfl⟩, rfl⟩, ⟨hname, hsize, fun h => (by cases h), rfl⟩⟩
  symbols _ h := by cases h
  skipped_le := by decide
  dumps_le := by decide
  symbols_le _ h := by cases h
  dumps_count := rfl
  symbols_count := rfl
  unique := by decide
  artifacts _ h := by cases h
  identities _ h := by cases h

/-- The entries, as far as the checks look at them. -/
def named : List TarEntry :=
  [⟨"manifest.json", 0, 0⟩, ⟨"ledger.sqlite", 0, 0⟩, ⟨dumpEntryName availableId, 0, 0⟩]

theorem chunks_of_window {source bytes : Bytes} {e : TarEntry} (hpos : e.size ≠ 0)
    (hsmall : e.size ≤ entryChunkSize) (hwindow : window source e.dataOffset e.size = bytes)
    (hlength : bytes.length = e.size) : e.chunks source = ⟨[bytes], none⟩ := by
  unfold TarEntry.chunks
  rw [entryChunks, if_neg hpos]
  dsimp only
  rw [min_eq_left hsmall, hwindow, if_neg (by simpa using hlength), Nat.sub_self, entryChunks,
    if_pos rfl]
  rfl

/-- The bytes of a small entry come in one chunk. -/
theorem chunks_of_small {source bytes : Bytes} {e : TarEntry} (hpos : e.size ≠ 0)
    (hsmall : e.size ≤ entryChunkSize) (hcomplete : (e.chunks source).thrown = none)
    (hbytes : (e.chunks source).values.flatten = bytes) : e.chunks source = ⟨[bytes], none⟩ := by
  have hmin : min e.size entryChunkSize = e.size := min_eq_left hsmall
  have hwindow : (window source e.dataOffset e.size).length = e.size := by
    by_contra hshort
    unfold TarEntry.chunks at hcomplete
    rw [entryChunks, if_neg hpos] at hcomplete
    dsimp only at hcomplete
    rw [hmin, if_pos hshort] at hcomplete
    cases hcomplete
  have hchunks := chunks_of_window hpos hsmall rfl hwindow
  rw [hchunks] at hbytes ⊢
  rw [← hbytes, List.flatten_singleton]

/-- A bundle that has the payload alone. -/
def standIn (dumps : List DumpRow) (bytes : Bytes) : OpenBundle where
  source := bytes
  manifest := manifest
  manifestDigest := digestText
  rows := rows dumps
  entries := [⟨dumpEntryName availableId, bytes.length, 0⟩]

theorem carried_standIn {dumps : List DumpRow} {bytes : Bytes} (hshort : Short bytes) :
    carried (standIn dumps bytes) availableId = some (bytes.length, ⟨[bytes], none⟩) := by
  have hpos := hshort.1
  have hwindow : window bytes 0 bytes.length = bytes := by
    rw [window, List.drop_zero, List.take_length]
  unfold carried standIn
  rw [entryNamed_cons_self rfl, Option.map_some,
    chunks_of_window (by dsimp only; omega) hshort.2 hwindow rfl]

/-- The third entry has the payload, in one chunk. -/
theorem carried_archive {dumps : List DumpRow} {archive bytes : Bytes} {entries : List TarEntry}
    (hshort : Short bytes) (hback : List.Forall₂ (ReadBack archive) (inputs bytes) entries) :
    carried ⟨archive, manifest, digestText, rows dumps, entries⟩ availableId =
      some (bytes.length, ⟨[bytes], none⟩) := by
  obtain ⟨e₁, rest₁, h₁, hrest₁, rfl⟩ := List.forall₂_cons_left_iff.mp hback
  obtain ⟨e₂, rest₂, h₂, hrest₂, rfl⟩ := List.forall₂_cons_left_iff.mp hrest₁
  obtain ⟨e₃, rest₃, h₃, hrest₃, rfl⟩ := List.forall₂_cons_left_iff.mp hrest₂
  have hsize : e₃.size = bytes.length := by
    have hsize' : (e₃.size : Int) = bytes.length := h₃.size
    exact_mod_cast hsize'
  have hname₃ : e₃.name = dumpEntryName availableId := h₃.name
  have hnamed : entryNamed (e₁ :: e₂ :: e₃ :: rest₃) (dumpEntryName availableId) = some e₃ := by
    rw [entryNamed_cons_of_ne, entryNamed_cons_of_ne, entryNamed_cons_self hname₃]
    · rw [h₂.name]
      show "ledger.sqlite" ≠ _
      decide
    · rw [h₁.name]
      show "manifest.json" ≠ _
      decide
  have hpos := hshort.1
  have hsmall := hshort.2
  have hchunks : e₃.chunks archive = ⟨[bytes], none⟩ :=
    chunks_of_small (by omega) (by omega) h₃.complete (h₃.bytes.trans (by simp [payload]))
  unfold carried
  rw [hnamed, Option.map_some, hsize, hchunks]

/-- **The bundle is accepted** when its rows pass the checks. -/
theorem opens {dumps : List DumpRow} {archive bytes : Bytes} (hshort : Short bytes)
    (hwritten : Written archive (inputs bytes))
    (hids : ∀ d ∈ dumps, d.dumpId = availableId ∨ d.dumpId = deletedId)
    (hfacts : ∀ d ∈ dumps, d.inspectionFacts = none)
    (hcheck : checkConsistency manifest (rows dumps) named = .ok ()) :
    ∃ bundle, openBundle sha256 (importOptions dumps archive) = .ok bundle ∧
      SameContent bundle (standIn dumps bytes) := by
  have hpath : checkBundlePath (importOptions dumps archive).files
      (importOptions dumps archive).bundlePath = .ok "bundle.tar" := by
    have hraw : "bundle.tar" ≠ "" ∧ utf16Length "bundle.tar" ≤ maxBundlePathLength := by
      decide
    have hsuffix : ".tar".toList.isSuffixOf "bundle.tar".toList = true := by decide
    simp only [checkBundlePath, bind_eq_ok, guardThat_eq_ok, orThrow_eq_ok, pure_eq_ok]
    exact ⟨(), hraw, (), hsuffix, .regular, rfl, (), by decide, (), rfl, rfl⟩
  have hsource : openSource (importOptions dumps archive).files "bundle.tar" =
      .ok archive := rfl
  have hmanifest := length_manifest
  have hlength : payloadBytes (inputs bytes) =
      (serializeExportManifest manifest).length + (16 + bytes.length) := by
    have hledger : (ExportSession.streamChunks ledgerBytes).flatten = ledgerBytes :=
      flatten_streamChunks _
    simp only [payloadBytes, inputs, bundleInputs, manifestInput, ledgerInput, payload,
      List.map_cons, List.map_nil, List.sum_cons, List.sum_nil, List.flatten_singleton, hledger]
    rfl
  have hwithin : WithinBounds (importOptions dumps archive).bounds (serializeExportManifest manifest)
      ledgerBytes [payload bytes] := by
    have hbytes := hshort.2
    constructor
    case count => exact (by decide : 3 ≤ maxBundleEntries)
    case bytes =>
      show (payloadBytes (inputs bytes) : Int) ≤ maxSafeInteger
      rw [hlength]
      unfold maxSafeInteger
      unfold entryChunkSize at hbytes
      omega
    case manifest =>
      exact ⟨manifestBytes_ne (t := "") (by decide),
        hmanifest.trans (by decide : 3000 ≤ maxManifestBytes)⟩
    case ledger =>
      exact (by decide : ledgerBytes ≠ [] ∧ (ledgerBytes.length : Int) ≤ 8 * 1024 * 1024 * 1024)
  have hname : ExpectedName (payload bytes).name :=
    Or.inl (by decide : (vaultEntryId? (dumpEntryName availableId)).isSome = true)
  obtain ⟨entries, hback, hopen⟩ := @openBundle_written _ _ _ _ sha256 _ _ hpath hsource
    hwritten (List.forall_mem_singleton.mpr hname) hwithin
  have hnames : entries.map TarEntry.name = named.map TarEntry.name := names_of_readBack hback
  refine ⟨⟨archive, manifest, digestText, rows dumps, entries⟩, (hopen _).mpr ⟨manifest, rows dumps,
    parse_serialize manifest_valid (hmanifest.trans (by decide)), by decide, rfl,
    readBundleLedger_database dumps hfacts, ?_, ?_⟩, rfl, rfl, rfl, rfl, ?_⟩
  · exact (checkConsistency_congr hnames).mpr hcheck
  · rw [sha256_manifest]
  · intro row hrow
    obtain ⟨d, hd, rfl⟩ := List.mem_map.mp hrow
    rcases hids d hd with hid | hid
    · show carried _ d.dumpId = carried _ d.dumpId
      rw [hid, carried_standIn hshort]
      exact carried_archive hshort hback
    · show carried _ d.dumpId = carried _ d.dumpId
      rw [hid]
      have hnone (others : List TarEntry)
          (hothers : dumpEntryName deletedId ∉ others.map TarEntry.name) :
          entryNamed others (dumpEntryName deletedId) = none := by
        rw [entryNamed, List.find?_eq_none]
        intro e he hname
        exact hothers (List.mem_map.mpr ⟨e, he, by simpa using hname⟩)
      unfold carried
      rw [hnone entries (by rw [hnames]; decide), hnone _ ?_]
      · rfl
      · show dumpEntryName deletedId ∉ [dumpEntryName availableId]
        decide

/-- The calls on the vaults take no audit identifier: the first ten calls take three of the ten. -/
def hosts (i : Nat) : Host := DumpLedger.Sample.host (Fin.ofNat 10 (if i < 10 then i else i - 7))

/-- A row of the available dump that has the hash of other bytes. -/
def lying : DumpRow :=
  { available with
    byteSize := some 5, sha256 := some (DumpLedger.Sample.sha256 [97, 112, 112, 0, 49]) }

theorem opens_true : ∃ archive bundle, openBundle sha256 (importOptions [available, deleted] archive) =
    .ok bundle ∧ SameContent bundle (standIn [available, deleted] [77, 68, 77, 80]) := by
  have hshort : Short [77, 68, 77, 80] := ⟨by decide, by decide⟩
  obtain ⟨archive, hwritten⟩ := exists_written hshort
  exact ⟨archive, opens hshort hwritten (by decide) (by decide) (by decide)⟩

/-- The last row of the dump is looked at, and it agrees. -/
theorem opens_doubled : ∃ archive bundle,
    openBundle sha256 (importOptions [lying, available, deleted] archive) = .ok bundle ∧
      SameContent bundle (standIn [lying, available, deleted] [97, 112, 112, 0, 49]) := by
  have hshort : Short [97, 112, 112, 0, 49] := ⟨by decide, by decide⟩
  obtain ⟨archive, hwritten⟩ := exists_written hshort
  exact ⟨archive, opens hshort hwritten (by decide) (by decide) (by decide)⟩

end Sample

/-! ## The documents agree -/

/-- **Opening an import changes nothing, and the documents of a bundle that it accepts agree** if
and only if no declared dump has two rows. -/
theorem open_agrees (sha256 : Bytes → Sha256) (options : ImportBundleOptions) (s : Importing) :
    (openImportSession sha256 options s).2 = s ∧
      ∀ bundle, (openImportSession sha256 options s).1 = .ok bundle →
        (Agrees bundle ↔ NoDoubledRow bundle) := by
  refine ⟨rfl, fun bundle h => ?_⟩
  obtain ⟨⟨tarOptions, hread⟩, ⟨bytes, hparse⟩, hconsistent⟩ := openBundle_eq_ok h
  exact agrees_iff hconsistent (valid_of_parse hparse) (names_nodup hread)

theorem SameContent.noDoubledRow {bundle bundle' : OpenBundle} (h : SameContent bundle bundle') :
    NoDoubledRow bundle ↔ NoDoubledRow bundle' := by
  unfold NoDoubledRow declaredRows
  rw [h.manifest, h.rows]

/-- A bundle with one row for each dump. -/
theorem open_agrees_sample : ∃ archive bundle,
    openBundle Sample.sha256 (Sample.importOptions [Sample.available, Sample.deleted] archive) =
      .ok bundle ∧ Agrees bundle := by
  obtain ⟨archive, bundle, hopen, hsame⟩ := Sample.opens_true
  have hone : NoDoubledRow (Sample.standIn [Sample.available, Sample.deleted] [77, 68, 77, 80]) := by
    decide
  have hagrees := (open_agrees Sample.sha256 (Sample.importOptions _ archive)
    ⟨⟨World.fresh, 0⟩, {}, {}⟩).2 bundle hopen
  exact ⟨archive, bundle, hopen, hagrees.mpr (hsame.noDoubledRow.mpr hone)⟩

/-- A bundle that is accepted though the first of two rows of a dump has another size and hash. -/
theorem open_agrees_counterexample : ¬ ∀ (sha256 : Bytes → Sha256) (options : ImportBundleOptions)
    (bundle : OpenBundle), openBundle sha256 options = .ok bundle → Agrees bundle := by
  intro h
  obtain ⟨archive, bundle, hopen, hsame⟩ := Sample.opens_doubled
  have hagrees := h _ _ bundle hopen
  have hdeclared : Sample.manifest.dumps[0] ∈ bundle.manifest.dumps := by
    rw [hsame.manifest]
    exact List.getElem_mem _
  have hrow : dumpRow Sample.lying ∈ bundle.rows.dumps := by
    rw [hsame.rows]
    exact List.mem_cons_self
  have hsize := (hagrees.rows _ hdeclared _ hrow rfl).byteSize
  exact absurd hsize (by decide)

end DumpLedger.ImportSession
