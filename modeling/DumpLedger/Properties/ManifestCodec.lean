import DumpLedger.Domain.JsonSize
import DumpLedger.Properties.Analyses
import DumpLedger.Properties.Manifest

/-!
# The manifest codec

The manifest that an export selects from a snapshot of the ledger is valid: the dumps of the
snapshot are told apart by their identifiers, its symbols by their identities, and every text of
the ledger fits its field. With what the parser returns being valid too, a manifest from either
source is read back from its bytes.

* `valid_of_selectManifest` — what an export selects is valid
* `manifest_codec` — both sources are read back
-/

namespace DumpLedger

open Lib Vocabulary ExportManifest

/-! ## The bounds -/

/-- The bounds that a snapshot may outgrow: of its lists and their counts, of a size, of the name
of the version, and of the document. -/
structure ExportManifest.InBounds (m : ExportManifest) : Prop where
  version : IsField maxVersionLength m.generator.version
  customers : m.counts.customers ≤ maxManifestCount
  cases : m.counts.cases ≤ maxManifestCount
  grants : m.counts.grants ≤ maxManifestCount
  auditEvents : ∀ n, m.counts.auditEvents = some n → n ≤ maxManifestCount
  skippedAnalyses : ∀ n, m.skippedAnalyses = some n → n ≤ maxManifestCount
  skipped : m.skipped.length ≤ maxManifestListEntries
  dumps : m.dumps.length ≤ maxManifestListEntries
  symbols : ∀ ss, m.symbols = some ss → ss.length ≤ maxManifestListEntries
  dumpSizes : ∀ d ∈ m.dumps, ∀ n, d.byteSize = some n → n < 10 ^ 40
  symbolSizes : ∀ ss, m.symbols = some ss → ∀ s ∈ ss, s.byteSize < 10 ^ 40
  bytes : (serializeExportManifest m).length ≤ maxManifestBytes

/-- The fingerprint of the grant key is the base64url text of a SHA-256 digest. -/
def IsFingerprint (fingerprint : String) : Prop :=
  ∃ digest : List UInt8, digest.length = 32 ∧
    fingerprint = String.ofList (Base64Url.encode digest)

theorem sizeValid_of_lt {n : Nat} (h : n < 10 ^ 40) : SizeValid n :=
  (Nat.length_toDigits_le_iff (by decide) (by decide)).mpr h

theorem fingerprint_matches {fingerprint : String} (h : IsFingerprint fingerprint) :
    grantKeyFingerprintPattern (utf16 fingerprint) = true := by
  obtain ⟨digest, hlength, rfl⟩ := h
  have hchars : ∀ c ∈ Base64Url.encode digest, c.toNat < 128 ∧ isBase64UrlChar c = true :=
    Base64Url.encode_forall (by decide) digest
  have hascii : ∀ c ∈ (String.ofList (Base64Url.encode digest)).toList, c.toNat < 128 := by
    intro c hc
    rw [String.toList_ofList] at hc
    exact (hchars c hc).1
  rw [grantKeyFingerprintPattern, Bool.and_eq_true, decide_eq_true_eq]
  refine ⟨?_, unitsMatch_utf16 hascii fun c hc => ?_⟩
  · rw [length_utf16_ascii hascii, String.toList_ofList, Base64Url.length_encode, hlength]
  · rw [String.toList_ofList] at hc
    exact (hchars c hc).2

/-! ## Dumps -/

/-- What one dump adds to a selection. -/
theorem selectDump_eq_ok {s s' : ExportSelection} {d : DumpRow} (h : selectDump s d = .ok s') :
    (∃ e : ExportManifestDump, s' = { s with dumps := s.dumps ++ [e] } ∧ e.dumpId = d.dumpId ∧
        ((∀ n, e.byteSize = some n → SizeValid n) → DumpValid e)) ∨
      ∃ e : ExportManifestSkipped, s' = { s with skipped := s.skipped ++ [e] } ∧
        e.dumpId = d.dumpId ∧ SkippedValid e := by
  have hname : IsField maxOriginalNameLength (utf16 d.originalName.text) :=
    isField_boundedText d.originalName
  have hreason : IsField maxReasonLength (utf16 "not-stable") :=
    ⟨by decide, by decide, by decide⟩
  unfold selectDump at h
  cases hphase : d.phase with
  | available =>
    rw [hphase] at h
    dsimp only at h
    split at h
    · cases h
    · next hevidence =>
      cases h
      rw [not_or] at hevidence
      have hsize := Option.isSome_iff_ne_none.mpr
        fun hn => hevidence.1 (Option.isNone_iff_eq_none.mpr hn)
      have hhash := Option.isSome_iff_ne_none.mpr
        fun hn => hevidence.2 (Option.isNone_iff_eq_none.mpr hn)
      exact Or.inl ⟨_, rfl, rfl, fun hvalid => ⟨hname, hvalid, fun _ => ⟨hsize, hhash⟩, rfl⟩⟩
  | rejected | deleted =>
    rw [hphase] at h
    cases h
    refine Or.inl ⟨_, rfl, rfl, fun hvalid => ⟨hname, hvalid, fun hp => ?_, rfl⟩⟩
    cases hp
  | receiving | «sealed» | quarantined | deleting =>
    rw [hphase] at h
    cases h
    refine Or.inr ⟨_, rfl, rfl, ?_, hreason⟩
    simp [unstablePhases]

/-- The identifiers that a selection has told. -/
def ExportSelection.ids (s : ExportSelection) : List DumpId :=
  s.dumps.map ExportManifestDump.dumpId ++ s.skipped.map ExportManifestSkipped.dumpId

/-- A selection whose entries are valid as far as their sizes are. -/
structure ExportSelection.Sound (s : ExportSelection) : Prop where
  dumps : ∀ d ∈ s.dumps, (∀ n, d.byteSize = some n → SizeValid n) → DumpValid d
  skipped : ∀ d ∈ s.skipped, SkippedValid d

theorem selectDump_sound {s s' : ExportSelection} {d : DumpRow} (h : selectDump s d = .ok s')
    (hs : s.Sound) : s'.Sound ∧ s'.ids.Perm (s.ids ++ [d.dumpId]) := by
  rcases selectDump_eq_ok h with ⟨e, rfl, hid, hvalid⟩ | ⟨e, rfl, hid, hvalid⟩
  · refine ⟨⟨List.forall_mem_append.mpr ⟨hs.dumps, List.forall_mem_singleton.mpr hvalid⟩,
      hs.skipped⟩, ?_⟩
    simp only [ExportSelection.ids, List.map_append, List.map_cons, List.map_nil, hid,
      List.append_assoc]
    exact List.Perm.append_left _ List.perm_append_comm
  · refine ⟨⟨hs.dumps,
      List.forall_mem_append.mpr ⟨hs.skipped, List.forall_mem_singleton.mpr hvalid⟩⟩, ?_⟩
    simp only [ExportSelection.ids, List.map_append, List.map_cons, List.map_nil, hid,
      List.append_assoc]
    exact List.Perm.refl _

/-- **Every row is told once, as exported or as skipped.** -/
theorem foldlM_selectDump {rows : List DumpRow} {s s' : ExportSelection}
    (h : rows.foldlM selectDump s = .ok s') (hs : s.Sound) :
    s'.Sound ∧ s'.ids.Perm (s.ids ++ rows.map DumpRow.dumpId) := by
  induction rows generalizing s with
  | nil =>
    rw [List.foldlM_nil, pure_eq_ok] at h
    subst h
    rw [List.map_nil, List.append_nil]
    exact ⟨hs, List.Perm.refl _⟩
  | cons d rows ih =>
    rw [List.foldlM_cons, bind_eq_ok] at h
    obtain ⟨t, ht, hrest⟩ := h
    obtain ⟨hsound, hperm⟩ := selectDump_sound ht hs
    obtain ⟨hsound', hperm'⟩ := ih hrest hsound
    refine ⟨hsound', hperm'.trans ?_⟩
    rw [List.map_cons, List.append_cons]
    exact hperm.append_right _

/-! ## Symbols -/

/-- The two texts before their separators. -/
theorem append_zero_inj {us vs xs ys : Units} (hu : 0 ∉ us) (hv : 0 ∉ vs)
    (h : us ++ 0 :: xs = vs ++ 0 :: ys) : us = vs ∧ xs = ys := by
  induction us generalizing vs with
  | nil =>
    cases vs with
    | nil => exact ⟨rfl, (List.cons.inj h).2⟩
    | cons v vs =>
      refine absurd ?_ hv
      rw [(List.cons.inj h).1]
      exact List.mem_cons_self
  | cons u us ih =>
    cases vs with
    | nil =>
      refine absurd ?_ hu
      rw [(List.cons.inj h).1]
      exact List.mem_cons_self
    | cons v vs =>
      obtain ⟨hhead, htail⟩ := List.cons.inj h
      obtain ⟨hrest, hxs⟩ := ih (fun hm => hu (List.mem_cons_of_mem u hm))
        (fun hm => hv (List.mem_cons_of_mem v hm)) htail
      rw [hhead, hrest]
      exact ⟨rfl, hxs⟩

section Symbols

variable {sha256 : Bytes → Sha256} {l : SqliteLedger}

/-- A debug symbol of the snapshot is the row that resolves to its pair. -/
theorem mem_debugSymbols {s : StoredSymbolArtifact} (h : s ∈ l.debugSymbols) :
    ∃ a ∈ l.symbolArtifacts, ∃ i, l.resolvesTo a i .pdb ∧ l.joined a = some s ∧
      s.artifactId = a.artifactId ∧ s.debugFile = some i.name ∧ s.debugId = some i.id := by
  obtain ⟨hlisted, hdebug⟩ := List.mem_filter.mp h
  obtain ⟨a, ha, hjoined⟩ := List.mem_filterMap.mp (List.mem_mergeSort.mp hlisted)
  obtain ⟨m, hm, rfl⟩ := Option.map_eq_some_iff.mp hjoined
  simp only [StoredSymbolArtifact.isDebug, StoredSymbolArtifact.ofRows, Bool.and_eq_true,
    Option.isSome_iff_exists] at hdebug
  obtain ⟨⟨hkind, file, hfile⟩, debugId, hid⟩ := hdebug
  refine ⟨a, ha, ⟨file, debugId⟩, ⟨of_decide_eq_true hkind, m, hm, ?_⟩, hjoined, rfl, hfile, hid⟩
  rw [ModuleRow.identity, hfile, hid]
  rfl

/-- The artifacts are told apart by their identifiers. -/
theorem debugSymbols_nodup : (l.debugSymbols.map StoredSymbolArtifact.artifactId).Nodup := by
  have hrows : ((l.symbolArtifacts.rows.filterMap l.joined).map
      StoredSymbolArtifact.artifactId).Nodup := by
    have hkeys : l.symbolArtifacts.rows.Pairwise fun a b => a.artifactId ≠ b.artifactId :=
      List.pairwise_map.mp l.symbolArtifacts.keys_nodup
    rw [List.map_filterMap]
    refine hkeys.filterMap _ fun a b hne id ha id' hb heq => ?_
    obtain ⟨s, hs, rfl⟩ := Option.map_eq_some_iff.mp ha
    obtain ⟨t, ht, rfl⟩ := Option.map_eq_some_iff.mp hb
    obtain ⟨m, -, rfl⟩ := Option.map_eq_some_iff.mp hs
    obtain ⟨n, -, rfl⟩ := Option.map_eq_some_iff.mp ht
    exact hne heq
  have hsorted : (l.listSymbolArtifacts.map StoredSymbolArtifact.artifactId).Nodup :=
    ((List.mergeSort_perm _ _).map _).nodup_iff.mpr hrows
  exact hsorted.sublist (List.filter_sublist.map _)

/-- **Two artifacts of one identity are one.** -/
theorem eq_of_identity (ht : SymbolTables sha256 l) {s t : StoredSymbolArtifact}
    (hs : s ∈ l.debugSymbols) (hmem : t ∈ l.debugSymbols)
    (h : s.manifestSymbol.identity = t.manifestSymbol.identity) : s = t := by
  obtain ⟨a, ha, i, hra, hja, -, hsfile, hsid⟩ := mem_debugSymbols hs
  obtain ⟨b, hb, j, hrb, hjb, -, htfile, htid⟩ := mem_debugSymbols hmem
  simp only [ExportManifestSymbol.identity, StoredSymbolArtifact.manifestSymbol, hsfile, hsid,
    htfile, htid, Option.elim_some, List.append_assoc, List.cons_append] at h
  obtain ⟨hfile, hrest⟩ := append_zero_inj (zero_notMem_utf16 i.name.noNul)
    (zero_notMem_utf16 j.name.noNul) h
  obtain ⟨hid, -⟩ := append_zero_inj (zero_notMem_utf16 i.id.noNul)
    (zero_notMem_utf16 j.id.noNul) hrest
  have hidentity : i = j := by
    cases i
    cases j
    rw [SymbolIdentity.mk.injEq]
    exact ⟨BoundedText.ext (utf16_injective hfile), BoundedText.ext (utf16_injective hid)⟩
  rw [hidentity] at hra
  rw [ht.unique ha hb hra hrb, hjb] at hja
  exact (Option.some.inj hja).symm

theorem symbolValid_manifestSymbol {s : StoredSymbolArtifact} (h : s ∈ l.debugSymbols)
    (hsize : (s.byteSize : Nat) < 10 ^ 40) : SymbolValid s.manifestSymbol := by
  obtain ⟨a, -, i, -, -, -, hfile, hid⟩ := mem_debugSymbols h
  have hbounded : ∀ {m : Nat} (o : Option (BoundedText m)) (t : Units),
      (o.map fun b => utf16 b.text) = some t → IsField m t := by
    intro m o t ho
    obtain ⟨b, -, rfl⟩ := Option.map_eq_some_iff.mp ho
    exact isField_boundedText b
  refine ⟨?_, ?_, ⟨s.byteSize.ne_zero, sizeValid_of_lt hsize⟩, rfl, hbounded s.product,
    hbounded s.version, hbounded s.arch⟩
  · rw [StoredSymbolArtifact.manifestSymbol, hfile]
    exact isField_boundedText i.name
  · rw [StoredSymbolArtifact.manifestSymbol, hid]
    exact isField_boundedText i.id

/-- The symbols of a bundle are symbols of the snapshot, each once. -/
theorem selectSymbols_eq (factsByDump : DumpId → Option JsonObject) (declared : List DumpId) :
    ∃ symbols : List StoredSymbolArtifact,
      selectSymbols l.debugSymbols factsByDump declared =
          symbols.map StoredSymbolArtifact.manifestSymbol ∧
        (∀ s ∈ symbols, s ∈ l.debugSymbols) ∧
        (symbols.map StoredSymbolArtifact.artifactId).Nodup := by
  refine ⟨_, rfl, fun s hs => ?_, ?_⟩
  · exact List.mem_of_mem_filter (List.mem_mergeSort.mp hs)
  · exact ((List.mergeSort_perm _ _).map _).nodup_iff.mpr
      (debugSymbols_nodup.sublist (List.filter_sublist.map _))

/-- The list of symbols that an export declares is valid. -/
theorem valid_selectSymbols (ht : SymbolTables sha256 l) {factsByDump : DumpId → Option JsonObject}
    {declared : List DumpId} {ss : List ExportManifestSymbol}
    (hss : selectSymbols l.debugSymbols factsByDump declared = ss)
    (hsizes : ∀ s ∈ ss, s.byteSize < 10 ^ 40) :
    (∀ s ∈ ss, SymbolValid s) ∧ (ss.map ExportManifestSymbol.artifactId).Nodup ∧
      (ss.map ExportManifestSymbol.identity).Nodup := by
  obtain ⟨symbols, heq, hmem, hnodup⟩ := selectSymbols_eq (l := l) factsByDump declared
  rw [heq] at hss
  subst hss
  refine ⟨fun s hs => ?_, ?_, ?_⟩
  · obtain ⟨a, ha, rfl⟩ := List.mem_map.mp hs
    exact symbolValid_manifestSymbol (hmem a ha) (hsizes _ hs)
  · rw [List.map_map]
    exact hnodup
  · rw [List.map_map]
    exact List.Nodup.map_on (fun s hs t ht' he => eq_of_identity ht (hmem s hs) (hmem t ht') he)
      (List.Nodup.of_map _ hnodup)

end Symbols

/-! ## The manifest -/

/-- **What an export selects is valid**, as far as the snapshot keeps the bounds. -/
theorem valid_of_selectManifest {sha256 : Bytes → Sha256} {l : SqliteLedger} {fingerprint : String}
    {createdAt : IsoTimestamp} {generatorVersion : Units} {includeSymbols : Bool}
    {factsByDump : DumpId → Option JsonObject} {analysisCounts : DumpId → Nat} {m : ExportManifest}
    (ht : SymbolTables sha256 l) (hfingerprint : IsFingerprint fingerprint)
    (h : selectManifest l fingerprint createdAt generatorVersion includeSymbols factsByDump
      analysisCounts = .ok m) (hbounds : m.InBounds) : m.Valid := by
  obtain ⟨selection, hselection, hm⟩ := bind_eq_ok.mp h
  rw [pure_eq_ok] at hm
  have hempty : (⟨[], []⟩ : ExportSelection).Sound :=
    ⟨fun d hd => absurd hd List.not_mem_nil, fun d hd => absurd hd List.not_mem_nil⟩
  obtain ⟨hsound, hids⟩ := foldlM_selectDump hselection hempty
  have hdumps : m.dumps.Perm selection.dumps := by
    rw [← hm]
    exact List.mergeSort_perm _ _
  have hskipped : m.skipped.Perm selection.skipped := by
    rw [← hm]
    exact List.mergeSort_perm _ _
  have hunique : (m.dumps.map ExportManifestDump.dumpId ++
      m.skipped.map ExportManifestSkipped.dumpId).Nodup := by
    have hperm : (m.dumps.map ExportManifestDump.dumpId ++
        m.skipped.map ExportManifestSkipped.dumpId).Perm (l.dumps.sorted.map DumpRow.dumpId) :=
      ((hdumps.map _).append (hskipped.map _)).trans hids
    exact hperm.nodup_iff.mpr (Table.sorted_keys_nodup l.dumps)
  have hsymbols : ∀ ss, m.symbols = some ss → (∀ s ∈ ss, SymbolValid s) ∧
      (ss.map ExportManifestSymbol.artifactId).Nodup ∧
      (ss.map ExportManifestSymbol.identity).Nodup := by
    intro ss hss
    have hsizes := hbounds.symbolSizes ss hss
    rw [← hm] at hss
    by_cases hinclude : includeSymbols = true
    · rw [if_pos hinclude, Option.some.injEq] at hss
      exact valid_selectSymbols ht hss hsizes
    · rw [if_neg hinclude] at hss
      cases hss
  have hcount : m.counts.dumps = m.dumps.length := by
    rw [← hm]
  have hsymbolsCount : m.counts.symbols = m.symbols.map List.length := by
    rw [← hm]
  have hmigrations : m.generator.schemaMigrations = runningSchemaMigrations := by
    rw [← hm]
  exact {
    generator := ⟨hbounds.version, hmigrations.trans_le (by decide)⟩
    fingerprint := by
      rw [← hm]
      exact fingerprint_matches hfingerprint
    counts := {
      customers := hbounds.customers
      cases := hbounds.cases
      grants := hbounds.grants
      dumps := by
        rw [hcount]
        exact hbounds.dumps.trans (by decide)
      auditEvents := hbounds.auditEvents
      symbols := by
        intro n hn
        rw [hsymbolsCount, Option.map_eq_some_iff] at hn
        obtain ⟨ss, hss, rfl⟩ := hn
        exact (hbounds.symbols ss hss).trans (by decide) }
    skippedAnalyses := hbounds.skippedAnalyses
    skipped := fun s hs => hsound.skipped s (hskipped.mem_iff.mp hs)
    dumps := fun d hd => hsound.dumps d (hdumps.mem_iff.mp hd)
      fun n hn => sizeValid_of_lt (hbounds.dumpSizes d hd n hn)
    symbols := fun ss hss => (hsymbols ss hss).1
    skipped_le := hbounds.skipped
    dumps_le := hbounds.dumps
    symbols_le := hbounds.symbols
    dumps_count := hcount
    symbols_count := hsymbolsCount
    unique := hunique
    artifacts := fun ss hss => (hsymbols ss hss).2.1
    identities := fun ss hss => (hsymbols ss hss).2.2 }

/-- **The manifest codec.** What an export selects from a reachable snapshot is read back from its
bytes, and so is what the parser has accepted. -/
theorem manifest_codec {options : EngineOptions} (hfingerprint : IsFingerprint options.fingerprint)
    (events : List Event) :
    (∀ createdAt generatorVersion includeSymbols factsByDump analysisCounts m,
      selectManifest (reached options events).ledger options.fingerprint createdAt generatorVersion
        includeSymbols factsByDump analysisCounts = .ok m → m.InBounds →
      parseExportManifest (serializeExportManifest m) = .ok m) ∧
    ∀ bytes m, parseExportManifest bytes = .ok m →
      (serializeExportManifest m).length ≤ maxManifestBytes →
      parseExportManifest (serializeExportManifest m) = .ok m := by
  have ht : SymbolTables options.digests.sha256 (reached options events).ledger :=
    ledger_invariant symbolTables_fresh (fun _ _ _ _ _ => symbolTables_run) events
  refine ⟨fun _ _ _ _ _ m hm hbounds => ?_, fun bytes m hm hlength => ?_⟩
  · exact parse_serialize (valid_of_selectManifest ht hfingerprint hm hbounds) hbounds.bytes
  · exact parse_serialize (valid_of_parse hm) hlength

namespace Sample

/-- The manifest of an instance with one available dump. -/
def availableManifest : ExportManifest where
  createdAt := ⟨"2026-01-03T00:00:00.000Z", by decide⟩
  generator := { version := utf16 "0.1.0", schemaMigrations := 11 }
  grantKeyFingerprint := utf16 options.fingerprint
  counts :=
    { customers := 1, cases := 1, grants := 1, dumps := 1,
      auditEvents := some 9, symbols := some 0 }
  skippedAnalyses := some 1
  skipped := []
  dumps := [{
    dumpId := (host 0).dumpId
    caseId := (host 0).caseId
    phase := .available
    originalName := utf16 "crash.dmp"
    byteSize := some 4
    sha256 := some (sha256 [77, 68, 77, 80])
    entry := some "vault/dump_00000000000000000000000001/original.dmp" }]
  symbols := some []

theorem isFingerprint_options : IsFingerprint options.fingerprint :=
  ⟨Base64Url.decode options.fingerprint.toList, by decide, by decide⟩

theorem inBounds_available : availableManifest.InBounds where
  version := ⟨by decide, by decide, by decide⟩
  customers := by decide
  cases := by decide
  grants := by decide
  auditEvents n hn := by
    cases hn
    decide
  skippedAnalyses n hn := by
    cases hn
    decide
  skipped := by decide
  dumps := by decide
  symbols ss hss := by
    cases hss
    decide
  dumpSizes d hd n hn := by
    rw [List.mem_singleton.mp hd] at hn
    cases hn
    decide
  symbolSizes ss hss := by
    cases hss
    intro s hs
    cases hs
  bytes := by
    have hunits : (jsonStringify availableManifest.json).length ≤ 0x10000 := by
      decide +kernel
    have hbytes : (serializeExportManifest availableManifest).length ≤
        3 * (jsonStringify availableManifest.json).length :=
      length_encodeText_le (isText_manifest availableManifest)
    rw [maxManifestBytes]
    omega

end Sample

/-- The manifest of one dump, as it is selected and as it is read back. -/
theorem manifest_codec_available :
    parseExportManifest (serializeExportManifest Sample.availableManifest) =
      .ok Sample.availableManifest := by
  have hselect : selectManifest (reached Sample.options Sample.analysisRun).ledger
      Sample.options.fingerprint Sample.availableManifest.createdAt (utf16 "0.1.0") true
      (fun _ => none) (fun _ => 1) = .ok Sample.availableManifest := by
    decide +kernel
  obtain ⟨hselected, hparsed⟩ := manifest_codec Sample.isFingerprint_options Sample.analysisRun
  exact hparsed _ _ (hselected _ _ _ _ _ _ hselect Sample.inBounds_available)
    Sample.inBounds_available.bytes

end DumpLedger
