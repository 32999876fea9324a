import DumpLedger.Properties.ManifestCodec
import DumpLedger.Properties.OpenedBundle
import DumpLedger.Properties.SealedBundle

/-!
# Reading a sealed bundle back

What an export has sealed is an archive that the reader takes: the names are printable, and no two
are the same. So the entries come back in order, with the bytes that went in.

* `nodup_entryNames` — the names of a bundle are distinct
* `sealed_written` — the archive has what the reader asks for
* `sealed_readBack` — each promised dump and symbol is read back with its bytes of the vault
-/

namespace DumpLedger.ExportSession

open Lib Tar ImportSession

/-! ## Names -/

theorem printable_identifier {kind : String} (hkind : PrintableAscii kind) (i : Identifier kind) :
    PrintableAscii i.text := by
  obtain ⟨body, htext, -, hbody⟩ := identifier_text i
  intro c hc
  rw [htext, List.mem_append, List.mem_cons] at hc
  rcases hc with hc | rfl | hc
  · exact hkind c hc
  · decide
  · have hchar := hbody c hc
    simp only [isIdentifierChar, Bool.or_eq_true, Bool.and_eq_true, decide_eq_true_eq] at hchar
    rcases hchar with ⟨hlo, hhi⟩ | ⟨⟨hlo, hhi⟩, -⟩
    · have hlo' : '0'.toNat ≤ c.toNat := hlo
      have hhi' : c.toNat ≤ '9'.toNat := hhi
      exact ⟨le_trans (by decide) hlo', hhi'.trans (by decide)⟩
    · have hlo' : 'A'.toNat ≤ c.toNat := hlo
      have hhi' : c.toNat ≤ 'Z'.toNat := hhi
      exact ⟨le_trans (by decide) hlo', hhi'.trans (by decide)⟩

theorem toList_symbolEntryName (artifactId : SymbolArtifactId) :
    (symbolEntryName artifactId).toList =
      "symbols/".toList ++ artifactId.text.toList ++ ".bin".toList := by
  rw [symbolEntryName, String.toList_append, String.toList_append]
  rfl

/-- A name with an identifier in its middle. -/
theorem printable_around {name first text last : String}
    (h : name.toList = first.toList ++ text.toList ++ last.toList) (hfirst : PrintableAscii first)
    (htext : PrintableAscii text) (hlast : PrintableAscii last) : PrintableAscii name := by
  intro c hc
  rw [h, List.mem_append, List.mem_append] at hc
  rcases hc with (hc | hc) | hc
  · exact hfirst c hc
  · exact htext c hc
  · exact hlast c hc

theorem printable_dumpEntryName (dumpId : DumpId) : PrintableAscii (dumpEntryName dumpId) :=
  printable_around (toList_dumpEntryName dumpId) (by simp [PrintableAscii])
    (printable_identifier (by simp [PrintableAscii]) dumpId) (by simp [PrintableAscii])

theorem printable_symbolEntryName (artifactId : SymbolArtifactId) :
    PrintableAscii (symbolEntryName artifactId) :=
  printable_around (toList_symbolEntryName artifactId) (by simp [PrintableAscii])
    (printable_identifier (by simp [PrintableAscii]) artifactId) (by simp [PrintableAscii])

theorem dumpEntryName_injective : Function.Injective dumpEntryName := by
  intro a b h
  have hlists := congrArg String.toList h
  rw [toList_dumpEntryName, toList_dumpEntryName, List.append_cancel_right_eq,
    List.append_cancel_left_eq] at hlists
  exact Identifier.ext (String.toList_injective hlists)

theorem symbolEntryName_injective : Function.Injective symbolEntryName := by
  intro a b h
  have hlists := congrArg String.toList h
  rw [toList_symbolEntryName, toList_symbolEntryName, List.append_cancel_right_eq,
    List.append_cancel_left_eq] at hlists
  exact Identifier.ext (String.toList_injective hlists)

/-- The first character tells the entries of dumps from the others. -/
theorem head_dumpEntryName (dumpId : DumpId) : (dumpEntryName dumpId).toList.head? = some 'v' := by
  rw [toList_dumpEntryName]
  rfl

theorem head_symbolEntryName (artifactId : SymbolArtifactId) :
    (symbolEntryName artifactId).toList.head? = some 's' := by
  rw [toList_symbolEntryName]
  rfl

/-- The names of a bundle, in the order of its entries. -/
def entryNames (dumpIds : List DumpId) (artifactIds : List SymbolArtifactId) : List String :=
  "manifest.json" :: "ledger.sqlite" ::
    (dumpIds.map dumpEntryName ++ artifactIds.map symbolEntryName)

theorem printable_entryNames {dumpIds : List DumpId} {artifactIds : List SymbolArtifactId} :
    ∀ name ∈ entryNames dumpIds artifactIds, PrintableAscii name := by
  intro name hname
  simp only [entryNames, List.mem_cons, List.mem_append, List.mem_map] at hname
  rcases hname with rfl | rfl | ⟨dumpId, -, rfl⟩ | ⟨artifactId, -, rfl⟩
  · simp [PrintableAscii]
  · simp [PrintableAscii]
  · exact printable_dumpEntryName dumpId
  · exact printable_symbolEntryName artifactId

/-- **The names of a bundle are distinct.** -/
theorem nodup_entryNames {dumpIds : List DumpId} {artifactIds : List SymbolArtifactId}
    (hdumps : dumpIds.Nodup) (hsymbols : artifactIds.Nodup) :
    (entryNames dumpIds artifactIds).Nodup := by
  have hheads : ∀ name ∈ dumpIds.map dumpEntryName ++ artifactIds.map symbolEntryName,
      name.toList.head? = some 'v' ∨ name.toList.head? = some 's' := by
    intro name hname
    simp only [List.mem_append, List.mem_map] at hname
    rcases hname with ⟨dumpId, -, rfl⟩ | ⟨artifactId, -, rfl⟩
    · exact Or.inl (head_dumpEntryName dumpId)
    · exact Or.inr (head_symbolEntryName artifactId)
  have hpayloads : (dumpIds.map dumpEntryName ++ artifactIds.map symbolEntryName).Nodup := by
    refine List.nodup_append.mpr ⟨hdumps.map dumpEntryName_injective,
      hsymbols.map symbolEntryName_injective, ?_⟩
    intro name hdump other hsymbol heq
    obtain ⟨dumpId, -, rfl⟩ := List.mem_map.mp hdump
    obtain ⟨artifactId, -, rfl⟩ := List.mem_map.mp hsymbol
    have hhead := head_dumpEntryName dumpId
    rw [heq, head_symbolEntryName] at hhead
    exact absurd hhead (by decide)
  refine List.nodup_cons.mpr ⟨?_, List.nodup_cons.mpr ⟨?_, hpayloads⟩⟩
  · intro hmem
    rcases List.mem_cons.mp hmem with heq | hmem
    · exact absurd heq (by decide)
    · rcases hheads _ hmem with hhead | hhead <;> exact absurd hhead (by decide)
  · intro hmem
    rcases hheads _ hmem with hhead | hhead <;> exact absurd hhead (by decide)

/-! ## The archive -/

/-- The dumps of a snapshot are promised once each. -/
theorem nodup_availableDumps (snapshot : SqliteLedger) :
    ((availableDumps snapshot).map DumpRow.dumpId).Nodup := by
  refine ((List.mergeSort_perm _ _).map DumpRow.dumpId).nodup_iff.mpr ?_
  exact (Table.sorted_keys_nodup snapshot.dumps).sublist (List.filter_sublist.map _)

/-- The symbols of a session that was opened are artifacts, each once. -/
theorem symbols_of_open {options : ExportBundleOptions} {exportId : String}
    {snapshot copy : SqliteLedger} {session : Session}
    (h : createExportSession options exportId snapshot copy = .ok session) :
    (∀ s ∈ session.manifest.symbols.getD [], s.entry = symbolEntryName s.artifactId) ∧
      ((session.manifest.symbols.getD []).map ExportManifestSymbol.artifactId).Nodup := by
  simp only [createExportSession, openPreparedExport, selectManifest, selectExport, bind_eq_ok,
    pure_eq_ok] at h
  obtain ⟨manifest, ⟨_, -, selection, -, rfl⟩, rfl⟩ := h
  dsimp only
  split
  · obtain ⟨symbols, heq, -, hnodup⟩ :=
      selectSymbols_eq (l := snapshot) (readStoredFacts copy) (declaredIds snapshot)
    rw [heq, Option.getD_some]
    refine ⟨?_, by rw [List.map_map]; exact hnodup⟩
    intro s hs
    obtain ⟨a, -, rfl⟩ := List.mem_map.mp hs
    rfl
  · simp

section Pairs

variable {α β γ : Type} {R : α → β → Prop} {l : List α} {l' : List β}

theorem map_of_forall₂ {f : α → γ} {g : β → γ} (h : List.Forall₂ R l l')
    (hR : ∀ a b, R a b → g b = f a) : l'.map g = l.map f := by
  induction h with
  | nil => rfl
  | cons hab hrest ih => rw [List.map_cons, List.map_cons, hR _ _ hab, ih]

theorem left_of_forall₂ (h : List.Forall₂ R l l') : ∀ b ∈ l', ∃ a ∈ l, R a b := by
  induction h with
  | nil => simp
  | cons hab hrest ih =>
    refine List.forall_mem_cons.mpr ⟨⟨_, List.mem_cons_self, hab⟩, fun b hb => ?_⟩
    obtain ⟨a, ha, hR⟩ := ih b hb
    exact ⟨a, List.mem_cons_of_mem _ ha, hR⟩

theorem right_of_forall₂ (h : List.Forall₂ R l l') : ∀ a ∈ l, ∃ b ∈ l', R a b := by
  induction h with
  | nil => simp
  | cons hab hrest ih =>
    refine List.forall_mem_cons.mpr ⟨⟨_, List.mem_cons_self, hab⟩, fun a ha => ?_⟩
    obtain ⟨b, hb, hR⟩ := ih a ha
    exact ⟨b, List.mem_cons_of_mem _ hb, hR⟩

end Pairs

theorem Carries.size_eq {name : String} {size : Nat} {object : Option Bytes} {e : EntryInput}
    (h : Carries name size object e) : (e.chunks.flatten.length : Int) = e.size := by
  rw [h.recorded, h.declared]

/-- The archive is at least as long as the bytes of its entries. -/
theorem payloadBytes_le {entries : List EntryInput} {body : Bytes} (h : Segments entries body) :
    payloadBytes entries ≤ body.length := by
  induction h with
  | nil => exact Nat.zero_le _
  | cons hheader hname hsize hrest ih =>
    simp only [payloadBytes, List.map_cons, List.sum_cons, List.length_append] at ih ⊢
    omega

theorem flatten_manifestInput (bytes : Bytes) : (manifestInput bytes).chunks.flatten = bytes := by
  simp [manifestInput]

theorem size_manifestInput (bytes : Bytes) :
    ((manifestInput bytes).chunks.flatten.length : Int) = (manifestInput bytes).size := by
  rw [flatten_manifestInput]
  rfl

theorem flatten_ledgerInput (bytes : Bytes) : (ledgerInput bytes).chunks.flatten = bytes :=
  flatten_streamChunks bytes

theorem size_ledgerInput (bytes : Bytes) :
    ((ledgerInput bytes).chunks.flatten.length : Int) = (ledgerInput bytes).size := by
  rw [flatten_ledgerInput]
  rfl

section Session

variable {options : ExportBundleOptions} {exportId : String} {snapshot copy : SqliteLedger}
  {session : Session} {ledgerFile archive : Bytes} {vaults : Vaults}

/-- **The archive of a session** has what the reader asks for. -/
theorem sealed_written (hopen : createExportSession options exportId snapshot copy = .ok session)
    (h : Sealed session ledgerFile vaults archive) :
    ∃ dumps symbols,
      List.Forall₂ (CarriesDump vaults) (availableDumps session.snapshot) dumps ∧
      List.Forall₂ (CarriesSymbol vaults) (session.manifest.symbols.getD []) symbols ∧
      Written archive (bundleInputs (serializeExportManifest session.manifest) ledgerFile
        (dumps ++ symbols)) := by
  obtain ⟨dumps, symbols, hdumps, hsymbols, hwrite⟩ := h
  obtain ⟨hentry, hunique⟩ := symbols_of_open hopen
  have hdumpNames : dumps.map EntryInput.name =
      ((availableDumps session.snapshot).map DumpRow.dumpId).map dumpEntryName := by
    rw [List.map_map]
    exact map_of_forall₂ hdumps fun _ _ hcarries => hcarries.choose_spec.2.2.named
  have hsymbolNames : symbols.map EntryInput.name =
      ((session.manifest.symbols.getD []).map ExportManifestSymbol.artifactId).map
        symbolEntryName := by
    rw [List.map_map, map_of_forall₂ hsymbols fun _ _ hcarries => hcarries.named]
    exact List.map_congr_left hentry
  have hnames : (bundleInputs (serializeExportManifest session.manifest) ledgerFile
      (dumps ++ symbols)).map EntryInput.name =
      entryNames ((availableDumps session.snapshot).map DumpRow.dumpId)
        ((session.manifest.symbols.getD []).map ExportManifestSymbol.artifactId) := by
    rw [entryNames, ← hdumpNames, ← hsymbolNames, ← List.map_append]
    rfl
  refine ⟨dumps, symbols, hdumps, hsymbols, hwrite, ?_, ?_, ?_⟩
  · refine List.forall_mem_cons.mpr ⟨size_manifestInput _,
      List.forall_mem_cons.mpr ⟨size_ledgerInput _, ?_⟩⟩
    intro e he
    rcases List.mem_append.mp he with he | he
    · obtain ⟨_, -, _, -, -, hcarries⟩ := left_of_forall₂ hdumps e he
      exact hcarries.size_eq
    · obtain ⟨_, -, hcarries⟩ := left_of_forall₂ hsymbols e he
      exact Carries.size_eq hcarries
  · intro e he
    exact printable_entryNames e.name (hnames ▸ List.mem_map_of_mem he)
  · rw [hnames]
    exact nodup_entryNames (nodup_availableDumps _) hunique

/-- An entry of this name is read back with these bytes. -/
def ReadsAs (archive : Bytes) (entries : List TarEntry) (name : String) (bytes : Bytes) : Prop :=
  ∃ e ∈ entries, e.name = name ∧ readEntryBytes archive e = .ok bytes

/-- **A sealed bundle is read back**: the reader of the importer finds the manifest, the backup,
and each promised dump and symbol with the bytes that the vault had. -/
theorem sealed_readBack (hopen : createExportSession options exportId snapshot copy = .ok session)
    (h : Sealed session ledgerFile vaults archive) {bounds : BundleBounds}
    (hcount : 2 + (availableDumps session.snapshot).length +
      (session.manifest.symbols.getD []).length ≤ maxBundleEntries)
    (hbytes : (archive.length : Int) ≤ bounds.maxBundleBytes) :
    ∃ entries,
      readTar archive
          { maxEntries := some maxBundleEntries, maxBytes := some bounds.maxBundleBytes,
            maxNameLength := none } = .ok ⟨entries, none⟩ ∧
        ReadsAs archive entries "manifest.json" (serializeExportManifest session.manifest) ∧
        ReadsAs archive entries "ledger.sqlite" ledgerFile ∧
        (∀ dump ∈ availableDumps session.snapshot, ∃ bytes,
          vaults.dumps.object? dump.dumpId = some bytes ∧
            ReadsAs archive entries (dumpEntryName dump.dumpId) bytes) ∧
        ∀ symbol ∈ session.manifest.symbols.getD [], ∃ bytes,
          vaults.symbols.object? symbol.artifactId = some bytes ∧
            ReadsAs archive entries symbol.entry bytes := by
  obtain ⟨dumps, symbols, hdumps, hsymbols, hwritten⟩ := sealed_written hopen h
  have hinputs : (bundleInputs (serializeExportManifest session.manifest) ledgerFile
      (dumps ++ symbols)).length ≤ maxBundleEntries := by
    simp only [bundleInputs, List.length_cons, List.length_append, ← hdumps.length_eq,
      ← hsymbols.length_eq]
    omega
  have hpayload : (payloadBytes (bundleInputs (serializeExportManifest session.manifest) ledgerFile
      (dumps ++ symbols)) : Int) ≤ bounds.maxBundleBytes := by
    obtain ⟨⟨fresh, hfresh⟩, haccepted⟩ := accepted_of_writeTar hwritten.write
    obtain ⟨body, hsegments, hwrite⟩ := writeTar_segments hfresh haccepted hwritten.sizes
    have harchive := Except.ok.inj (hwritten.write.symm.trans hwrite)
    have hbody := payloadBytes_le hsegments
    rw [harchive, List.length_append] at hbytes
    omega
  obtain ⟨entries, hread, hback⟩ := readTar_written hwritten hinputs hpayload
  -- what was written under a name is read under it
  have hfound : ∀ e ∈ bundleInputs (serializeExportManifest session.manifest) ledgerFile
      (dumps ++ symbols), ReadsAs archive entries e.name e.chunks.flatten := by
    intro e he
    obtain ⟨entry, hentry, hreadBack⟩ := right_of_forall₂ hback e he
    exact ⟨entry, hentry, hreadBack.name, readEntryBytes_back hreadBack (hwritten.sizes e he)⟩
  refine ⟨entries, hread, ?_, ?_, ?_, ?_⟩
  · have hmanifest := hfound _ List.mem_cons_self
    rw [flatten_manifestInput] at hmanifest
    exact hmanifest
  · have hledger := hfound _ (List.mem_cons_of_mem _ List.mem_cons_self)
    rw [flatten_ledgerInput] at hledger
    exact hledger
  · intro dump hdump
    obtain ⟨e, he, _, -, -, hcarries⟩ := right_of_forall₂ hdumps dump hdump
    have hentry := hfound e
      (List.mem_cons_of_mem _ (List.mem_cons_of_mem _ (List.mem_append_left _ he)))
    rw [hcarries.named] at hentry
    exact ⟨_, hcarries.stored, hentry⟩
  · intro symbol hsymbol
    obtain ⟨e, he, hcarries⟩ := right_of_forall₂ hsymbols symbol hsymbol
    have hentry := hfound e
      (List.mem_cons_of_mem _ (List.mem_cons_of_mem _ (List.mem_append_right _ he)))
    rw [Carries.named hcarries] at hentry
    exact ⟨_, Carries.stored hcarries, hentry⟩

end Session

namespace Sample

open ImportSession.Sample

def options : ExportBundleOptions where
  fingerprint := DumpLedger.Sample.options.fingerprint
  createdAt := createdAt
  generatorVersion := utf16 "0.1.0"
  includeSymbols := false

/-- A ledger with one dump, which is available. -/
def snapshot : SqliteLedger :=
  { SqliteLedger.fresh with
    customers := ⟨[customer], List.nodup_singleton _⟩
    cases := ⟨[caseRow], List.nodup_singleton _⟩
    dumps := ⟨[available], List.nodup_singleton _⟩ }

def manifest : ExportManifest where
  createdAt := createdAt
  generator := { version := utf16 "0.1.0", schemaMigrations := runningSchemaMigrations }
  grantKeyFingerprint := utf16 DumpLedger.Sample.options.fingerprint
  counts :=
    { customers := 1, cases := 1, grants := 0, dumps := 1, auditEvents := some 0, symbols := none }
  skippedAnalyses := some 0
  skipped := []
  dumps := [{ available.tombstone .available with entry := some (dumpEntryName availableId) }]
  symbols := none

def session : Session :=
  { exportId := "export_1", createdAt, manifest, snapshot, settled := false }

theorem sorted_snapshot : snapshot.dumps.sorted = [available] := by
  unfold Table.sorted
  exact List.mergeSort_singleton _

theorem opened : createExportSession options "export_1" snapshot snapshot = .ok session := by
  have hempty : guardThat (snapshot.analysisDetails.isEmpty = true)
      (invalidTransition "export format v1 cannot preserve canonical analysis details") =
      .ok () := rfl
  have hselect : List.foldlM selectDump ⟨[], []⟩ [available] = .ok ⟨manifest.dumps, []⟩ := rfl
  have hdumps : (manifest.dumps.mergeSort fun a b => decide (a.dumpId ≤ b.dumpId)) =
      manifest.dumps :=
    List.mergeSort_singleton _
  simp only [createExportSession, openPreparedExport, selectManifest, selectExport,
    sorted_snapshot, hempty, hselect, bind_ok, hdumps, List.mergeSort_nil]
  rfl

theorem availableDumps_snapshot : availableDumps snapshot = [available] := by
  unfold availableDumps
  rw [sorted_snapshot]
  exact List.mergeSort_singleton _

def vaults : Vaults :=
  { Vaults.empty with
    dumps := { ObjectStore.empty with
      objects := ⟨[⟨availableId, [77, 68, 77, 80]⟩], List.nodup_singleton _⟩ } }

theorem length_serialized : (serializeExportManifest manifest).length ≤ 3000 := by
  have hunits : (jsonStringify manifest.json).length ≤ 1000 := by decide +kernel
  have hbytes : (serializeExportManifest manifest).length ≤
      3 * (jsonStringify manifest.json).length :=
    length_encodeText_le (isText_manifest manifest)
  omega

theorem exists_sealed : ∃ archive, Sealed session ledgerBytes vaults archive := by
  obtain ⟨archive, hwritten⟩ : ∃ archive, Written archive
      (bundleInputs (serializeExportManifest manifest) ledgerBytes [payload [77, 68, 77, 80]]) :=
    written_of_length length_serialized ⟨by decide, by decide⟩
  refine ⟨archive, [payload [77, 68, 77, 80]], [], ?_, .nil, hwritten.write⟩
  show List.Forall₂ (CarriesDump vaults) (availableDumps snapshot) _
  rw [availableDumps_snapshot]
  exact .cons ⟨4, rfl, rfl, rfl, rfl, rfl, rfl⟩ .nil

end Sample

/-- The bundle of a small ledger is read back with the bytes of its dump. -/
theorem sealed_readBack_sample :
    ∃ archive entries,
      Sealed Sample.session ImportSession.Sample.ledgerBytes Sample.vaults archive ∧
      ReadsAs archive entries (dumpEntryName ImportSession.Sample.availableId)
        [77, 68, 77, 80] := by
  obtain ⟨archive, hsealed⟩ := Sample.exists_sealed
  have hdumps : availableDumps Sample.session.snapshot = [ImportSession.Sample.available] :=
    Sample.availableDumps_snapshot
  have hsymbols : Sample.session.manifest.symbols.getD [] = [] := rfl
  have hcount : 2 + (availableDumps Sample.session.snapshot).length +
      (Sample.session.manifest.symbols.getD []).length ≤ maxBundleEntries := by
    rw [hdumps, hsymbols]
    decide
  have hbytes : (archive.length : Int) ≤
      ({ defaultBounds with maxBundleBytes := archive.length } : BundleBounds).maxBundleBytes :=
    le_rfl
  obtain ⟨entries, -, -, -, hread, -⟩ := sealed_readBack Sample.opened hsealed hcount hbytes
  obtain ⟨bytes, hstored, hreads⟩ := hread ImportSession.Sample.available (by simp [hdumps])
  have hobject : Sample.vaults.dumps.object? ImportSession.Sample.available.dumpId =
      some [77, 68, 77, 80] := rfl
  rw [hobject] at hstored
  cases hstored
  exact ⟨archive, entries, hsealed, hreads⟩

end DumpLedger.ExportSession
