import DumpLedger.Http.MissingSymbols
import DumpLedger.Properties.ManifestCodec

/-!
# The views of symbol coverage

Three joins of the stored facts with the stored artifacts agree: the coverage of a dump's
modules, the missing identities of a case, and the symbols that an export carries.

* `missing_listed` — an identity is listed for a case when a dump of the case misses it
* `symbol_views_agree` — the views of every reachable ledger agree
-/

namespace DumpLedger

open Lib

/-! ## What the views are about -/

/-- The coverage of the dump's modules shows this pair, of a module that is not the system's, as
missing. -/
def DumpRow.Misses (d : DumpRow) (symbols : List StoredSymbolArtifact)
    (debugFile debugId : String) : Prop :=
  ∃ row ∈ symbolCoverageFor d.inspectionFacts symbols, row.status = .missing ∧
    row.system = false ∧ row.debugFile = some debugFile ∧ row.debugId = some debugId

/-- A module that the dump's facts name has this pair. -/
def DumpRow.References (d : DumpRow) (debugFile debugId : String) : Prop :=
  ∃ modules members, (d.inspectionFacts.bind fun o => o.get? "modules") = some (.arr modules) ∧
    Json.obj members ∈ modules ∧ JsonObject.get? members "debugFile" = some (.str debugFile) ∧
    JsonObject.get? members "debugId" = some (.str debugId)

/-- An export declares the dump. -/
def DumpRow.Declared (d : DumpRow) : Prop :=
  d.phase = .available ∨ d.phase = .rejected ∨ d.phase = .deleted

/-- An available dump of the case. -/
def SqliteLedger.AvailableIn (l : SqliteLedger) (caseId : CaseId) (d : DumpRow) : Prop :=
  d ∈ l.dumps ∧ d.caseId = caseId ∧ d.phase = .available

/-- `selectSymbols` on the state `l`, with the facts of its own dumps. -/
def exportedSymbols (l : SqliteLedger) : List ExportManifestSymbol :=
  selectSymbols l.debugSymbols (readStoredFacts l) (declaredIds l)

structure SymbolViewsAgree (l : SqliteLedger) : Prop where
  listed : ∀ caseId debugFile debugId,
    (∃ m ∈ missingSymbolsFor l caseId, m.debugFile = debugFile ∧ m.debugId = debugId) ↔
      ∃ d, l.AvailableIn caseId d ∧ d.Misses l.debugSymbols debugFile debugId
  listedOnce : ∀ caseId,
    ((missingSymbolsFor l caseId).map fun m => (m.debugFile, m.debugId)).Nodup
  dumpIds : ∀ caseId, ∀ m ∈ missingSymbolsFor l caseId, ∀ dumpId, dumpId ∈ m.dumpIds ↔
    ∃ d, l.AvailableIn caseId d ∧ d.Misses l.debugSymbols m.debugFile m.debugId ∧
      d.dumpId = dumpId
  ascending : ∀ caseId, ∀ m ∈ missingSymbolsFor l caseId, m.dumpIds.Pairwise (· < ·)
  carried : ∀ a ∈ l.symbolArtifacts, a.kind = .pdb → ∃ stored identity,
    l.joined a = some stored ∧ l.resolvesTo a identity .pdb ∧
      (stored.manifestSymbol ∈ exportedSymbols l ↔
        ∃ d ∈ l.dumps, d.Declared ∧ d.References identity.name.text identity.id.text)
  carriedOnly : ∀ s ∈ exportedSymbols l, ∃ a ∈ l.symbolArtifacts, a.kind = .pdb ∧
    ∃ stored, l.joined a = some stored ∧ s = stored.manifestSymbol
  carriedOnce : ((exportedSymbols l).map ExportManifestSymbol.artifactId).Nodup
  present : ∀ d ∈ l.dumps, d.phase = .available →
    ∀ row ∈ symbolCoverageFor d.inspectionFacts l.debugSymbols, row.status = .present →
      ∃ s ∈ exportedSymbols l, row.artifactId = some s.artifactId ∧
        row.debugFile.map utf16 = some s.debugFile ∧ row.debugId.map utf16 = some s.debugId

/-! ## Keys -/

theorem toList_symbolKey (debugFile debugId : String) :
    (symbolKey debugFile debugId).toList = debugFile.toList ++ '\x00' :: debugId.toList := by
  simp [symbolKey]

/-- A key of texts without NUL is of no other pair. -/
theorem symbolKey_inj {f i f' i' : String} (hf : '\x00' ∉ f.toList) (hi : '\x00' ∉ i.toList)
    (h : symbolKey f' i' = symbolKey f i) : f' = f ∧ i' = i := by
  have hlists := congrArg String.toList h.symm
  rw [toList_symbolKey, toList_symbolKey,
    List.append_cons_inj_of_notMem hf hi] at hlists
  exact ⟨(String.toList_inj.mp hlists.1).symm, (String.toList_inj.mp hlists.2.2).symm⟩

/-- What reads as text of a fact is the fact itself, without NUL. -/
theorem factText_eq_some {value : Option Json} {max : Nat} {s : String}
    (h : factText value max = some s) : value = some (.str s) ∧ s ≠ "" ∧ '\x00' ∉ s.toList := by
  unfold factText at h
  split at h
  · split_ifs at h with hbound hcontrol
    cases h
    refine ⟨rfl, fun he => hbound (Or.inl he), fun hnul => hcontrol ?_⟩
    exact List.any_eq_true.mpr ⟨'\x00', hnul, by decide⟩
  · cases h

/-! ## One module -/

section Modules

variable {symbols : List StoredSymbolArtifact} {entry : JsonObject}

/-- A module asks for the pair that its coverage shows as missing. -/
theorem missingIdentity?_eq_some {p : String × String} :
    missingIdentity? symbols entry = some p ↔
      (moduleSymbolCoverage symbols entry).status = .missing ∧
        (moduleSymbolCoverage symbols entry).system = false ∧
        (moduleSymbolCoverage symbols entry).debugFile = some p.1 ∧
        (moduleSymbolCoverage symbols entry).debugId = some p.2 := by
  unfold missingIdentity? moduleSymbolCoverage
  generalize moduleSymbolFacts entry = identity
  obtain ⟨name, debugFile, debugId⟩ := identity
  cases debugFile with
  | none => simp
  | some f =>
    cases debugId with
    | none => simp
    | some i =>
      dsimp only
      cases indexedSymbol symbols (symbolKey f i) with
      | some a => simp
      | none =>
        cases isSystemModulePath name
        · simp [Prod.ext_iff]
        · simp

/-- The pair of a coverage row is read from the entry. -/
theorem moduleSymbolCoverage_pair :
    (moduleSymbolCoverage symbols entry).debugFile = (moduleSymbolFacts entry).debugFile ∧
      (moduleSymbolCoverage symbols entry).debugId = (moduleSymbolFacts entry).debugId := by
  unfold moduleSymbolCoverage
  dsimp only
  split
  · split
    · exact ⟨rfl, rfl⟩
    · exact ⟨rfl, rfl⟩
  · exact ⟨rfl, rfl⟩

/-- A module shown as present has the artifact of its pair. -/
theorem present_artifact (h : (moduleSymbolCoverage symbols entry).status = .present) :
    ∃ f i a, (moduleSymbolFacts entry).debugFile = some f ∧
      (moduleSymbolFacts entry).debugId = some i ∧ a ∈ symbols ∧ a.symbolKey = symbolKey f i ∧
      (moduleSymbolCoverage symbols entry).artifactId = some a.artifactId := by
  unfold moduleSymbolCoverage at h ⊢
  generalize moduleSymbolFacts entry = identity at h ⊢
  obtain ⟨name, debugFile, debugId⟩ := identity
  cases debugFile with
  | none => cases h
  | some f =>
    cases debugId with
    | none => cases h
    | some i =>
      dsimp only at h ⊢
      cases hfound : indexedSymbol symbols (symbolKey f i) with
      | none =>
        rw [hfound] at h
        cases h
      | some a =>
        have ha := List.mem_filter.mp (List.mem_of_getLast? hfound)
        exact ⟨f, i, a, rfl, rfl, ha.1, of_decide_eq_true ha.2, rfl⟩

theorem mem_symbolCoverageFor {facts : Option JsonObject} {row : ModuleSymbolCoverage} :
    row ∈ symbolCoverageFor facts symbols ↔
      ∃ modules, factModules facts = some modules ∧
        ∃ entry ∈ modules, moduleSymbolCoverage symbols entry = row := by
  unfold symbolCoverageFor
  cases factModules facts with
  | none => simp
  | some modules => simp

/-- An entry of the modules is an object of the facts. -/
theorem mem_factModules {facts : Option JsonObject} {modules : List JsonObject}
    (h : factModules facts = some modules) (hentry : entry ∈ modules) :
    ∃ elements, (facts.bind fun o => o.get? "modules") = some (.arr elements) ∧
      Json.obj entry ∈ elements := by
  unfold factModules at h
  split at h
  · next elements helements =>
    rw [Option.some.injEq] at h
    refine ⟨elements, helements, ?_⟩
    rw [← h, List.mem_filterMap] at hentry
    obtain ⟨element, helement, hobj⟩ := hentry
    cases element with
    | obj members =>
      rw [Option.some.injEq] at hobj
      rwa [← hobj]
    | _ => cases hobj
  · cases h

end Modules

/-! ## The missing identities of a case -/

section Missing

variable {l : SqliteLedger} {caseId : CaseId} {d : DumpRow} {symbols : List StoredSymbolArtifact}

theorem mem_missingInDump {p : String × String} {dumpId : DumpId} :
    (p, dumpId) ∈ missingInDump symbols d ↔ d.dumpId = dumpId ∧ d.Misses symbols p.1 p.2 := by
  have hrows : d.Misses symbols p.1 p.2 ↔ ∃ modules, factModules d.inspectionFacts = some modules ∧
      ∃ entry ∈ modules, missingIdentity? symbols entry = some p := by
    constructor
    · rintro ⟨row, hrow, hmissing⟩
      obtain ⟨modules, hmodules, entry, hentry, rfl⟩ := mem_symbolCoverageFor.mp hrow
      exact ⟨modules, hmodules, entry, hentry, missingIdentity?_eq_some.mpr hmissing⟩
    · rintro ⟨modules, hmodules, entry, hentry, hmissing⟩
      exact ⟨_, mem_symbolCoverageFor.mpr ⟨modules, hmodules, entry, hentry, rfl⟩,
        missingIdentity?_eq_some.mp hmissing⟩
  rw [hrows]
  unfold missingInDump
  cases factModules d.inspectionFacts with
  | none => simp
  | some modules =>
    simp only [List.mem_map, List.mem_filterMap, Prod.mk.injEq, Option.some.injEq,
      exists_eq_left']
    constructor
    · rintro ⟨q, ⟨entry, hentry, hq⟩, rfl, hid⟩
      exact ⟨hid, entry, hentry, hq⟩
    · rintro ⟨hid, entry, hentry, hp⟩
      exact ⟨p, ⟨entry, hentry, hp⟩, rfl, hid⟩

theorem mem_missingPairs {p : String × String} {dumpId : DumpId} :
    (p, dumpId) ∈ missingPairs l caseId ↔
      ∃ d, l.AvailableIn caseId d ∧ d.Misses l.debugSymbols p.1 p.2 ∧ d.dumpId = dumpId := by
  unfold missingPairs
  simp only [List.mem_flatMap, List.mem_filter, Table.mem_sorted, Bool.and_eq_true,
    decide_eq_true_eq, mem_missingInDump]
  constructor
  · rintro ⟨d, ⟨hd, hcase, hphase⟩, hid, hmisses⟩
    exact ⟨d, ⟨hd, hcase, hphase⟩, hmisses, hid⟩
  · rintro ⟨d, ⟨hd, hcase, hphase⟩, hmisses, hid⟩
    exact ⟨d, ⟨hd, hcase, hphase⟩, hid, hmisses⟩

/-- The texts of a missing pair hold no NUL. -/
theorem DumpRow.Misses.noNul {f i : String} (h : d.Misses symbols f i) :
    '\x00' ∉ f.toList ∧ '\x00' ∉ i.toList := by
  obtain ⟨row, hrow, -, -, hfile, hid⟩ := h
  obtain ⟨modules, -, entry, -, rfl⟩ := mem_symbolCoverageFor.mp hrow
  obtain ⟨hfacts, hfacts'⟩ := @moduleSymbolCoverage_pair symbols entry
  rw [hfacts] at hfile
  rw [hfacts'] at hid
  exact ⟨(factText_eq_some hfile).2.2, (factText_eq_some hid).2.2⟩

/-- Missing pairs of one key are one pair. -/
theorem eq_of_pairKey {p q : String × String} {dumpId dumpId' : DumpId}
    (hp : (p, dumpId) ∈ missingPairs l caseId) (hq : (q, dumpId') ∈ missingPairs l caseId)
    (h : pairKey p = pairKey q) : p = q := by
  obtain ⟨_, _, hmisses, _⟩ := mem_missingPairs.mp hq
  obtain ⟨hfile, hid⟩ := symbolKey_inj hmisses.noNul.1 hmisses.noNul.2 h
  exact Prod.ext hfile hid

theorem grouped_missing : Group.Grouped pairKey (missingPairs l caseId) (missingGroups l caseId) :=
  Group.grouped_addAll _

/-- The first pair of a group is missing. -/
theorem first_missing {g : Group (String × String) DumpId} (hg : g ∈ missingGroups l caseId) :
    ∃ dumpId, (g.first, dumpId) ∈ missingPairs l caseId :=
  grouped_missing.first _ g (grouped_missing.lookup_of_mem hg)

/-- A missing pair has a group. -/
theorem exists_group {p : String × String} {dumpId : DumpId}
    (h : (p, dumpId) ∈ missingPairs l caseId) : ∃ g ∈ missingGroups l caseId, g.first = p := by
  cases hlookup : Group.lookup pairKey (pairKey p) (missingGroups l caseId) with
  | none => exact absurd rfl (grouped_missing.absent _ hlookup _ h)
  | some g =>
    obtain ⟨hg, hkey⟩ := Group.mem_of_lookup hlookup
    obtain ⟨dumpId', hfirst⟩ := first_missing hg
    exact ⟨g, hg, eq_of_pairKey hfirst h hkey⟩

/-- A group has the dumps that miss its pair. -/
theorem mem_members {g : Group (String × String) DumpId} (hg : g ∈ missingGroups l caseId)
    {dumpId : DumpId} : dumpId ∈ g.members ↔ (g.first, dumpId) ∈ missingPairs l caseId := by
  rw [grouped_missing.members _ g (grouped_missing.lookup_of_mem hg)]
  constructor
  · rintro ⟨p, hp, hkey⟩
    obtain ⟨_, hfirst⟩ := first_missing hg
    rwa [← eq_of_pairKey hp hfirst hkey]
  · intro h
    exact ⟨g.first, h, rfl⟩

theorem mem_missingSymbolsFor {m : MissingSymbolIdentity} :
    m ∈ missingSymbolsFor l caseId ↔ ∃ g ∈ missingGroups l caseId,
      m = ⟨g.first.1, g.first.2, g.members.mergeSort fun a b => decide (a ≤ b)⟩ := by
  unfold missingSymbolsFor
  simp only [List.mem_map, List.mem_mergeSort]
  constructor
  · rintro ⟨g, hg, rfl⟩
    exact ⟨g, hg, rfl⟩
  · rintro ⟨g, hg, rfl⟩
    exact ⟨g, hg, rfl⟩

/-- **An identity is listed when a dump of the case misses it.** -/
theorem missing_listed {f i : String} :
    (∃ m ∈ missingSymbolsFor l caseId, m.debugFile = f ∧ m.debugId = i) ↔
      ∃ d, l.AvailableIn caseId d ∧ d.Misses l.debugSymbols f i := by
  constructor
  · rintro ⟨m, hm, rfl, rfl⟩
    obtain ⟨g, hg, rfl⟩ := mem_missingSymbolsFor.mp hm
    obtain ⟨dumpId, hfirst⟩ := first_missing hg
    obtain ⟨d, hd, hmisses, -⟩ := mem_missingPairs.mp hfirst
    exact ⟨d, hd, hmisses⟩
  · rintro ⟨d, hd, hmisses⟩
    obtain ⟨g, hg, hfirst⟩ := exists_group (p := (f, i))
      (mem_missingPairs.mpr ⟨d, hd, hmisses, rfl⟩)
    refine ⟨_, mem_missingSymbolsFor.mpr ⟨g, hg, rfl⟩, ?_, ?_⟩
    · rw [hfirst]
    · rw [hfirst]

theorem missing_nodup :
    ((missingSymbolsFor l caseId).map fun m => (m.debugFile, m.debugId)).Nodup := by
  unfold missingSymbolsFor
  rw [List.map_map]
  refine (((List.mergeSort_perm _ _).map _).nodup_iff).mpr ?_
  have hkeys := (@grouped_missing l caseId).nodup
  exact List.Nodup.of_map pairKey (by rwa [List.map_map])

theorem missing_dumpIds {m : MissingSymbolIdentity} (hm : m ∈ missingSymbolsFor l caseId)
    {dumpId : DumpId} : dumpId ∈ m.dumpIds ↔
      ∃ d, l.AvailableIn caseId d ∧ d.Misses l.debugSymbols m.debugFile m.debugId ∧
        d.dumpId = dumpId := by
  obtain ⟨g, hg, rfl⟩ := mem_missingSymbolsFor.mp hm
  rw [List.mem_mergeSort, mem_members hg, mem_missingPairs]

theorem missing_ascending {m : MissingSymbolIdentity} (hm : m ∈ missingSymbolsFor l caseId) :
    m.dumpIds.Pairwise (· < ·) := by
  obtain ⟨g, hg, rfl⟩ := mem_missingSymbolsFor.mp hm
  have hdistinct := grouped_missing.distinct _ g (grouped_missing.lookup_of_mem hg)
  exact ascending_mergeSort (k := id) (by rwa [List.map_id])

end Missing

/-! ## The symbols of an export -/

section Exported

variable {l : SqliteLedger} {d : DumpRow}

theorem mem_referencedIdentities {key : String} :
    key ∈ referencedIdentities d.inspectionFacts ↔
      ∃ f i, d.References f i ∧ f ≠ "" ∧ i ≠ "" ∧ key = symbolKey f i := by
  unfold referencedIdentities DumpRow.References
  cases hmodules : d.inspectionFacts.bind fun o => JsonObject.get? o "modules" with
  | none => simp
  | some value =>
    cases value with
    | arr modules =>
      simp only [List.mem_filterMap, Option.some.injEq, Json.arr.injEq]
      constructor
      · rintro ⟨module, hmodule, hkey⟩
        unfold referencedIdentity? at hkey
        split at hkey
        · next record =>
          split at hkey
          · next f i hfile hid =>
            split_ifs at hkey with hempty
            cases hkey
            exact ⟨f, i, ⟨modules, record, rfl, hmodule, hfile, hid⟩,
              fun he => hempty (Or.inl he), fun he => hempty (Or.inr he), rfl⟩
          · cases hkey
        · cases hkey
      · rintro ⟨f, i, ⟨modules', record, rfl, hmodule, hfile, hid⟩, hf, hi, rfl⟩
        refine ⟨.obj record, hmodule, ?_⟩
        unfold referencedIdentity?
        simp [hfile, hid, hf, hi]
    | _ => simp

theorem mem_declaredIds {dumpId : DumpId} :
    dumpId ∈ declaredIds l ↔ ∃ d ∈ l.dumps, d.Declared ∧ d.dumpId = dumpId := by
  have hphase (d : DumpRow) : (stablePhase? d.phase).isSome = true ↔ d.Declared := by
    unfold DumpRow.Declared
    cases d.phase <;> simp [stablePhase?]
  unfold declaredIds
  simp [hphase, and_assoc]

/-- The facts that the copy of the ledger has for a dump of it. -/
theorem readStoredFacts_row (hd : d ∈ l.dumps) :
    readStoredFacts l d.dumpId = d.inspectionFacts := by
  have hfind : l.dumps.find? d.dumpId = some d := Table.find?_eq_some.mpr ⟨hd, rfl⟩
  rw [readStoredFacts, hfind, Option.bind_some]

/-- **An export carries the artifacts whose pair a declared dump references.** -/
theorem mem_exportedSymbols {s : ExportManifestSymbol} :
    s ∈ exportedSymbols l ↔ ∃ stored ∈ l.debugSymbols, s = stored.manifestSymbol ∧
      ∃ d ∈ l.dumps, d.Declared ∧ stored.symbolKey ∈ referencedIdentities d.inspectionFacts := by
  unfold exportedSymbols selectSymbols
  simp only [List.mem_map, List.mem_mergeSort, List.mem_filter, Bool.and_eq_true,
    decide_eq_true_eq, List.contains_iff_mem, List.mem_flatMap, mem_declaredIds]
  constructor
  · rintro ⟨stored, ⟨hstored, -, dumpId, ⟨d, hd, hdeclared, rfl⟩, hkey⟩, rfl⟩
    rw [readStoredFacts_row hd] at hkey
    exact ⟨stored, hstored, rfl, d, hd, hdeclared, hkey⟩
  · rintro ⟨stored, hstored, rfl, d, hd, hdeclared, hkey⟩
    obtain ⟨a, -, i, hresolves, hjoined, -⟩ := mem_debugSymbols hstored
    have hkind : stored.kind = .pdb := by
      obtain ⟨m, -, rfl⟩ := Option.map_eq_some_iff.mp hjoined
      exact hresolves.1
    refine ⟨stored, ⟨hstored, hkind, d.dumpId, ⟨d, hd, hdeclared, rfl⟩, ?_⟩, rfl⟩
    rwa [readStoredFacts_row hd]

/-- A stored PDB is a debug symbol of the snapshot, under the pair it resolves by. -/
theorem debugSymbol_of_resolvesTo {a : SymbolArtifactRow} {identity : SymbolIdentity}
    {stored : StoredSymbolArtifact} (ha : a ∈ l.symbolArtifacts)
    (hresolves : l.resolvesTo a identity .pdb) (hjoined : l.joined a = some stored) :
    stored ∈ l.debugSymbols ∧
      stored.symbolKey = symbolKey identity.name.text identity.id.text := by
  obtain ⟨hkind, m, hm, hidentity⟩ := hresolves
  rw [Option.mem_def] at hm
  obtain ⟨m', hm', rfl⟩ := Option.map_eq_some_iff.mp hjoined
  rw [hm, Option.some.injEq] at hm'
  subst hm'
  cases hfile : m.debugFile with
  | none => simp [ModuleRow.identity, hfile] at hidentity
  | some file =>
    cases hid : m.debugId with
    | none => simp [ModuleRow.identity, hfile, hid] at hidentity
    | some id =>
      simp only [ModuleRow.identity, hfile, hid, Option.bind_eq_bind, Option.bind_some,
        Option.pure_def, Option.some.injEq] at hidentity
      refine ⟨List.mem_filter.mpr ⟨List.mem_mergeSort.mpr
        (List.mem_filterMap.mpr ⟨a, ha, hjoined⟩), ?_⟩, ?_⟩
      · simp [StoredSymbolArtifact.isDebug, StoredSymbolArtifact.ofRows, hkind, hfile, hid]
      · simp [StoredSymbolArtifact.symbolKey, StoredSymbolArtifact.ofRows, hfile, hid,
          ← hidentity]

/-- The key of a stored pair is among a dump's when the dump references the pair. -/
theorem referencedIdentities_stored {identity : SymbolIdentity} :
    symbolKey identity.name.text identity.id.text ∈ referencedIdentities d.inspectionFacts ↔
      d.References identity.name.text identity.id.text := by
  rw [mem_referencedIdentities]
  constructor
  · rintro ⟨f, i, href, -, -, hkey⟩
    obtain ⟨rfl, rfl⟩ := symbolKey_inj identity.name.noNul identity.id.noNul hkey.symm
    exact href
  · intro href
    exact ⟨_, _, href, identity.name.ne_empty, identity.id.ne_empty, rfl⟩

theorem exported_carried {sha256 : Bytes → Sha256} (ht : SymbolTables sha256 l)
    {a : SymbolArtifactRow} (ha : a ∈ l.symbolArtifacts) (hkind : a.kind = .pdb) :
    ∃ stored identity, l.joined a = some stored ∧ l.resolvesTo a identity .pdb ∧
      (stored.manifestSymbol ∈ exportedSymbols l ↔
        ∃ d ∈ l.dumps, d.Declared ∧ d.References identity.name.text identity.id.text) := by
  obtain ⟨m, identity, hm, hidentity, -⟩ := ht.find_module ha
  obtain ⟨m', hjoined, -⟩ := ht.joined_isSome ha
  have hresolves : l.resolvesTo a identity .pdb := ⟨hkind, m, hm, hkind ▸ hidentity⟩
  obtain ⟨hdebug, hkey⟩ := debugSymbol_of_resolvesTo ha hresolves hjoined
  refine ⟨_, identity, hjoined, hresolves, ?_⟩
  rw [mem_exportedSymbols]
  constructor
  · rintro ⟨stored, hstored, heq, d, hd, hdeclared, href⟩
    have hsame := eq_of_identity ht hdebug hstored
      (congrArg ExportManifestSymbol.identity heq)
    rw [← hsame, hkey] at href
    exact ⟨d, hd, hdeclared, referencedIdentities_stored.mp href⟩
  · rintro ⟨d, hd, hdeclared, href⟩
    refine ⟨_, hdebug, rfl, d, hd, hdeclared, ?_⟩
    rw [hkey]
    exact referencedIdentities_stored.mpr href

theorem exported_only {s : ExportManifestSymbol} (h : s ∈ exportedSymbols l) :
    ∃ a ∈ l.symbolArtifacts, a.kind = .pdb ∧
      ∃ stored, l.joined a = some stored ∧ s = stored.manifestSymbol := by
  obtain ⟨stored, hstored, rfl, -⟩ := mem_exportedSymbols.mp h
  obtain ⟨a, ha, i, hresolves, hjoined, -⟩ := mem_debugSymbols hstored
  exact ⟨a, ha, hresolves.1, stored, hjoined, rfl⟩

theorem exported_nodup : ((exportedSymbols l).map ExportManifestSymbol.artifactId).Nodup := by
  obtain ⟨symbols, heq, -, hnodup⟩ :=
    selectSymbols_eq (l := l) (readStoredFacts l) (declaredIds l)
  rw [exportedSymbols, heq, List.map_map]
  exact hnodup

/-- A module shown as present has its artifact in the export. -/
theorem exported_present (hd : d ∈ l.dumps) (hphase : d.phase = .available)
    {row : ModuleSymbolCoverage} (hrow : row ∈ symbolCoverageFor d.inspectionFacts l.debugSymbols)
    (hpresent : row.status = .present) :
    ∃ s ∈ exportedSymbols l, row.artifactId = some s.artifactId ∧
      row.debugFile.map utf16 = some s.debugFile ∧ row.debugId.map utf16 = some s.debugId := by
  obtain ⟨modules, hmodules, entry, hentry, rfl⟩ := mem_symbolCoverageFor.mp hrow
  obtain ⟨f, i, stored, hf, hi, hstored, hkey, hartifact⟩ := present_artifact hpresent
  obtain ⟨elements, helements, helement⟩ := mem_factModules hmodules hentry
  obtain ⟨hfile, hfne, hfnul⟩ := factText_eq_some hf
  obtain ⟨hid, hine, hinul⟩ := factText_eq_some hi
  have href : stored.symbolKey ∈ referencedIdentities d.inspectionFacts := by
    rw [hkey, mem_referencedIdentities]
    exact ⟨f, i, ⟨elements, entry, helements, helement, hfile, hid⟩, hfne, hine, rfl⟩
  have hcarried : stored.manifestSymbol ∈ exportedSymbols l :=
    mem_exportedSymbols.mpr ⟨stored, hstored, rfl, d, hd, Or.inl hphase, href⟩
  obtain ⟨-, -, identity, -, -, -, hname, hdebugId⟩ := mem_debugSymbols hstored
  rw [StoredSymbolArtifact.symbolKey, hname, hdebugId] at hkey
  obtain ⟨hnamed, hidentified⟩ := symbolKey_inj hfnul hinul hkey
  obtain ⟨hrowFile, hrowId⟩ :=
    @moduleSymbolCoverage_pair l.debugSymbols entry
  refine ⟨_, hcarried, hartifact, ?_, ?_⟩
  · rw [hrowFile, hf, ← hnamed, StoredSymbolArtifact.manifestSymbol, hname]
    rfl
  · rw [hrowId, hi, ← hidentified, StoredSymbolArtifact.manifestSymbol, hdebugId]
    rfl

end Exported

/-! ## The views -/

theorem symbolViewsAgree_of_tables {sha256 : Bytes → Sha256} {l : SqliteLedger}
    (ht : SymbolTables sha256 l) : SymbolViewsAgree l where
  listed _ _ _ := missing_listed
  listedOnce _ := missing_nodup
  dumpIds _ _ hm _ := missing_dumpIds hm
  ascending _ _ hm := missing_ascending hm
  carried _ ha hkind := exported_carried ht ha hkind
  carriedOnly _ hs := exported_only hs
  carriedOnce := exported_nodup
  present _ hd hphase _ hrow hpresent := exported_present hd hphase hrow hpresent

/-- **The views of symbol coverage agree** in every reachable state. -/
theorem symbol_views_agree (options : EngineOptions) (events : List Event) :
    SymbolViewsAgree (reached options events).ledger := by
  have ht : SymbolTables options.digests.sha256 (reached options events).ledger :=
    ledger_invariant symbolTables_fresh (fun _ _ _ _ _ => symbolTables_run) events
  exact symbolViewsAgree_of_tables ht

end DumpLedger
