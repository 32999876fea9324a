import DumpLedger.Properties.ManifestFields

/-!
# Reading a manifest back

What is parsed is valid, and what is valid is parsed back from its bytes.

* `valid_of_parse` — the parser returns valid manifests only
* `parse_serialize` — a valid manifest is read back
-/

namespace DumpLedger

open Lib Vocabulary ExportManifest

/-! ## Entries -/

section Entries

variable {value : Option JsonValue} {path : String}

theorem countField_jsonNumber {n : Nat} (h : n ≤ maxManifestCount) :
    countField (some (jsonNumber n)) path = .ok n :=
  countField_eq_ok.mpr ⟨integerValue?_jsonNumber h, h⟩

theorem optionalCountField_jsonNumber {count : Option Nat}
    (h : ∀ n, count = some n → n ≤ maxManifestCount) :
    optionalCountField (count.map jsonNumber) path = .ok count := by
  cases count with
  | none => rfl
  | some n =>
    rw [optionalCountField, Option.map_some, forOption, countField_jsonNumber (h n rfl)]
    rfl

theorem textField_jsonString {maxLength : Nat} {us : Units} (h : IsField maxLength us) :
    textField (some (jsonString us)) path maxLength = .ok us :=
  textField_eq_ok.mpr ⟨stringUnits?_jsonString us, h⟩

theorem optionalTextField_jsonString {maxLength : Nat} {text : Option Units}
    (h : ∀ t, text = some t → IsField maxLength t) :
    optionalTextField (text.map jsonString) path maxLength = .ok text := by
  cases text with
  | none => rfl
  | some t =>
    rw [optionalTextField, Option.map_some, forOption, textField_jsonString (h t rfl)]
    rfl

theorem parseGenerator_print {g : ExportManifestGenerator} (h : GeneratorValid g) :
    parseGenerator (some g.json) path = .ok g := by
  rw [parseGenerator, ExportManifestGenerator.json, recordField_jsonObject, bind_ok, exactKeys,
    exactKeys_members (by simp [memberValue_cons]) (by simp), bind_ok]
  simp only [entryValue_members, memberValue_cons, memberValue_nil, String.reduceEq, if_true,
    if_false, Option.none_or, Option.some_or, textField_jsonString h.version, bind_ok,
    countField_jsonNumber h.schemaMigrations]
  rfl

theorem parseCounts_print {c : ExportManifestCounts} (h : CountsValid c) :
    parseCounts (some c.json) path = .ok c := by
  rw [parseCounts, ExportManifestCounts.json, recordField_jsonObject, bind_ok,
    exactKeys_members (by simp)
      (known_append (known_append (by simp) (known_optional (by simp))) (known_optional (by simp))),
    bind_ok]
  simp only [entryValue_members, memberValue_append, memberValue_optional, memberValue_cons,
    memberValue_nil, String.reduceEq, if_true, if_false, Option.none_or, Option.or_none,
    countField_jsonNumber h.customers, countField_jsonNumber h.cases,
    countField_jsonNumber h.grants, countField_jsonNumber h.dumps,
    optionalCountField_jsonNumber h.auditEvents, optionalCountField_jsonNumber h.symbols, bind_ok]
  rfl

theorem parseSkippedEntry_print {s : ExportManifestSkipped} (h : SkippedValid s) :
    parseSkippedEntry (some s.json) path = .ok s := by
  have hdump : parseDumpId s.dumpId.text = .ok s.dumpId := parseIdentifier_text s.dumpId
  rw [parseSkippedEntry, ExportManifestSkipped.json, recordField_jsonObject, bind_ok, exactKeys,
    exactKeys_members (by simp) (by simp), bind_ok]
  simp only [entryValue_members, memberValue_cons, memberValue_nil, String.reduceEq, if_true,
    if_false, Option.none_or, Option.some_or, parsedField_text hdump,
    parsedField_text (parseMember_text s.phase), textField_jsonString h.reason, bind_ok,
    guardThat_of h.phase]
  rfl

theorem parseSymbolEntry_print {s : ExportManifestSymbol} (h : SymbolValid s) :
    parseSymbolEntry (some s.json) path = .ok s := by
  have hartifact : parseSymbolArtifactId s.artifactId.text = .ok s.artifactId :=
    parseIdentifier_text s.artifactId
  have hentry : textField (some (jsonText s.entry)) s!"{path}.entry" 128 =
      .ok (utf16 (symbolEntryName s.artifactId)) := by
    rw [h.entry]
    exact textField_jsonString (isField_symbolEntryName s.artifactId)
  rw [parseSymbolEntry, ExportManifestSymbol.json, recordField_jsonObject, bind_ok,
    exactKeys_members (by simp) (known_append (known_append (known_append (by simp)
      (known_optional (by simp))) (known_optional (by simp))) (known_optional (by simp))), bind_ok]
  simp only [entryValue_members, memberValue_append, memberValue_optional, memberValue_cons,
    memberValue_nil, String.reduceEq, if_true, if_false, Option.none_or, Option.or_none,
    parsedField_text hartifact, entryField_text, textField_jsonString h.debugFile,
    textField_jsonString h.debugId, decimalField_decimalText h.byteSize.2,
    guardThat_of h.byteSize.1, sha256Field_text, hentry, optionalTextField_jsonString h.product,
    optionalTextField_jsonString h.version, optionalTextField_jsonString h.arch, bind_ok]
  rw [guardThat_of trivial, ← h.entry]
  rfl

theorem stablePhase?_phase (p : StableDumpPhase) : stablePhase? p.phase = some p := by
  cases p <;> rfl

/-- The fields that do not depend on the phase. -/
theorem parseDumpFields_print {d : ExportManifestDump} (h : DumpValid d) (entry : JsonValue) :
    parseDumpFields (unitEntries [("dumpId", jsonText d.dumpId.text),
      ("caseId", jsonText d.caseId.text), ("phase", jsonText (text d.phase.phase)),
      ("originalName", jsonString d.originalName),
      ("byteSize", (d.byteSize.map fun n => jsonString (decimalText n)).getD jsonNull),
      ("sha256", (d.sha256.map fun h => jsonText h.text).getD jsonNull), ("entry", entry)]) path =
      .ok { d with entry := none } := by
  have hdump : parseDumpId d.dumpId.text = .ok d.dumpId := parseIdentifier_text d.dumpId
  have hcase : parseCaseId d.caseId.text = .ok d.caseId := parseIdentifier_text d.caseId
  rw [parseDumpFields]
  simp only [entryValue_members, memberValue_cons, memberValue_nil, String.reduceEq, if_true,
    if_false, Option.none_or, Option.some_or, parsedField_text hdump, parsedField_text hcase,
    parsedField_text (parseMember_text d.phase.phase), stablePhase?_phase, orThrow_some,
    textField_jsonString h.originalName, nullableDecimalField_print h.byteSize,
    nullableSha256Field_print, bind_ok]
  rfl

theorem parseDumpEntry_print {d : ExportManifestDump} (h : DumpValid d) :
    parseDumpEntry (some d.json) path = .ok d := by
  have hentry := h.entry
  rw [parseDumpEntry, ExportManifestDump.json, recordField_jsonObject, bind_ok, exactKeys,
    exactKeys_members (by simp) (by simp), bind_ok, parseDumpFields_print h, bind_ok]
  cases hphase : d.phase with
  | available =>
    obtain ⟨hsize, hhash⟩ := h.available hphase
    rw [hphase, if_pos rfl] at hentry
    simp only [guardThat_of hsize, guardThat_of hhash, bind_ok, entryValue_members,
      memberValue_cons, memberValue_nil, if_true, Option.none_or, Option.some_or, hentry,
      Option.map_some, Option.getD_some, entryField_text]
    rw [← hphase, ← hentry]
    rfl
  | rejected | deleted =>
    rw [hphase, if_neg (by decide)] at hentry
    simp only [entryValue_members, memberValue_cons, memberValue_nil, if_true, Option.none_or,
      Option.some_or, hentry, Option.map_none, Option.getD_none]
    rw [guardThat_of isNull_jsonNull, ← hphase, ← hentry]
    rfl

theorem generatorValid_of_parse {g : ExportManifestGenerator}
    (h : parseGenerator value path = .ok g) : GeneratorValid g := by
  simp only [parseGenerator, bind_eq_ok, textField_eq_ok, countField_eq_ok, pure_eq_ok] at h
  obtain ⟨_, -, _, -, version, ⟨-, hversion⟩, migrations, ⟨-, hmigrations⟩, rfl⟩ := h
  exact ⟨hversion, hmigrations⟩

theorem count_le_of_optional {count : Option Nat} (h : optionalCountField value path = .ok count) :
    ∀ n, count = some n → n ≤ maxManifestCount := by
  intro n hn
  rcases optionalCountField_eq_ok.mp h with ⟨-, rfl⟩ | ⟨_, m, -, -, hle, rfl⟩
  · cases hn
  · cases hn
    exact hle

theorem field_of_optional {maxLength : Nat} {text : Option Units}
    (h : optionalTextField value path maxLength = .ok text) :
    ∀ t, text = some t → IsField maxLength t := by
  intro t ht
  rcases optionalTextField_eq_ok.mp h with ⟨-, rfl⟩ | ⟨_, u, -, -, hfield, rfl⟩
  · cases ht
  · cases ht
    exact hfield

theorem countsValid_of_parse {c : ExportManifestCounts} (h : parseCounts value path = .ok c) :
    CountsValid c := by
  simp only [parseCounts, bind_eq_ok, countField_eq_ok, pure_eq_ok] at h
  obtain ⟨_, -, _, -, customers, ⟨-, hcustomers⟩, cases, ⟨-, hcases⟩, grants, ⟨-, hgrants⟩, dumps,
    ⟨-, hdumps⟩, events, hevents, symbols, hsymbols, rfl⟩ := h
  exact ⟨hcustomers, hcases, hgrants, hdumps, count_le_of_optional hevents,
    count_le_of_optional hsymbols⟩

theorem skippedValid_of_parse {s : ExportManifestSkipped}
    (h : parseSkippedEntry value path = .ok s) : SkippedValid s := by
  simp only [parseSkippedEntry, bind_eq_ok, guardThat_eq_ok, textField_eq_ok, pure_eq_ok] at h
  obtain ⟨_, -, _, -, dumpId, -, phase, -, _, hphase, reason, ⟨-, hreason⟩, rfl⟩ := h
  exact ⟨hphase, hreason⟩

theorem symbolValid_of_parse {s : ExportManifestSymbol}
    (h : parseSymbolEntry value path = .ok s) : SymbolValid s := by
  simp only [parseSymbolEntry, bind_eq_ok, guardThat_eq_ok, textField_eq_ok, pure_eq_ok] at h
  obtain ⟨_, -, _, -, artifactId, -, _, -, file, ⟨-, hfile⟩, debugId, ⟨-, hid⟩, size, hsize, _,
    hpositive, hash, -, entry, -, _, -, product, hproduct, version, hversion, arch, harch, rfl⟩ := h
  exact ⟨hfile, hid, ⟨hpositive, sizeValid_of_decimalField hsize⟩, rfl, field_of_optional hproduct,
    field_of_optional hversion, field_of_optional harch⟩

/-- What the fields before the phase tell of a dump. -/
theorem dumpFields_of_parse {entries : List (Units × JsonValue)} {d : ExportManifestDump}
    (h : parseDumpFields entries path = .ok d) :
    IsField maxOriginalNameLength d.originalName ∧ (∀ n, d.byteSize = some n → SizeValid n) ∧
      d.entry = none := by
  simp only [parseDumpFields, bind_eq_ok, textField_eq_ok, pure_eq_ok] at h
  obtain ⟨dumpId, -, caseId, -, word, -, phase, -, name, ⟨-, hname⟩, size, hsize, hash, -, rfl⟩ := h
  exact ⟨hname, sizeValid_of_nullable hsize, rfl⟩

theorem dumpValid_of_parse {d : ExportManifestDump} (h : parseDumpEntry value path = .ok d) :
    DumpValid d := by
  rw [parseDumpEntry, bind_eq_ok] at h
  obtain ⟨entries, -, h⟩ := h
  obtain ⟨_, -, h⟩ := bind_eq_ok.mp h
  obtain ⟨fields, hfields, h⟩ := bind_eq_ok.mp h
  obtain ⟨hname, hsize, hentry⟩ := dumpFields_of_parse hfields
  cases hphase : fields.phase with
  | available =>
    simp only [hphase, bind_eq_ok, guardThat_eq_ok, pure_eq_ok] at h
    obtain ⟨_, hbyteSize, _, hsha256, _, -, rfl⟩ := h
    exact ⟨hname, hsize, fun _ => ⟨hbyteSize, hsha256⟩, (if_pos rfl).symm⟩
  | rejected | deleted =>
    simp only [hphase, bind_eq_ok, guardThat_eq_ok, pure_eq_ok] at h
    obtain ⟨_, -, rfl⟩ := h
    refine ⟨hname, hsize, fun havailable => ?_, ?_⟩
    · rw [hphase] at havailable
      cases havailable
    · rw [hphase, if_neg (by decide)]
      exact hentry

end Entries

/-! ## Lists -/

section Lists

variable {α : Type} {parse : Option JsonValue → String → Except Thrown α}

theorem parseEntries_print {json : α → JsonValue} {as : List α}
    (h : ∀ a ∈ as, ∀ path, parse (some (json a)) path = .ok a) (path : String) (index : Nat) :
    parseEntries parse path index (as.map json) = .ok as := by
  induction as generalizing index with
  | nil => rfl
  | cons a as ih =>
    rw [List.map_cons, parseEntries, h a List.mem_cons_self, bind_ok,
      ih fun b hb => h b (List.mem_cons_of_mem a hb)]
    rfl

theorem parseEntries_valid {Valid : α → Prop}
    (h : ∀ value path a, parse value path = .ok a → Valid a) {path : String} {index : Nat}
    {values : List JsonValue} {as : List α}
    (hparse : parseEntries parse path index values = .ok as) :
    as.length = values.length ∧ ∀ a ∈ as, Valid a := by
  induction values generalizing index as with
  | nil =>
    rw [parseEntries, pure_eq_ok] at hparse
    rw [← hparse]
    exact ⟨rfl, fun a ha => absurd ha List.not_mem_nil⟩
  | cons v values ih =>
    simp only [parseEntries, bind_eq_ok, pure_eq_ok] at hparse
    obtain ⟨a, ha, rest, hrest, rfl⟩ := hparse
    obtain ⟨hlength, hvalid⟩ := ih hrest
    exact ⟨congrArg (· + 1) hlength, List.forall_mem_cons.mpr ⟨h _ _ a ha, hvalid⟩⟩

theorem boundedList_jsonArray {vs : List JsonValue} {path : String}
    (h : vs.length ≤ maxManifestListEntries) : boundedList (some (jsonArray vs)) path = .ok vs := by
  rw [boundedList, Option.bind_some, arrayElements?_jsonArray, orThrow_some, bind_ok,
    guardThat_of h]
  rfl

theorem length_of_boundedList {value : Option JsonValue} {path : String} {vs : List JsonValue}
    (h : boundedList value path = .ok vs) : vs.length ≤ maxManifestListEntries := by
  simp only [boundedList, bind_eq_ok, guardThat_eq_ok, pure_eq_ok] at h
  obtain ⟨elements, -, _, hlength, rfl⟩ := h
  exact hlength

end Lists

/-! ### The checks of the lists -/

/-- None is declared twice, and none was seen before. -/
def Fresh {α : Type} (seen as : List α) : Prop := as.Nodup ∧ ∀ a ∈ as, a ∉ seen

theorem fresh_nil {α : Type} {seen : List α} : Fresh seen [] :=
  ⟨List.nodup_nil, fun _ h => absurd h List.not_mem_nil⟩

theorem fresh_cons {α : Type} {seen as : List α} {a : α} :
    Fresh seen (a :: as) ↔ a ∉ seen ∧ Fresh (a :: seen) as := by
  rw [Fresh, Fresh, List.nodup_cons, List.forall_mem_cons]
  constructor
  · rintro ⟨⟨hnew, hnodup⟩, ha, hseen⟩
    refine ⟨ha, hnodup, fun b hb hmem => ?_⟩
    rcases List.mem_cons.mp hmem with rfl | hmem
    · exact hnew hb
    · exact hseen b hb hmem
  · rintro ⟨ha, hnodup, hseen⟩
    exact ⟨⟨fun hmem => hseen a hmem List.mem_cons_self, hnodup⟩, ha,
      fun b hb hmem => hseen b hb (List.mem_cons_of_mem a hmem)⟩

theorem fresh_empty {α : Type} {as : List α} : Fresh [] as ↔ as.Nodup :=
  ⟨And.left, fun h => ⟨h, fun _ _ => List.not_mem_nil⟩⟩

theorem nodup_append_fresh {α : Type} {as bs : List α} :
    (as ++ bs).Nodup ↔ as.Nodup ∧ Fresh as.reverse bs := by
  rw [List.nodup_append, Fresh]
  simp only [List.mem_reverse]
  constructor
  · rintro ⟨has, hbs, hne⟩
    exact ⟨has, hbs, fun b hb ha => hne b ha b hb rfl⟩
  · rintro ⟨has, hbs, hnot⟩
    refine ⟨has, hbs, fun a ha b hb => ?_⟩
    rintro rfl
    exact hnot a hb ha

theorem checkDumps_eq_ok {seen : List DumpId} {ds : List ExportManifestDump} {u : Unit} :
    checkDumps seen ds = .ok u ↔ Fresh seen (ds.map ExportManifestDump.dumpId) := by
  induction ds generalizing seen with
  | nil => exact iff_of_true rfl fresh_nil
  | cons d ds ih =>
    simp only [checkDumps, bind_eq_ok, guardThat_eq_ok, ih, List.map_cons, fresh_cons,
      exists_const]

theorem checkSkipped_eq_ok {seen : List DumpId} {ss : List ExportManifestSkipped} {u : Unit} :
    checkSkipped seen ss = .ok u ↔ Fresh seen (ss.map ExportManifestSkipped.dumpId) := by
  induction ss generalizing seen with
  | nil => exact iff_of_true rfl fresh_nil
  | cons s ss ih =>
    simp only [checkSkipped, bind_eq_ok, guardThat_eq_ok, ih, List.map_cons, fresh_cons,
      exists_const]

theorem checkSymbols_eq_ok {seenArtifacts : List SymbolArtifactId} {seenIdentities : List Units}
    {ss : List ExportManifestSymbol} {u : Unit} :
    checkSymbols seenArtifacts seenIdentities ss = .ok u ↔
      Fresh seenArtifacts (ss.map ExportManifestSymbol.artifactId) ∧
        Fresh seenIdentities (ss.map ExportManifestSymbol.identity) := by
  induction ss generalizing seenArtifacts seenIdentities with
  | nil => exact iff_of_true rfl ⟨fresh_nil, fresh_nil⟩
  | cons s ss ih =>
    simp only [checkSymbols, bind_eq_ok, guardThat_eq_ok, ih, List.map_cons, fresh_cons,
      exists_const]
    tauto

theorem checkSymbolsList_eq_ok {symbols : Option (List ExportManifestSymbol)}
    {count : Option Nat} {u : Unit} :
    checkSymbolsList symbols count = .ok u ↔ count = symbols.map List.length ∧
      ∀ ss, symbols = some ss → (ss.map ExportManifestSymbol.artifactId).Nodup ∧
        (ss.map ExportManifestSymbol.identity).Nodup := by
  cases symbols with
  | none => simp [checkSymbolsList]
  | some ss =>
    cases count with
    | none => simp [checkSymbolsList]
    | some n =>
      simp [checkSymbolsList, checkSymbols_eq_ok, fresh_empty]

/-- **The lists pass when nothing is declared twice and the counts are theirs.** -/
theorem checkLists_eq_ok {m : ExportManifest} {u : Unit} :
    checkLists m = .ok u ↔
      (m.counts.symbols = m.symbols.map List.length ∧
        ∀ ss, m.symbols = some ss → (ss.map ExportManifestSymbol.artifactId).Nodup ∧
          (ss.map ExportManifestSymbol.identity).Nodup) ∧
      ((m.dumps.map ExportManifestDump.dumpId) ++
        (m.skipped.map ExportManifestSkipped.dumpId)).Nodup ∧
      m.counts.dumps = m.dumps.length := by
  simp only [checkLists, bind_eq_ok, guardThat_eq_ok, checkSymbolsList_eq_ok, checkDumps_eq_ok,
    checkSkipped_eq_ok, fresh_empty, nodup_append_fresh, exists_const, and_assoc]

/-! ## The document -/

theorem isField_fingerprint {us : Units} (h : grantKeyFingerprintPattern us = true) :
    IsField 43 us := by
  rw [grantKeyFingerprintPattern, Bool.and_eq_true, decide_eq_true_eq, unitsMatch,
    List.all_eq_true] at h
  obtain ⟨hlength, hchars⟩ := h
  refine ⟨List.ne_nil_of_length_pos ?_, hlength.le, fun hzero => ?_⟩
  · rw [hlength]
    decide
  · exact absurd (hchars 0 hzero) (by decide)

theorem parseSymbolsList_print {symbols : Option (List ExportManifestSymbol)}
    (hvalid : ∀ ss, symbols = some ss → ∀ s ∈ ss, SymbolValid s)
    (hlength : ∀ ss, symbols = some ss → ss.length ≤ maxManifestListEntries) :
    parseSymbolsList
      (symbols.map fun s => jsonArray (s.map ExportManifestSymbol.json)) = .ok symbols := by
  cases symbols with
  | none => rfl
  | some ss =>
    have hbound : (ss.map ExportManifestSymbol.json).length ≤ maxManifestListEntries := by
      rw [List.length_map]
      exact hlength ss rfl
    rw [parseSymbolsList, Option.map_some, forOption, boundedList_jsonArray hbound, bind_ok,
      parseEntries_print fun s hs _ => parseSymbolEntry_print (hvalid ss rfl s hs)]
    rfl

/-- The members of the document are read as the manifest that they were written for. -/
theorem parseManifestEntries_print {m : ExportManifest} (h : m.Valid)
    {entries : List (Units × JsonValue)} (hentries : objectEntries? m.json = some entries) :
    parseManifestEntries entries = .ok m := by
  have hskipped : (m.skipped.map ExportManifestSkipped.json).length ≤ maxManifestListEntries := by
    rw [List.length_map]
    exact h.skipped_le
  have hdumps : (m.dumps.map ExportManifestDump.json).length ≤ maxManifestListEntries := by
    rw [List.length_map]
    exact h.dumps_le
  have hfingerprint : matchingField (some (jsonString m.grantKeyFingerprint))
      "$.grantKeyFingerprint" 43 grantKeyFingerprintPattern = .ok m.grantKeyFingerprint :=
    matchingField_eq_ok.mpr
      ⟨stringUnits?_jsonString _, isField_fingerprint h.fingerprint, h.fingerprint⟩
  have hlists : checkLists m = .ok () :=
    checkLists_eq_ok.mpr
      ⟨⟨h.symbols_count, fun ss hss => ⟨h.artifacts ss hss, h.identities ss hss⟩⟩,
        h.unique, h.dumps_count⟩
  rw [ExportManifest.json, objectEntries?_jsonObject] at hentries
  rw [← Option.some.inj hentries, ← unitEntries, parseManifestEntries,
    exactKeys_members (by simp)
      (known_append (known_append (known_append (by simp) (known_optional (by simp))) (by simp))
        (known_optional (by simp))), bind_ok]
  simp only [entryValue_members, memberValue_append, memberValue_optional, memberValue_cons,
    memberValue_nil, String.reduceEq, if_true, if_false, Option.none_or, Option.or_none,
    entryField_text, canonicalTimestampField_text,
    parseGenerator_print h.generator, hfingerprint, parseCounts_print h.counts,
    optionalCountField_jsonNumber h.skippedAnalyses, boundedList_jsonArray hskipped,
    boundedList_jsonArray hdumps, parseSymbolsList_print h.symbols h.symbols_le, bind_ok,
    parseEntries_print fun s hs _ => parseSkippedEntry_print (h.skipped s hs),
    parseEntries_print fun d hd _ => parseDumpEntry_print (h.dumps d hd), hlists]
  rfl

/-- **What the parser returns is valid.** -/
theorem valid_of_parseManifestEntries {entries : List (Units × JsonValue)} {m : ExportManifest}
    (h : parseManifestEntries entries = .ok m) : m.Valid := by
  simp only [parseManifestEntries, bind_eq_ok, matchingField_eq_ok, pure_eq_ok] at h
  obtain ⟨_, -, _, -, createdAt, -, generator, hgenerator, fingerprint, ⟨-, -, hfingerprint⟩,
    counts, hcounts, analyses, hanalyses, skippedValues, hskippedValues, skipped, hskipped, dumpValues,
    hdumpValues, dumps, hdumps, symbols, hsymbols, _, hlists, rfl⟩ := h
  obtain ⟨⟨hsymbolsCount, hnodup⟩, hunique, hdumpsCount⟩ := checkLists_eq_ok.mp hlists
  obtain ⟨hskippedLength, hskippedValid⟩ :=
    parseEntries_valid (fun _ _ _ => skippedValid_of_parse) hskipped
  obtain ⟨hdumpsLength, hdumpsValid⟩ :=
    parseEntries_valid (fun _ _ _ => dumpValid_of_parse) hdumps
  have hsymbolsValid : ∀ ss, symbols = some ss →
      ss.length ≤ maxManifestListEntries ∧ ∀ s ∈ ss, SymbolValid s := by
    rintro ss rfl
    rcases forOption_eq_ok.mp hsymbols with ⟨-, hnone⟩ | ⟨v, b, -, hparse, hb⟩
    · cases hnone
    · cases hb
      obtain ⟨elements, helements, hparse⟩ := bind_eq_ok.mp hparse
      obtain ⟨hlength, hvalid⟩ := parseEntries_valid (fun _ _ _ => symbolValid_of_parse) hparse
      exact ⟨hlength.trans_le (length_of_boundedList helements), hvalid⟩
  exact {
    generator := generatorValid_of_parse hgenerator
    fingerprint := hfingerprint
    counts := countsValid_of_parse hcounts
    skippedAnalyses := count_le_of_optional hanalyses
    skipped := hskippedValid
    dumps := hdumpsValid
    symbols := fun ss hss => (hsymbolsValid ss hss).2
    skipped_le := hskippedLength.trans_le (length_of_boundedList hskippedValues)
    dumps_le := hdumpsLength.trans_le (length_of_boundedList hdumpValues)
    symbols_le := fun ss hss => (hsymbolsValid ss hss).1
    dumps_count := hdumpsCount
    symbols_count := hsymbolsCount
    unique := hunique
    artifacts := fun ss hss => (hnodup ss hss).1
    identities := fun ss hss => (hnodup ss hss).2 }

theorem valid_of_parse {bytes : Bytes} {m : ExportManifest}
    (h : parseExportManifest bytes = .ok m) : m.Valid := by
  simp only [parseExportManifest, bind_eq_ok] at h
  obtain ⟨_, -, _, -, text, -, value, -, entries, -, hentries⟩ := h
  exact valid_of_parseManifestEntries hentries

/-! ## The bytes -/

/-- The member, when there is one, is a text. -/
theorem isText_optional {name : String} {v : Option JsonValue}
    (h : ∀ x, v = some x → IsText x.text) : ∀ m ∈ presentMember name v, IsText m.2.text := by
  cases v with
  | none => exact fun m hm => absurd hm List.not_mem_nil
  | some x => exact List.forall_mem_singleton.mpr (h x rfl)

theorem isText_optionalString {name : String} {t : Option Units} :
    ∀ m ∈ presentMember name (t.map jsonString), IsText m.2.text := by
  refine isText_optional fun x hx => ?_
  obtain ⟨us, -, rfl⟩ := Option.map_eq_some_iff.mp hx
  exact isText_jsonString us

theorem isText_optionalNumber {name : String} {n : Option Nat} :
    ∀ m ∈ presentMember name (n.map jsonNumber), IsText m.2.text := by
  refine isText_optional fun x hx => ?_
  obtain ⟨k, -, rfl⟩ := Option.map_eq_some_iff.mp hx
  exact isText_jsonNumber k

theorem isText_nullable {α : Type} {o : Option α} {json : α → JsonValue}
    (h : ∀ a, IsText (json a).text) : IsText ((o.map json).getD jsonNull).text := by
  cases o with
  | none => exact isText_jsonNull
  | some a => exact h a

theorem isText_list {α : Type} {as : List α} {json : α → JsonValue}
    (h : ∀ a, IsText (json a).text) : IsText (jsonArray (as.map json)).text := by
  refine isText_jsonArray fun v hv => ?_
  obtain ⟨a, -, rfl⟩ := List.mem_map.mp hv
  exact h a

theorem isText_generator (g : ExportManifestGenerator) : IsText g.json.text := by
  refine isText_jsonObject ?_
  simp only [List.forall_mem_cons, List.not_mem_nil, false_implies,
    implies_true, and_true]
  exact ⟨isText_jsonString _, isText_jsonNumber _⟩

theorem isText_counts (c : ExportManifestCounts) : IsText c.json.text := by
  refine isText_jsonObject ?_
  simp only [List.forall_mem_append, List.forall_mem_cons, List.not_mem_nil, false_implies,
    implies_true, and_true]
  exact ⟨⟨⟨isText_jsonNumber _, isText_jsonNumber _, isText_jsonNumber _, isText_jsonNumber _⟩,
    isText_optionalNumber⟩, isText_optionalNumber⟩

theorem isText_skipped (s : ExportManifestSkipped) : IsText s.json.text := by
  refine isText_jsonObject ?_
  simp only [List.forall_mem_cons, List.not_mem_nil, false_implies,
    implies_true, and_true]
  exact ⟨isText_jsonString _, isText_jsonString _, isText_jsonString _⟩

theorem isText_dump (d : ExportManifestDump) : IsText d.json.text := by
  refine isText_jsonObject ?_
  simp only [List.forall_mem_cons, List.not_mem_nil, false_implies,
    implies_true, and_true]
  exact ⟨isText_jsonString _, isText_jsonString _, isText_jsonString _, isText_jsonString _,
    isText_nullable fun _ => isText_jsonString _, isText_nullable fun _ => isText_jsonString _,
    isText_nullable fun _ => isText_jsonString _⟩

theorem isText_symbol (s : ExportManifestSymbol) : IsText s.json.text := by
  refine isText_jsonObject ?_
  simp only [List.forall_mem_append, List.forall_mem_cons, List.not_mem_nil, false_implies,
    implies_true, and_true]
  exact ⟨⟨⟨⟨isText_jsonString _, isText_jsonString _, isText_jsonString _, isText_jsonString _,
    isText_jsonString _, isText_jsonString _, isText_jsonString _⟩, isText_optionalString⟩,
    isText_optionalString⟩, isText_optionalString⟩

/-- The text of a manifest has no surrogate that is left alone. -/
theorem isText_manifest (m : ExportManifest) : IsText m.json.text := by
  have hsymbols : ∀ x ∈ presentMember "symbols"
      (m.symbols.map fun s => jsonArray (s.map ExportManifestSymbol.json)), IsText x.2.text := by
    refine isText_optional fun x hx => ?_
    obtain ⟨ss, -, rfl⟩ := Option.map_eq_some_iff.mp hx
    exact isText_list isText_symbol
  refine isText_jsonObject ?_
  simp only [List.forall_mem_append, List.forall_mem_cons, List.not_mem_nil, false_implies,
    implies_true, and_true]
  exact ⟨⟨⟨⟨isText_jsonString _, isText_jsonString _, isText_generator _, isText_jsonString _,
    isText_counts _⟩, isText_optionalNumber⟩, isText_list isText_skipped, isText_list isText_dump⟩,
    hsymbols⟩

/-- A text that starts with a brace is decoded from its bytes: it has no byte order mark. -/
theorem decodeUtf8_encodeText {us : Units} (hus : IsText us) {rest : Units}
    (hfirst : us = unitOf '\x7b' :: rest) :
    encodeText us ≠ [] ∧ decodeUtf8 (encodeText us) = some (toText us) := by
  have hunits : utf16 (toText us) = unitOf '\x7b' :: rest := (utf16_toText hus).trans hfirst
  refine ⟨fun hnil => ?_, ?_⟩
  · have hempty : toText us = "" := utf8Bytes_injective hnil
    rw [hempty] at hunits
    cases hunits
  · rw [decodeUtf8, encodeText, fromUTF8?_utf8Bytes, Option.map_some]
    split
    · next hbom =>
      rw [utf16, hbom, List.flatMap_cons] at hunits
      exact absurd (List.cons.inj hunits).1 (by decide)
    · rfl

/-- **A valid manifest is parsed from the bytes that it is serialized to.** -/
theorem parse_serialize {m : ExportManifest} (h : m.Valid)
    (hlength : (serializeExportManifest m).length ≤ maxManifestBytes) :
    parseExportManifest (serializeExportManifest m) = .ok m := by
  have htext : IsText m.json.text := isText_manifest m
  obtain ⟨rest, hrest⟩ : ∃ rest, m.json.text = unitOf '\x7b' :: rest := ⟨_, rfl⟩
  obtain ⟨hne, hdecode⟩ := decodeUtf8_encodeText htext hrest
  have hparse : jsonParse (toText m.json.text) = some m.json := jsonParse_print htext
  have hrecord : recordField (some m.json) "$" = .ok (unitEntries _) :=
    recordField_jsonObject _ _
  have hnonempty : (serializeExportManifest m).length ≠ 0 := (List.length_pos_iff.mpr hne).ne'
  rw [parseExportManifest, guardThat_of hnonempty, bind_ok, guardThat_of hlength, bind_ok]
  rw [serializeExportManifest, jsonStringify, hdecode, orThrow_some, bind_ok, hparse, orThrow_some,
    bind_ok, hrecord, bind_ok]
  exact parseManifestEntries_print h (objectEntries?_jsonObject _)

end DumpLedger
