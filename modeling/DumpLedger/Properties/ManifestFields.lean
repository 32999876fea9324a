import DumpLedger.Lib.Base64Url
import DumpLedger.Properties.Symbols
import DumpLedger.Transfer.ExportSelection

/-!
# The fields of a manifest

`ExportManifest.Valid` is what the parser enforces, said of the manifest. A field is read from the
JSON that the serializer writes for it, and what a field is read as satisfies its part of `Valid`.

* `isField_boundedText` — what the ledger stores fits its field
* `decimalField_eq_ok`, `sizeValid_decimalUnits` — a size is read with the digits it is written in
* `entryValue_members`, `exactKeys_members` — the members of a printed object
-/

namespace DumpLedger

open Lib Vocabulary

/-! ## What the parser enforces -/

/-- What `textField` accepts. -/
structure IsField (maxLength : Nat) (us : Units) : Prop where
  nonempty : us ≠ []
  length_le : us.length ≤ maxLength
  noNul : 0 ∉ us

namespace ExportManifest

structure GeneratorValid (g : ExportManifestGenerator) : Prop where
  version : IsField maxVersionLength g.version
  schemaMigrations : g.schemaMigrations ≤ maxManifestCount

structure CountsValid (c : ExportManifestCounts) : Prop where
  customers : c.customers ≤ maxManifestCount
  cases : c.cases ≤ maxManifestCount
  grants : c.grants ≤ maxManifestCount
  dumps : c.dumps ≤ maxManifestCount
  auditEvents : ∀ n, c.auditEvents = some n → n ≤ maxManifestCount
  symbols : ∀ n, c.symbols = some n → n ≤ maxManifestCount

structure SkippedValid (s : ExportManifestSkipped) : Prop where
  phase : s.phase ∈ unstablePhases
  reason : IsField maxReasonLength s.reason

/-- The digits of a size are few enough to be read. -/
def SizeValid (n : Nat) : Prop := (Nat.toDigits 10 n).length ≤ maxDecimalDigits

structure DumpValid (d : ExportManifestDump) : Prop where
  originalName : IsField maxOriginalNameLength d.originalName
  byteSize : ∀ n, d.byteSize = some n → SizeValid n
  available : d.phase = .available → d.byteSize.isSome = true ∧ d.sha256.isSome = true
  entry : d.entry = if d.phase = .available then some (dumpEntryName d.dumpId) else none

structure SymbolValid (s : ExportManifestSymbol) : Prop where
  debugFile : IsField maxSymbolDebugFileLength s.debugFile
  debugId : IsField maxSymbolDebugIdLength s.debugId
  byteSize : s.byteSize ≠ 0 ∧ SizeValid s.byteSize
  entry : s.entry = symbolEntryName s.artifactId
  product : ∀ t, s.product = some t → IsField maxSymbolAnnotationLength t
  version : ∀ t, s.version = some t → IsField maxSymbolAnnotationLength t
  arch : ∀ t, s.arch = some t → IsField maxSymbolArchLength t

structure Valid (m : ExportManifest) : Prop where
  generator : GeneratorValid m.generator
  fingerprint : grantKeyFingerprintPattern m.grantKeyFingerprint = true
  counts : CountsValid m.counts
  skippedAnalyses : ∀ n, m.skippedAnalyses = some n → n ≤ maxManifestCount
  skipped : ∀ s ∈ m.skipped, SkippedValid s
  dumps : ∀ d ∈ m.dumps, DumpValid d
  symbols : ∀ ss, m.symbols = some ss → ∀ s ∈ ss, SymbolValid s
  skipped_le : m.skipped.length ≤ maxManifestListEntries
  dumps_le : m.dumps.length ≤ maxManifestListEntries
  symbols_le : ∀ ss, m.symbols = some ss → ss.length ≤ maxManifestListEntries
  dumps_count : m.counts.dumps = m.dumps.length
  symbols_count : m.counts.symbols = m.symbols.map List.length
  unique : ((m.dumps.map ExportManifestDump.dumpId) ++
    (m.skipped.map ExportManifestSkipped.dumpId)).Nodup
  artifacts : ∀ ss, m.symbols = some ss → (ss.map ExportManifestSymbol.artifactId).Nodup
  identities : ∀ ss, m.symbols = some ss → (ss.map ExportManifestSymbol.identity).Nodup

end ExportManifest

open ExportManifest

/-! ## Fields -/

section Fields

variable {value : Option JsonValue} {path : String} {maxLength : Nat} {us : Units}
  {entries : List (Units × JsonValue)}

theorem textField_eq_ok :
    textField value path maxLength = .ok us ↔
      value.bind stringUnits? = some us ∧ IsField maxLength us := by
  simp only [textField, bind_eq_ok, orThrow_eq_ok, guardThat_eq_ok, pure_eq_ok]
  constructor
  · rintro ⟨t, ht, -, hne, -, hle, -, hnul, rfl⟩
    exact ⟨ht, hne, hle, hnul⟩
  · rintro ⟨ht, hfield⟩
    exact ⟨us, ht, (), hfield.nonempty, (), hfield.length_le, (), hfield.noNul, rfl⟩

theorem matchingField_eq_ok {pattern : Units → Bool} :
    matchingField value path maxLength pattern = .ok us ↔
      value.bind stringUnits? = some us ∧ IsField maxLength us ∧ pattern us = true := by
  simp only [matchingField, bind_eq_ok, guardThat_eq_ok, pure_eq_ok, textField_eq_ok]
  constructor
  · rintro ⟨t, ⟨ht, hfield⟩, -, hpattern, rfl⟩
    exact ⟨ht, hfield, hpattern⟩
  · rintro ⟨ht, hfield, hpattern⟩
    exact ⟨us, ⟨ht, hfield⟩, (), hpattern, rfl⟩

theorem optionalTextField_eq_ok {text : Option Units} :
    optionalTextField value path maxLength = .ok text ↔
      (value = none ∧ text = none) ∨
        ∃ v t, value = some v ∧ stringUnits? v = some t ∧ IsField maxLength t ∧ text = some t := by
  simp only [optionalTextField, forOption_eq_ok, textField_eq_ok, Option.bind_some, and_assoc]

theorem countField_eq_ok {n : Nat} :
    countField value path = .ok n ↔
      value.bind integerValue? = some (n : Int) ∧ n ≤ maxManifestCount := by
  simp only [countField, bind_eq_ok, orThrow_eq_ok, guardThat_eq_ok, pure_eq_ok]
  constructor
  · rintro ⟨c, hc, -, -, -, ⟨hpos, hle⟩, rfl⟩
    refine ⟨?_, by omega⟩
    rw [Int.toNat_of_nonneg hpos]
    exact hc
  · rintro ⟨hc, hle⟩
    have hsafe : maxManifestCount ≤ maxSafeInteger := by decide
    exact ⟨n, hc, (), by omega, (), by omega, Int.toNat_natCast n⟩

theorem optionalCountField_eq_ok {count : Option Nat} :
    optionalCountField value path = .ok count ↔
      (value = none ∧ count = none) ∨
        ∃ v n, value = some v ∧ integerValue? v = some ((n : Nat) : Int) ∧ n ≤ maxManifestCount ∧
          count = some n := by
  simp only [optionalCountField, forOption_eq_ok, countField_eq_ok, Option.bind_some, and_assoc]

/-- A count is read back. -/
theorem integerValue?_jsonNumber {n : Nat} (h : n ≤ maxManifestCount) :
    integerValue? (jsonNumber n) = some (n : Int) :=
  integer?_numberOf (h.trans_lt (by decide))

end Fields

/-! ### ASCII texts -/

theorem charUnits_ascii {c : Char} (h : c.toNat < 128) : charUnits c = [unitOf c] :=
  if_pos (h.trans (by decide))

/-- The character of a unit that stands for an ASCII character. -/
theorem ofNat_unitOf {c : Char} (h : c.toNat < 128) : Char.ofNat (unitOf c).toNat = c := by
  have hunit : (unitOf c).toNat = c.toNat := by
    simp only [unitOf, Nat.toUInt16_eq, UInt16.toNat_ofNat']
    omega
  rw [hunit, Char.ofNat_toNat]

theorem utf16_ascii {s : String} (h : ∀ c ∈ s.toList, c.toNat < 128) :
    utf16 s = s.toList.map unitOf := by
  unfold utf16
  generalize s.toList = cs at h
  induction cs with
  | nil => rfl
  | cons c cs ih =>
    rw [List.flatMap_cons, charUnits_ascii (h c List.mem_cons_self),
      ih fun d hd => h d (List.mem_cons_of_mem c hd)]
    rfl

theorem length_utf16_ascii {s : String} (h : ∀ c ∈ s.toList, c.toNat < 128) :
    (utf16 s).length = s.toList.length := by
  rw [utf16_ascii h, List.length_map]

theorem chars_utf16_ascii {s : String} (h : ∀ c ∈ s.toList, c.toNat < 128) :
    (utf16 s).map (fun u => Char.ofNat u.toNat) = s.toList := by
  rw [utf16_ascii h, List.map_map]
  have hid : s.toList.map ((fun u => Char.ofNat (UInt16.toNat u)) ∘ unitOf) =
      s.toList.map id :=
    List.map_congr_left fun c hc => ofNat_unitOf (h c hc)
  rw [hid, List.map_id]

theorem unitsMatch_utf16 {isMember : Char → Bool} {s : String}
    (hascii : ∀ c ∈ s.toList, c.toNat < 128) (h : ∀ c ∈ s.toList, isMember c = true) :
    unitsMatch isMember (utf16 s) = true := by
  rw [unitsMatch, List.all_eq_true]
  intro u hu
  rw [utf16_ascii hascii, List.mem_map] at hu
  obtain ⟨c, hc, rfl⟩ := hu
  rw [ofNat_unitOf (hascii c hc)]
  exact h c hc

/-! ### Bounded texts -/

theorem length_utf16 (s : String) : (utf16 s).length = utf16Length s := by
  unfold utf16 utf16Length
  rw [List.length_flatMap]
  refine congrArg List.sum (List.map_congr_left fun c _ => ?_)
  unfold charUnits
  split <;> rfl

theorem zero_notMem_utf16 {s : String} (h : '\x00' ∉ s.toList) : 0 ∉ utf16 s := by
  intro hzero
  obtain ⟨c, hc, hzero⟩ := List.mem_flatMap.mp hzero
  have hbounds := char_bounds c
  unfold charUnits at hzero
  split at hzero
  · have hunit := congrArg UInt16.toNat (List.mem_singleton.mp hzero)
    simp only [Nat.toUInt16_eq, UInt16.toNat_ofNat', UInt16.toNat_zero] at hunit
    have hchar : c = '\x00' := Char.toNat_inj.mp (show c.toNat = 0 by omega)
    rw [hchar] at hc
    exact h hc
  · have hunit : (0 : CodeUnit).toNat = 0 := rfl
    simp only [List.mem_cons, List.not_mem_nil, or_false, highSurrogate, lowSurrogate] at hzero
    rcases hzero with hzero | hzero
    · have hnat := congrArg UInt16.toNat hzero
      simp only [Nat.toUInt16_eq, UInt16.toNat_ofNat', UInt16.toNat_zero] at hnat
      omega
    · have hnat := congrArg UInt16.toNat hzero
      simp only [Nat.toUInt16_eq, UInt16.toNat_ofNat', UInt16.toNat_zero] at hnat
      omega

theorem utf16_ne_nil {s : String} (h : s ≠ "") : utf16 s ≠ [] := by
  intro hnil
  have hempty : utf16 s = utf16 "" := hnil
  exact h (utf16_injective hempty)

/-- **What the ledger stores as bounded text is a field of this bound.** -/
theorem isField_boundedText {m : Nat} (t : BoundedText m) : IsField m (utf16 t.text) := by
  have hvalid := t.valid
  simp only [isBoundedText, Bool.and_eq_true, decide_eq_true_eq] at hvalid
  refine ⟨utf16_ne_nil t.ne_empty, ?_, zero_notMem_utf16 t.noNul⟩
  rw [length_utf16]
  exact hvalid.1.2

/-- What JSON writes as it stands has no NUL. -/
theorem isField_plain {s : String} {n : Nat} (h : IsPlainText s) (hne : s ≠ "")
    (hlength : s.toList.length ≤ n) : IsField n (utf16 s) := by
  refine ⟨utf16_ne_nil hne, ?_, zero_notMem_utf16 fun hzero => ?_⟩
  · rw [length_utf16_ascii fun c hc => (h c hc).2]
    exact hlength
  · exact absurd (h _ hzero).1 (by decide)

/-- The characters of a text that are spelled out. -/
theorem isPlainText_subset {s : String} {cs : List Char} (h : ∀ c ∈ s.toList, c ∈ cs)
    (hplain : ∀ c ∈ cs, Json.escapeChar c = [c] ∧ c.toNat < 128) : IsPlainText s :=
  fun c hc => hplain c (h c hc)

theorem isField_symbolEntryName (artifactId : SymbolArtifactId) :
    IsField 128 (utf16 (symbolEntryName artifactId)) := by
  have hchars : (symbolEntryName artifactId).toList =
      "symbols/".toList ++ artifactId.text.toList ++ ".bin".toList := by
    rw [symbolEntryName, String.toList_append, String.toList_append]
    rfl
  refine isField_plain ?_ ?_ ?_
  · intro c hc
    rw [hchars, List.mem_append, List.mem_append] at hc
    have hplain : ∀ c ∈ ['s', 'y', 'm', 'b', 'o', 'l', '/', '.', 'i', 'n'],
        Json.escapeChar c = [c] ∧ c.toNat < 128 := by
      intro c hc
      simp only [List.mem_cons, List.not_mem_nil, or_false] at hc
      rcases hc with rfl | rfl | rfl | rfl | rfl | rfl | rfl | rfl | rfl | rfl <;> decide
    have hfirst : IsPlainText "symbols/" := isPlainText_subset (by simp) hplain
    have hlast : IsPlainText ".bin" := isPlainText_subset (by simp) hplain
    have hkind : IsPlainText "symbol" := isPlainText_subset (by simp) hplain
    rcases hc with (hc | hc) | hc
    · exact hfirst c hc
    · exact isPlainText_identifier hkind artifactId c hc
    · exact hlast c hc
  · intro hempty
    rw [hempty] at hchars
    cases hchars
  · obtain ⟨body, htext, hbody, -⟩ := identifier_text artifactId
    rw [hchars, htext]
    simp [hbody]

/-! ### Decimals, hashes and words -/

theorem toDigits_ascii (n : Nat) :
    ∀ c ∈ (String.ofList (Nat.toDigits 10 n)).toList, c.toNat < 128 ∧ c.isDigit = true := by
  intro c hc
  rw [String.toList_ofList] at hc
  have hdigit := (isCanonical_toDigits n).1 c hc
  exact ⟨(digit_bounds hdigit).2.trans_lt (by decide), hdigit⟩

theorem decimalUnits_decimalText (n : Nat) : decimalUnits (decimalText n) = n := by
  rw [decimalUnits, decimalText, chars_utf16_ascii fun c hc => (toDigits_ascii n c hc).1,
    String.toList_ofList, Nat.ofDigitChars_ten_toDigits]

theorem length_decimalText (n : Nat) : (decimalText n).length = (Nat.toDigits 10 n).length := by
  rw [decimalText, length_utf16_ascii fun c hc => (toDigits_ascii n c hc).1, String.toList_ofList]

theorem decimalPattern_decimalText (n : Nat) : decimalPattern (decimalText n) = true := by
  have hascii : ∀ c ∈ (String.ofList (Nat.toDigits 10 n)).toList, c.toNat < 128 :=
    fun c hc => (toDigits_ascii n c hc).1
  have hdigits : unitsMatch Char.isDigit (decimalText n) = true :=
    unitsMatch_utf16 hascii fun c hc => (toDigits_ascii n c hc).2
  rw [decimalPattern, hdigits, Bool.true_and, Bool.or_eq_true, decide_eq_true_eq, decimalText,
    utf16_ascii hascii, String.toList_ofList]
  rcases (isCanonical_toDigits n).2 with hzero | ⟨c, rest, hcons, hne⟩
  · rw [hzero]
    exact Or.inl rfl
  · refine Or.inr ?_
    have hc : c.isDigit = true := by
      refine (isCanonical_toDigits n).1 c ?_
      rw [hcons]
      exact List.mem_cons_self
    have hunit : unitOf c ≠ unitOf '0' := by
      intro he
      have hchar : Char.ofNat (unitOf c).toNat = Char.ofNat (unitOf '0').toNat := by rw [he]
      rw [ofNat_unitOf ((digit_bounds hc).2.trans_lt (by decide)),
        ofNat_unitOf (by decide)] at hchar
      exact hne hchar
    rw [hcons, List.map_cons, List.head?_cons]
    simpa using hunit

theorem isField_decimalText {n : Nat} (h : SizeValid n) :
    IsField maxDecimalDigits (decimalText n) := by
  refine ⟨?_, ?_, ?_⟩
  · refine List.ne_nil_of_length_pos ?_
    rw [length_decimalText]
    exact List.length_pos_of_ne_nil (Nat.toDigits_ne_nil)
  · rw [length_decimalText]
    exact h
  · refine zero_notMem_utf16 fun hzero => ?_
    have hdigit := (toDigits_ascii n _ hzero).2
    revert hdigit
    decide

/-- The size that a text of digits stands for is written with as many digits. -/
theorem sizeValid_decimalUnits {us : Units} (h : IsField maxDecimalDigits us)
    (hpattern : decimalPattern us = true) : SizeValid (decimalUnits us) := by
  rw [decimalPattern, Bool.and_eq_true, Bool.or_eq_true, decide_eq_true_eq] at hpattern
  obtain ⟨hdigits, hlead⟩ := hpattern
  have hcanonical : IsCanonical (us.map fun u => Char.ofNat u.toNat) := by
    refine ⟨?_, ?_⟩
    · intro c hc
      obtain ⟨u, hu, rfl⟩ := List.mem_map.mp hc
      exact List.all_eq_true.mp hdigits u hu
    · rcases hlead with rfl | hlead
      · exact Or.inl rfl
      · cases us with
        | nil => exact absurd rfl h.nonempty
        | cons u rest =>
          refine Or.inr ⟨_, _, rfl, fun hzero => ?_⟩
          have hnat : u.toNat = 48 := by
            have hvalue := congrArg Char.toNat hzero
            rw [Char.toNat_ofNat] at hvalue
            split at hvalue
            · exact hvalue
            · exact absurd hvalue (by decide)
          have hunit : u = unitOf '0' := UInt16.toNat_inj.mp hnat
          rw [hunit, List.head?_cons] at hlead
          simp at hlead
  rw [SizeValid, decimalUnits, toDigits_ofDigitChars hcanonical, List.length_map]
  exact h.length_le

theorem decimalField_eq_ok {value : Option JsonValue} {path : String} {n : Nat} :
    decimalField value path = .ok n ↔
      ∃ us, value.bind stringUnits? = some us ∧ IsField maxDecimalDigits us ∧
        decimalPattern us = true ∧ decimalUnits us = n := by
  simp only [decimalField, bind_eq_ok, matchingField_eq_ok, pure_eq_ok, and_assoc]

theorem decimalField_decimalText {n : Nat} {path : String} (h : SizeValid n) :
    decimalField (some (jsonString (decimalText n))) path = .ok n :=
  decimalField_eq_ok.mpr ⟨decimalText n, stringUnits?_jsonString _, isField_decimalText h,
    decimalPattern_decimalText n, decimalUnits_decimalText n⟩

theorem sizeValid_of_decimalField {value : Option JsonValue} {path : String} {n : Nat}
    (h : decimalField value path = .ok n) : SizeValid n := by
  obtain ⟨us, -, hfield, hpattern, rfl⟩ := decimalField_eq_ok.mp h
  exact sizeValid_decimalUnits hfield hpattern

theorem isNull_jsonString (us : Units) : isNull (some (jsonString us)) = false := rfl

theorem isNull_jsonNull : isNull (some jsonNull) = true := rfl

theorem nullableDecimalField_print {size : Option Nat} {path : String}
    (h : ∀ n, size = some n → SizeValid n) :
    nullableDecimalField
      (some ((size.map fun n => jsonString (decimalText n)).getD jsonNull)) path = .ok size := by
  cases size with
  | none => rfl
  | some n =>
    rw [Option.map_some, Option.getD_some, nullableDecimalField, isNull_jsonString,
      decimalField_decimalText (h n rfl)]
    rfl

theorem sizeValid_of_nullable {value : Option JsonValue} {path : String} {size : Option Nat}
    (h : nullableDecimalField value path = .ok size) : ∀ n, size = some n → SizeValid n := by
  unfold nullableDecimalField at h
  intro n hn
  split at h
  · rw [pure_eq_ok] at h
    rw [← h] at hn
    cases hn
  · obtain ⟨m, hm, rfl⟩ := map_eq_ok.mp h
    cases hn
    exact sizeValid_of_decimalField hm

theorem isSha256_ascii (h : Sha256) :
    (∀ c ∈ h.text.toList, c.toNat < 128) ∧ ∀ c ∈ h.text.toList, isLowerHex c = true := by
  have hvalid := h.valid
  rw [isSha256, Bool.and_eq_true, List.all_eq_true] at hvalid
  refine ⟨fun c hc => ?_, hvalid.2⟩
  have hhex := hvalid.2 c hc
  simp only [isLowerHex, Bool.or_eq_true, Bool.and_eq_true, decide_eq_true_eq] at hhex
  have hnine : '9'.toNat = 57 := rfl
  have hf : 'f'.toNat = 102 := rfl
  have hbounds : c.toNat ≤ '9'.toNat ∨ c.toNat ≤ 'f'.toNat := hhex.imp And.right And.right
  omega

theorem sha256Field_text {path : String} (h : Sha256) :
    sha256Field (some (jsonText h.text)) path = .ok h := by
  obtain ⟨hascii, hhex⟩ := isSha256_ascii h
  have hlength : (utf16 h.text).length = 64 := by
    have hvalid := h.valid
    rw [isSha256, Bool.and_eq_true, decide_eq_true_eq] at hvalid
    rw [length_utf16_ascii hascii]
    exact hvalid.1
  have hfield : IsField 64 (utf16 h.text) := by
    refine ⟨?_, hlength.le, zero_notMem_utf16 fun hzero => absurd (hhex _ hzero) (by decide)⟩
    exact List.ne_nil_of_length_pos (hlength ▸ by decide)
  have hpattern : sha256Pattern (utf16 h.text) = true := by
    rw [sha256Pattern, hlength, unitsMatch_utf16 hascii hhex]
    rfl
  have htext : matchingField (some (jsonText h.text)) path 64 sha256Pattern =
      .ok (utf16 h.text) :=
    matchingField_eq_ok.mpr ⟨stringUnits?_jsonString _, hfield, hpattern⟩
  rw [sha256Field, htext, bind_ok, sha256Units, ofUnits?_utf16, Option.bind_some, assertSha256_text]
  rfl

theorem nullableSha256Field_print {hash : Option Sha256} {path : String} :
    nullableSha256Field (some ((hash.map fun h => jsonText h.text).getD jsonNull)) path =
      .ok hash := by
  cases hash with
  | none => rfl
  | some h =>
    rw [Option.map_some, Option.getD_some, nullableSha256Field, jsonText, isNull_jsonString,
      ← jsonText, sha256Field_text h]
    rfl

/-- A word or an identifier is read back by the parser that reads its text. -/
theorem parsedField_text {α : Type} {parse : String → Except Thrown α} {t : String} {a : α}
    {path message : String} (h : parse t = .ok a) :
    parsedField parse (some (jsonText t)) path message = .ok a := by
  rw [parsedField, orThrow_eq_ok, Option.bind_some, jsonText, stringUnits?_jsonString,
    Option.bind_some, ofUnits?_utf16, Option.bind_some, h]
  rfl

theorem entryField_text {path t message : String} :
    entryField (some (jsonText t)) path t message = .ok () :=
  guardThat_of (stringUnits?_jsonString _)

theorem canonicalTimestampField_text {path : String} (t : IsoTimestamp) :
    canonicalTimestampField (some (jsonText t.text)) path = .ok t := by
  have hne : t.text ≠ "" := by
    intro hempty
    have hvalid := t.valid
    rw [hempty] at hvalid
    exact absurd hvalid (by decide)
  have hfield : IsField 40 (utf16 t.text) := by
    refine isField_plain (isPlainText_timestamp t) hne ?_
    exact (isTimestampPart_of_instant t.valid).1.trans (by decide)
  have htext : textField (some (jsonText t.text)) path 40 = .ok (utf16 t.text) :=
    textField_eq_ok.mpr ⟨stringUnits?_jsonString _, hfield⟩
  rw [canonicalTimestampField, htext, bind_ok, ofUnits?_utf16, Option.bind_some,
    assertIsoTimestamp_text]
  rfl

/-! ## Members -/

/-- The members of an object that the serializer wrote, by the units of their names. -/
def unitEntries (members : List (String × JsonValue)) : List (Units × JsonValue) :=
  members.map fun m => (utf16 m.1, m.2)

/-- `members[key]`. -/
def memberValue (members : List (String × JsonValue)) (key : String) : Option JsonValue :=
  members.reverse.lookup key

@[simp] theorem entryValue_members (members : List (String × JsonValue)) (key : String) :
    entryValue (unitEntries members) key = memberValue members key := by
  unfold entryValue unitEntries memberValue
  rw [← List.map_reverse]
  induction members.reverse with
  | nil => rfl
  | cons m rest ih =>
    rw [List.map_cons, List.lookup_cons, List.lookup_cons, ih]
    have hkeys : (utf16 key == utf16 m.1) = (key == m.1) := by
      by_cases he : key = m.1
      · rw [he, beq_self_eq_true, beq_self_eq_true]
      · rw [beq_eq_false_iff_ne.mpr he, beq_eq_false_iff_ne]
        exact fun hutf => he (utf16_injective hutf)
    rw [hkeys]

@[simp] theorem memberValue_append (a b : List (String × JsonValue)) (key : String) :
    memberValue (a ++ b) key = (memberValue b key).or (memberValue a key) := by
  rw [memberValue, List.reverse_append, List.lookup_append]
  rfl

@[simp] theorem memberValue_cons (name : String) (v : JsonValue) (rest : List (String × JsonValue))
    (key : String) :
    memberValue ((name, v) :: rest) key =
      (memberValue rest key).or (if key = name then some v else none) := by
  rw [memberValue, List.reverse_cons, List.lookup_append]
  by_cases h : key = name
  · simp [h, memberValue]
  · simp [h, memberValue, List.lookup_cons, beq_eq_false_iff_ne.mpr h]

@[simp] theorem memberValue_nil (key : String) : memberValue [] key = none := rfl

@[simp] theorem memberValue_optional (name : String) (v : Option JsonValue) (key : String) :
    memberValue (presentMember name v) key = if key = name then v else none := by
  cases v with
  | none => rw [ite_self]; rfl
  | some v =>
    show memberValue [(name, v)] key = _
    rw [memberValue_cons, memberValue_nil, Option.none_or]

@[simp] theorem recordField_jsonObject (members : List (String × JsonValue)) (path : String) :
    recordField (some (jsonObject members)) path = .ok (unitEntries members) :=
  orThrow_eq_ok.mpr (objectEntries?_jsonObject members)

theorem known_append {a b : List (String × JsonValue)} {names : List String}
    (ha : ∀ name ∈ a.map Prod.fst, name ∈ names) (hb : ∀ name ∈ b.map Prod.fst, name ∈ names) :
    ∀ name ∈ (a ++ b).map Prod.fst, name ∈ names := by
  intro name hname
  rw [List.map_append, List.mem_append] at hname
  exact hname.elim (ha name) (hb name)

theorem known_optional {key : String} {v : Option JsonValue} {names : List String}
    (h : key ∈ names) : ∀ name ∈ (presentMember key v).map Prod.fst, name ∈ names := by
  intro name hname
  cases v with
  | none => cases hname
  | some v =>
    rw [List.mem_singleton.mp hname]
    exact h

theorem mem_objectKeys {entries : List (Units × JsonValue)} {key : Units}
    (h : key ∈ objectKeys entries) : key ∈ entries.map Prod.fst :=
  mem_ownKeys.mp h

/-- **A printed object has the members that are required and no other than the permitted.** -/
theorem exactKeys_members {members : List (String × JsonValue)} {required optional : List String}
    {path : String} (hrequired : ∀ key ∈ required, (memberValue members key).isSome = true)
    (hknown : ∀ name ∈ members.map Prod.fst, name ∈ required ++ optional) :
    exactKeysAllowingOptional (unitEntries members) required optional path = .ok () := by
  have hfound :
      required.find? (fun key => (entryValue (unitEntries members) key).isNone) = none := by
    rw [List.find?_eq_none]
    intro key hkey
    rw [entryValue_members, Option.isNone_iff_eq_none, ← Option.not_isSome_iff_eq_none]
    exact not_not_intro (hrequired key hkey)
  have hextra : (objectKeys (unitEntries members)).find?
      (fun key => !((required ++ optional).map utf16).contains key) = none := by
    rw [List.find?_eq_none]
    intro key hkey
    have hmember := mem_objectKeys hkey
    rw [unitEntries, List.map_map, List.mem_map] at hmember
    obtain ⟨m, hm, rfl⟩ := hmember
    have hname := hknown m.1 (List.mem_map_of_mem hm)
    simp only [Function.comp_apply, Bool.not_eq_true', Bool.not_eq_false,
      List.contains_iff_mem]
    exact List.mem_map_of_mem hname
  unfold exactKeysAllowingOptional
  rw [hfound, hextra]
  rfl

end DumpLedger
