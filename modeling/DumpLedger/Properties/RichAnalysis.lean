import DumpLedger.Domain.JsonSize
import DumpLedger.Domain.RichAnalysis
import DumpLedger.Properties.JsValues
import DumpLedger.Properties.RichReport

/-!
# What the identifier of a rich report identifies

The text of an accepted detail is the one canonical text of its document. Its identifier is a
digest of the lengths and the bytes of the five texts that name the analysis, so it tells apart
what has different bytes. The bytes are those of the texts with every lone surrogate replaced:
names that differ in lone surrogates only get one identifier.

* `canonical_of_accepted` — an accepted text is the canonical one
* `identityPreimage_inj` — the preimage tells the encoded names
* `rich_report_ids` — when the identifiers and the digests tell two analyses apart
-/

namespace DumpLedger.RichReport

open Lib JsValue

/-! ## Encoded texts -/

/-- A code point is counted as what takes its place in the encoded text. -/
def IsCounted (p : CodePoint) : Prop :=
  p.toChar.utf8Size = if codeOf p < 0x80 then 1 else if codeOf p < 0x800 then 2
    else if codeOf p < 0x10000 then 3 else 4

theorem isCounted_char (c : Char) : IsCounted (.char c) := by
  have hone : c.val ≤ 0x7F ↔ c.toNat < 0x80 := Nat.lt_succ_iff.symm
  have htwo : c.val ≤ 0x7FF ↔ c.toNat < 0x800 := Nat.lt_succ_iff.symm
  have hthree : c.val ≤ 0xFFFF ↔ c.toNat < 0x10000 := Nat.lt_succ_iff.symm
  unfold IsCounted codeOf CodePoint.toChar Char.utf8Size
  simp only [← hone, ← htwo, ← hthree]
  rfl

theorem isCounted_singlePoint (u : CodeUnit) : IsCounted (singlePoint u) := by
  unfold singlePoint
  split_ifs with hsurrogate
  · rw [Bool.or_eq_true, isHighSurrogate_iff, isLowSurrogate_iff] at hsurrogate
    show 3 = if u.toNat < 0x80 then 1 else if u.toNat < 0x800 then 2
      else if u.toNat < 0x10000 then 3 else 4
    rw [if_neg (by omega), if_neg (by omega), if_pos (by omega)]
  · exact isCounted_char _

theorem isCounted_of_mem {us : Units} {p : CodePoint} (h : p ∈ codePoints us) : IsCounted p := by
  induction us using codePoints.induct with
  | case1 => cases h
  | case2 u =>
    rw [codePoints, List.mem_singleton] at h
    rw [h]
    exact isCounted_singlePoint u
  | case3 u v rest hpair ih =>
    rw [codePoints, if_pos hpair, List.mem_cons] at h
    rcases h with rfl | h
    · exact isCounted_char _
    · exact ih h
  | case4 u v rest hpair ih =>
    rw [codePoints, if_neg hpair, List.mem_cons] at h
    rcases h with rfl | h
    · exact isCounted_singlePoint u
    · exact ih h

/-- **`richUtf8Bytes` counts the bytes of the encoded text.** -/
theorem length_encodeText (us : Units) : (encodeText us).length = richUtf8Bytes us := by
  rw [encodeText, length_utf8Bytes, toText, utf8ByteSize_ofList, richUtf8Bytes, List.map_map]
  exact congrArg List.sum (List.map_congr_left fun p hp => isCounted_of_mem hp)

theorem encodeText_eq_iff {us vs : Units} : encodeText us = encodeText vs ↔ toText us = toText vs :=
  ⟨fun h => utf8Bytes_injective h, fun h => by rw [encodeText, h, encodeText]⟩

/-- Texts without lone surrogates are told apart by their bytes. -/
theorem encodeText_inj {us vs : Units} (hu : IsText us) (hv : IsText vs)
    (h : encodeText us = encodeText vs) : us = vs := by
  rw [← utf16_toText hu, encodeText_eq_iff.mp h, utf16_toText hv]

/-- Names that are short enough are told apart, as far as their bytes tell. -/
theorem identityPreimage_inj {b₁ b₂ : Binding}
    (h₁ : ∀ name ∈ b₁.identity, richUtf8Bytes name ≤ 256)
    (h₂ : ∀ name ∈ b₂.identity, richUtf8Bytes name ≤ 256) :
    identityPreimage b₁ = identityPreimage b₂ ↔
      b₁.identity.map toText = b₂.identity.map toText := by
  have hbound {b : Binding} (h : ∀ name ∈ b.identity, richUtf8Bytes name ≤ 256) :
      ∀ f ∈ b.identity.map encodeText, f.length < 256 ^ 8 := by
    intro f hf
    obtain ⟨name, hname, rfl⟩ := List.mem_map.mp hf
    rw [length_encodeText]
    exact (h name hname).trans_lt (by norm_num)
  have htexts : b₁.identity.map encodeText = b₂.identity.map encodeText ↔
      b₁.identity.map toText = b₂.identity.map toText := by
    have hsplit (names : List Units) : names.map encodeText = (names.map toText).map utf8Bytes := by
      rw [List.map_map]
      rfl
    rw [hsplit, hsplit, List.map_injective_iff.mpr utf8Bytes_injective |>.eq_iff]
  rw [← htexts]
  exact ⟨lengthPrefixed_inj rfl (hbound h₁) (hbound h₂), fun h => congrArg (lengthPrefixed 8) h⟩

/-! ## Accepted details -/

/-- The document of a detail. -/
def reportOf (detail : Detail) : Option JsValue :=
  (parseDocument detail.reportJson).map fun parsed => jsValue parsed.value

/-- The identifier that the document gives itself. -/
def reportIdOf (detail : Detail) : Option Units :=
  (reportOf detail).bind fun report => textProp report "reportId"

section Accepted

variable {sha256 : Bytes → Units} {numeral : ℚ → JsonNumber} {detail accepted : Detail}
  {binding : Binding}

/-- What is known of an accepted detail. -/
structure Accepts (sha256 : Bytes → Units) (numeral : ℚ → JsonNumber) (detail : Detail)
    (binding : Binding) : Prop where
  digest : sha256 (encodeText detail.reportJson) = detail.reportDigest
  report : ∃ report, parseDocument detail.reportJson =
      some ⟨[], print numeral (stable report), []⟩ ∧ reportOf detail = some report ∧
    detail.reportJson = (print numeral (stable report)).text
  names : ∀ name ∈ binding.identity, richUtf8Bytes name ≤ 256
  reportId : reportIdOf detail = some (utf16 "r2_" ++ sha256 (identityPreimage binding))

/-- A name that the document repeats is as short as the document says. -/
theorem bound_of_identity {identity : JsValue} {key : String} {name : Units}
    (hkey : key ∈ identityKeys) (h : checkIdentity identity = .ok ())
    (hname : textProp identity key = some name) :
    richUtf8Bytes name ≤ 256 := by
  rw [textProp_eq_some] at hname
  simp only [checkIdentity, bind_eq_ok, field_eq_ok] at h
  obtain ⟨_, -, _, hnames, x, hx, digest, hdigest, -⟩ := h
  by_cases hsha : key = "inputSha256"
  · rw [hsha, hx, Option.some.injEq] at hname
    rw [hname] at hdigest
    obtain ⟨hvalue, hbound, -⟩ := richText_eq_ok.mp hdigest
    rw [string.injEq] at hvalue
    rw [hvalue]
    exact hbound.trans (by decide)
  · have hlisted : key ∈ ["dumpId", "kind", "analyzerName", "analyzerVersion"] := by
      simp only [identityKeys, List.mem_cons, List.not_mem_nil, or_false] at hkey ⊢
      tauto
    obtain ⟨y, hy, hcheck⟩ := eachField_eq_ok.mp hnames key hlisted
    rw [hname, Option.some.injEq] at hy
    rw [← hy] at hcheck
    obtain ⟨s, hs, -⟩ := bind_eq_ok.mp hcheck
    obtain ⟨hvalue, hbound, -⟩ := richText_eq_ok.mp hs
    rw [string.injEq] at hvalue
    rwa [hvalue]

theorem names_of_identity {identity : JsValue} (h : checkIdentity identity = .ok ())
    (hnames : identityKeys.map (textProp identity) = binding.identity.map some) :
    ∀ name ∈ binding.identity, richUtf8Bytes name ≤ 256 := by
  intro name hname
  have hmem : some name ∈ identityKeys.map (textProp identity) := by
    rw [hnames]
    exact List.mem_map_of_mem hname
  obtain ⟨key, hkey, htext⟩ := List.mem_map.mp hmem
  exact bound_of_identity hkey h htext

theorem accepts_of_check (h : assertRichAnalysis sha256 numeral detail binding = .ok accepted) :
    Accepts sha256 numeral detail binding := by
  have hcheck : checkRichAnalysis sha256 numeral detail binding = .ok () := by
    unfold assertRichAnalysis at h
    split at h
    · next heq => exact heq
    · cases h
  simp only [checkRichAnalysis, bind_eq_ok, guardThat_eq_ok, orThrow_eq_ok] at hcheck
  obtain ⟨_, ⟨-, -, hdigest⟩, parsed, hparsed, _, hvalid, identity, hidentity, _, hcanonical, _,
    hnames, _, ⟨hreportId, -⟩, -⟩ := hcheck
  have hreport : reportOf detail = some (jsValue parsed.value) := by
    rw [reportOf, hparsed, Option.map_some]
  have htext : (⟨[], print numeral (stable (jsValue parsed.value)), []⟩ : JsonDocument).text =
      detail.reportJson := by
    rw [← hcanonical]
    simp [JsonDocument.text, blanks, jsonStringify]
  refine ⟨hdigest, ⟨jsValue parsed.value, ?_, hreport, hcanonical.symm⟩, ?_, ?_⟩
  · rw [← htext, parseDocument_text]
  · simp only [validateRichDocument, bind_eq_ok] at hvalid
    obtain ⟨_, -, _, -, _, -, _, -, _, -, checkedIdentity, hchecked, _, hok, -⟩ := hvalid
    rw [hidentity, Except.ok.injEq] at hchecked
    rw [← hchecked] at hok
    exact names_of_identity hok hnames
  · rw [reportIdOf, hreport, Option.bind_some, hreportId]

/-- The detail of a report in its sorted form is accepted when the values agree. -/
theorem accepted_of_report {report identity : JsValue} (hplain : isCanonical report = true)
    (htext : detail.reportJson = (print numeral report).text)
    (hdigest : richUtf8Bytes detail.reportJson ≤ maxRichReportBytes ∧
      digestPattern detail.reportDigest = true ∧
      sha256 (encodeText detail.reportJson) = detail.reportDigest)
    (hvalid : validateRichDocument report = .ok ())
    (hidentity : field report "identity" = .ok identity)
    (hnames : identityKeys.map (textProp identity) = binding.identity.map some)
    (hreport : textProp report "reportId" =
        some (utf16 "r2_" ++ sha256 (identityPreimage binding)) ∧
      textProp report "outcome" = some binding.outcome ∧
      textProp report "summary" = some binding.summary)
    (hfacts : checkFacts binding.facts report detail = .ok ()) :
    assertRichAnalysis sha256 numeral detail binding = .ok detail := by
  obtain ⟨hread, hsorted⟩ := jsValue_print numeral report hplain
  have hdocument : (⟨[], print numeral report, []⟩ : JsonDocument).text = detail.reportJson := by
    rw [htext]
    simp [JsonDocument.text, blanks]
  have hparsed := parseDocument_text ⟨[], print numeral report, []⟩
  rw [hdocument] at hparsed
  have hcheck : checkRichAnalysis sha256 numeral detail binding = .ok () := by
    simp only [checkRichAnalysis, bind_eq_ok, guardThat_eq_ok, orThrow_eq_ok, Unique.exists_iff]
    refine ⟨hdigest, _, hparsed, ?_⟩
    rw [hread, hsorted]
    exact ⟨hvalid, identity, hidentity, htext.symm, hnames, hreport, hfacts⟩
  rw [assertRichAnalysis, hcheck]

end Accepted

/-! ## Two accepted details -/

/-- No two of the inputs have one digest. -/
def CollisionFree (sha256 : Bytes → Units) (inputs : List Bytes) : Prop :=
  ∀ x ∈ inputs, ∀ y ∈ inputs, sha256 x = sha256 y → x = y

/-- What is asked of the identifiers and the digests of two details. -/
structure Identifies (d₁ : Detail) (b₁ : Binding) (d₂ : Detail) (b₂ : Binding) : Prop where
  /-- One identifier, one analysis. -/
  identity : reportIdOf d₁ = reportIdOf d₂ → b₁.identity = b₂.identity
  /-- One digest, one text. -/
  digest : d₁.reportDigest = d₂.reportDigest → d₁.reportJson = d₂.reportJson
  /-- One document, one text. -/
  document : ∀ v₁ v₂, reportOf d₁ = some v₁ → reportOf d₂ = some v₂ → Same v₁ v₂ →
    d₁.reportJson = d₂.reportJson
  /-- No member twice. -/
  members : ∀ parsed, parseDocument d₁.reportJson = some parsed ∨
    parseDocument d₂.reportJson = some parsed → ¬ parsed.value.HasDuplicate

section Pair

variable {sha256 : Bytes → Units} {numeral : ℚ → JsonNumber} {d₁ d₂ : Detail} {b₁ b₂ : Binding}

/-- The texts of accepted details are told apart by their bytes, and by their documents. -/
theorem texts_of_accepts (h₁ : Accepts sha256 numeral d₁ b₁) (h₂ : Accepts sha256 numeral d₂ b₂) :
    (encodeText d₁.reportJson = encodeText d₂.reportJson → d₁.reportJson = d₂.reportJson) ∧
      ∀ v₁ v₂, reportOf d₁ = some v₁ → reportOf d₂ = some v₂ → Same v₁ v₂ →
        d₁.reportJson = d₂.reportJson := by
  obtain ⟨r₁, -, hr₁, htext₁⟩ := h₁.report
  obtain ⟨r₂, -, hr₂, htext₂⟩ := h₂.report
  constructor
  · intro h
    rw [htext₁, htext₂] at h ⊢
    exact encodeText_inj (isText_print numeral _) (isText_print numeral _) h
  · intro v₁ v₂ hv₁ hv₂ hsame
    rw [hr₁, Option.some.injEq] at hv₁
    rw [hr₂, Option.some.injEq] at hv₂
    rw [htext₁, htext₂, hv₁, hv₂, stable_of_same hsame]

theorem members_of_accepts {d : Detail} {b : Binding} (h : Accepts sha256 numeral d b)
    {parsed : JsonDocument} (hparsed : parseDocument d.reportJson = some parsed) :
    ¬ parsed.value.HasDuplicate := by
  obtain ⟨report, hreport, -, -⟩ := h.report
  rw [hreport, Option.some.injEq] at hparsed
  rw [← hparsed]
  exact print_noDuplicate numeral (stable report)

/-- **The identifiers and the digests of accepted details identify them**, exactly when names that
are equal once their lone surrogates are replaced are equal. -/
theorem rich_report_ids (sha256 : Bytes → Units) (numeral : ℚ → JsonNumber) (d₁ d₂ : Detail)
    (b₁ b₂ : Binding) (h₁ : assertRichAnalysis sha256 numeral d₁ b₁ = .ok d₁)
    (h₂ : assertRichAnalysis sha256 numeral d₂ b₂ = .ok d₂)
    (hsha : CollisionFree sha256 [identityPreimage b₁, identityPreimage b₂,
      encodeText d₁.reportJson, encodeText d₂.reportJson]) :
    Identifies d₁ b₁ d₂ b₂ ↔
      (b₁.identity.map toText = b₂.identity.map toText → b₁.identity = b₂.identity) := by
  have ha₁ := accepts_of_check h₁
  have ha₂ := accepts_of_check h₂
  have hids : reportIdOf d₁ = reportIdOf d₂ ↔ b₁.identity.map toText = b₂.identity.map toText := by
    rw [ha₁.reportId, ha₂.reportId, Option.some.injEq, List.append_right_inj,
      ← identityPreimage_inj ha₁.names ha₂.names]
    exact ⟨hsha _ (by simp) _ (by simp), fun h => by rw [h]⟩
  constructor
  · intro h hnames
    exact h.identity (hids.mpr hnames)
  · intro h
    refine ⟨fun hid => h (hids.mp hid), fun hdigest => ?_, (texts_of_accepts ha₁ ha₂).2, ?_⟩
    · rw [← ha₁.digest, ← ha₂.digest] at hdigest
      exact (texts_of_accepts ha₁ ha₂).1 (hsha _ (by simp) _ (by simp) hdigest)
    · rintro parsed (hparsed | hparsed)
      · exact members_of_accepts ha₁ hparsed
      · exact members_of_accepts ha₂ hparsed

end Pair

/-! ## Two kinds that get one identifier -/

namespace Sample

def identityOf (kind : Units) : JsValue :=
  objectOf [("analyzerName", textOf "a"), ("analyzerVersion", textOf "1"), ("dumpId", textOf "d"),
    ("inputSha256", .string digest), ("kind", .string kind)]

/-- A report of nothing, of an analysis of this kind. -/
def emptyReport (reportId kind : Units) : JsValue :=
  objectOf [("completeness", objectOf [("omissions", .array []), ("truncated", .boolean false)]),
    ("context", objectOf [("evidenceRefs", .array []), ("faultInstruction", .null),
      ("registers", .object []), ("source", textOf "initial"), ("threadId", .null)]),
    ("evidence", .array []),
    ("exception", objectOf [("access", .null), ("address", .null), ("code", .null),
      ("evidenceRefs", .array []), ("flags", .null), ("parameterCount", .null),
      ("parameters", .array []), ("recordPointer", .null), ("status", textOf "absent")]),
    ("identity", identityOf kind), ("outcome", textOf "completed"),
    ("provenance", objectOf [("analysisRevision", textOf ""), ("architecture", .null),
      ("debuggerVersion", .null), ("model", .null), ("pointerWidth", .null), ("processId", .null),
      ("provider", textOf "")]),
    ("reportId", .string reportId),
    ("rootCause", objectOf [("conclusion", textOf ""), ("evidenceRefs", .array []),
      ("hypotheses", .array []),
      ("mechanism", objectOf [("description", textOf ""), ("evidenceRefs", .array []),
        ("status", textOf "unknown")]),
      ("missingEvidence", .array []), ("nextChecks", .array []), ("ruleId", .null),
      ("status", textOf "unknown")]),
    ("schemaVersion", .number (some 2)),
    ("stack", objectOf [("frames", .array []), ("limitations", .array []),
      ("status", textOf "absent"), ("threadId", .null)]),
    ("summary", textOf ""),
    ("symbols", objectOf [("limitations", .array []), ("modules", .array [])])]

def numeral (_ : ℚ) : JsonNumber := numberOf 0

def binding (kind reportId reportDigest : Units) : Binding where
  dumpId := utf16 "d"
  inputSha256 := digest
  kind
  analyzerName := utf16 "a"
  analyzerVersion := utf16 "1"
  outcome := utf16 "completed"
  summary := []
  facts := objectOf [("schemaVersion", .number (some 2)), ("reportId", .string reportId),
    ("reportDigest", .string reportDigest), ("exceptionCode", .null),
    ("frameCount", .number (some 0)), ("causeStatus", textOf "unknown")]

/-- The identifier of the reports of both kinds. -/
def reportDigits : Units :=
  utf16 "19c0f218016161d650510deda5a1d8ac05db217ed8094b435c3d6b3d1bb0086e"

def reportId : Units := utf16 "r2_" ++ reportDigits

def text (kind : Units) : Units := (print numeral (emptyReport reportId kind)).text

/-- Two kinds that are one unpaired surrogate each. -/
def firstKind : Units := [0xD800]

def secondKind : Units := [0xD801]

def firstDigest : Units :=
  utf16 "8087e2b00f6f45e9660db72cb65ee7a2889cdd3c56f0bd0abf1ad77c84bfd7a9"

def secondDigest : Units :=
  utf16 "1d3060729cf3f09ab6e6f5b7b3ba5c000ff0976431c94175f80907c80e208ba0"

/-- SHA-256, of the three inputs. -/
def sha256 (bytes : Bytes) : Units :=
  if bytes = encodeText (text firstKind) then firstDigest
  else if bytes = encodeText (text secondKind) then secondDigest
  else reportDigits

def firstDetail : Detail := ⟨text firstKind, firstDigest⟩

def secondDetail : Detail := ⟨text secondKind, secondDigest⟩

def firstBinding : Binding := binding firstKind reportId firstDigest

def secondBinding : Binding := binding secondKind reportId secondDigest

theorem isText_text (kind : Units) : IsText (text kind) := isText_print numeral _

/-- What is computed of the texts, the preimages and the digests. -/
theorem computed : text secondKind ≠ text firstKind ∧
    identityPreimage secondBinding = identityPreimage firstBinding ∧
    ((identityPreimage firstBinding).length = 110 ∧
      richUtf8Bytes (text firstKind) = 1091 ∧ richUtf8Bytes (text secondKind) = 1091) ∧
    reportDigits ≠ firstDigest ∧ reportDigits ≠ secondDigest ∧ firstDigest ≠ secondDigest := by
  decide +kernel

theorem texts_ne : text secondKind ≠ text firstKind := computed.1

/-- The preimages are shorter than the texts. -/
theorem preimage_ne (kind : Units) (b : Binding)
    (h : (identityPreimage b).length < richUtf8Bytes (text kind)) :
    identityPreimage b ≠ encodeText (text kind) := by
  intro heq
  rw [heq, length_encodeText] at h
  exact lt_irrefl _ h

theorem sha256_first : sha256 (encodeText (text firstKind)) = firstDigest := if_pos rfl

theorem sha256_second : sha256 (encodeText (text secondKind)) = secondDigest := by
  have hne : encodeText (text secondKind) ≠ encodeText (text firstKind) := fun h =>
    texts_ne (encodeText_inj (isText_text _) (isText_text _) h)
  rw [sha256, if_neg hne, if_pos rfl]

theorem preimages_eq : identityPreimage secondBinding = identityPreimage firstBinding :=
  computed.2.1

theorem sha256_preimage (b : Binding)
    (h : (identityPreimage b).length < richUtf8Bytes (text firstKind) ∧
      (identityPreimage b).length < richUtf8Bytes (text secondKind)) :
    sha256 (identityPreimage b) = reportDigits := by
  rw [sha256, if_neg (preimage_ne _ b h.1), if_neg (preimage_ne _ b h.2)]

theorem sizes : (identityPreimage firstBinding).length = 110 ∧
    richUtf8Bytes (text firstKind) = 1091 ∧ richUtf8Bytes (text secondKind) = 1091 :=
  computed.2.2.1

theorem sha256_firstBinding : sha256 (identityPreimage firstBinding) = reportDigits := by
  obtain ⟨hpreimage, hfirst, hsecond⟩ := sizes
  exact sha256_preimage _ (by omega)

theorem sha256_secondBinding : sha256 (identityPreimage secondBinding) = reportDigits := by
  rw [preimages_eq, sha256_firstBinding]

/-- A report of one of the kinds is accepted when its document is. -/
theorem accepted_of_kind {kind reportDigest : Units}
    (hplain : isCanonical (emptyReport reportId kind) = true)
    (hvalid : validateRichDocument (emptyReport reportId kind) = .ok ())
    (hsize : richUtf8Bytes (text kind) ≤ maxRichReportBytes)
    (hdigest : digestPattern reportDigest = true ∧ sha256 (encodeText (text kind)) = reportDigest)
    (hpreimage : sha256 (identityPreimage (binding kind reportId reportDigest)) = reportDigits)
    (hfields : field (emptyReport reportId kind) "identity" = .ok (identityOf kind))
    (hnames : identityKeys.map (textProp (identityOf kind)) =
      (binding kind reportId reportDigest).identity.map some)
    (hreport : textProp (emptyReport reportId kind) "reportId" = some reportId ∧
      textProp (emptyReport reportId kind) "outcome" = some (utf16 "completed") ∧
      textProp (emptyReport reportId kind) "summary" = some [])
    (hfacts : checkFacts (binding kind reportId reportDigest).facts (emptyReport reportId kind)
      ⟨text kind, reportDigest⟩ = .ok ()) :
    assertRichAnalysis sha256 numeral ⟨text kind, reportDigest⟩
      (binding kind reportId reportDigest) = .ok ⟨text kind, reportDigest⟩ := by
  refine accepted_of_report hplain rfl ⟨hsize, hdigest⟩ hvalid hfields hnames ⟨?_, hreport.2⟩ hfacts
  rw [hpreimage]
  exact hreport.1

theorem first_accepted :
    assertRichAnalysis sha256 numeral firstDetail firstBinding = .ok firstDetail := by
  have hsize : richUtf8Bytes (text firstKind) ≤ maxRichReportBytes := by
    rw [sizes.2.1]
    decide
  exact accepted_of_kind (by decide +kernel) (by decide +kernel) hsize
    ⟨by decide +kernel, sha256_first⟩ sha256_firstBinding rfl (by decide +kernel)
    (by decide) (by decide)

theorem second_accepted :
    assertRichAnalysis sha256 numeral secondDetail secondBinding = .ok secondDetail := by
  have hsize : richUtf8Bytes (text secondKind) ≤ maxRichReportBytes := by
    rw [sizes.2.2]
    decide
  exact accepted_of_kind (by decide +kernel) (by decide +kernel) hsize
    ⟨by decide +kernel, sha256_second⟩ sha256_secondBinding rfl (by decide +kernel)
    (by decide) (by decide)

/-- The inputs have different digests. -/
theorem collisionFree : CollisionFree sha256 [identityPreimage firstBinding,
    identityPreimage secondBinding, encodeText firstDetail.reportJson,
    encodeText secondDetail.reportJson] := by
  have hfirst : sha256 (encodeText firstDetail.reportJson) = firstDigest := sha256_first
  have hsecond : sha256 (encodeText secondDetail.reportJson) = secondDigest := sha256_second
  have hdigests := computed.2.2.2
  rw [preimages_eq]
  intro x hx y hy h
  simp only [List.mem_cons, List.not_mem_nil, or_false] at hx hy
  rcases hx with rfl | rfl | rfl | rfl <;> rcases hy with rfl | rfl | rfl | rfl <;>
    simp_all [sha256_firstBinding]

end Sample

/-- Two accepted details of one identifier, whose analyses are of different kinds. -/
theorem rich_report_ids_collide : ¬ ∀ (sha256 : Bytes → Units) (numeral : ℚ → JsonNumber)
    (d₁ d₂ : Detail) (b₁ b₂ : Binding), assertRichAnalysis sha256 numeral d₁ b₁ = .ok d₁ →
    assertRichAnalysis sha256 numeral d₂ b₂ = .ok d₂ →
    CollisionFree sha256 [identityPreimage b₁, identityPreimage b₂, encodeText d₁.reportJson,
      encodeText d₂.reportJson] → Identifies d₁ b₁ d₂ b₂ := by
  intro h
  have hpair := h Sample.sha256 Sample.numeral _ _ _ _ Sample.first_accepted Sample.second_accepted
    Sample.collisionFree
  have hids : reportIdOf Sample.firstDetail = reportIdOf Sample.secondDetail := by
    rw [(accepts_of_check Sample.first_accepted).reportId,
      (accepts_of_check Sample.second_accepted).reportId, Sample.preimages_eq]
  have hnames := hpair.identity hids
  simp [Binding.identity, Sample.firstBinding, Sample.secondBinding, Sample.binding,
    Sample.firstKind, Sample.secondKind] at hnames

/-- The two kinds are told apart only if their replacements are. -/
theorem rich_report_ids_sample :
    Identifies Sample.firstDetail Sample.firstBinding Sample.secondDetail Sample.secondBinding ↔
      (Sample.firstBinding.identity.map toText = Sample.secondBinding.identity.map toText →
        Sample.firstBinding.identity = Sample.secondBinding.identity) :=
  rich_report_ids Sample.sha256 Sample.numeral _ _ _ _ Sample.first_accepted
    Sample.second_accepted Sample.collisionFree

end DumpLedger.RichReport
