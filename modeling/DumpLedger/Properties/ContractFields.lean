import DumpLedger.Domain.DateOrder
import DumpLedger.Http.Contracts.Fields
import DumpLedger.Properties.Decoding
import DumpLedger.Properties.ManifestFields

/-!
# Fields that are read back

What the contracts' decoders make of a value that the server has written.

* `text_jsonString`, `integerField_jsonNumber`, `asNullable_print` — one lemma for each combinator
* `canonicalTimestamp_print` — a timestamp is read back when its year has four digits
* `object_print` — an object with the fields of its shape in their order
-/

namespace DumpLedger.Decode

open Lib

/-! ## Values -/

section Values

variable {path : Units}

theorem text_jsonString {options : TextOptions} {string : Units} (h : options.Allows string) :
    text options (jsonString string) path = .ok string := by
  obtain ⟨hmin, hmax, hcontrol, hpattern⟩ := h
  simp only [text, bind_eq_ok, orThrow_eq_ok, guardThat_eq_ok, pure_eq_ok]
  exact ⟨string, stringUnits?_jsonString string, (), hmin, (), hmax, (), hcontrol, (), hpattern,
    rfl⟩

theorem integerField_jsonNumber {options : IntegerOptions} {n : Nat} (h : n < 2 ^ 53)
    (hmin : options.min.all (fun min => decide (min ≤ (n : Int))) = true)
    (hmax : options.max.all (fun max => decide ((n : Int) ≤ max)) = true) :
    integerField options (jsonNumber n) path = .ok n := by
  have hdouble : toDouble (numberOf n).value = some ((n : Int) : ℚ) := by
    rw [value_numberOf]
    exact_mod_cast toDouble_intCast (n := (n : Int)) (by simpa using h)
  have htype : number? (jsonNumber n) = some (some ((n : Int) : ℚ)) := congrArg some hdouble
  have hnumber : numberField options.label (jsonNumber n) path = .ok ((n : Int) : ℚ) := by
    unfold numberField
    rw [htype]
    rfl
  have hsafe : ((n : Int) : ℚ).den = 1 ∧ ((n : Int) : ℚ).num.natAbs ≤ 2 ^ 53 - 1 := by
    rw [Rat.den_intCast, Rat.num_intCast, Int.natAbs_natCast]
    exact ⟨rfl, by omega⟩
  unfold integerField
  rw [hnumber, bind_ok, guardThat_of hsafe, bind_ok, guardThat_of (by rwa [Rat.num_intCast]),
    bind_ok, guardThat_of (by rwa [Rat.num_intCast]), bind_ok, Rat.num_intCast]
  rfl

theorem oneOf_jsonString {values : List Units} {label : String} {string : Units}
    (h : string ∈ values) : oneOf values label (jsonString string) path = .ok string := by
  simp only [oneOf, bind_eq_ok, orThrow_eq_ok, guardThat_eq_ok, pure_eq_ok]
  exact ⟨string, stringUnits?_jsonString string, (), h, rfl⟩

theorem asText_print {decoder : Decoder Units} {value : JsonValue} {string : Units}
    (h : decoder value path = .ok string) : asText decoder value path = .ok (.text string) :=
  map_eq_ok.mpr ⟨string, h, rfl⟩

theorem asInteger_print {decoder : Decoder Int} {value : JsonValue} {n : Int}
    (h : decoder value path = .ok n) : asInteger decoder value path = .ok (.integer n) :=
  map_eq_ok.mpr ⟨n, h, rfl⟩

/-- An absent value is written as `null`, and read back as absent. -/
theorem asNullable_print {α : Type} {o : Option α} {json : α → JsonValue} {decoded : α → Decoded}
    {decoder : Decoder Decoded} (hjson : ∀ a, isNull (some (json a)) = false)
    (h : ∀ a ∈ o, decoder (json a) path = .ok (decoded a)) :
    asNullable decoder ((o.map json).getD jsonNull) path = .ok ((o.map decoded).getD .null) := by
  cases o with
  | none => rfl
  | some a =>
    simp only [asNullable, nullableField, Option.map_some, Option.getD_some, hjson a,
      Bool.false_eq_true, if_false, map_eq_ok]
    exact ⟨some (decoded a), ⟨decoded a, h a rfl, rfl⟩, rfl⟩

theorem decodeItems_print {α β : Type} {item : Decoder α} {json : β → JsonValue} {f : β → α}
    {list : List β} (h : ∀ b ∈ list, ∀ path, item (json b) path = .ok (f b)) (index : Nat) :
    decodeItems item path index (list.map json) = .ok (list.map f) := by
  induction list generalizing index with
  | nil => rfl
  | cons b rest ih =>
    rw [List.map_cons, decodeItems, h b List.mem_cons_self, bind_ok,
      ih fun c hc => h c (List.mem_cons_of_mem b hc), bind_ok]
    rfl

theorem arrayOf_print {α β : Type} {item : Decoder α} {options : ArrayOptions}
    {json : β → JsonValue} {f : β → α} {list : List β}
    (hlength : options.maxLength.all (fun max => decide (list.length ≤ max)) = true)
    (h : ∀ b ∈ list, ∀ path, item (json b) path = .ok (f b)) :
    arrayOf item options (jsonArray (list.map json)) path = .ok (list.map f) := by
  simp only [arrayOf, bind_eq_ok, orThrow_eq_ok, guardThat_eq_ok]
  refine ⟨list.map json, arrayElements?_jsonArray _, (), ?_, decodeItems_print h 0⟩
  rw [List.length_map]
  exact hlength

end Values

/-! ## Texts -/

/-- What `text` allows without a pattern. -/
structure IsLine (max : Nat) (s : String) : Prop where
  nonempty : s ≠ ""
  length : utf16Length s ≤ max
  plain : hasControl s = false

theorem hasControlUnit_utf16 {s : String} (h : hasControl s = false) :
    hasControlUnit (utf16 s) = false := by
  unfold hasControlUnit utf16
  rw [List.any_eq_false]
  intro u hu
  obtain ⟨c, hc, hu⟩ := List.mem_flatMap.mp hu
  have hplain := List.any_eq_false.mp h c hc
  simp only [Bool.or_eq_true, decide_eq_true_eq, not_or] at hplain ⊢
  unfold charUnits at hu
  by_cases hsmall : c.toNat < 0x10000
  · rw [if_pos hsmall, List.mem_singleton] at hu
    subst hu
    have hvalue : c.toNat.toUInt16.toNat = c.toNat := by
      rw [Nat.toUInt16_eq, UInt16.toNat_ofNat', Nat.mod_eq_of_lt hsmall]
    rw [hvalue]
    omega
  · rw [if_neg hsmall] at hu
    have hbounds := char_bounds c
    -- both halves of a pair are surrogates
    have hsurrogate : 0xD800 ≤ u.toNat := by
      rcases List.mem_pair.mp hu with rfl | rfl
      · simp only [highSurrogate, Nat.toUInt16_eq, UInt16.toNat_ofNat']
        omega
      · simp only [lowSurrogate, Nat.toUInt16_eq, UInt16.toNat_ofNat']
        omega
    omega

theorem IsLine.allows {max : Nat} {s : String} (h : IsLine max s) (label : String) :
    TextOptions.Allows { max, label } (utf16 s) := by
  refine ⟨?_, ?_, hasControlUnit_utf16 h.plain, rfl⟩
  · exact List.length_pos_of_ne_nil (utf16_ne_nil h.nonempty)
  · rw [length_utf16]
    exact h.length

theorem IsLine.text {max : Nat} {s : String} (h : IsLine max s) {label : String} {path : Units} :
    text { max, label } (jsonString (utf16 s)) path = .ok (utf16 s) :=
  text_jsonString (h.allows label)

/-- What an identifier may be. -/
structure IsIdentifierText (s : String) : Prop extends IsLine maxIdentifierLength s where
  unbroken : isUnbroken (utf16 s) = true

theorem IsIdentifierText.field {s : String} (h : IsIdentifierText s) {label : String}
    {path : Units} : identifierField label (jsonString (utf16 s)) path = .ok (utf16 s) := by
  obtain ⟨hmin, hmax, hcontrol, -⟩ := h.toIsLine.allows label
  exact text_jsonString ⟨hmin, hmax, hcontrol, h.unbroken⟩

/-- Characters that are neither blanks nor controls. -/
theorem isIdentifierText_of_graphic {s : String} (hne : s ≠ "")
    (hlength : s.toList.length ≤ maxIdentifierLength)
    (hgraphic : ∀ c ∈ s.toList, 0x20 < c.toNat ∧ c.toNat < 0x7f) : IsIdentifierText s := by
  have hascii : ∀ c ∈ s.toList, c.toNat < 128 := fun c hc => by
    have := hgraphic c hc
    omega
  refine ⟨⟨hne, ?_, ?_⟩, ?_⟩
  · rw [← length_utf16, length_utf16_ascii hascii]
    exact hlength
  · rw [hasControl, List.any_eq_false]
    intro c hc
    have := hgraphic c hc
    simp only [Bool.or_eq_true, decide_eq_true_eq, not_or]
    omega
  · rw [isUnbroken, Bool.and_eq_true, decide_eq_true_eq, List.all_eq_true]
    refine ⟨utf16_ne_nil hne, ?_⟩
    intro u hu
    rw [utf16_ascii hascii] at hu
    obtain ⟨c, hc, rfl⟩ := List.mem_map.mp hu
    have hbounds := hgraphic c hc
    have hvalue : (unitOf c).toNat = c.toNat := by
      simp only [unitOf, Nat.toUInt16_eq, UInt16.toNat_ofNat']
      omega
    simp only [isSpaceUnit, hvalue, Bool.not_eq_true', Bool.or_eq_false_iff, Bool.and_eq_false_iff,
      decide_eq_false_iff_not, List.contains_eq_mem, List.mem_cons, List.not_mem_nil, or_false]
    omega

theorem isLine_boundedText {max : Nat} (t : BoundedText max) (h : hasControl t.text = false) :
    IsLine max t.text := by
  have hv := t.valid
  simp only [isBoundedText, Bool.and_eq_true, decide_eq_true_eq] at hv
  exact ⟨t.ne_empty, hv.1.2, h⟩

theorem isIdentifierText_identifier {kind : String} (id : Identifier kind)
    (hkind : ∀ c ∈ kind.toList, 0x20 < c.toNat ∧ c.toNat < 0x7f)
    (hlength : kind.toList.length ≤ 64) : IsIdentifierText id.text := by
  have hv := id.valid
  simp only [isIdentifier, isIdentifierBody, Bool.and_eq_true, List.isPrefixOf_iff_prefix,
    decide_eq_true_eq, List.all_eq_true] at hv
  obtain ⟨⟨body, htext⟩, hbody, hchars⟩ := hv
  have hprefix : (kind ++ "_").toList.length = kind.toList.length + 1 := by
    simp [String.toList_append]
  rw [← htext, ← hprefix, List.drop_left] at hbody hchars
  refine isIdentifierText_of_graphic ?_ ?_ ?_
  · intro hempty
    rw [hempty] at htext
    have := congrArg List.length htext
    rw [List.length_append, hbody] at this
    cases this
  · rw [← htext, List.length_append, hprefix, hbody]
    unfold maxIdentifierLength
    omega
  · intro c hc
    rw [← htext, List.mem_append] at hc
    rcases hc with hc | hc
    · rw [String.toList_append, List.mem_append] at hc
      rcases hc with hc | hc
      · exact hkind c hc
      · rw [List.mem_singleton.mp hc]
        decide
    · have hchar := hchars c hc
      simp only [isIdentifierChar, Bool.or_eq_true, Bool.and_eq_true, decide_eq_true_eq,
        Char.le_def, UInt32.le_iff_toNat_le] at hchar
      have hnat : c.toNat = c.val.toNat := rfl
      have hzero : ('0' : Char).val.toNat = 48 := rfl
      have hnine : ('9' : Char).val.toNat = 57 := rfl
      have hA : ('A' : Char).val.toNat = 65 := rfl
      have hZ : ('Z' : Char).val.toNat = 90 := rfl
      omega

/-! ## Timestamps -/

/-- The instants of the years 0 to 9999. -/
def FourDigitYear (ms : Int) : Prop := -62167219200000 ≤ ms ∧ ms < 253402300800000

instance (ms : Int) : Decidable (FourDigitYear ms) := inferInstanceAs (Decidable (_ ∧ _))

/-- The days of the years before the last one of an era. -/
theorem daysOfEra_bounds {n : Int} (h : 0 ≤ n) (h' : n ≤ 399) :
    0 ≤ n * 365 + n / 4 - n / 100 ∧ n * 365 + n / 4 - n / 100 ≤ 145731 := by
  omega

theorem daysFromCivil_ge {y : Int} {m d : Nat} (hm : 1 ≤ m) (hd : 1 ≤ d) (hy : 10000 ≤ y) :
    2932897 ≤ daysFromCivil y m d := by
  unfold daysFromCivil
  by_cases hearly : m ≤ 2
  · -- the year of the March before
    have hera : 25 ≤ (y - 1) / 400 ∨ (y - 1) / 400 = 24 ∧ (y - 1) % 400 = 399 := by omega
    have hyears := @daysOfEra_bounds ((y - 1) % 400) (by omega) (by omega)
    simp only [hearly, if_true]
    rcases hera with hera | ⟨hera, hlast⟩
    · omega
    · rw [hera, hlast]
      omega
  · have hyears := @daysOfEra_bounds (y % 400) (by omega) (by omega)
    simp only [hearly, if_false]
    omega

theorem daysFromCivil_lt {y : Int} {m d : Nat} (hm : 1 ≤ m) (hm' : m ≤ 12) (hd : d ≤ 31)
    (hy : y ≤ -1) : daysFromCivil y m d < -719528 := by
  unfold daysFromCivil
  by_cases hearly : m ≤ 2
  · have hera : (y - 1) / 400 ≤ -2 ∨ (y - 1) / 400 = -1 ∧ (y - 1) % 400 ≤ 398 := by omega
    simp only [hearly, if_true]
    rcases hera with hera | ⟨hera, hlast⟩
    · have hyears := @daysOfEra_bounds ((y - 1) % 400) (by omega) (by omega)
      omega
    · have hnonneg : 0 ≤ (y - 1) % 400 := by omega
      rw [hera]
      generalize (y - 1) % 400 = n at hlast hnonneg ⊢
      omega
  · have hyears := @daysOfEra_bounds (y % 400) (by omega) (by omega)
    simp only [hearly, if_false]
    omega

/-- `n` characters that are digits. -/
def AreDigits (n : Nat) (ds : List Char) : Prop := ds.length = n ∧ ∀ d ∈ ds, d.isDigit = true

/-- The characters have the places of a template. -/
def FitsTemplate (template cs : List Char) : Prop :=
  template.length = cs.length ∧ ∀ p ∈ template.zip cs, fitsTemplate p.1 p.2 = true

theorem fitsTemplate_digits {n : Nat} {ds template cs : List Char} (h : AreDigits n ds)
    (hrest : FitsTemplate template cs) :
    FitsTemplate (List.replicate n 'd' ++ template) (ds ++ cs) := by
  obtain ⟨hlength, hdigits⟩ := h
  refine ⟨by simp [hlength, hrest.1], ?_⟩
  intro p hp
  rw [List.zip_append (by simp [hlength]), List.mem_append] at hp
  rcases hp with hp | hp
  · obtain ⟨hplace, hd⟩ := List.of_mem_zip (a := p.1) (b := p.2) hp
    rw [List.eq_of_mem_replicate hplace]
    exact hdigits p.2 hd
  · exact hrest.2 p hp

theorem fitsTemplate_sign {c : Char} {template cs : List Char} (hc : fitsTemplate c c = true)
    (hrest : FitsTemplate template cs) : FitsTemplate (c :: template) (c :: cs) := by
  refine ⟨by simp [hrest.1], ?_⟩
  intro p hp
  rw [List.zip_cons_cons, List.mem_cons] at hp
  rcases hp with rfl | hp
  · exact hc
  · exact hrest.2 p hp

/-- The year of an instant that is written with four digits. -/
theorem readYear_fourDigits {cs rest : List Char} {y : Int} (h : readYear cs = some (y, rest))
    (hy : 0 ≤ y) (hy' : y ≤ 9999) : ∃ ds, AreDigits 4 ds ∧ cs = ds ++ rest := by
  unfold readYear at h
  split at h
  · obtain ⟨⟨v, rest'⟩, -, hyear⟩ := Option.bind_eq_some_iff.mp h
    dsimp only at hyear
    split at hyear
    · cases hyear
      omega
    · cases hyear
  · obtain ⟨⟨v, rest'⟩, -, hyear⟩ := Option.bind_eq_some_iff.mp h
    dsimp only at hyear
    split at hyear
    · cases hyear
      omega
    · cases hyear
  · obtain ⟨⟨v, rest'⟩, hread, hyear⟩ := Option.bind_eq_some_iff.mp h
    obtain ⟨ds, rfl, hlen, hds⟩ := readDigits_eq_some hread
    cases hyear
    exact ⟨ds, ⟨hlen, hds⟩, rfl⟩

/-- **A canonical timestamp of a year with four digits fits the pattern.** -/
theorem fitsTemplate_of_instant {s : String} {ms : Int} (h : instant s = some ms)
    (hyear : FourDigitYear ms) : FitsTemplate timestampTemplate s.toList := by
  unfold instant at h
  obtain ⟨⟨year, cs₁⟩, h₁, h⟩ := Option.bind_eq_some_iff.mp h
  obtain ⟨cs₂, h₂, h⟩ := Option.bind_eq_some_iff.mp h
  obtain ⟨⟨month, cs₃⟩, h₃, h⟩ := Option.bind_eq_some_iff.mp h
  obtain ⟨cs₄, h₄, h⟩ := Option.bind_eq_some_iff.mp h
  obtain ⟨⟨day, cs₅⟩, h₅, h⟩ := Option.bind_eq_some_iff.mp h
  obtain ⟨cs₆, h₆, h⟩ := Option.bind_eq_some_iff.mp h
  obtain ⟨⟨hour, cs₇⟩, h₇, h⟩ := Option.bind_eq_some_iff.mp h
  obtain ⟨cs₈, h₈, h⟩ := Option.bind_eq_some_iff.mp h
  obtain ⟨⟨minute, cs₉⟩, h₉, h⟩ := Option.bind_eq_some_iff.mp h
  obtain ⟨cs₁₀, h₁₀, h⟩ := Option.bind_eq_some_iff.mp h
  obtain ⟨⟨second, cs₁₁⟩, h₁₁, h⟩ := Option.bind_eq_some_iff.mp h
  obtain ⟨cs₁₂, h₁₂, h⟩ := Option.bind_eq_some_iff.mp h
  obtain ⟨⟨thousandth, cs₁₃⟩, h₁₃, h⟩ := Option.bind_eq_some_iff.mp h
  obtain ⟨cs₁₄, h₁₄, h⟩ := Option.bind_eq_some_iff.mp h
  dsimp only at *
  split at h
  · next hend =>
    obtain ⟨rfl, hmonth, hmonth', hday, hday', hhour, hminute, hsecond, -⟩ := hend
    cases h
    -- the year is read from its days
    have hlast : day ≤ 31 := by
      have : daysInMonth year month ≤ 31 := by
        unfold daysInMonth
        split
        · split <;> decide
        · split <;> decide
      omega
    have hthousandth : (thousandth : Int) < 1000 := by
      have := readDigits_lt h₁₃
      omega
    have hfour : 0 ≤ year ∧ year ≤ 9999 := by
      unfold FourDigitYear at hyear
      constructor
      · by_contra hneg
        have := @daysFromCivil_lt year month day hmonth hmonth' hlast (by omega)
        omega
      · by_contra hlarge
        have := @daysFromCivil_ge year month day hmonth hday (by omega)
        omega
    have digits {n v : Nat} {cs rest template : List Char}
        (hread : readDigits n cs = some (v, rest)) (hrest : FitsTemplate template rest) :
        FitsTemplate (List.replicate n 'd' ++ template) cs := by
      obtain ⟨ds, rfl, hds⟩ := readDigits_eq_some hread
      exact fitsTemplate_digits hds hrest
    have sign {c : Char} {cs rest template : List Char} (hread : readChar c cs = some rest)
        (hc : fitsTemplate c c = true) (hrest : FitsTemplate template rest) :
        FitsTemplate (c :: template) cs := by
      rw [readChar_eq_some hread]
      exact fitsTemplate_sign hc hrest
    have hnil : FitsTemplate [] [] := ⟨rfl, fun p hp => by cases hp⟩
    have fits₁₂ := digits h₁₃ (sign h₁₄ (by decide) hnil)
    have fits₁₀ := digits h₁₁ (sign h₁₂ (by decide) fits₁₂)
    have fits₈ := digits h₉ (sign h₁₀ (by decide) fits₁₀)
    have fits₆ := digits h₇ (sign h₈ (by decide) fits₈)
    have fits₄ := digits h₅ (sign h₆ (by decide) fits₆)
    have fits₂ := digits h₃ (sign h₄ (by decide) fits₄)
    obtain ⟨ds, hds, hcs⟩ := readYear_fourDigits h₁ hfour.1 hfour.2
    rw [hcs]
    exact fitsTemplate_digits hds (sign h₂ (by decide) fits₂)
  · cases h

/-- **A timestamp is read back when its year has four digits.** -/
theorem canonicalTimestamp_print {t : IsoTimestamp} (h : FourDigitYear t.instant) {label : String}
    {path : Units} :
    canonicalTimestamp label (jsonString (utf16 t.text)) path = .ok (utf16 t.text) := by
  have hinstant : instant t.text = some t.instant := (Option.some_get t.valid).symm
  obtain ⟨hlength, hfits⟩ := fitsTemplate_of_instant hinstant h
  obtain ⟨hle, hchars⟩ := isTimestampPart_of_instant t.valid
  have hgraphic : ∀ c ∈ t.text.toList, 0x20 < c.toNat ∧ c.toNat < 0x7f := by
    intro c hc
    have hchar := hchars c hc
    simp only [isTimestampChar, Char.isDigit, Bool.or_eq_true, Bool.and_eq_true, decide_eq_true_eq,
      ge_iff_le, UInt32.le_iff_toNat_le, List.contains_eq_mem, List.mem_cons, List.not_mem_nil,
      or_false] at hchar
    rcases hchar with ⟨hge, hle⟩ | rfl | rfl | rfl | rfl | rfl | rfl
    · have hnat : c.toNat = c.val.toNat := rfl
      have hzero : ('0' : Char).val.toNat = 48 := rfl
      have hnine : ('9' : Char).val.toNat = 57 := rfl
      omega
    all_goals decide
  have hascii : ∀ c ∈ t.text.toList, c.toNat < 128 := fun c hc => by
    have := hgraphic c hc
    omega
  have hne : t.text ≠ "" := by
    intro hempty
    rw [hempty] at hlength
    cases hlength
  have hline : IsLine 40 t.text := by
    have hid := isIdentifierText_of_graphic hne (by unfold maxIdentifierLength; omega) hgraphic
    refine ⟨hne, ?_, hid.plain⟩
    rw [← length_utf16, length_utf16_ascii hascii]
    omega
  have hpattern : timestampPattern (utf16 t.text) = true := by
    rw [timestampPattern, Bool.and_eq_true, decide_eq_true_eq, List.all_eq_true, utf16_ascii hascii,
      List.length_map]
    refine ⟨hlength.symm, ?_⟩
    rintro ⟨place, u⟩ hp
    rw [List.zip_map_right, List.mem_map] at hp
    obtain ⟨⟨place', c⟩, hmem, heq⟩ := hp
    cases heq
    dsimp only [Prod.map, id]
    rw [ofNat_unitOf (hascii c (List.of_mem_zip hmem).2)]
    exact hfits (place', c) hmem
  have hcanonical : isCanonicalUtc (utf16 t.text) = true := by
    rw [isCanonicalUtc, hpattern, toText_utf16, Bool.true_and]
    exact t.valid
  rw [canonicalTimestamp, hline.text, bind_ok, guardThat_of hcanonical, bind_ok]
  rfl

/-! ## Objects -/

section Objects

variable {α : Type}

theorem lookup_of_mem {κ β : Type} [BEq κ] [LawfulBEq κ] {l : List (κ × β)} {k : κ} {b : β}
    (hnodup : (l.map Prod.fst).Nodup) (h : (k, b) ∈ l) : l.lookup k = some b := by
  induction l with
  | nil => cases h
  | cons entry rest ih =>
    obtain ⟨k', b'⟩ := entry
    rw [List.map_cons, List.nodup_cons] at hnodup
    rcases List.mem_cons.mp h with heq | hmem
    · cases heq
      exact List.lookup_cons_self
    · have hne : k ≠ k' := by
        rintro rfl
        exact hnodup.1 (List.mem_map.mpr ⟨_, hmem, rfl⟩)
      rw [List.lookup_cons, beq_eq_false_iff_ne.mpr hne]
      exact ih hnodup.2 hmem

theorem eraseDups_of_nodup {κ : Type} [BEq κ] [LawfulBEq κ] {l : List κ} (h : l.Nodup) :
    l.eraseDups = l := by
  induction l with
  | nil => rfl
  | cons a rest ih =>
    rw [List.nodup_cons] at h
    have hfilter : rest.filter (fun b => !b == a) = rest := by
      rw [List.filter_eq_self]
      intro b hb
      rw [Bool.not_eq_true', beq_eq_false_iff_ne]
      rintro rfl
      exact h.1 hb
    rw [List.eraseDups_cons, hfilter, ih h.2]

/-- Names that are no numbers keep their order. -/
theorem ownKeys_of_names {names : List Units} (hnodup : names.Nodup)
    (hplain : ∀ name ∈ names, arrayIndex? name = none) : ownKeys names = names := by
  have hnone : names.filter (fun key => (arrayIndex? key).isSome) = [] := by
    rw [List.filter_eq_nil_iff]
    intro name hname
    simp [hplain name hname]
  have hall : names.filter (fun key => (arrayIndex? key).isNone) = names := by
    rw [List.filter_eq_self]
    intro name hname
    simp [hplain name hname]
  unfold ownKeys
  dsimp only
  rw [eraseDups_of_nodup hnodup, hnone, hall, List.mergeSort_nil, List.nil_append]

/-- A field of a contract, with the value that was written and what it is read back as. -/
structure PrintedField (α : Type) where
  name : String
  spec : FieldSpec α
  value : JsonValue
  decoded : α

namespace PrintedField

variable {fields : List (PrintedField α)}

def key (f : PrintedField α) : Units := utf16 f.name

/-- The names are distinct, and none is a number or `__proto__`. -/
structure Plain (fields : List (PrintedField α)) : Prop where
  nodup : (fields.map key).Nodup
  names : ∀ f ∈ fields, arrayIndex? f.key = none ∧ f.key ≠ protoName

theorem Plain.of_names {names : List String}
    (hnames : fields.map name = names)
    (hnodup : (names.map utf16).Nodup)
    (hplain : ∀ name ∈ names, arrayIndex? (utf16 name) = none ∧ utf16 name ≠ protoName) :
    Plain fields := by
  subst hnames
  constructor
  · rw [List.map_map] at hnodup
    exact hnodup
  · intro f hf
    exact hplain f.name (List.mem_map_of_mem hf)

def shape (fields : List (PrintedField α)) : Shape α := fields.map fun f => (f.key, f.spec)

def json (fields : List (PrintedField α)) : JsonValue :=
  jsonObject (fields.map fun f => (f.name, f.value))

def output (fields : List (PrintedField α)) : List (Units × α) :=
  fields.map fun f => (f.key, f.decoded)

def entries (fields : List (PrintedField α)) : List (Units × JsonValue) :=
  fields.map fun f => (f.key, f.value)

theorem lookup_shape (h : Plain fields) {f : PrintedField α} (hf : f ∈ fields) :
    (shape fields).lookup f.key = some f.spec := by
  refine lookup_of_mem ?_ (List.mem_map_of_mem hf)
  rw [shape, List.map_map]
  exact h.nodup

theorem ownValue_entries (h : Plain fields) {f : PrintedField α} (hf : f ∈ fields) :
    ownValue (entries fields) f.key = some f.value := by
  refine lookup_of_mem ?_ (List.mem_reverse.mpr (List.mem_map_of_mem hf))
  rw [List.map_reverse, List.nodup_reverse, entries, List.map_map]
  exact h.nodup

theorem decodeKeys_print (h : Plain fields) {path : Units}
    (hdecode : ∀ f ∈ fields, f.spec.decode f.value (childPath path f.key) = .ok f.decoded)
    (rest : List (PrintedField α)) (hrest : ∀ f ∈ rest, f ∈ fields) (done : List (Units × α)) :
    decodeKeys (shape fields) (entries fields) path (rest.map key) done =
      .ok (done ++ output rest) := by
  induction rest generalizing done with
  | nil =>
    exact congrArg Except.ok (List.append_nil done).symm
  | cons f rest ih =>
    have hf := hrest f List.mem_cons_self
    rw [List.map_cons, decodeKeys, lookup_shape h hf]
    dsimp only [property]
    rw [ownValue_entries h hf]
    dsimp only
    rw [hdecode f hf, bind_ok, setProperty, if_neg (h.names f hf).2,
      ih fun g hg => hrest g (List.mem_cons_of_mem f hg)]
    simp [output]

theorem requireKeys_print {path : Units} (keys : List Units)
    (hkeys : ∀ key ∈ keys, key ∈ (entries fields).map Prod.fst) :
    requireKeys (shape fields) (entries fields) path keys = .ok () := by
  induction keys with
  | nil => rfl
  | cons key rest ih =>
    have hrest := ih fun k hk => hkeys k (List.mem_cons_of_mem key hk)
    rw [requireKeys, if_pos (Or.inl (hkeys key List.mem_cons_self)), hrest, ite_self]

/-- **An object with the fields of its shape is read back.** -/
theorem object_print (h : Plain fields) {path : Units} {label : String}
    (hdecode : ∀ f ∈ fields, f.spec.decode f.value (childPath path f.key) = .ok f.decoded) :
    object (shape fields) label (json fields) path = .ok (output fields) := by
  have hobject : objectEntries? (json fields) = some (entries fields) := by
    rw [json, objectEntries?_jsonObject, List.map_map]
    rfl
  have hnames : (entries fields).map Prod.fst = fields.map key := by
    rw [entries, List.map_map]
    rfl
  have hshape : (shape fields).map Prod.fst = fields.map key := by
    rw [shape, List.map_map]
    rfl
  have hplain : ∀ name ∈ fields.map key, arrayIndex? name = none := by
    intro name hname
    obtain ⟨f, hf, rfl⟩ := List.mem_map.mp hname
    exact (h.names f hf).1
  have hown := ownKeys_of_names h.nodup hplain
  unfold object
  rw [orThrow_eq_ok.mpr hobject, bind_ok, hnames, hshape, hown,
    decodeKeys_print h hdecode fields (fun _ hf => hf) [], bind_ok,
    requireKeys_print (fields.map key) (by rw [hnames]; exact fun _ hk => hk), bind_ok,
    List.nil_append]
  rfl

/-- What a contract reads from the decoded object. -/
theorem member_output {fields : List (PrintedField Decoded)} (h : Plain fields) :
    ∀ f ∈ fields, member (output fields) f.name = f.decoded := by
  intro f hf
  have hlookup : (output fields).lookup f.key = some f.decoded := by
    refine lookup_of_mem ?_ (List.mem_map_of_mem hf)
    rw [output, List.map_map]
    exact h.nodup
  rw [member]
  exact congrArg (fun o => o.getD Decoded.null) hlookup

end PrintedField

/-! ### Optional members -/

theorem nullable_text (o : Option Units) :
    ((o.map Decoded.text).getD .null).nullable Decoded.units = o := by
  cases o with
  | none => rfl
  | some string => rfl

theorem nullable_integer (o : Option Nat) :
    ((o.map fun n : Nat => Decoded.integer n).getD .null).nullable Decoded.nat = o := by
  cases o with
  | none => rfl
  | some n => exact congrArg some (Int.toNat_natCast n)

end Objects

end DumpLedger.Decode
