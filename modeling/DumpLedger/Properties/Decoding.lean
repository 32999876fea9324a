import DumpLedger.Http.Contracts.Combinators

/-!
# Strict decoding

What a decoder should do with a value: return the decoded fields of an object that has exactly the
keys of its shape, or throw a `DecodeError`. The predicates here follow the structure of the
decoder and say what a value is to it, without running it.

* `Admits` — the value has the form the code accepts
* `Strays` — an object of the value has a key that the shape finds in `Object.prototype`
* `Whole` — no object of the value lacks a required key that `Object.prototype` has, or has the
  key `__proto__`
* `Faithful` — a result that holds exactly the decoded fields
-/

namespace DumpLedger.Decode

open Lib

/-! ## Leaves -/

def TextOptions.Allows (options : TextOptions) (string : Units) : Prop :=
  options.min ≤ string.length ∧ string.length ≤ options.max ∧ hasControlUnit string = false ∧
    options.pattern.all (fun pattern => pattern string) = true

/-- A safe integer within the range. -/
def IntegerOptions.Allows (options : IntegerOptions) (number : ℚ) : Prop :=
  (number.den = 1 ∧ number.num.natAbs ≤ 2 ^ 53 - 1) ∧
    options.min.all (fun min => decide (min ≤ number.num)) = true ∧
    options.max.all (fun max => decide (number.num ≤ max)) = true

def DecimalOptions.Allows (options : DecimalOptions) (string : Units) : Prop :=
  TextOptions.Allows { max := maxCanonicalDecimalDigits, label := options.label } string ∧
    decimalPattern string = true ∧ (options.positive = true → string ≠ [unitOf '0'])

def ArrayOptions.Allows (options : ArrayOptions) (elements : List JsonValue) : Prop :=
  options.maxLength.all (fun max => decide (elements.length ≤ max)) = true

/-! ## The predicates -/

/-- One of a list strays, and those before it are admitted. -/
def StraysIn {β : Type} (admits strays : β → Prop) (list : List β) : Prop :=
  ∃ before b after, list = before ++ b :: after ∧ (∀ earlier ∈ before, admits earlier) ∧ strays b

theorem not_straysIn_nil {β : Type} {admits strays : β → Prop} : ¬ StraysIn admits strays [] := by
  rintro ⟨before, b, after, hnil, -⟩
  simp at hnil

theorem straysIn_cons {β : Type} {admits strays : β → Prop} {b : β} {rest : List β} :
    StraysIn admits strays (b :: rest) ↔
      strays b ∨ (admits b ∧ StraysIn admits strays rest) := by
  constructor
  · rintro ⟨before, c, after, heq, hbefore, hstrays⟩
    cases before with
    | nil =>
      cases heq
      exact Or.inl hstrays
    | cons d before =>
      cases heq
      exact Or.inr ⟨hbefore _ List.mem_cons_self, before, c, after, rfl,
        fun x hx => hbefore x (List.mem_cons_of_mem _ hx), hstrays⟩
  · rintro (hstrays | ⟨hadmits, before, c, after, rfl, hbefore, hstrays⟩)
    · exact ⟨[], b, rest, rfl, by simp, hstrays⟩
    · refine ⟨b :: before, c, after, rfl, ?_, hstrays⟩
      intro x hx
      rcases List.mem_cons.mp hx with rfl | hx
      · exact hadmits
      · exact hbefore x hx

/-- A key that the shape requires. -/
def Requires {α : Type} (shape : Shape α) (key : Units) : Prop :=
  (shape.lookup key).any (fun spec => !spec.optional) = true

mutual

def DecoderExpr.Admits : DecoderExpr → JsonValue → Prop
  | .text options, value => ∃ string, stringUnits? value = some string ∧ options.Allows string
  | .boolean, value => ∃ b, value = .literal (.bool b)
  | .integer options, value => ∃ number, number? value = some (some number) ∧ options.Allows number
  | .oneOf values _, value => ∃ string, stringUnits? value = some string ∧ string ∈ values
  | .canonicalDecimal options, value =>
    ∃ string, stringUnits? value = some string ∧ options.Allows string
  | .nullable inner, value => isNull (some value) = true ∨ inner.Admits value
  | .array item options, value =>
    ∃ elements, arrayElements? value = some elements ∧ options.Allows elements ∧
      ∀ entry ∈ elements, item.Admits entry
  | .object shape _, value =>
    ∃ entries, objectEntries? value = some entries ∧
      (∀ key ∈ ownKeys (entries.map Prod.fst), ∀ member, ownValue entries key = some member →
        shape.Admits key member) ∧
      ∀ key, Requires shape.shape key →
        key ∈ entries.map Prod.fst ∨ key ∈ objectPrototypeNames

def ShapeExpr.Admits : ShapeExpr → Units → JsonValue → Prop
  | .nil, _, _ => False
  | .cons name _ decoder rest, key, value =>
    if key = name then decoder.Admits value else rest.Admits key value

end

mutual

/-- The walk comes to such a key: what stands before it is admitted. -/
def DecoderExpr.Strays : DecoderExpr → JsonValue → Prop
  | .text _, _ => False
  | .boolean, _ => False
  | .integer _, _ => False
  | .oneOf _ _, _ => False
  | .canonicalDecimal _, _ => False
  | .nullable inner, value => isNull (some value) = false ∧ inner.Strays value
  | .array item options, value =>
    ∃ elements, arrayElements? value = some elements ∧ options.Allows elements ∧
      StraysIn (fun entry => item.Admits entry) (fun entry => item.Strays entry) elements
  | .object shape _, value =>
    ∃ entries, objectEntries? value = some entries ∧
      StraysIn
        (fun key => ∀ member, ownValue entries key = some member → shape.Admits key member)
        (fun key => ∃ member, ownValue entries key = some member ∧ shape.Strays key member)
        (ownKeys (entries.map Prod.fst))

def ShapeExpr.Strays : ShapeExpr → Units → JsonValue → Prop
  | .nil, key, _ => key ∈ objectPrototypeNames
  | .cons name _ decoder rest, key, value =>
    if key = name then decoder.Strays value else rest.Strays key value

end

mutual

def DecoderExpr.Whole : DecoderExpr → JsonValue → Prop
  | .text _, _ => True
  | .boolean, _ => True
  | .integer _, _ => True
  | .oneOf _ _, _ => True
  | .canonicalDecimal _, _ => True
  | .nullable inner, value => isNull (some value) = true ∨ inner.Whole value
  | .array item _, value =>
    ∀ elements, arrayElements? value = some elements → ∀ entry ∈ elements, item.Whole entry
  | .object shape _, value =>
    ∀ entries, objectEntries? value = some entries →
      (∀ key, Requires shape.shape key → key ∈ objectPrototypeNames →
        key ∈ entries.map Prod.fst) ∧
      protoName ∉ entries.map Prod.fst ∧
      ∀ key ∈ ownKeys (entries.map Prod.fst), ∀ member, ownValue entries key = some member →
        shape.Whole key member

def ShapeExpr.Whole : ShapeExpr → Units → JsonValue → Prop
  | .nil, _, _ => True
  | .cons name _ decoder rest, key, value =>
    if key = name then decoder.Whole value else rest.Whole key value

end

mutual

/-- At every object, each own key is one of the shape, each required key is an own key, and the
fields of the result are the decoded fields of the object. -/
def DecoderExpr.Faithful : DecoderExpr → JsonValue → Decoded → Prop
  | .text options, value, result =>
    ∃ string, stringUnits? value = some string ∧ options.Allows string ∧ result = .text string
  | .boolean, value, result => ∃ b, value = .literal (.bool b) ∧ result = .boolean b
  | .integer options, value, result =>
    ∃ number, number? value = some (some number) ∧ options.Allows number ∧
      result = .integer number.num
  | .oneOf values _, value, result =>
    ∃ string, stringUnits? value = some string ∧ string ∈ values ∧ result = .text string
  | .canonicalDecimal options, value, result =>
    ∃ string, stringUnits? value = some string ∧ options.Allows string ∧
      result = .decimal (decimalUnits string)
  | .nullable inner, value, result =>
    (isNull (some value) = true ∧ result = .null) ∨
      (isNull (some value) = false ∧ inner.Faithful value result)
  | .array item options, value, result =>
    ∃ elements items, arrayElements? value = some elements ∧ options.Allows elements ∧
      result = .array items ∧ List.Forall₂ item.Faithful elements items
  | .object shape _, value, result =>
    ∃ entries fields, objectEntries? value = some entries ∧ result = .object fields ∧
      (∀ key ∈ entries.map Prod.fst, key ∈ shape.shape.map Prod.fst) ∧
      (∀ key, Requires shape.shape key → key ∈ entries.map Prod.fst) ∧
      fields.map Prod.fst = ownKeys (entries.map Prod.fst) ∧
      ∀ f ∈ fields, ∃ member, ownValue entries f.1 = some member ∧ shape.Faithful f.1 member f.2

def ShapeExpr.Faithful : ShapeExpr → Units → JsonValue → Decoded → Prop
  | .nil, _, _, _ => False
  | .cons name _ decoder rest, key, value, result =>
    if key = name then decoder.Faithful value result else rest.Faithful key value result

end

/-! ## Outcomes -/

section Outcomes

variable {α β : Type}

/-- What a run has to do with a value, by what the value is. -/
def Outcome (admits strays whole : Prop) (faithful : α → Prop) : Except DecodeThrow α → Prop
  | .ok result => admits ∧ ¬ strays ∧ (faithful result ↔ whole)
  | .error (.decodeError _ _) => ¬ admits ∧ ¬ strays
  | .error (.typeError _) => ¬ admits ∧ strays

variable {admits strays whole admits' strays' whole' : Prop} {faithful : α → Prop}

theorem Outcome.congr {out : Except DecodeThrow α} (h : Outcome admits strays whole faithful out)
    (hadmits : admits ↔ admits') (hstrays : strays ↔ strays')
    (hwhole : admits → (whole ↔ whole')) : Outcome admits' strays' whole' faithful out := by
  cases out with
  | ok result =>
    obtain ⟨ha, hs, hw⟩ := h
    exact ⟨hadmits.mp ha, fun hstrays' => hs (hstrays.mpr hstrays'), hw.trans (hwhole ha)⟩
  | error e =>
    cases e with
    | decodeError path message =>
      exact ⟨fun ha => h.1 (hadmits.mpr ha), fun hs => h.2 (hstrays.mpr hs)⟩
    | typeError message => exact ⟨fun ha => h.1 (hadmits.mpr ha), hstrays.mp h.2⟩

theorem Outcome.alike {faithful' : α → Prop} {out : Except DecodeThrow α}
    (h : Outcome admits strays whole faithful out) (hadmits : admits' ↔ admits)
    (hstrays : strays' ↔ strays) (hwhole : whole' ↔ whole)
    (hfaithful : ∀ result, faithful' result ↔ faithful result) :
    Outcome admits' strays' whole' faithful' out := by
  rw [hadmits, hstrays, hwhole, funext fun result => propext (hfaithful result)]
  exact h

/-- A value that does not have what is asked for. -/
theorem outcome_orThrow {o : Option β} {path : Units} {message : String}
    {f : β → Except DecodeThrow α} (hadmits : admits → o ≠ none) (hstrays : strays → o ≠ none)
    (hf : ∀ b, o = some b → Outcome admits strays whole faithful (f b)) :
    Outcome admits strays whole faithful (orThrow o (.decodeError path message) >>= f) := by
  cases o with
  | none => exact ⟨fun ha => hadmits ha rfl, fun hs => hstrays hs rfl⟩
  | some b => exact hf b rfl

theorem outcome_guard {p : Prop} [Decidable p] {path : Units} {message : String}
    {f : Unit → Except DecodeThrow α} (hadmits : admits → p) (hstrays : strays → p)
    (hf : p → Outcome admits strays whole faithful (f ())) :
    Outcome admits strays whole faithful
      (guardThat p (.decodeError path message) >>= f) := by
  by_cases hp : p
  · rw [guardThat_of hp]
    exact hf hp
  · rw [guardThat_of_not hp]
    exact ⟨fun ha => hp (hadmits ha), fun hs => hp (hstrays hs)⟩

theorem outcome_map {out : Except DecodeThrow α} {f : α → β} {faithful : β → Prop}
    (h : Outcome admits strays whole (fun a => faithful (f a)) out) :
    Outcome admits strays whole faithful (f <$> out) := by
  cases out with
  | ok result => exact h
  | error e => cases e <;> exact h

/-- The value is taken as it is. -/
theorem outcome_return {result : α} (hadmits : admits) (hfaithful : faithful result) :
    Outcome admits False True faithful (.ok result) :=
  ⟨hadmits, not_false, fun _ => trivial, fun _ => hfaithful⟩

end Outcomes

/-! ## Leaves -/

section Leaves

variable {value : JsonValue} {path : Units}

theorem outcome_text (options : TextOptions) :
    Outcome (∃ string, stringUnits? value = some string ∧ options.Allows string) False True
      (fun result => stringUnits? value = some result ∧ options.Allows result)
      (text options value path) := by
  unfold text
  refine outcome_orThrow ?_ (fun h => h.elim) ?_
  · rintro ⟨string, hstring, -⟩
    simp [hstring]
  intro string hstring
  have hallows : (∃ s, stringUnits? value = some s ∧ options.Allows s) →
      options.Allows string := by
    rintro ⟨s, hs, hallows⟩
    rw [hstring] at hs
    cases hs
    exact hallows
  refine outcome_guard (fun h => (hallows h).1) (fun h => h.elim) ?_
  intro hmin
  refine outcome_guard (fun h => (hallows h).2.1) (fun h => h.elim) ?_
  intro hmax
  refine outcome_guard (fun h => (hallows h).2.2.1) (fun h => h.elim) ?_
  intro hcontrol
  refine outcome_guard (fun h => (hallows h).2.2.2) (fun h => h.elim) ?_
  intro hpattern
  have hstringAllowed : options.Allows string := ⟨hmin, hmax, hcontrol, hpattern⟩
  exact outcome_return ⟨string, hstring, hstringAllowed⟩ ⟨hstring, hstringAllowed⟩

theorem outcome_booleanField :
    Outcome (∃ b, value = .literal (.bool b)) False True
      (fun result => value = .literal (.bool result)) (booleanField value path) := by
  have hother : (∀ b, value ≠ .literal (.bool b)) → booleanField value path =
      fail path "must be a boolean" := by
    intro hne
    unfold booleanField
    split
    · exact absurd rfl (hne _)
    · rfl
  by_cases hbool : ∃ b, value = .literal (.bool b)
  · obtain ⟨b, rfl⟩ := hbool
    exact outcome_return ⟨b, rfl⟩ rfl
  · rw [hother fun b hb => hbool ⟨b, hb⟩]
    exact ⟨hbool, not_false⟩

theorem outcome_integerField (options : IntegerOptions) :
    Outcome (∃ number, number? value = some (some number) ∧ options.Allows number) False True
      (fun result => ∃ number, number? value = some (some number) ∧ options.Allows number ∧
        result = number.num) (integerField options value path) := by
  unfold integerField numberField
  rw [bind_assoc]
  refine outcome_orThrow ?_ (fun h => h.elim) ?_
  · rintro ⟨number, hnumber, -⟩
    simp [hnumber]
  intro o ho
  refine outcome_orThrow ?_ (fun h => h.elim) ?_
  · rintro ⟨number, hnumber, -⟩
    rw [ho] at hnumber
    cases hnumber
    simp
  rintro number rfl
  have hallows : (∃ n, number? value = some (some n) ∧ options.Allows n) →
      options.Allows number := by
    rintro ⟨n, hn, hallows⟩
    rw [ho] at hn
    cases hn
    exact hallows
  refine outcome_guard (fun h => (hallows h).1) (fun h => h.elim) ?_
  intro hsafe
  refine outcome_guard (fun h => (hallows h).2.1) (fun h => h.elim) ?_
  intro hmin
  refine outcome_guard (fun h => (hallows h).2.2) (fun h => h.elim) ?_
  intro hmax
  have hnumberAllowed : options.Allows number := ⟨hsafe, hmin, hmax⟩
  exact outcome_return ⟨number, ho, hnumberAllowed⟩ ⟨number, ho, hnumberAllowed, rfl⟩

theorem outcome_oneOf (values : List Units) (label : String) :
    Outcome (∃ string, stringUnits? value = some string ∧ string ∈ values) False True
      (fun result => stringUnits? value = some result ∧ result ∈ values)
      (oneOf values label value path) := by
  unfold oneOf
  refine outcome_orThrow ?_ (fun h => h.elim) ?_
  · rintro ⟨string, hstring, -⟩
    simp [hstring]
  intro string hstring
  refine outcome_guard ?_ (fun h => h.elim) ?_
  · rintro ⟨s, hs, hmem⟩
    rw [hstring] at hs
    cases hs
    exact hmem
  intro hmem
  exact outcome_return ⟨string, hstring, hmem⟩ ⟨hstring, hmem⟩

theorem outcome_canonicalDecimal (options : DecimalOptions) :
    Outcome (∃ string, stringUnits? value = some string ∧ options.Allows string) False True
      (fun result => ∃ string, stringUnits? value = some string ∧ options.Allows string ∧
        result = decimalUnits string) (canonicalDecimal options value path) := by
  unfold canonicalDecimal
  have htext := @outcome_text value path
    { max := maxCanonicalDecimalDigits, label := options.label }
  generalize text { max := maxCanonicalDecimalDigits, label := options.label } value path = out
    at htext ⊢
  cases out with
  | error e =>
    cases e with
    | typeError message => exact htext.2.elim
    | decodeError path message =>
      refine ⟨?_, not_false⟩
      rintro ⟨string, hstring, hallows⟩
      exact htext.1 ⟨string, hstring, hallows.1⟩
  | ok string =>
    obtain ⟨hstring, htextAllows⟩ := htext.2.2.mpr trivial
    have hallows : (∃ s, stringUnits? value = some s ∧ options.Allows s) →
        options.Allows string := by
      rintro ⟨s, hs, hallows⟩
      rw [hstring] at hs
      cases hs
      exact hallows
    refine outcome_guard (fun h => (hallows h).2.1) (fun h => h.elim) ?_
    intro hdecimal
    refine outcome_guard (fun h => (hallows h).2.2) (fun h => h.elim) ?_
    intro hpositive
    have hstringAllowed : options.Allows string := ⟨htextAllows, hdecimal, hpositive⟩
    exact outcome_return ⟨string, hstring, hstringAllowed⟩ ⟨string, hstring, hstringAllowed, rfl⟩

end Leaves

/-! ## Arrays -/

section Arrays

variable {α : Type} {admits strays whole : JsonValue → Prop} {faithful : JsonValue → α → Prop}
  {item : Decoder α}

/-- The entries in order: the first that is not admitted decides. -/
theorem outcome_decodeItems
    (hitem : ∀ value path, Outcome (admits value) (strays value) (whole value) (faithful value)
      (item value path)) (path : Units) (index : Nat) (elements : List JsonValue) :
    Outcome (∀ entry ∈ elements, admits entry) (StraysIn admits strays elements)
      (∀ entry ∈ elements, whole entry) (fun items => List.Forall₂ faithful elements items)
      (decodeItems item path index elements) := by
  induction elements generalizing index with
  | nil => exact ⟨by simp, not_straysIn_nil, by simp⟩
  | cons entry rest ih =>
    rw [decodeItems, straysIn_cons]
    have hentry := hitem entry (indexPath path index)
    generalize item entry (indexPath path index) = out at hentry ⊢
    cases out with
    | error e =>
      cases e with
      | typeError message =>
        exact ⟨fun hall => hentry.1 (hall entry List.mem_cons_self), Or.inl hentry.2⟩
      | decodeError p message =>
        refine ⟨fun hall => hentry.1 (hall entry List.mem_cons_self), ?_⟩
        rintro (hstrays | ⟨hadmits, -⟩)
        · exact hentry.2 hstrays
        · exact hentry.1 hadmits
    | ok decoded =>
      obtain ⟨hadmits, hnot, hwhole⟩ := hentry
      have hrest : Outcome (∀ x ∈ rest, admits x) (StraysIn admits strays rest)
          (whole entry ∧ ∀ x ∈ rest, whole x)
          (fun items => List.Forall₂ faithful (entry :: rest) items)
          (decodeItems item path (index + 1) rest >>= fun others => .ok (decoded :: others)) := by
        have hothers := ih (index + 1)
        generalize decodeItems item path (index + 1) rest = out at hothers ⊢
        cases out with
        | error e => cases e <;> exact hothers
        | ok others =>
          obtain ⟨hadmitsRest, hnotRest, hwholeRest⟩ := hothers
          refine ⟨hadmitsRest, hnotRest, ?_⟩
          dsimp only at hwholeRest ⊢
          rw [List.forall₂_cons, hwhole, hwholeRest]
      exact hrest.congr (by simp [hadmits]) (by simp [hnot, hadmits]) (by simp)

end Arrays

/-! ## Objects -/

theorem exists_ownValue {entries : List (Units × JsonValue)} {key : Units}
    (h : key ∈ entries.map Prod.fst) : ∃ member, ownValue entries key = some member := by
  have hkey : key ∈ entries.reverse.map Prod.fst := by
    rw [List.map_reverse, List.mem_reverse]
    exact h
  unfold ownValue
  generalize entries.reverse = list at hkey ⊢
  induction list with
  | nil => simp at hkey
  | cons entry rest ih =>
    obtain ⟨name, member⟩ := entry
    by_cases hname : key = name
    · exact ⟨member, by simp [hname]⟩
    · have hrest : key ∈ rest.map Prod.fst := by simpa [hname] using hkey
      obtain ⟨other, hother⟩ := ih hrest
      refine ⟨other, ?_⟩
      rw [List.lookup_cons, beq_eq_false_iff_ne.mpr hname]
      exact hother

section Objects

variable {α : Type} {admits strays whole : Units → JsonValue → Prop}
  {faithful : Units → JsonValue → α → Prop} {shape : Shape α}
  {entries : List (Units × JsonValue)}

/-- What the shape finds under a key does with a member. -/
def SpecOutcome (admits strays whole : Units → JsonValue → Prop)
    (faithful : Units → JsonValue → α → Prop) (shape : Shape α) (key : Units)
    (member : JsonValue) : Prop :=
  match property (shape.lookup key) key with
  | .own spec => ∀ path, Outcome (admits key member) (strays key member) (whole key member)
    (faithful key member) (spec.decode member path)
  | .inherited => ¬ admits key member ∧ strays key member
  | .absent => ¬ admits key member ∧ ¬ strays key member

/-- What the loop over the keys adds to the output. -/
structure FieldsOf (entries : List (Units × JsonValue)) (whole : Units → JsonValue → Prop)
    (faithful : Units → JsonValue → α → Prop) (keys : List Units) (fields : List (Units × α)) :
    Prop where
  names : fields.map Prod.fst = keys.filter fun key => !decide (key = protoName)
  decoded : ∀ f ∈ fields, ∃ member, ownValue entries f.1 = some member ∧
    (faithful f.1 member f.2 ↔ whole f.1 member)

theorem outcome_decodeKeys
    (hspec : ∀ key member, SpecOutcome admits strays whole faithful shape key member)
    (path : Units) (keys : List Units)
    (hkeys : ∀ key ∈ keys, ∃ member, ownValue entries key = some member)
    (output : List (Units × α)) :
    Outcome (∀ key ∈ keys, ∀ member, ownValue entries key = some member → admits key member)
      (StraysIn (fun key => ∀ member, ownValue entries key = some member → admits key member)
        (fun key => ∃ member, ownValue entries key = some member ∧ strays key member) keys)
      True (fun result => ∃ fields, result = output ++ fields ∧
        FieldsOf entries whole faithful keys fields)
      (decodeKeys shape entries path keys output) := by
  induction keys generalizing output with
  | nil =>
    refine ⟨by simp, not_straysIn_nil, fun _ => trivial, fun _ => ?_⟩
    exact ⟨[], by simp, by simp, by simp⟩
  | cons key rest ih =>
    obtain ⟨member, hmember⟩ := hkeys key List.mem_cons_self
    have hadmitsKey : (∀ m, ownValue entries key = some m → admits key m) ↔ admits key member := by
      simp [hmember]
    have hstraysKey : (∃ m, ownValue entries key = some m ∧ strays key m) ↔
        strays key member := by
      simp [hmember]
    have hadmitsAll : (∀ k ∈ key :: rest, ∀ m, ownValue entries k = some m → admits k m) ↔
        admits key member ∧ ∀ k ∈ rest, ∀ m, ownValue entries k = some m → admits k m := by
      rw [List.forall_mem_cons, hadmitsKey]
    rw [hadmitsAll, straysIn_cons, hadmitsKey, hstraysKey, decodeKeys]
    have hkey := hspec key member
    unfold SpecOutcome at hkey
    generalize property (shape.lookup key) key = found at hkey ⊢
    cases found with
    | absent =>
      refine ⟨fun h => hkey.1 h.1, ?_⟩
      rintro (hstrays | ⟨hadmits, -⟩)
      · exact hkey.2 hstrays
      · exact hkey.1 hadmits
    | inherited => exact ⟨fun h => hkey.1 h.1, Or.inl hkey.2⟩
    | own spec =>
      rw [hmember]
      have hout := hkey (childPath path key)
      dsimp only
      generalize spec.decode member (childPath path key) = out at hout ⊢
      cases out with
      | error e =>
        cases e with
        | typeError message => exact ⟨fun h => hout.1 h.1, Or.inl hout.2⟩
        | decodeError p message =>
          refine ⟨fun h => hout.1 h.1, ?_⟩
          rintro (hstrays | ⟨hadmits, -⟩)
          · exact hout.2 hstrays
          · exact hout.1 hadmits
      | ok decoded =>
        obtain ⟨hadmits, hnot, hwhole⟩ := hout
        have hrest := ih (fun k hk => hkeys k (List.mem_cons_of_mem key hk))
          (setProperty output key decoded)
        show Outcome _ _ _ _ (decodeKeys shape entries path rest (setProperty output key decoded))
        generalize decodeKeys shape entries path rest (setProperty output key decoded) = out
          at hrest ⊢
        cases out with
        | error e =>
          cases e with
          | typeError message => exact ⟨fun h => hrest.1 h.2, Or.inr ⟨hadmits, hrest.2⟩⟩
          | decodeError p message =>
            refine ⟨fun h => hrest.1 h.2, ?_⟩
            rintro (hstrays | ⟨-, hstrays⟩)
            · exact hnot hstrays
            · exact hrest.2 hstrays
        | ok result =>
          obtain ⟨hadmitsRest, hnotRest, hfields⟩ := hrest
          refine ⟨⟨hadmits, hadmitsRest⟩, ?_, fun _ => trivial, fun _ => ?_⟩
          · rintro (hstrays | ⟨-, hstrays⟩)
            · exact hnot hstrays
            · exact hnotRest hstrays
          · obtain ⟨fields, rfl, hof⟩ := hfields.mpr trivial
            unfold setProperty
            by_cases hproto : key = protoName
            · refine ⟨fields, by rw [if_pos hproto], ?_, hof.decoded⟩
              rw [hof.names, List.filter_cons_of_neg (by simp [hproto])]
            · refine ⟨(key, decoded) :: fields, by rw [if_neg hproto]; simp, ?_, ?_⟩
              · rw [List.filter_cons_of_pos (by simp [hproto]), List.map_cons, hof.names]
              · intro f hf
                rcases List.mem_cons.mp hf with rfl | hf
                · exact ⟨member, hmember, hwhole⟩
                · exact hof.decoded f hf

/-- The loop over the keys of the shape finds the keys that are required. -/
theorem requireKeys_cases (path : Units) (keys : List Units) :
    (requireKeys shape entries path keys = .ok () ∧
      ∀ key ∈ keys, Requires shape key →
        key ∈ entries.map Prod.fst ∨ key ∈ objectPrototypeNames) ∨
    ((∃ p message, requireKeys shape entries path keys = .error (.decodeError p message)) ∧
      ∃ key ∈ keys, Requires shape key ∧
        ¬ (key ∈ entries.map Prod.fst ∨ key ∈ objectPrototypeNames)) := by
  induction keys with
  | nil => exact Or.inl ⟨rfl, by simp⟩
  | cons key rest ih =>
    rw [requireKeys]
    have hnext : (Requires shape key → key ∈ entries.map Prod.fst ∨ key ∈ objectPrototypeNames) →
        (requireKeys shape entries path rest = .ok () ∧
          ∀ k ∈ key :: rest, Requires shape k →
            k ∈ entries.map Prod.fst ∨ k ∈ objectPrototypeNames) ∨
        ((∃ p message, requireKeys shape entries path rest = .error (.decodeError p message)) ∧
          ∃ k ∈ key :: rest, Requires shape k ∧
            ¬ (k ∈ entries.map Prod.fst ∨ k ∈ objectPrototypeNames)) := by
      intro hkey
      rcases ih with ⟨hok, hall⟩ | ⟨herror, k, hk, hlacks⟩
      · exact Or.inl ⟨hok, List.forall_mem_cons.mpr ⟨hkey, hall⟩⟩
      · exact Or.inr ⟨herror, k, List.mem_cons_of_mem key hk, hlacks⟩
    by_cases hoptional : (shape.lookup key).all FieldSpec.optional = true
    · rw [if_pos hoptional]
      refine hnext fun hrequires => ?_
      unfold Requires at hrequires
      cases hlookup : shape.lookup key <;> simp_all
    · rw [if_neg hoptional]
      by_cases hhas : key ∈ entries.map Prod.fst ∨ key ∈ objectPrototypeNames
      · rw [if_pos hhas]
        exact hnext fun _ => hhas
      · rw [if_neg hhas]
        refine Or.inr ⟨⟨_, _, rfl⟩, key, List.mem_cons_self, ?_, hhas⟩
        unfold Requires
        cases hlookup : shape.lookup key <;> simp_all

theorem mem_of_requires {key : Units} (h : Requires shape key) : key ∈ shape.map Prod.fst := by
  unfold Requires at h
  cases hlookup : shape.lookup key with
  | none => simp [hlookup] at h
  | some spec =>
    obtain ⟨before, after, hshape, -⟩ := List.lookup_eq_some_iff.mp hlookup
    rw [hshape]
    simp

/-- An object is admitted with its members, and its result is the fields of its members. -/
theorem outcome_object
    (hspec : ∀ key member, SpecOutcome admits strays whole faithful shape key member)
    (hadmits : ∀ key member, admits key member → key ∈ shape.map Prod.fst)
    (label : String) (value : JsonValue) (path : Units) :
    Outcome
      (∃ entries, objectEntries? value = some entries ∧
        (∀ key ∈ ownKeys (entries.map Prod.fst), ∀ member, ownValue entries key = some member →
          admits key member) ∧
        ∀ key, Requires shape key → key ∈ entries.map Prod.fst ∨ key ∈ objectPrototypeNames)
      (∃ entries, objectEntries? value = some entries ∧
        StraysIn (fun key => ∀ member, ownValue entries key = some member → admits key member)
          (fun key => ∃ member, ownValue entries key = some member ∧ strays key member)
          (ownKeys (entries.map Prod.fst)))
      (∀ entries, objectEntries? value = some entries →
        (∀ key, Requires shape key → key ∈ objectPrototypeNames → key ∈ entries.map Prod.fst) ∧
        protoName ∉ entries.map Prod.fst ∧
        ∀ key ∈ ownKeys (entries.map Prod.fst), ∀ member, ownValue entries key = some member →
          whole key member)
      (fun fields => ∃ entries, objectEntries? value = some entries ∧
        (∀ key ∈ entries.map Prod.fst, key ∈ shape.map Prod.fst) ∧
        (∀ key, Requires shape key → key ∈ entries.map Prod.fst) ∧
        fields.map Prod.fst = ownKeys (entries.map Prod.fst) ∧
        ∀ f ∈ fields, ∃ member, ownValue entries f.1 = some member ∧ faithful f.1 member f.2)
      (object shape label value path) := by
  unfold object
  refine outcome_orThrow ?_ ?_ ?_
  · rintro ⟨entries, hentries, -⟩
    simp [hentries]
  · rintro ⟨entries, hentries, -⟩
    simp [hentries]
  intro entries hentries
  rw [hentries]
  simp only [Option.some.injEq, exists_eq_left', forall_eq']
  have hkeys : ∀ key ∈ ownKeys (entries.map Prod.fst),
      ∃ member, ownValue entries key = some member :=
    fun key hkey => exists_ownValue (mem_ownKeys.mp hkey)
  have hloop := outcome_decodeKeys hspec path (ownKeys (entries.map Prod.fst)) hkeys []
  generalize decodeKeys shape entries path (ownKeys (entries.map Prod.fst)) [] = out at hloop ⊢
  cases out with
  | error e =>
    cases e with
    | typeError message => exact ⟨fun h => hloop.1 h.1, hloop.2⟩
    | decodeError p message => exact ⟨fun h => hloop.1 h.1, hloop.2⟩
  | ok output =>
    obtain ⟨hall, hnot, hresult⟩ := hloop
    obtain ⟨fields, hfieldsEq, hfields⟩ := hresult.mpr trivial
    obtain rfl : output = fields := hfieldsEq
    show Outcome _ _ _ _ (requireKeys shape entries path (ownKeys (shape.map Prod.fst)) >>=
      fun _ => .ok output)
    rcases @requireKeys_cases α shape entries path
      (ownKeys (shape.map Prod.fst)) with ⟨hok, hrequired⟩ | ⟨⟨p, message, herror⟩, key, -, hlacks⟩
    · rw [hok]
      have hpresent : ∀ key, Requires shape key →
          key ∈ entries.map Prod.fst ∨ key ∈ objectPrototypeNames :=
        fun key hkey => hrequired key (mem_ownKeys.mpr (mem_of_requires hkey)) hkey
      refine ⟨⟨hall, hpresent⟩, hnot, ?_, ?_⟩
      · rintro ⟨-, hown, hnames, hfaithful⟩
        have hproto : protoName ∉ entries.map Prod.fst := by
          intro hmem
          have hfiltered : protoName ∈ output.map Prod.fst := by
            rw [hnames]
            exact mem_ownKeys.mpr hmem
          rw [hfields.names] at hfiltered
          simp at hfiltered
        refine ⟨fun key hkey _ => hown key hkey, hproto, ?_⟩
        intro key hkey member hmember
        rw [← hnames] at hkey
        obtain ⟨f, hf, rfl⟩ := List.mem_map.mp hkey
        obtain ⟨m, hm, hiff⟩ := hfields.decoded f hf
        obtain ⟨m', hm', hfaithful⟩ := hfaithful f hf
        rw [hm] at hm' hmember
        cases hm'
        cases hmember
        exact hiff.mp hfaithful
      · rintro ⟨hinherited, hproto, hwhole⟩
        have hnames : output.map Prod.fst = ownKeys (entries.map Prod.fst) := by
          rw [hfields.names, List.filter_eq_self]
          intro key hkey
          have hne : key ≠ protoName := by
            rintro rfl
            exact hproto (mem_ownKeys.mp hkey)
          simp [hne]
        refine ⟨?_, ?_, hnames, ?_⟩
        · intro key hkey
          obtain ⟨member, hmember⟩ := exists_ownValue hkey
          exact hadmits key member (hall key (mem_ownKeys.mpr hkey) member hmember)
        · intro key hkey
          rcases hpresent key hkey with h | h
          · exact h
          · exact hinherited key hkey h
        · intro f hf
          obtain ⟨member, hmember, hiff⟩ := hfields.decoded f hf
          refine ⟨member, hmember, hiff.mpr (hwhole f.1 ?_ member hmember)⟩
          rw [← hnames]
          exact List.mem_map_of_mem hf
    · rw [herror]
      exact ⟨fun h => hlacks.2 (h.2 key hlacks.1), hnot⟩

end Objects

/-! ## Decoders -/

theorem ShapeExpr.mem_of_admits : ∀ (shape : ShapeExpr) {key : Units} {value : JsonValue},
    shape.Admits key value → key ∈ shape.shape.map Prod.fst
  | .nil, _, _, h => h.elim
  | .cons name _ _ rest, key, value, h => by
    rw [ShapeExpr.shape, List.map_cons, List.mem_cons]
    by_cases hname : key = name
    · exact Or.inl hname
    · rw [ShapeExpr.Admits, if_neg hname] at h
      exact Or.inr (rest.mem_of_admits h)

mutual

/-- What a decoder does with a value. -/
theorem outcome_decoder : ∀ (d : DecoderExpr) (value : JsonValue) (path : Units),
    Outcome (d.Admits value) (d.Strays value) (d.Whole value) (d.Faithful value)
      (d.decoder value path)
  | .text options, value, path => by
    rw [DecoderExpr.decoder]
    refine outcome_map ((outcome_text options).alike ?_ ?_ ?_ ?_) <;>
      simp [DecoderExpr.Admits, DecoderExpr.Strays, DecoderExpr.Whole, DecoderExpr.Faithful]
  | .boolean, value, path => by
    rw [DecoderExpr.decoder]
    refine outcome_map (outcome_booleanField.alike ?_ ?_ ?_ ?_) <;>
      simp [DecoderExpr.Admits, DecoderExpr.Strays, DecoderExpr.Whole, DecoderExpr.Faithful]
  | .integer options, value, path => by
    rw [DecoderExpr.decoder]
    refine outcome_map ((outcome_integerField options).alike ?_ ?_ ?_ ?_) <;>
      simp [DecoderExpr.Admits, DecoderExpr.Strays, DecoderExpr.Whole, DecoderExpr.Faithful]
  | .oneOf values label, value, path => by
    rw [DecoderExpr.decoder]
    refine outcome_map ((outcome_oneOf values label).alike ?_ ?_ ?_ ?_) <;>
      simp [DecoderExpr.Admits, DecoderExpr.Strays, DecoderExpr.Whole, DecoderExpr.Faithful]
  | .canonicalDecimal options, value, path => by
    rw [DecoderExpr.decoder]
    refine outcome_map ((outcome_canonicalDecimal options).alike ?_ ?_ ?_ ?_) <;>
      simp [DecoderExpr.Admits, DecoderExpr.Strays, DecoderExpr.Whole, DecoderExpr.Faithful]
  | .nullable inner, value, path => by
    rw [DecoderExpr.decoder, DecoderExpr.Admits, DecoderExpr.Strays, DecoderExpr.Whole]
    unfold nullableField
    dsimp only
    by_cases hnull : isNull (some value) = true
    · rw [if_pos hnull]
      refine ⟨Or.inl hnull, ?_, ?_⟩
      · rintro ⟨hnot, -⟩
        rw [hnull] at hnot
        cases hnot
      · rw [DecoderExpr.Faithful]
        exact ⟨fun _ => Or.inl hnull, fun _ => Or.inl ⟨hnull, rfl⟩⟩
    · rw [if_neg hnull]
      have hinner := outcome_decoder inner value path
      generalize inner.decoder value path = out at hinner ⊢
      cases out with
      | error e => cases e <;> simpa [Outcome, hnull] using hinner
      | ok result =>
        have hfaithful : (DecoderExpr.nullable inner).Faithful value result ↔
            inner.Faithful value result := by
          rw [DecoderExpr.Faithful]
          simp [hnull]
        refine ⟨Or.inr hinner.1, fun h => hinner.2.1 h.2, ?_⟩
        show (DecoderExpr.nullable inner).Faithful value result ↔ _
        rw [hfaithful, hinner.2.2]
        simp [hnull]
  | .array item options, value, path => by
    rw [DecoderExpr.decoder]
    refine outcome_map ?_
    unfold arrayOf
    refine outcome_orThrow ?_ ?_ ?_
    · rw [DecoderExpr.Admits]
      rintro ⟨elements, helements, -⟩
      simp [helements]
    · rw [DecoderExpr.Strays]
      rintro ⟨elements, helements, -⟩
      simp [helements]
    intro elements helements
    refine outcome_guard ?_ ?_ ?_
    · rw [DecoderExpr.Admits, helements]
      rintro ⟨_, heq, hallows, -⟩
      cases heq
      exact hallows
    · rw [DecoderExpr.Strays, helements]
      rintro ⟨_, heq, hallows, -⟩
      cases heq
      exact hallows
    intro hallows
    have hlength : options.Allows elements := hallows
    refine (outcome_decodeItems (outcome_decoder item) path 0 elements).alike ?_ ?_ ?_ ?_
    · rw [DecoderExpr.Admits]
      simp [helements, hlength]
    · rw [DecoderExpr.Strays]
      simp [helements, hlength]
    · rw [DecoderExpr.Whole]
      simp [helements]
    · intro items
      rw [DecoderExpr.Faithful]
      simp [helements, hlength]
  | .object shape label, value, path => by
    rw [DecoderExpr.decoder]
    refine outcome_map ((outcome_object (outcome_shape shape)
      (fun _ _ => shape.mem_of_admits) label value path).alike ?_ ?_ ?_ ?_)
    · rw [DecoderExpr.Admits]
    · rw [DecoderExpr.Strays]
    · rw [DecoderExpr.Whole]
    · intro fields
      rw [DecoderExpr.Faithful]
      simp

theorem outcome_shape : ∀ (shape : ShapeExpr) (key : Units) (member : JsonValue),
    SpecOutcome shape.Admits shape.Strays shape.Whole shape.Faithful shape.shape key member
  | .nil, key, member => by
    unfold SpecOutcome
    rw [ShapeExpr.shape, List.lookup_nil, property]
    by_cases hname : key ∈ objectPrototypeNames
    · rw [if_pos hname]
      simp [ShapeExpr.Admits, ShapeExpr.Strays, hname]
    · rw [if_neg hname]
      simp [ShapeExpr.Admits, ShapeExpr.Strays, hname]
  | .cons name isOptional decoder rest, key, member => by
    by_cases hname : key = name
    · have hlookup : (ShapeExpr.cons name isOptional decoder rest).shape.lookup key =
          some (if isOptional then optional decoder.decoder else field decoder.decoder) := by
        rw [ShapeExpr.shape, hname, List.lookup_cons_self]
      have hdecode : (if isOptional then optional decoder.decoder
          else field decoder.decoder).decode = decoder.decoder := by
        cases isOptional <;> rfl
      unfold SpecOutcome
      rw [hlookup, property]
      intro path
      rw [hdecode]
      refine (outcome_decoder decoder member path).alike ?_ ?_ ?_ ?_
      · rw [ShapeExpr.Admits, if_pos hname]
      · rw [ShapeExpr.Strays, if_pos hname]
      · rw [ShapeExpr.Whole, if_pos hname]
      · intro result
        rw [ShapeExpr.Faithful, if_pos hname]
    · have hlookup : (ShapeExpr.cons name isOptional decoder rest).shape.lookup key =
          rest.shape.lookup key := by
        rw [ShapeExpr.shape, List.lookup_cons, beq_eq_false_iff_ne.mpr hname]
      have hrest := outcome_shape rest key member
      unfold SpecOutcome at hrest ⊢
      rw [hlookup]
      have hadmits : (ShapeExpr.cons name isOptional decoder rest).Admits key member =
          rest.Admits key member := by
        rw [ShapeExpr.Admits, if_neg hname]
      have hstrays : (ShapeExpr.cons name isOptional decoder rest).Strays key member =
          rest.Strays key member := by
        rw [ShapeExpr.Strays, if_neg hname]
      have hwhole : (ShapeExpr.cons name isOptional decoder rest).Whole key member =
          rest.Whole key member := by
        rw [ShapeExpr.Whole, if_neg hname]
      have hfaithful : (ShapeExpr.cons name isOptional decoder rest).Faithful key member =
          rest.Faithful key member := by
        funext result
        rw [ShapeExpr.Faithful, if_neg hname]
      rw [hadmits, hstrays, hwhole, hfaithful]
      exact hrest

end

/-- What is expected of a decoder: it returns or throws a `DecodeError`, and what it returns is
faithful. -/
def Strict (d : DecoderExpr) (value : JsonValue) (path : Units) : Prop :=
  (∀ e, d.decoder value path = .error e → ∃ p message, e = .decodeError p message) ∧
    ∀ result, d.decoder value path = .ok result → d.Faithful value result

/-- **Decoding is strict but for what JavaScript finds in `Object.prototype`.** -/
theorem strict_decoding (d : DecoderExpr) (value : JsonValue) (path : Units) :
    Strict d value path ↔ ¬ d.Strays value ∧ (d.Admits value → d.Whole value) := by
  have hout := outcome_decoder d value path
  unfold Strict
  generalize d.decoder value path = out at hout ⊢
  cases out with
  | ok result =>
    obtain ⟨hadmits, hstrays, hfaithful⟩ := hout
    constructor
    · rintro ⟨-, hresult⟩
      exact ⟨hstrays, fun _ => hfaithful.mp (hresult result rfl)⟩
    · rintro ⟨-, hwhole⟩
      refine ⟨?_, ?_⟩
      · intro e he
        cases he
      · intro r hr
        cases hr
        exact hfaithful.mpr (hwhole hadmits)
  | error e =>
    cases e with
    | decodeError p message =>
      refine ⟨fun _ => ⟨hout.2, fun hadmits => absurd hadmits hout.1⟩, fun _ => ⟨?_, ?_⟩⟩
      · intro e he
        cases he
        exact ⟨p, message, rfl⟩
      · intro r hr
        cases hr
    | typeError message =>
      constructor
      · rintro ⟨herror, -⟩
        obtain ⟨p, m, he⟩ := herror _ rfl
        cases he
      · rintro ⟨hstrays, -⟩
        exact absurd hout.2 hstrays

namespace Sample

/-- `object({}, "value")`. -/
def emptyShape : DecoderExpr := .object .nil "value"

/-- `{"toString":1}`. -/
def withToString : JsonValue := jsonObject [("toString", jsonNumber 1)]

end Sample

/-- What a run has thrown. -/
def thrown? {α : Type} : Except DecodeThrow α → Option DecodeThrow
  | .ok _ => none
  | .error e => some e

theorem thrown?_eq_some {α : Type} {out : Except DecodeThrow α} {e : DecodeThrow}
    (h : thrown? out = some e) : out = .error e := by
  cases out with
  | ok result => cases h
  | error e' =>
    cases h
    rfl

/-- A key that the shape does not have, and that is no error of the decoder. -/
theorem strict_decoding_toString :
    Sample.emptyShape.decoder Sample.withToString (utf16 "$") =
      .error (.typeError "spec.decode is not a function") ∧
    ¬ Strict Sample.emptyShape Sample.withToString (utf16 "$") := by
  have herror : Sample.emptyShape.decoder Sample.withToString (utf16 "$") =
      .error (.typeError "spec.decode is not a function") :=
    thrown?_eq_some (by decide +kernel)
  refine ⟨herror, ?_⟩
  rintro ⟨hdeclared, -⟩
  obtain ⟨p, m, he⟩ := hdeclared _ herror
  cases he

end DumpLedger.Decode
