import DumpLedger.Domain.RichReport
import DumpLedger.Lib.Keyset

/-!
# What an accepted rich report says

Every check of the schema keeps one property: the references that stand anywhere below the value
are identifiers of evidence entries (`Backs`). The rest is read off the loops, which carry the
identifiers and the indexes seen before, and off the chain of checks of a confirmed mechanism.

* `backs_document` — the references of an accepted document
* `movRegister_spec` — what the operand parser reads
* `rich_report_supported` — an accepted document has no dangling reference and no unsupported
  conclusion
-/

namespace DumpLedger.RichReport

open Lib JsValue

/-! ## What a document says -/

/-- Each list of references that stands somewhere in the value has identifiers of `ids` only. -/
def Backed (ids : List Units) (v : JsValue) : Prop :=
  ∀ members, Within (.object members) v →
    ∀ refs, own members (utf16 "evidenceRefs") = some (.array refs) →
      ∀ r ∈ refs, ∃ id ∈ ids, r = .string id

/-- `v[key₁][key₂]…` -/
def propAt (v : JsValue) : List String → Option JsValue
  | [] => some v
  | key :: rest => (prop v key).bind fun x => propAt x rest

/-- A module of this name that is matched: the same PDB was expected and loaded. -/
structure MatchedModule (module : JsValue) (name : Units) : Prop where
  name : textProp module "module" = some name
  quality : textProp module "quality" = some (utf16 "matched")
  pdb : ∃ expected loaded guid, ∃ age : Nat, prop module "expectedPdb" = some expected ∧
    prop module "loadedPdb" = some loaded ∧ textProp expected "guid" = some guid ∧
    textProp loaded "guid" = some guid ∧ prop expected "age" = some (.number (some age)) ∧
    prop loaded "age" = some (.number (some age))

/-- The hexadecimal number of a member. -/
def HexProp (v : JsValue) (key : String) (n : Nat) : Prop :=
  ∃ x, prop v key = some x ∧ address x = .ok n

/-- The instruction is a `mov` whose source operand is the memory that the register points to. -/
structure MovThrough (disassembly register : Units) : Prop where
  parts : ∃ space destination before inside after, isSpace space = true ∧
    toLowerCase disassembly = utf16 "mov" ++ space :: (destination ++ unitOf ',' ::
      (before ++ unitOf '[' :: (inside ++ unitOf ']' :: after))) ∧
    unitOf ',' ∉ destination ∧ unitOf '[' ∉ destination ∧ unitOf '[' ∉ before ∧
    unitOf ']' ∉ inside ∧ register = trim inside
  register : operandPattern register = true

/-- An access violation that a `mov` at the exception address has caused, reading through a
register that held the address of the access. -/
structure ConfirmedRead (exception context mechanism : JsValue) : Prop where
  violation : textProp exception "code" = some (utf16 "0xc0000005")
  source : textProp context "source" = some (utf16 "exception")
  read : ∃ access instruction registers register saved disassembly pc target,
    prop exception "access" = some access ∧ textProp access "operation" = some (utf16 "read") ∧
    prop context "faultInstruction" = some instruction ∧
    HexProp instruction "address" pc ∧ HexProp exception "address" pc ∧
    textProp instruction "disassembly" = some disassembly ∧ MovThrough disassembly register ∧
    prop context "registers" = some (.object registers) ∧ own registers register = some saved ∧
    address saved = .ok target ∧ HexProp access "address" target
  references : ∃ instruction, ∃ refs : List Units,
    prop context "faultInstruction" = some instruction ∧
    elementsProp mechanism "evidenceRefs" = refs.map .string ∧ refs.Pairwise (· < ·) ∧
    ∀ id, id ∈ refs ↔ .string id ∈ elementsProp exception "evidenceRefs" ∨
      .string id ∈ elementsProp context "evidenceRefs" ∨
      .string id ∈ elementsProp instruction "evidenceRefs"

/-- No reference dangles, and no conclusion is unsupported. -/
structure SupportedReport (doc : JsValue) : Prop where
  references : ∃ entries ids, propAt doc ["evidence"] = some (.array entries) ∧
    (entries.map fun e => textProp e "id") = ids.map some ∧ ids.Nodup ∧ Backed ids doc
  frames : ∃ frames, ∃ indexes : List Nat, propAt doc ["stack", "frames"] = some (.array frames) ∧
    (frames.map fun f => prop f "index") = indexes.map (fun n => some (.number (some (n : ℚ)))) ∧
    indexes.Nodup
  matched : ∀ frames, propAt doc ["stack", "frames"] = some (.array frames) →
    ∀ frame ∈ frames, textProp frame "resolution" = some (utf16 "matched") →
      ∃ modules, propAt doc ["symbols", "modules"] = some (.array modules) ∧
        ∃ module ∈ modules, ∃ name, textProp frame "module" = some name ∧
          MatchedModule module name
  confirmed : ∀ exception context mechanism, propAt doc ["exception"] = some exception →
    propAt doc ["context"] = some context →
    propAt doc ["rootCause", "mechanism"] = some mechanism →
    textProp mechanism "status" = some (utf16 "confirmed") →
      ConfirmedRead exception context mechanism

/-! ## Single values -/

section Values

variable {v : JsValue} {key : String}

theorem field_eq_ok {x : JsValue} : field v key = .ok x ↔ prop v key = some x := orThrow_eq_ok

theorem richText_eq_ok {max : Nat} {s : Units} :
    richText max v = .ok s ↔ v = .string s ∧ richUtf8Bytes s ≤ max ∧ 0 ∉ s := by
  unfold richText
  cases v with
  | string t =>
    simp only [bind_eq_ok, guardThat_eq_ok, pure_eq_ok, string.injEq]
    constructor
    · rintro ⟨_, hbounds, rfl⟩
      exact ⟨rfl, hbounds⟩
    · rintro ⟨rfl, hbounds⟩
      exact ⟨(), hbounds, rfl⟩
  | _ => simp

theorem textProp_eq_some {s : Units} :
    textProp v key = some s ↔ prop v key = some (.string s) := by
  unfold textProp
  cases prop v key with
  | none => simp
  | some x => cases x <;> simp

theorem textProp_of_richText {max : Nat} {x : JsValue} {s : Units} (hf : field v key = .ok x)
    (h : richText max x = .ok s) : textProp v key = some s := by
  rw [textProp_eq_some, field_eq_ok.mp hf, (richText_eq_ok.mp h).1]

theorem richEnum_eq_ok {options : List String} {s : Units} (h : richEnum options v = .ok s) :
    v = .string s := by
  unfold richEnum at h
  obtain ⟨t, ht, h⟩ := bind_eq_ok.mp h
  obtain ⟨_, -, h⟩ := bind_eq_ok.mp h
  rw [pure_eq_ok] at h
  rw [← h]
  exact (richText_eq_ok.mp ht).1

theorem richHex_eq_ok {s : Units} (h : richHex v = .ok s) : v = .string s := by
  unfold richHex at h
  obtain ⟨t, ht, h⟩ := bind_eq_ok.mp h
  obtain ⟨_, -, h⟩ := bind_eq_ok.mp h
  rw [pure_eq_ok] at h
  rw [← h]
  exact (richText_eq_ok.mp ht).1

theorem richUint_eq_ok {n : Nat} (h : richUint v = .ok n) : v = .number (some (n : ℚ)) := by
  unfold richUint at h
  split at h
  · next q =>
    split_ifs at h with hq
    cases h
    have hnum : ((q.num.toNat : Int) : ℚ) = q := by
      rw [Int.toNat_of_nonneg hq.2.1]
      exact Rat.coe_int_num_of_den_eq_one hq.1
    rw [show ((q.num.toNat : Nat) : ℚ) = q by exact_mod_cast hnum]
  · cases h

theorem richArray_eq_ok {max : Nat} {elements : List JsValue} (h : richArray max v = .ok elements) :
    v = .array elements := by
  unfold richArray at h
  split at h
  · obtain ⟨_, -, h⟩ := bind_eq_ok.mp h
    rw [pure_eq_ok] at h
    rw [h]
  · cases h

theorem each_eq_ok {check : JsValue → Except Thrown Unit} {vs : List JsValue} :
    each check vs = .ok () ↔ ∀ v ∈ vs, check v = .ok () := by
  induction vs with
  | nil => simp [each]
  | cons v vs ih => simp [each, ih, Unique.exists_iff]

theorem checked_eq_ok {α : Type} {check : JsValue → Except Thrown α} :
    checked check v = .ok () ↔ ∃ a, check v = .ok a := by
  simp [checked]

theorem eachField_eq_ok {keys : List String} {check : JsValue → Except Thrown Unit} :
    eachField v keys check = .ok () ↔ ∀ k ∈ keys, ∃ x, prop v k = some x ∧ check x = .ok () := by
  induction keys with
  | nil => simp [eachField]
  | cons k ks ih =>
    simp only [eachField, bind_eq_ok, ih, field_eq_ok, Unique.exists_iff, List.forall_mem_cons]
    constructor
    · rintro ⟨x, hx, hcheck, hrest⟩
      exact ⟨⟨x, hx, hcheck⟩, hrest⟩
    · rintro ⟨⟨x, hx, hcheck⟩, hrest⟩
      exact ⟨x, hx, hcheck, hrest⟩

/-- The members of an object are those that are asked for. -/
theorem richObject_eq_ok {keys : List String} {u : Unit} (h : richObject v keys = .ok u)
    (hkeys : keys.Nodup) : ∃ members, v = .object members ∧
      ∀ key x, own members key = some x → ∃ k ∈ keys, key = utf16 k := by
  unfold richObject at h
  cases v with
  | object members =>
    rw [guardThat_eq_ok] at h
    refine ⟨members, rfl, fun key x hx => ?_⟩
    have hnodup : (keys.map utf16).Nodup := hkeys.map fun _ _ he => utf16_injective he
    have hsubset : keys.map utf16 ⊆ ownKeys (members.map Prod.fst) := by
      intro name hname
      obtain ⟨k, hk, rfl⟩ := List.mem_map.mp hname
      exact mem_ownKeys.mpr (own_isSome.mp (h.2 k hk))
    have hperm : (keys.map utf16).Perm (ownKeys (members.map Prod.fst)) :=
      (List.subperm_of_subset hnodup hsubset).perm_of_length_le (by rw [h.1, List.length_map])
    have hown : key ∈ ownKeys (members.map Prod.fst) :=
      mem_ownKeys.mpr (own_isSome.mp (by rw [hx]; rfl))
    obtain ⟨k, hk, he⟩ := List.mem_map.mp (hperm.mem_iff.mpr hown)
    exact ⟨k, hk, he.symm⟩
  | _ => cases h

end Values

/-! ## References -/

section References

variable {ids : List Units} {v : JsValue} {α : Type}

theorem backed_leaf (hobject : ∀ members, v ≠ .object members)
    (harray : ∀ elements, v ≠ .array elements) : Backed ids v := by
  intro members hw
  cases hw with
  | self => exact absurd rfl (hobject members)
  | element => exact absurd rfl (harray _)
  | member => exact absurd rfl (hobject _)

theorem backed_array {elements : List JsValue} (h : ∀ v ∈ elements, Backed ids v) :
    Backed ids (.array elements) := by
  intro members hw
  cases hw with
  | element hv hw => exact h _ hv members hw

/-- The member is backed, when it is there. -/
def FieldBacked (ids : List Units) (v : JsValue) (key : String) : Prop :=
  ∀ x, prop v key = some x → Backed ids x

/-- The references of the object itself are identifiers. -/
def RefsBacked (ids : List Units) (v : JsValue) : Prop :=
  ∀ refs, prop v "evidenceRefs" = some (.array refs) → ∀ r ∈ refs, ∃ id ∈ ids, r = .string id

/-- **An object is backed when its members are.** -/
theorem backed_of_fields {keys : List String} {u : Unit} (hkeys : keys.Nodup)
    (hobject : richObject v keys = .ok u) (hfields : ∀ k ∈ keys, FieldBacked ids v k)
    (hrefs : RefsBacked ids v) : Backed ids v := by
  obtain ⟨members, rfl, hown⟩ := richObject_eq_ok hobject hkeys
  intro members' hw
  cases hw with
  | self => exact hrefs
  | member hv hw =>
    obtain ⟨k, hk, rfl⟩ := hown _ _ hv
    exact hfields k hk _ hv members' hw

/-- A check that accepts only values whose references are backed. -/
def Backs (ids : List Units) (check : JsValue → Except Thrown α) : Prop :=
  ∀ v a, check v = .ok a → Backed ids v

theorem FieldBacked.of_field {key : String} {x : JsValue} {check : JsValue → Except Thrown α}
    {a : α} (hc : Backs ids check) (hf : field v key = .ok x) (h : check x = .ok a) :
    FieldBacked ids v key := by
  intro y hy
  rw [field_eq_ok.mp hf, Option.some.injEq] at hy
  rw [← hy]
  exact hc x a h

theorem FieldBacked.of_each {keys : List String} {check : JsValue → Except Thrown Unit} {u : Unit}
    {key : String} (hc : Backs ids check) (h : eachField v keys check = .ok u) (hk : key ∈ keys) :
    FieldBacked ids v key := by
  intro y hy
  obtain ⟨x, hx, hcheck⟩ := eachField_eq_ok.mp h key hk
  rw [hx, Option.some.injEq] at hy
  rw [← hy]
  exact hc x () hcheck

/-- An object without the member has no references of its own. -/
theorem refsBacked_absent {keys : List String} {u : Unit} (hkeys : keys.Nodup)
    (hobject : richObject v keys = .ok u) (habsent : "evidenceRefs" ∉ keys) :
    RefsBacked ids v := by
  obtain ⟨members, rfl, hown⟩ := richObject_eq_ok hobject hkeys
  intro refs hrefs
  obtain ⟨k, hk, he⟩ := hown _ _ hrefs
  exact absurd (utf16_injective he ▸ hk) habsent

/-! ### Checks of single values -/

theorem backs_text {max : Nat} : Backs ids (richText max) := by
  intro v s h
  rw [(richText_eq_ok.mp h).1]
  exact backed_leaf (by simp) (by simp)

theorem backs_enum {options : List String} : Backs ids (richEnum options) := by
  intro v s h
  rw [richEnum_eq_ok h]
  exact backed_leaf (by simp) (by simp)

theorem backs_hex : Backs ids richHex := by
  intro v s h
  rw [richHex_eq_ok h]
  exact backed_leaf (by simp) (by simp)

theorem backs_uint : Backs ids richUint := by
  intro v n h
  rw [richUint_eq_ok h]
  exact backed_leaf (by simp) (by simp)

theorem backs_bool : Backs ids richBool := by
  intro v u h
  cases v with
  | boolean b => exact backed_leaf (by simp) (by simp)
  | _ => cases h

theorem backs_null : Backs ids checkNull := by
  intro v u h
  cases v with
  | null => exact backed_leaf (by simp) (by simp)
  | _ => cases h

theorem backs_pointerWidth : Backs ids checkPointerWidth := by
  intro v u h
  cases v with
  | number n => exact backed_leaf (by simp) (by simp)
  | _ => cases h

theorem backs_checked {check : JsValue → Except Thrown α} (hc : Backs ids check) :
    Backs ids (checked check) := by
  intro v u h
  obtain ⟨a, ha⟩ := checked_eq_ok.mp h
  exact hc v a ha

theorem backs_nullable {check : JsValue → Except Thrown Unit} (hc : Backs ids check) :
    Backs ids (richNullable check) := by
  intro v u h
  cases v with
  | null => exact backed_leaf (by simp) (by simp)
  | _ => exact hc _ u h

theorem backs_nullableHex : Backs ids nullableHex := backs_nullable (backs_checked backs_hex)

theorem backs_nullableText : Backs ids nullableText := backs_nullable (backs_checked backs_text)

/-- The elements of an array, each checked. -/
theorem backed_each {max : Nat} {elements : List JsValue} {check : JsValue → Except Thrown Unit}
    {u : Unit} (hc : Backs ids check) (ha : richArray max v = .ok elements)
    (h : each check elements = .ok u) : Backed ids v := by
  rw [richArray_eq_ok ha]
  exact backed_array fun x hx => hc x () (each_eq_ok.mp h x hx)

theorem backs_strings : Backs ids richStrings := by
  intro v u h
  obtain ⟨elements, ha, h⟩ := bind_eq_ok.mp h
  exact backed_each (backs_checked backs_text) ha h

theorem checkReference_eq_ok {u : Unit} (h : checkReference ids v = .ok u) :
    ∃ id ∈ ids, v = .string id := by
  cases v with
  | string id => exact ⟨id, guardThat_eq_ok.mp h, rfl⟩
  | _ => cases h

theorem backs_reference : Backs ids (checkReference ids) := by
  intro v u h
  obtain ⟨id, -, rfl⟩ := checkReference_eq_ok h
  exact backed_leaf (by simp) (by simp)

theorem backs_refs : Backs ids (checkRefs ids) := by
  intro v u h
  obtain ⟨elements, ha, h⟩ := bind_eq_ok.mp h
  exact backed_each backs_reference ha h

theorem checkRefs_eq_ok {refs : List JsValue} {u : Unit} (h : checkRefs ids (.array refs) = .ok u) :
    ∀ r ∈ refs, ∃ id ∈ ids, r = .string id := by
  obtain ⟨elements, ha, h⟩ := bind_eq_ok.mp h
  cases richArray_eq_ok ha
  exact fun r hr => checkReference_eq_ok (each_eq_ok.mp h r hr)

theorem refsBacked_of {x : JsValue} {u : Unit} (hf : field v "evidenceRefs" = .ok x)
    (h : checkRefs ids x = .ok u) : RefsBacked ids v := by
  intro refs hrefs
  rw [field_eq_ok.mp hf, Option.some.injEq] at hrefs
  rw [hrefs] at h
  exact checkRefs_eq_ok h

/-! ### Checks of objects -/

/-- Each member of the object is accounted for. -/
theorem backs_identity : Backs ids checkIdentity := by
  intro v u h
  simp only [checkIdentity, bind_eq_ok] at h
  obtain ⟨_, hobject, _, hnames, _, hsha, _, htext, -⟩ := h
  have hname : Backs ids
      (fun x => richText 256 x >>= fun s => guardThat (s ≠ []) invalidRich) := by
    intro x u hx
    obtain ⟨s, hs, -⟩ := bind_eq_ok.mp hx
    exact backs_text x s hs
  refine backed_of_fields (by simp) hobject ?_ (refsBacked_absent (by simp) hobject (by simp))
  simp only [List.forall_mem_cons, List.not_mem_nil, false_implies, implies_true, and_true]
  exact ⟨.of_each hname hnames (by simp), .of_field backs_text hsha htext,
    .of_each hname hnames (by simp), .of_each hname hnames (by simp),
    .of_each hname hnames (by simp)⟩

theorem backs_provenance : Backs ids checkProvenance := by
  intro v u h
  simp only [checkProvenance, bind_eq_ok] at h
  obtain ⟨_, hobject, _, htexts, _, hnullable, _, hwidth, hnumber⟩ := h
  have htext : Backs ids (checked (richText maxRichText)) := backs_checked backs_text
  refine backed_of_fields (by simp) hobject ?_ (refsBacked_absent (by simp) hobject (by simp))
  simp only [List.forall_mem_cons, List.not_mem_nil, false_implies, implies_true, and_true]
  exact ⟨.of_each htext htexts (by simp), .of_each backs_nullableText hnullable (by simp),
    .of_each backs_nullableText hnullable (by simp),
    .of_field (backs_nullable backs_pointerWidth) hwidth hnumber,
    .of_each backs_nullableText hnullable (by simp),
    .of_each backs_nullableText hnullable (by simp), .of_each htext htexts (by simp)⟩

theorem backs_evidenceEntry : Backs ids checkEvidenceEntry := by
  intro v id h
  simp only [checkEvidenceEntry, bind_eq_ok] at h
  obtain ⟨_, hobject, _, hid, _, hidText, _, htexts, _, hstatus, _, henum, _, htruncated, _, hbool,
    _, herror, _, hnullable, -⟩ := h
  have htext : Backs ids (checked (richText maxRichText)) := backs_checked backs_text
  refine backed_of_fields (by simp) hobject ?_ (refsBacked_absent (by simp) hobject (by simp))
  simp only [List.forall_mem_cons, List.not_mem_nil, false_implies, implies_true, and_true]
  exact ⟨.of_field backs_text hid hidText, .of_each htext htexts (by simp),
    .of_field backs_enum hstatus henum, .of_each htext htexts (by simp),
    .of_field backs_bool htruncated hbool, .of_field backs_nullableText herror hnullable⟩

theorem backs_access : Backs ids checkAccess := by
  intro v u h
  simp only [checkAccess, bind_eq_ok] at h
  obtain ⟨_, hobject, _, hoperation, _, henum, _, haddress, _, hhex, _, hstatus, hnullable⟩ := h
  refine backed_of_fields (by simp) hobject ?_ (refsBacked_absent (by simp) hobject (by simp))
  simp only [List.forall_mem_cons, List.not_mem_nil, false_implies, implies_true, and_true]
  exact ⟨.of_field backs_enum hoperation henum, .of_field backs_hex haddress hhex,
    .of_field backs_nullableHex hstatus hnullable⟩

theorem backs_exception : Backs ids (checkException ids) := by
  intro v u h
  simp only [checkException, bind_eq_ok] at h
  obtain ⟨_, hobject, _, hstatus, _, henum, _, hhexes, _, hcount, _, huint, _, hparameters, _,
    harray, _, hhex, _, hrefs, _, hchecked, _, -, _, haccess, hnullable⟩ := h
  have hparameter : FieldBacked ids v "parameters" := by
    intro y hy
    rw [field_eq_ok.mp hparameters, Option.some.injEq] at hy
    rw [← hy]
    exact backed_each (backs_checked backs_hex) harray hhex
  refine backed_of_fields (by simp) hobject ?_ (refsBacked_of hrefs hchecked)
  simp only [List.forall_mem_cons, List.not_mem_nil, false_implies, implies_true, and_true]
  exact ⟨.of_field backs_enum hstatus henum, .of_each backs_nullableHex hhexes (by simp),
    .of_each backs_nullableHex hhexes (by simp), .of_each backs_nullableHex hhexes (by simp),
    .of_each backs_nullableHex hhexes (by simp),
    .of_field (backs_nullable (backs_checked backs_uint)) hcount huint, hparameter,
    .of_field (backs_nullable backs_access) haccess hnullable,
    .of_field backs_refs hrefs hchecked⟩

theorem backs_instruction : Backs ids (checkInstruction ids) := by
  intro v u h
  simp only [checkInstruction, bind_eq_ok] at h
  obtain ⟨_, hobject, _, haddress, _, hhex, _, hbytes, _, hcode, _, hdisassembly, _, htext, _,
    heffective, _, hnullable, _, hrefs, hchecked⟩ := h
  have hpattern : Backs ids checkBytes := by
    intro x u hx
    obtain ⟨s, hs, -⟩ := bind_eq_ok.mp hx
    exact backs_text x s hs
  refine backed_of_fields (by simp) hobject ?_ (refsBacked_of hrefs hchecked)
  simp only [List.forall_mem_cons, List.not_mem_nil, false_implies, implies_true, and_true]
  exact ⟨.of_field backs_hex haddress hhex, .of_field (backs_nullable hpattern) hbytes hcode,
    .of_field backs_text hdisassembly htext, .of_field backs_nullableHex heffective hnullable,
    .of_field backs_refs hrefs hchecked⟩

theorem eachRegister_eq_ok {entries : List (Units × JsValue)} :
    eachRegister entries = .ok () ↔ ∀ entry ∈ entries, checkRegister entry = .ok () := by
  induction entries with
  | nil => simp [eachRegister]
  | cons entry rest ih => simp [eachRegister, ih, Unique.exists_iff]

/-- The registers are texts, whatever their names. -/
theorem backs_registers : Backs ids checkRegisters := by
  intro v u h
  cases v with
  | object members =>
    obtain ⟨_, -, h⟩ := bind_eq_ok.mp h
    have htext : ∀ key x, own members key = some x → ∃ s, x = .string s := by
      intro key x hx
      have hentry : (key, x) ∈ ownEntries members := by
        refine List.mem_filterMap.mpr ⟨key, ?_, by rw [hx]; rfl⟩
        exact mem_ownKeys.mpr (own_isSome.mp (by rw [hx]; rfl))
      obtain ⟨_, -, hhex⟩ := bind_eq_ok.mp (eachRegister_eq_ok.mp h _ hentry)
      obtain ⟨s, hs⟩ := checked_eq_ok.mp hhex
      exact ⟨s, richHex_eq_ok hs⟩
    intro members' hw
    cases hw with
    | self =>
      intro refs hrefs
      obtain ⟨s, hs⟩ := htext _ _ hrefs
      cases hs
    | member hv hw =>
      obtain ⟨s, rfl⟩ := htext _ _ hv
      cases hw
  | _ => cases h

theorem backs_context : Backs ids (checkContext ids) := by
  intro v u h
  simp only [checkContext, bind_eq_ok] at h
  obtain ⟨_, hobject, _, hsource, _, henum, _, hthread, _, hnullable, _, hrefs, _, hchecked, _,
    hregisters, _, hnames, _, hinstruction, hfault⟩ := h
  refine backed_of_fields (by simp) hobject ?_ (refsBacked_of hrefs hchecked)
  simp only [List.forall_mem_cons, List.not_mem_nil, false_implies, implies_true, and_true]
  exact ⟨.of_field backs_enum hsource henum, .of_field backs_nullableHex hthread hnullable,
    .of_field backs_registers hregisters hnames,
    .of_field (backs_nullable backs_instruction) hinstruction hfault,
    .of_field backs_refs hrefs hchecked⟩

theorem backs_frame : Backs ids (checkFrame ids) := by
  intro v index h
  simp only [checkFrame, bind_eq_ok] at h
  obtain ⟨_, hobject, _, hindex, _, huint, _, hhexes, _, htexts, _, hline, _, hnumber, _,
    hresolution, _, hquality, _, hunwind, _, henum, _, hrefs, _, hchecked, -⟩ := h
  refine backed_of_fields (by simp) hobject ?_ (refsBacked_of hrefs hchecked)
  simp only [List.forall_mem_cons, List.not_mem_nil, false_implies, implies_true, and_true]
  exact ⟨.of_field backs_uint hindex huint, .of_each backs_nullableHex hhexes (by simp),
    .of_each backs_nullableHex hhexes (by simp), .of_each backs_nullableHex hhexes (by simp),
    .of_each backs_nullableHex hhexes (by simp), .of_each backs_nullableText htexts (by simp),
    .of_each backs_nullableHex hhexes (by simp), .of_each backs_nullableText htexts (by simp),
    .of_each backs_nullableHex hhexes (by simp), .of_each backs_nullableText htexts (by simp),
    .of_field (backs_nullable (backs_checked backs_uint)) hline hnumber,
    .of_field backs_enum hresolution hquality, .of_field backs_enum hunwind henum,
    .of_field backs_refs hrefs hchecked⟩

theorem backs_pdb : Backs ids richPdb := by
  intro v p h
  simp only [richPdb, bind_eq_ok] at h
  obtain ⟨_, hobject, _, hguid, _, htext, _, -, _, hage, _, huint, -⟩ := h
  refine backed_of_fields (by simp) hobject ?_ (refsBacked_absent (by simp) hobject (by simp))
  simp only [List.forall_mem_cons, List.not_mem_nil, false_implies, implies_true, and_true]
  exact ⟨.of_field backs_text hguid htext, .of_field backs_uint hage huint⟩

theorem backs_module : Backs ids (checkModule ids) := by
  intro v name h
  simp only [checkModule, bind_eq_ok] at h
  obtain ⟨_, hobject, _, hname, _, htext, _, hhexes, _, hpdbs, _, hpath, _, hnullable, _,
    hquality, _, henum, _, hrefs, _, hchecked, -⟩ := h
  have hpdb : Backs ids (richNullable (checked richPdb)) := backs_nullable (backs_checked backs_pdb)
  refine backed_of_fields (by simp) hobject ?_ (refsBacked_of hrefs hchecked)
  simp only [List.forall_mem_cons, List.not_mem_nil, false_implies, implies_true, and_true]
  exact ⟨.of_field backs_text hname htext, .of_each backs_nullableHex hhexes (by simp),
    .of_each backs_nullableHex hhexes (by simp), .of_each backs_nullableHex hhexes (by simp),
    .of_each hpdb hpdbs (by simp), .of_each hpdb hpdbs (by simp),
    .of_field backs_nullableText hpath hnullable, .of_field backs_enum hquality henum,
    .of_field backs_refs hrefs hchecked⟩

theorem backs_mechanism : Backs ids (checkMechanism ids) := by
  intro v u h
  simp only [checkMechanism, bind_eq_ok] at h
  obtain ⟨_, hobject, _, hstatus, _, henum, _, hdescription, _, htext, _, hrefs, hchecked⟩ := h
  refine backed_of_fields (by simp) hobject ?_ (refsBacked_of hrefs hchecked)
  simp only [List.forall_mem_cons, List.not_mem_nil, false_implies, implies_true, and_true]
  exact ⟨.of_field backs_enum hstatus henum, .of_field backs_text hdescription htext,
    .of_field backs_refs hrefs hchecked⟩

theorem backs_hypothesis : Backs ids (checkHypothesis ids) := by
  intro v u h
  simp only [checkHypothesis, bind_eq_ok] at h
  obtain ⟨_, hobject, _, hexplanation, _, htext, _, hrefs, _, hchecked, _, hlists, -⟩ := h
  refine backed_of_fields (by simp) hobject ?_ (refsBacked_of hrefs hchecked)
  simp only [List.forall_mem_cons, List.not_mem_nil, false_implies, implies_true, and_true]
  exact ⟨.of_field backs_text hexplanation htext, .of_field backs_refs hrefs hchecked,
    .of_each backs_strings hlists (by simp), .of_each backs_strings hlists (by simp)⟩

theorem backs_rootCause : Backs ids (checkRootCause ids) := by
  intro v u h
  simp only [checkRootCause, bind_eq_ok] at h
  obtain ⟨_, hobject, _, hstatus, _, henum, _, hconclusion, _, htext, _, hrefs, _, hchecked, _,
    hlists, _, hrule, _, hnull, _, hmechanism, _, hmech, _, hhypotheses, _, harray, _, heach,
    -⟩ := h
  have hhypothesis : FieldBacked ids v "hypotheses" := by
    intro y hy
    rw [field_eq_ok.mp hhypotheses, Option.some.injEq] at hy
    rw [← hy]
    exact backed_each backs_hypothesis harray heach
  refine backed_of_fields (by simp) hobject ?_ (refsBacked_of hrefs hchecked)
  simp only [List.forall_mem_cons, List.not_mem_nil, false_implies, implies_true, and_true]
  exact ⟨.of_field backs_enum hstatus henum, .of_field backs_mechanism hmechanism hmech,
    .of_field backs_text hconclusion htext, .of_field backs_refs hrefs hchecked, hhypothesis,
    .of_each backs_strings hlists (by simp), .of_each backs_strings hlists (by simp),
    .of_field backs_null hrule hnull⟩

theorem backs_completeness : Backs ids checkCompleteness := by
  intro v u h
  simp only [checkCompleteness, bind_eq_ok] at h
  obtain ⟨_, hobject, _, homissions, _, hstrings, _, htruncated, hbool⟩ := h
  refine backed_of_fields (by simp) hobject ?_ (refsBacked_absent (by simp) hobject (by simp))
  simp only [List.forall_mem_cons, List.not_mem_nil, false_implies, implies_true, and_true]
  exact ⟨.of_field backs_strings homissions hstrings, .of_field backs_bool htruncated hbool⟩

end References

/-! ## The loops -/

section Loops

variable {ids : List Units} {v : JsValue}

theorem checkEvidenceEntry_id {id : Units} (h : checkEvidenceEntry v = .ok id) :
    textProp v "id" = some id := by
  simp only [checkEvidenceEntry, bind_eq_ok, pure_eq_ok] at h
  obtain ⟨_, -, _, hid, _, htext, _, -, _, -, _, -, _, -, _, -, _, -, _, -, rfl⟩ := h
  exact textProp_of_richText hid htext

/-- The identifiers of the entries are new, and different. -/
theorem checkEvidence_eq_ok {before all : List Units} {entries : List JsValue}
    (h : checkEvidence before entries = .ok all) (hbefore : before.Nodup) :
    ∃ new, all = before ++ new ∧ all.Nodup ∧
      (entries.map fun e => textProp e "id") = new.map some ∧
      ∀ e ∈ entries, ∃ id, checkEvidenceEntry e = .ok id := by
  induction entries generalizing before with
  | nil =>
    rw [checkEvidence, Except.ok.injEq] at h
    exact ⟨[], by rw [List.append_nil, h], h ▸ hbefore, rfl, by simp⟩
  | cons e entries ih =>
    simp only [checkEvidence, bind_eq_ok, guardThat_eq_ok] at h
    obtain ⟨id, hentry, _, ⟨-, hnew⟩, hrest⟩ := h
    have hnext : (before ++ [id]).Nodup :=
      List.nodup_append.mpr ⟨hbefore, by simp, fun a ha b hb he => by
        rw [List.mem_singleton] at hb
        exact hnew (hb ▸ he ▸ ha)⟩
    obtain ⟨new, rfl, hnodup, hmap, hentries⟩ := ih hrest hnext
    refine ⟨id :: new, by simp, hnodup, ?_, ?_⟩
    · rw [List.map_cons, checkEvidenceEntry_id hentry, hmap, List.map_cons]
    · exact List.forall_mem_cons.mpr ⟨⟨id, hentry⟩, hentries⟩

theorem checkFrame_index {index : Nat} (h : checkFrame ids v = .ok index) :
    prop v "index" = some (.number (some (index : ℚ))) := by
  simp only [checkFrame, bind_eq_ok, pure_eq_ok] at h
  obtain ⟨_, -, _, hindex, _, huint, _, -, _, -, _, -, _, -, _, -, _, -, _, -, _, -, _, -, _, -,
    rfl⟩ := h
  rw [field_eq_ok.mp hindex, richUint_eq_ok huint]

/-- The indexes of the frames are new, and different. -/
theorem checkFrames_eq_ok {before : List Nat} {frames : List JsValue} {u : Unit}
    (h : checkFrames ids before frames = .ok u) (hbefore : before.Nodup) :
    ∃ new, (before ++ new).Nodup ∧
      (frames.map fun f => prop f "index") =
        new.map (fun n : Nat => some (.number (some (n : ℚ)))) ∧
      ∀ f ∈ frames, ∃ index, checkFrame ids f = .ok index := by
  induction frames generalizing before with
  | nil => exact ⟨[], by rwa [List.append_nil], rfl, by simp⟩
  | cons f frames ih =>
    simp only [checkFrames, bind_eq_ok, guardThat_eq_ok] at h
    obtain ⟨index, hframe, _, hnew, hrest⟩ := h
    have hnext : (before ++ [index]).Nodup :=
      List.nodup_append.mpr ⟨hbefore, by simp, fun a ha b hb he => by
        rw [List.mem_singleton] at hb
        exact hnew (hb ▸ he ▸ ha)⟩
    obtain ⟨new, hnodup, hmap, hframes⟩ := ih hrest hnext
    refine ⟨index :: new, by rwa [List.append_assoc] at hnodup, ?_, ?_⟩
    · rw [List.map_cons, checkFrame_index hframe, hmap, List.map_cons]
    · exact List.forall_mem_cons.mpr ⟨⟨index, hframe⟩, hframes⟩

/-! ### Matched modules -/

theorem richPdb_eq_ok {p : PdbIdentity} (h : richPdb v = .ok p) :
    textProp v "guid" = some p.guid ∧ prop v "age" = some (.number (some (p.age : ℚ))) := by
  simp only [richPdb, bind_eq_ok, pure_eq_ok] at h
  obtain ⟨_, -, _, hguid, _, htext, _, -, _, hage, _, huint, rfl⟩ := h
  exact ⟨textProp_of_richText hguid htext, by rw [field_eq_ok.mp hage, richUint_eq_ok huint]⟩

theorem checkModule_eq_some {name : Units} (h : checkModule ids v = .ok (some name)) :
    MatchedModule v name := by
  simp only [checkModule, bind_eq_ok] at h
  obtain ⟨_, -, s, hname, _, htext, _, -, _, -, _, -, _, -, _, hquality, quality, henum, _, -, _, -,
    h⟩ := h
  split_ifs at h with hmatched
  · simp only [checkMatchedPdb, bind_eq_ok, guardThat_eq_ok, pure_eq_ok, Option.some.injEq] at h
    obtain ⟨_, ⟨_, hexpected, p, hp, _, hloaded, q, hq, rfl, -⟩, rfl⟩ := h
    refine ⟨textProp_of_richText hname htext, ?_, ?_⟩
    · rw [textProp_eq_some, field_eq_ok.mp hquality, richEnum_eq_ok henum, hmatched]
    · exact ⟨_, _, p.guid, p.age, field_eq_ok.mp hexpected, field_eq_ok.mp hloaded,
        (richPdb_eq_ok hp).1, (richPdb_eq_ok hq).1, (richPdb_eq_ok hp).2, (richPdb_eq_ok hq).2⟩
  · simp only [pure_eq_ok] at h
    cases h

theorem checkModules_eq_ok {modules : List JsValue} {names : List Units}
    (h : checkModules ids modules = .ok names) :
    (∀ m ∈ modules, ∃ name, checkModule ids m = .ok name) ∧
      ∀ name ∈ names, ∃ m ∈ modules, MatchedModule m name := by
  induction modules generalizing names with
  | nil =>
    rw [checkModules, Except.ok.injEq] at h
    rw [← h]
    exact ⟨by simp, by simp⟩
  | cons m modules ih =>
    simp only [checkModules, bind_eq_ok, pure_eq_ok] at h
    obtain ⟨name, hname, names', hnames, rfl⟩ := h
    obtain ⟨hchecked, hmatched⟩ := ih hnames
    refine ⟨List.forall_mem_cons.mpr ⟨⟨name, hname⟩, hchecked⟩, fun n hn => ?_⟩
    rcases List.mem_append.mp hn with hn | hn
    · rw [Option.mem_toList] at hn
      rw [hn] at hname
      exact ⟨m, List.mem_cons_self, checkModule_eq_some hname⟩
    · obtain ⟨m', hm', hmod⟩ := hmatched n hn
      exact ⟨m', List.mem_cons_of_mem m hm', hmod⟩

end Loops

/-! ## A confirmed mechanism -/

section Confirmed

/-- The text around the first unit that is looked for. -/
theorem findIdx?_split {p : CodeUnit → Bool} {us : Units} {i : Nat} (h : us.findIdx? p = some i) :
    ∃ u, p u = true ∧ us = us.take i ++ u :: us.drop (i + 1) ∧ ∀ x ∈ us.take i, p x = false := by
  obtain ⟨hlt, hp, hbefore⟩ := List.findIdx?_eq_some_iff_getElem.mp h
  refine ⟨us[i], hp, ?_, fun x hx => ?_⟩
  · rw [← List.drop_eq_getElem_cons hlt, List.take_append_drop]
  · obtain ⟨j, hj, rfl⟩ := List.mem_iff_getElem.mp hx
    rw [List.length_take] at hj
    rw [List.getElem_take]
    exact Bool.eq_false_iff.mpr (hbefore j (by omega))

theorem findIdx?_unit {c : CodeUnit} {us : Units} {i : Nat}
    (h : us.findIdx? (fun u => decide (u = c)) = some i) :
    us = us.take i ++ c :: us.drop (i + 1) ∧ c ∉ us.take i := by
  obtain ⟨u, hu, hsplit, hbefore⟩ := findIdx?_split h
  rw [of_decide_eq_true hu] at hsplit
  exact ⟨hsplit, fun hc => by simpa using hbefore c hc⟩

/-- **What the operand parser reads.** -/
theorem movRegister_spec {disassembly register : Units}
    (h : movRegister disassembly = .ok register) : MovThrough disassembly register := by
  simp only [movRegister, bind_eq_ok, orThrow_eq_ok, guardThat_eq_ok, pure_eq_ok] at h
  obtain ⟨w, hw, _, hmov, comma, hcomma, _, hdestination, start, hstart, length, hlength, _,
    hpattern, rfl⟩ := h
  obtain ⟨space, hspace, hcode, -⟩ := findIdx?_split hw
  obtain ⟨hoperands, hnoComma⟩ := findIdx?_unit hcomma
  obtain ⟨hsource, hbefore⟩ := findIdx?_unit hstart
  obtain ⟨hinside, hend⟩ := findIdx?_unit hlength
  rw [hmov, hoperands, hsource, hinside] at hcode
  exact ⟨⟨space, _, _, _, _, hspace, hcode, hnoComma, hdestination, hbefore, hend, rfl⟩, hpattern⟩

theorem stringifyTexts_injective {ss ts : List Units} (h : stringifyTexts ss = stringifyTexts ts) :
    ss = ts := by
  have hdocument : ∀ us : List Units,
      (⟨[], jsonArray (us.map jsonString), []⟩ : JsonDocument).text = stringifyTexts us := by
    intro us
    show [] ++ ((jsonArray (us.map jsonString)).text ++ []) = _
    rw [List.append_nil]
    rfl
  have hvalue : jsonArray (ss.map jsonString) = jsonArray (ts.map jsonString) := by
    have heq := JsonDocument.text_injective ((hdocument ss).trans (h.trans (hdocument ts).symm))
    exact congrArg JsonDocument.value heq
  have helements := congrArg arrayElements? hvalue
  rw [arrayElements?_jsonArray, arrayElements?_jsonArray, Option.some.injEq] at helements
  have hread : ∀ us : List Units, (us.map jsonString).filterMap stringUnits? = us := by
    intro us
    induction us with
    | nil => rfl
    | cons u us ih => rw [List.map_cons, List.filterMap_cons, stringUnits?_jsonString, ih]
  rw [← hread ss, helements, hread]

theorem mem_texts {elements : List JsValue} {id : Units} :
    id ∈ texts elements ↔ .string id ∈ elements := by
  unfold texts
  rw [List.mem_filterMap]
  constructor
  · rintro ⟨v, hv, hid⟩
    cases v with
    | string s =>
      rw [Option.some.injEq] at hid
      rwa [← hid]
    | _ => cases hid
  · intro h
    exact ⟨_, h, rfl⟩

theorem sortedUnion_ascending (refs : List Units) : (sortedUnion refs).Pairwise (· < ·) :=
  ascending_units (nodup_eraseDups refs)

theorem mem_sortedUnion {refs : List Units} {id : Units} : id ∈ sortedUnion refs ↔ id ∈ refs := by
  rw [sortedUnion, List.mem_mergeSort, List.mem_eraseDups]

/-- Elements that are all texts are their texts. -/
theorem map_texts {elements : List JsValue} {ids : List Units}
    (h : ∀ r ∈ elements, ∃ id ∈ ids, r = .string id) :
    elements = (texts elements).map .string := by
  induction elements with
  | nil => rfl
  | cons v vs ih =>
    obtain ⟨⟨id, -, rfl⟩, hrest⟩ := List.forall_mem_cons.mp h
    show JsValue.string id :: vs = JsValue.string id :: (texts vs).map .string
    rw [← ih hrest]

/-- **A mechanism that is said to be confirmed is.** -/
theorem confirmedRead_of_check {exception context mechanism : JsValue} {ids : List Units}
    (hrefs : ∀ r ∈ elementsProp mechanism "evidenceRefs", ∃ id ∈ ids, r = .string id)
    (h : checkConfirmed exception context mechanism = .ok ()) :
    ConfirmedRead exception context mechanism := by
  simp only [checkConfirmed, bind_eq_ok, orThrow_eq_ok, guardThat_eq_ok, field_eq_ok] at h
  obtain ⟨_, ⟨hcode, hsource⟩, access, haccess, instruction, hinstruction, _, hread, x, hx, pc, hpc,
    y, hy, pc', hpc', _, rfl, disassembly, hdisassembly, register, hregister, registers, hregisters,
    saved, hsaved, target, htarget, z, hz, target', htarget', _, rfl, _, -, _, hunion, -⟩ := h
  cases registers with
  | object members =>
    refine ⟨hcode, hsource, ?_, ?_⟩
    · exact ⟨access, instruction, members, register, saved, disassembly, pc, target, haccess, hread,
        hinstruction, ⟨x, hx, hpc⟩, ⟨y, hy, hpc'⟩, hdisassembly, movRegister_spec hregister,
        hregisters, hsaved, htarget, ⟨z, hz, htarget'⟩⟩
    · have hequal := stringifyTexts_injective hunion
      refine ⟨instruction, _, hinstruction, (map_texts hrefs).trans (congrArg _ hequal),
        sortedUnion_ascending _, fun id => ?_⟩
      rw [mem_sortedUnion, List.mem_append, List.mem_append, mem_texts, mem_texts, mem_texts,
        or_assoc]
  | _ => cases hsaved

end Confirmed

/-! ## The document -/

section Document

variable {ids : List Units} {v doc : JsValue}

theorem elementsProp_of_array {key : String} {elements : List JsValue}
    (h : prop v key = some (.array elements)) : elementsProp v key = elements := by
  rw [elementsProp, h]

/-- An array of entries, each of which is checked by the loop. -/
theorem fieldBacked_array {key : String} {x : JsValue} {max : Nat} {elements : List JsValue}
    {α : Type} {check : JsValue → Except Thrown α} (hc : Backs ids check)
    (hf : field v key = .ok x) (ha : richArray max x = .ok elements)
    (h : ∀ e ∈ elements, ∃ a, check e = .ok a) : FieldBacked ids v key := by
  intro y hy
  rw [field_eq_ok.mp hf, Option.some.injEq] at hy
  rw [← hy, richArray_eq_ok ha]
  refine backed_array fun e he => ?_
  obtain ⟨a, ha⟩ := h e he
  exact hc e a ha

theorem backs_stack : Backs ids (checkStack ids) := by
  intro v u h
  simp only [checkStack, bind_eq_ok] at h
  obtain ⟨_, hobject, _, hthread, _, hnullable, _, hstatus, _, henum, _, hlimitations, _, hstrings,
    _, hframes, _, harray, hloop⟩ := h
  obtain ⟨_, -, -, hchecked⟩ := checkFrames_eq_ok hloop List.nodup_nil
  refine backed_of_fields (by simp) hobject ?_ (refsBacked_absent (by simp) hobject (by simp))
  simp only [List.forall_mem_cons, List.not_mem_nil, false_implies, implies_true, and_true]
  exact ⟨.of_field backs_nullableHex hthread hnullable, .of_field backs_enum hstatus henum,
    fieldBacked_array backs_frame hframes harray hchecked,
    .of_field backs_strings hlimitations hstrings⟩

theorem backs_symbols : Backs ids (checkSymbols ids) := by
  intro v names h
  simp only [checkSymbols, bind_eq_ok] at h
  obtain ⟨_, hobject, _, hlimitations, _, hstrings, _, hmodules, _, harray, hloop⟩ := h
  obtain ⟨hchecked, -⟩ := checkModules_eq_ok hloop
  refine backed_of_fields (by simp) hobject ?_ (refsBacked_absent (by simp) hobject (by simp))
  simp only [List.forall_mem_cons, List.not_mem_nil, false_implies, implies_true, and_true]
  exact ⟨fieldBacked_array backs_module hmodules harray hchecked,
    .of_field backs_strings hlimitations hstrings⟩

/-- **The references of an accepted document.** Its thirteen members are accounted for. -/
theorem backs_document {u : Unit} (h : validateRichDocument doc = .ok u) :
    ∃ entries ids, propAt doc ["evidence"] = some (.array entries) ∧
      (entries.map fun e => textProp e "id") = ids.map some ∧ ids.Nodup ∧ Backed ids doc := by
  simp only [validateRichDocument, bind_eq_ok] at h
  obtain ⟨_, hobject, _, hschema, _, hreport, _, hreportText, _, -, _, hidentity, _, hidentityOk, _,
    houtcome, _, houtcomeOk, _, hsummary, _, hsummaryOk, _, hprovenance, _, hprovenanceOk, _,
    hevidence, entries, harray, ids, hloop, _, hexception, _, hexceptionOk, _, hcontext, _,
    hcontextOk, _, hstack, _, hstackOk, _, hsymbols, _, hsymbolsOk, _, -, _, hroot, _, hrootOk, _,
    -, _, hcompleteness, hcompletenessOk⟩ := h
  obtain ⟨new, rfl, hnodup, hids, hentries⟩ := checkEvidence_eq_ok hloop List.nodup_nil
  have hversion : FieldBacked ids doc "schemaVersion" := by
    intro x hx
    unfold checkSchema at hschema
    rw [hx] at hschema
    cases x with
    | number n => exact backed_leaf (by simp) (by simp)
    | _ => cases hschema
  refine ⟨entries, ids, ?_, hids, hnodup, ?_⟩
  · rw [propAt, field_eq_ok.mp hevidence, richArray_eq_ok harray]
    rfl
  refine backed_of_fields (by simp) hobject ?_ (refsBacked_absent (by simp) hobject (by simp))
  simp only [List.forall_mem_cons, List.not_mem_nil, false_implies, implies_true, and_true]
  exact ⟨hversion, .of_field backs_text hreport hreportText,
    .of_field backs_identity hidentity hidentityOk, .of_field backs_enum houtcome houtcomeOk,
    .of_field backs_text hsummary hsummaryOk, .of_field backs_provenance hprovenance hprovenanceOk,
    .of_field backs_exception hexception hexceptionOk, .of_field backs_context hcontext hcontextOk,
    .of_field backs_stack hstack hstackOk, .of_field backs_symbols hsymbols hsymbolsOk,
    .of_field backs_rootCause hroot hrootOk,
    fieldBacked_array backs_evidenceEntry hevidence harray hentries,
    .of_field backs_completeness hcompleteness hcompletenessOk⟩

/-- The frames of an accepted stack. -/
theorem checkStack_frames (h : checkStack ids v = .ok ()) : ∃ frames, ∃ indexes : List Nat,
    prop v "frames" = some (.array frames) ∧
      (frames.map fun f => prop f "index") =
        indexes.map (fun n : Nat => some (.number (some (n : ℚ)))) ∧ indexes.Nodup := by
  simp only [checkStack, bind_eq_ok] at h
  obtain ⟨_, -, _, -, _, -, _, -, _, -, _, -, _, -, _, hframes, frames, harray, hloop⟩ := h
  obtain ⟨indexes, hnodup, hmap, -⟩ := checkFrames_eq_ok hloop List.nodup_nil
  refine ⟨frames, indexes, ?_, hmap, hnodup⟩
  rw [field_eq_ok.mp hframes, richArray_eq_ok harray]

theorem checkSymbols_matched {names : List Units} (h : checkSymbols ids v = .ok names) :
    ∃ modules, prop v "modules" = some (.array modules) ∧
      ∀ name ∈ names, ∃ m ∈ modules, MatchedModule m name := by
  simp only [checkSymbols, bind_eq_ok] at h
  obtain ⟨_, -, _, -, _, -, _, hmodules, modules, harray, hloop⟩ := h
  exact ⟨modules, by rw [field_eq_ok.mp hmodules, richArray_eq_ok harray],
    (checkModules_eq_ok hloop).2⟩

theorem propAt_cons {key : String} {rest : List String} {x : JsValue} (h : prop v key = some x) :
    propAt v (key :: rest) = propAt x rest := by
  rw [propAt, h, Option.bind_some]

/-- The references of the mechanism are texts. -/
theorem mechanism_refs {mechanism : JsValue} (h : checkMechanism ids mechanism = .ok ()) :
    ∀ r ∈ elementsProp mechanism "evidenceRefs", ∃ id ∈ ids, r = .string id := by
  simp only [checkMechanism, bind_eq_ok] at h
  obtain ⟨_, -, _, -, _, -, _, -, _, -, _, hrefs, hchecked⟩ := h
  have hbacked := refsBacked_of hrefs hchecked
  intro r hr
  unfold elementsProp at hr
  split at hr
  · next refs heq => exact hbacked refs heq r hr
  · cases hr

/-- **A rich report that is accepted** has no dangling reference, no index twice, no matched frame
without a matched module, and no confirmed mechanism that its capture does not show. -/
theorem rich_report_supported (doc : JsValue) (h : validateRichDocument doc = .ok ()) :
    SupportedReport doc := by
  have hreferences := backs_document h
  simp only [validateRichDocument, bind_eq_ok] at h
  obtain ⟨_, -, _, -, _, -, _, -, _, -, _, -, _, -, _, -, _, -, _, -, _, -, _, -, _, -, _, -,
    _, -, ids, -, exception, hexception, _, -, context, hcontext, _, -, stack, hstack, _, hstackOk,
    symbols, hsymbols, names, hsymbolsOk, _, hmatched, root, hroot, _, hrootOk, _, hstatus, -⟩ := h
  rw [field_eq_ok] at hexception hcontext hstack hsymbols hroot
  obtain ⟨frames, indexes, hframes, hindexes, hnodup⟩ := checkStack_frames hstackOk
  obtain ⟨modules, hmodules, hnames⟩ := checkSymbols_matched hsymbolsOk
  refine ⟨hreferences, ⟨frames, indexes, ?_, hindexes, hnodup⟩, ?_, ?_⟩
  · rw [propAt_cons hstack, propAt_cons hframes, propAt]
  · intro frames' hframes' frame hframe hresolution
    rw [propAt_cons hstack, propAt_cons hframes, propAt, Option.some.injEq] at hframes'
    cases hframes'
    rw [elementsProp_of_array hframes] at hmatched
    obtain ⟨⟨name, hname, hmem⟩, -⟩ :=
      guardThat_eq_ok.mp (each_eq_ok.mp hmatched frame hframe) hresolution
    obtain ⟨module, hmodule, hmatch⟩ := hnames name hmem
    refine ⟨modules, ?_, module, hmodule, name, hname, hmatch⟩
    rw [propAt_cons hsymbols, propAt_cons hmodules, propAt]
  · intro exception' context' mechanism hexception' hcontext' hmechanism hconfirmed
    rw [propAt_cons hexception, propAt, Option.some.injEq] at hexception'
    rw [propAt_cons hcontext, propAt, Option.some.injEq] at hcontext'
    subst hexception' hcontext'
    simp only [checkMechanismStatus, bind_eq_ok, field_eq_ok] at hstatus
    obtain ⟨mechanism', hmechanism', hcheck⟩ := hstatus
    rw [propAt_cons hroot, propAt_cons hmechanism', propAt, Option.some.injEq] at hmechanism
    subst hmechanism
    rw [if_pos hconfirmed] at hcheck
    simp only [checkRootCause, bind_eq_ok, field_eq_ok] at hrootOk
    obtain ⟨_, -, _, -, _, -, _, -, _, -, _, -, _, -, _, -, _, -, _, -, m, hm, _, hmechanismOk,
      -⟩ := hrootOk
    rw [hmechanism', Option.some.injEq] at hm
    subst hm
    exact confirmedRead_of_check (mechanism_refs hmechanismOk) hcheck

end Document

/-! ## A report -/

def objectOf (fields : List (String × JsValue)) : JsValue :=
  .object (fields.map fun f => (utf16 f.1, f.2))

def textOf (s : String) : JsValue := .string (utf16 s)

namespace Sample

def digest : Units := List.replicate 64 (unitOf '0')

def evidenceRefs : String × JsValue := ("evidenceRefs", .array [textOf "e1"])

def pdb : JsValue :=
  objectOf [("guid", textOf "00000000-0000-0000-0000-000000000000"), ("age", .number (some 1))]

def evidence : JsValue :=
  objectOf [("id", textOf "e1"), ("command", textOf "r"), ("status", textOf "present"),
    ("text", textOf "rax=10"), ("truncated", .boolean false), ("error", .null)]

def exception : JsValue :=
  objectOf [("status", textOf "present"), ("code", textOf "0xc0000005"), ("flags", .null),
    ("address", textOf "0x7f"), ("recordPointer", .null), ("parameterCount", .null),
    ("parameters", .array []),
    ("access", objectOf [("operation", textOf "read"), ("address", textOf "0x10"),
      ("underlyingStatus", .null)]), evidenceRefs]

def context : JsValue :=
  objectOf [("source", textOf "exception"), ("threadId", .null),
    ("registers", objectOf [("rax", textOf "0x010")]),
    ("faultInstruction", objectOf [("address", textOf "0x07f"), ("bytes", .null),
      ("disassembly", textOf "MOV ecx, dword ptr [ RAX ]"), ("effectiveAddress", .null),
      evidenceRefs]), evidenceRefs]

def frame : JsValue :=
  objectOf [("index", .number (some 0)), ("instructionPointer", .null), ("stackPointer", .null),
    ("framePointer", .null), ("returnAddress", .null), ("module", textOf "app"),
    ("moduleRva", .null), ("function", .null), ("displacement", .null), ("sourceFile", .null),
    ("sourceLine", .null), ("resolution", textOf "matched"), ("unwind", textOf "reported"),
    evidenceRefs]

def module : JsValue :=
  objectOf [("module", textOf "app"), ("imageBase", .null), ("imageSize", .null),
    ("timestamp", .null), ("expectedPdb", pdb), ("loadedPdb", pdb), ("pdbPath", .null),
    ("quality", textOf "matched"), evidenceRefs]

def mechanism : JsValue :=
  objectOf [("status", textOf "confirmed"), ("description",
    .string (confirmedDescription (utf16 "rax") (utf16 "0x010") (utf16 "0x10"))), evidenceRefs]

def rootCause : JsValue :=
  objectOf [("status", textOf "unknown"), ("mechanism", mechanism), ("conclusion", textOf ""),
    ("evidenceRefs", .array []), ("hypotheses", .array []), ("missingEvidence", .array []),
    ("nextChecks", .array []), ("ruleId", .null)]

def report : JsValue :=
  objectOf [("schemaVersion", .number (some 2)),
    ("reportId", .string ([unitOf 'r', unitOf '2', unitOf '_'] ++ digest)),
    ("identity", objectOf [("dumpId", textOf "d"), ("inputSha256", .string digest),
      ("kind", textOf "crash"), ("analyzerName", textOf "a"), ("analyzerVersion", textOf "1")]),
    ("outcome", textOf "completed"), ("summary", textOf ""),
    ("provenance", objectOf [("provider", textOf ""), ("debuggerVersion", .null),
      ("architecture", .null), ("pointerWidth", .null), ("processId", .null), ("model", .null),
      ("analysisRevision", textOf "")]),
    ("exception", exception), ("context", context),
    ("stack", objectOf [("threadId", .null), ("status", textOf "present"),
      ("frames", .array [frame]), ("limitations", .array [])]),
    ("symbols", objectOf [("modules", .array [module]), ("limitations", .array [])]),
    ("rootCause", rootCause), ("evidence", .array [evidence]),
    ("completeness", objectOf [("omissions", .array []), ("truncated", .boolean false)])]

end Sample

/-- A report of a confirmed mechanism. -/
theorem sample_supported : SupportedReport Sample.report :=
  rich_report_supported Sample.report (by decide +kernel)

end DumpLedger.RichReport
