import DumpLedger.Domain.JsonSize
import DumpLedger.Inspection.FactsText
import DumpLedger.Lib.Budget
import DumpLedger.Properties.StorePaths

/-!
# The facts fit their budget

The names of the modules and of their PDB files are as long as the file says, and many modules
may point at one name. The inspector charges a budget before it reads: 256 bytes for each
module, six for each code unit of a name and for each byte of a CodeView record. What is left
of the budget when a file is accepted pays for the text of the facts.

* `draws_*` — what each operation takes from the budget
* `Charged` — what a module that has been read costs at most
* `facts_fit` — the text of the facts is not longer than the budget
-/

namespace DumpLedger.Minidump

open Lib

/-! ## What the operations draw -/

/-- What a part of the inspection takes from the budget. -/
abbrev Draws {α : Type} (x : Inspect α) (R : α → Nat → Prop) : Prop :=
  Prog.Draws InspectionState.remaining x R

section Operations

variable {source : RandomAccessSource}

theorem draws_fail {α : Type} {R : α → Nat → Prop} {code : InspectionErrorCode}
    {message : String} : Draws (fail code message : Inspect α) R :=
  Prog.Draws.throw

theorem draws_require {condition : Prop} [Decidable condition] {code : InspectionErrorCode}
    {message : String} : Draws (require condition code message) fun _ n => n = 0 ∧ condition := by
  unfold require
  split
  · next h => exact Prog.Draws.pure ⟨rfl, h⟩
  · exact draws_fail

theorem draws_checkedAdd (left right : Nat) (context : String) :
    Draws (checkedAdd left right context) fun sum n =>
      n = 0 ∧ sum = left + right ∧ sum ≤ uint64Max := by
  refine draws_require.bind ?_
  rintro _ _ ⟨rfl, hle⟩
  exact Prog.Draws.pure ⟨rfl, rfl, hle⟩

theorem draws_checkedMultiply (left right : Nat) (context : String) :
    Draws (checkedMultiply left right context) fun _ n => n = 0 := by
  refine draws_require.bind ?_
  rintro _ _ ⟨rfl, -⟩
  exact Prog.Draws.pure rfl

theorem draws_ensureRange (offset size : Nat) (context : String) :
    Draws (ensureRange source offset size context) fun _ n => n = 0 := by
  refine (draws_checkedAdd offset size _).bind ?_
  rintro _ _ ⟨rfl, -, -⟩
  refine draws_require.mono ?_
  rintro _ _ ⟨rfl, -⟩
  rfl

theorem draws_readAt (offset length : Nat) :
    Draws (readAt source offset length) fun _ n => n = 0 := by
  have hnote : Draws (Prog.modify fun s : InspectionState =>
      { s with reads := s.reads ++ [(offset, length)] }) fun _ n => n = 0 :=
    Prog.Draws.modify (fun _ => rfl) rfl
  refine hnote.bind ?_
  rintro _ _ rfl
  exact Prog.Draws.lift fun _ _ => rfl

/-- What was read is as long as was asked for. -/
theorem draws_readExact (offset length : Nat) (context : String) :
    Draws (readExact source offset length context) fun bytes n =>
      n = 0 ∧ bytes.length = length := by
  refine draws_require.bind ?_
  rintro _ _ ⟨rfl, -⟩
  refine (draws_ensureRange offset length context).bind ?_
  rintro _ _ rfl
  refine (draws_readAt offset length).bind ?_
  rintro bytes _ rfl
  refine draws_require.bind ?_
  rintro _ _ ⟨rfl, hlength⟩
  exact Prog.Draws.pure ⟨rfl, hlength⟩

theorem draws_consume (amount : Nat) : Draws (consume amount) fun _ n => n = amount := by
  intro s
  show Prog.wp (consume amount) _ _ s
  unfold consume
  rw [Prog.wp_bind, Prog.wp_gets, Prog.wp_bind]
  unfold require
  split
  · next hle =>
    rw [Prog.wp_pure, Prog.wp_modify]
    exact ⟨amount, Nat.sub_add_cancel hle, rfl⟩
  · exact le_rfl

end Operations

/-! ## Names -/

theorem length_utf16leUnits : ∀ bytes : Bytes, (utf16leUnits bytes).length = bytes.length / 2
  | [] => rfl
  | [_] => by rw [utf16leUnits.eq_def]; simp
  | low :: high :: rest => by
    rw [utf16leUnits, List.length_cons, length_utf16leUnits rest]
    simp only [List.length_cons]
    omega

section Names

variable {source : RandomAccessSource}

/-- Six bytes for each unit of a name. -/
theorem draws_string (rva : Nat) :
    Draws (readMinidumpString source rva) fun name n => 6 * name.length ≤ n := by
  refine (draws_readExact rva 4 _).bind ?_
  rintro header _ ⟨rfl, -⟩
  refine draws_require.bind ?_
  rintro _ _ ⟨rfl, -⟩
  refine draws_require.bind ?_
  rintro _ _ ⟨rfl, -⟩
  refine (draws_checkedAdd _ _ _).bind ?_
  rintro _ _ ⟨rfl, -, -⟩
  refine (draws_consume _).bind ?_
  rintro _ _ rfl
  refine (draws_readExact _ _ _).bind ?_
  rintro contents _ ⟨rfl, hlength⟩
  refine Prog.Draws.pure ?_
  rw [length_utf16leUnits, hlength]
  omega

theorem draws_moduleName (nameRva : Nat) :
    Draws (readModuleName source nameRva) fun name n => 6 * name.elim 0 List.length ≤ n := by
  unfold readModuleName
  split
  · exact Prog.Draws.pure (Nat.le_refl 0)
  · refine (draws_string nameRva).bind ?_
    intro name n hle
    exact Prog.Draws.pure hle

end Names

/-! ## CodeView records -/

/-- A character has as many bytes as code units at least. -/
theorem length_charUnits_le (c : Char) : (charUnits c).length ≤ c.utf8Size := by
  have hpos := c.utf8Size_pos
  unfold charUnits
  by_cases hsmall : c.toNat < 0x10000
  · rw [if_pos hsmall]
    exact hpos
  · have hlarge {bound : UInt32} (h : bound.toNat < 0x10000) : ¬ c.val ≤ bound := by
      rw [UInt32.le_iff_toNat_le]
      show ¬ c.toNat ≤ bound.toNat
      omega
    rw [if_neg hsmall]
    unfold Char.utf8Size
    rw [if_neg (hlarge (by decide)), if_neg (hlarge (by decide)), if_neg (hlarge (by decide))]
    exact Nat.le_of_lt (by decide : 2 < 4)

theorem length_utf16_le (s : String) : (utf16 s).length ≤ s.utf8ByteSize := by
  have hchars : ∀ cs : List Char,
      (cs.flatMap charUnits).length ≤ (cs.map Char.utf8Size).sum := by
    intro cs
    induction cs with
    | nil => exact Nat.le_refl 0
    | cons c cs ih =>
      have hc := length_charUnits_le c
      rw [List.flatMap_cons, List.length_append, List.map_cons, List.sum_cons]
      omega
  have hsize := utf8ByteSize_ofList s.toList
  rw [String.ofList_toList] at hsize
  rw [hsize]
  exact hchars s.toList

theorem splitOnP_sublist {p : Char → Bool} {cs segment : List Char}
    (h : segment ∈ cs.splitOnP p) : segment.Sublist cs := by
  induction cs generalizing segment with
  | nil =>
    rw [List.splitOnP_nil, List.mem_singleton] at h
    rw [h]
  | cons c cs ih =>
    rw [List.splitOnP_cons_eq_if_modifyHead] at h
    split at h
    · rcases List.mem_cons.mp h with rfl | h
      · exact List.nil_sublist _
      · exact (ih h).cons c
    · cases hsplit : cs.splitOnP p with
      | nil => exact absurd hsplit (List.splitOnP_ne_nil p cs)
      | cons first rest =>
        rw [hsplit, List.modifyHead_cons] at h
        rcases List.mem_cons.mp h with rfl | h
        · exact (ih (hsplit ▸ List.mem_cons_self)).cons_cons c
        · exact (ih (hsplit ▸ List.mem_cons_of_mem first h)).cons c

theorem length_sublist_le {cs ds : List Char} (h : cs.Sublist ds) :
    (cs.flatMap charUnits).length ≤ (ds.flatMap charUnits).length := by
  induction h with
  | slnil => exact Nat.le_refl _
  | cons d _ ih =>
    rw [List.flatMap_cons, List.length_append]
    omega
  | cons_cons d _ ih =>
    rw [List.flatMap_cons, List.flatMap_cons, List.length_append, List.length_append]
    omega

theorem length_fileName_le {path name : String} (h : fileNameFromPath path = some name) :
    (utf16 name).length ≤ (utf16 path).length := by
  obtain ⟨segment, hfind, rfl⟩ := Option.map_eq_some_iff.mp h
  have hmem := List.mem_reverse.mp (List.mem_of_find?_eq_some hfind)
  have hle := length_sublist_le (splitOnP_sublist hmem)
  rwa [utf16, String.toList_ofList]

/-- The mark at the start of a path is dropped. -/
theorem length_decodeUtf8_le {bytes : Bytes} {text : String} (h : decodeUtf8 bytes = some text) :
    (utf16 text).length ≤ bytes.length := by
  obtain ⟨decoded, hdecoded, rfl⟩ := Option.map_eq_some_iff.mp h
  have hsize : decoded.utf8ByteSize = bytes.length := by
    unfold String.fromUTF8? at hdecoded
    split at hdecoded
    · cases hdecoded
      exact List.size_toArray
    · cases hdecoded
  have hle := length_utf16_le decoded
  split
  · next rest hmark =>
    have hcons : (utf16 decoded).length = (charUnits '\uFEFF' ++ rest.flatMap charUnits).length := by
      rw [utf16, hmark, List.flatMap_cons]
    rw [List.length_append] at hcons
    rw [utf16, String.toList_ofList]
    omega
  · omega

/-- The name of a PDB file is part of the record. -/
theorem identity_of_record {record : Bytes} {identity : PdbIdentity}
    (h : parseRsdsCodeViewRecord record = some identity) :
    (utf16 identity.debugFile).length ≤ record.length ∧ Symbols.IsStoreId identity.debugId := by
  unfold parseRsdsCodeViewRecord at h
  obtain ⟨-, -, h⟩ := Option.bind_eq_some_iff.mp h
  obtain ⟨_, hsize, h⟩ := Option.bind_eq_some_iff.mp h
  obtain ⟨age, hage, h⟩ := Option.bind_eq_some_iff.mp h
  obtain ⟨pathLength, hpathLength, h⟩ := Option.bind_eq_some_iff.mp h
  obtain ⟨path, hpath, h⟩ := Option.bind_eq_some_iff.mp h
  obtain ⟨-, -, h⟩ := Option.bind_eq_some_iff.mp h
  obtain ⟨debugFile, hdebugFile, h⟩ := Option.bind_eq_some_iff.mp h
  obtain ⟨-, -, h⟩ := Option.bind_eq_some_iff.mp h
  cases h
  have hbytes : rsdsHeaderBytes + 1 ≤ record.length := by
    by_contra hshort
    simp [hshort] at hsize
  have hguid : (window record 4 16).length = 16 := by
    refine length_window ?_
    unfold rsdsHeaderBytes at hbytes
    omega
  have hage : age < 16 ^ 8 := by
    unfold readUint32 at hage
    split at hage
    · cases hage
      exact uintLE_lt record 20 4
    · cases hage
  refine ⟨?_, Symbols.isStoreId_formatSymsrvDebugId hguid hage⟩
  calc
    (utf16 debugFile).length ≤ (utf16 path).length := length_fileName_le hdebugFile
    _ ≤ (window record rsdsHeaderBytes pathLength).length := length_decodeUtf8_le hpath
    _ ≤ record.length := by
      unfold window
      rw [List.length_take, List.length_drop]
      omega

/-! ## Modules -/

/-- The units of a module's name and of its PDB's. -/
def ModuleFact.nameUnits (m : ModuleFact) : Nat :=
  m.name.elim 0 List.length + m.debugFile.elim 0 fun debugFile => (utf16 debugFile).length

/-- The numbers of a module are those of its descriptor. -/
structure ModuleFact.Bounded (m : ModuleFact) : Prop where
  baseOfImage : m.baseOfImage < 10 ^ 20
  sizeOfImage : m.sizeOfImage < 10 ^ 10
  timestamp : m.timestamp < 10 ^ 10
  debugId : ∀ id ∈ m.debugId, Symbols.IsStoreId id

section Modules

variable {source : RandomAccessSource}

/-- Six bytes for each byte of a record. -/
theorem draws_codeView (descriptor : Bytes) :
    Draws (readCodeViewIdentity source descriptor) fun identity n =>
      6 * identity.elim 0 (fun i => (utf16 i.debugFile).length) ≤ n ∧
        ∀ i ∈ identity, Symbols.IsStoreId i.debugId := by
  have hnone {n : Nat} : 6 * (none : Option PdbIdentity).elim 0
      (fun i => (utf16 i.debugFile).length) ≤ n ∧
        ∀ i ∈ (none : Option PdbIdentity), Symbols.IsStoreId i.debugId :=
    ⟨Nat.zero_le n, fun i hi => by cases hi⟩
  unfold readCodeViewIdentity
  dsimp only
  split
  · exact Prog.Draws.pure hnone
  · refine (draws_consume _).bind ?_
    rintro _ _ rfl
    refine Prog.Draws.tryCatch ((draws_readExact _ _ _).bind ?_) ?_
    · rintro record _ ⟨rfl, hlength⟩
      refine Prog.Draws.pure ?_
      cases hparse : parseRsdsCodeViewRecord record with
      | none => exact hnone
      | some identity =>
        obtain ⟨hle, hid⟩ := identity_of_record hparse
        refine ⟨?_, fun i hi => Option.some.inj hi ▸ hid⟩
        show 6 * (utf16 identity.debugFile).length ≤ _
        omega
    · intro _ _
      exact Prog.Draws.pure hnone

theorem draws_module (rva index : Nat) :
    Draws (inspectModule source rva index) fun m n => m.Bounded ∧ 6 * m.nameUnits ≤ n := by
  refine (draws_checkedMultiply _ _ _).bind ?_
  rintro _ _ rfl
  refine (draws_checkedAdd _ _ _).bind ?_
  rintro _ _ ⟨rfl, -, -⟩
  refine (draws_checkedAdd _ _ _).bind ?_
  rintro _ _ ⟨rfl, -, -⟩
  refine (draws_readExact _ 108 _).bind ?_
  rintro descriptor _ ⟨rfl, -⟩
  refine (draws_moduleName _).bind ?_
  intro name spentOnName hname
  refine (draws_codeView descriptor).bind ?_
  rintro identity spentOnRecord ⟨hrecord, hid⟩
  refine Prog.Draws.pure ⟨⟨?_, ?_, ?_, ?_⟩, ?_⟩
  · exact (uintLE_lt descriptor 0 8).trans (by decide)
  · exact (uintLE_lt descriptor 8 4).trans (by decide)
  · exact (uintLE_lt descriptor 16 4).trans (by decide)
  · intro id hmem
    obtain ⟨i, hi, rfl⟩ := Option.mem_map.mp hmem
    exact hid i hi
  · have hfile : (identity.map PdbIdentity.debugFile).elim 0
        (fun debugFile => (utf16 debugFile).length) =
          identity.elim 0 fun i => (utf16 i.debugFile).length := by
      cases identity with
      | none => rfl
      | some i => rfl
    unfold ModuleFact.nameUnits
    dsimp only
    rw [hfile]
    omega

/-- What the modules of an accepted file have cost. -/
structure Charged (modules : List ModuleFact) (n : Nat) : Prop where
  bounded : ∀ m ∈ modules, m.Bounded
  paid : 6 * (modules.map ModuleFact.nameUnits).sum ≤ n

theorem draws_modules (rva count : Nat) :
    Draws (forIndex count [] fun modules index => do
      let module ← inspectModule source rva index
      return modules ++ [module]) fun modules n => Charged modules n ∧ modules.length = count := by
  have hstart : Charged [] 0 :=
    ⟨List.forall_mem_nil _, Nat.le_refl 0⟩
  unfold forIndex
  refine (Prog.Draws.foldEach (List.range count)
    (fun done modules n => Charged modules n ∧ modules.length = done.length) ?_
      ⟨hstart, rfl⟩).mono ?_
  · rintro done index rest modules n - ⟨hcharged, hlength⟩
    refine (draws_module rva index).bind ?_
    rintro module m ⟨hbounded, hpaid⟩
    refine Prog.Draws.pure ⟨⟨?_, ?_⟩, ?_⟩
    · intro x hx
      rcases List.mem_append.mp hx with hx | hx
      · exact hcharged.bounded x hx
      · rw [List.mem_singleton.mp hx]
        exact hbounded
    · have hbefore := hcharged.paid
      rw [List.map_append, List.sum_append, List.map_singleton, List.sum_singleton]
      omega
    · rw [List.length_append, List.length_append, hlength]
      rfl
  · rintro modules n ⟨hcharged, hlength⟩
    rw [List.length_range] at hlength
    exact ⟨hcharged, hlength⟩

/-- 256 bytes for each module before the first is read. -/
theorem draws_reserved (rva count : Nat) :
    Draws (do
      consume (count * 256)
      forIndex count [] fun modules index => do
        let module ← inspectModule source rva index
        return modules ++ [module]) fun modules n =>
      ∃ m, n = 256 * modules.length + m ∧ Charged modules m := by
  refine (draws_consume (count * 256)).bind ?_
  rintro _ _ rfl
  refine (draws_modules rva count).mono ?_
  rintro modules m ⟨hcharged, rfl⟩
  exact ⟨m, by omega, hcharged⟩

end Modules

/-! ## The size of what is written -/

section Sizes

variable {α : Type}

theorem membersBytes_optional (name : String) (write : α → JsonValue) (value : Option α) :
    membersBytes (optionalField name write value) =
      value.elim 0 fun a => memberBytes (name, write a) := by
  cases value with
  | none => rfl
  | some a => exact Nat.add_zero _

theorem membersBytes_optional_le {name : String} {write : α → JsonValue} {value : Option α}
    {k n : Nat} (hname : textBytes (quoted name).text = k)
    (hvalue : ∀ a ∈ value, textBytes (write a).text ≤ n) :
    membersBytes (optionalField name write value) ≤ k + n + 2 := by
  rw [membersBytes_optional]
  cases value with
  | none => exact Nat.zero_le _
  | some a =>
    have hle := hvalue a rfl
    show textBytes (quoted name).text + textBytes (write a).text + 2 ≤ k + n + 2
    omega

theorem isText_optionalField {name : String} {write : α → JsonValue} {value : Option α}
    (h : ∀ a, IsText (write a).text) : ∀ m ∈ optionalField name write value, IsText m.2.text := by
  cases value with
  | none => exact List.forall_mem_nil _
  | some a => exact List.forall_mem_singleton.mpr (h a)

theorem textBytes_textValue_le (s : String) :
    textBytes (textValue s).text ≤ 6 * (utf16 s).length + 2 :=
  textBytes_quotedUnits_le (utf16 s)

theorem textBytes_textValue_plain {s : String} (h : IsPlainText s) :
    textBytes (textValue s).text = s.toList.length + 2 := by
  show textBytes (quotedUnits (utf16 s)).text = _
  rw [quotedUnits_utf16, textBytes_quoted_plain h]

/-- A number of 64 bits has twenty digits at most. -/
theorem textBytes_bigintValue_le {n k : Nat} (hk : 0 < k) (h : n < 10 ^ k) :
    textBytes (bigintValue n).text ≤ k + 2 := by
  have hdigits : (toString n).toList = Nat.toDigits 10 n := Nat.toList_repr
  have hplain : IsPlainText (toString n) := by
    intro c hc
    rw [hdigits] at hc
    have hdigit := Nat.isDigit_of_mem_toDigits (by decide) (by decide) hc
    exact escapeChar_alphanumeric (Or.inl (digit_bounds hdigit))
  have hlength := (Nat.length_toDigits_le_iff (b := 10) (by decide) hk).mpr h
  have hbytes := textBytes_textValue_plain hplain
  rw [hdigits] at hbytes
  show textBytes (textValue (toString n)).text ≤ k + 2
  omega

theorem textBytes_booleanValue_le (b : Bool) : textBytes (booleanValue b).text ≤ 5 := by
  cases b with
  | true => decide
  | false => decide

theorem isText_booleanValue (b : Bool) : IsText (booleanValue b).text := by
  cases b with
  | true => exact ⟨"true".toList, by decide⟩
  | false => exact ⟨"false".toList, by decide⟩

theorem isText_textValue (s : String) : IsText (textValue s).text := isText_jsonString _

theorem isText_bigintValue (n : Nat) : IsText (bigintValue n).text := isText_jsonString _

theorem textBytes_storeId_le {id : String} (h : Symbols.IsStoreId id) :
    textBytes (textValue id).text ≤ 66 := by
  have hplain : IsPlainText id := fun c hc =>
    escapeChar_alphanumeric (by
      have := Symbols.isUpperHex_bounds (h.digits c hc)
      omega)
  have hmaximum := h.maximum
  rw [textBytes_textValue_plain hplain]
  omega

end Sizes

theorem isText_moduleFields (m : ModuleFact) : ∀ f ∈ moduleFields m, IsText f.2.text := by
  simp only [moduleFields, List.forall_mem_append, List.forall_mem_cons]
  exact ⟨⟨⟨isText_optionalField isText_jsonString, isText_bigintValue _, isText_jsonNumber _,
    isText_jsonNumber _, List.forall_mem_nil _⟩, isText_optionalField isText_textValue⟩,
    isText_optionalField isText_textValue⟩

/-- **The reservation of a module pays for it**: 256 bytes, and six for each unit of its names. -/
theorem textBytes_module_le {m : ModuleFact} (h : m.Bounded) :
    textBytes (jsonObject (moduleFields m)).text + 1 ≤ 256 + 6 * m.nameUnits := by
  have hname : membersBytes (optionalField "name" jsonString m.name) ≤
      6 * m.name.elim 0 List.length + 10 := by
    rw [membersBytes_optional]
    cases m.name with
    | none => exact Nat.zero_le _
    | some name =>
      have hkey : textBytes (quoted "name").text = 6 := by decide
      have hvalue : textBytes (jsonString name).text ≤ 6 * name.length + 2 :=
        textBytes_quotedUnits_le name
      show textBytes (quoted "name").text + textBytes (jsonString name).text + 2 ≤
        6 * name.length + 10
      omega
  have hdebugFile : membersBytes (optionalField "debugFile" textValue m.debugFile) ≤
      (6 * m.debugFile.elim 0 fun debugFile => (utf16 debugFile).length) + 15 := by
    rw [membersBytes_optional]
    cases m.debugFile with
    | none => exact Nat.zero_le _
    | some debugFile =>
      have hkey : textBytes (quoted "debugFile").text = 11 := by decide
      have hvalue := textBytes_textValue_le debugFile
      show textBytes (quoted "debugFile").text + textBytes (textValue debugFile).text + 2 ≤
        6 * (utf16 debugFile).length + 15
      omega
  have hdebugId : membersBytes (optionalField "debugId" textValue m.debugId) ≤ 9 + 66 + 2 :=
    membersBytes_optional_le (by decide) fun id hid =>
      textBytes_storeId_le (h.debugId id hid)
  have hnumbers : membersBytes [("baseOfImage", bigintValue m.baseOfImage),
      ("sizeOfImage", jsonNumber m.sizeOfImage), ("timestamp", jsonNumber m.timestamp)] ≤ 85 := by
    have hbaseKey : textBytes (quoted "baseOfImage").text = 13 := by decide
    have hsizeKey : textBytes (quoted "sizeOfImage").text = 13 := by decide
    have htimeKey : textBytes (quoted "timestamp").text = 11 := by decide
    have hbase := textBytes_bigintValue_le (by decide) h.baseOfImage
    have hsize := textBytes_jsonNumber_le (by decide) h.sizeOfImage
    have htime := textBytes_jsonNumber_le (by decide) h.timestamp
    simp only [membersBytes_cons, membersBytes_nil, memberBytes]
    omega
  have hobject := textBytes_jsonObject_le (isText_moduleFields m)
  have hparts : membersBytes (moduleFields m) =
      membersBytes (optionalField "name" jsonString m.name) +
        membersBytes [("baseOfImage", bigintValue m.baseOfImage),
          ("sizeOfImage", jsonNumber m.sizeOfImage), ("timestamp", jsonNumber m.timestamp)] +
        membersBytes (optionalField "debugFile" textValue m.debugFile) +
        membersBytes (optionalField "debugId" textValue m.debugId) := by
    simp only [moduleFields, membersBytes_append]
  unfold ModuleFact.nameUnits
  omega

theorem isText_modulesValue (modules : List ModuleFact) : IsText (modulesValue modules).text := by
  refine isText_jsonArray ?_
  intro v hv
  obtain ⟨m, -, rfl⟩ := List.mem_map.mp hv
  exact isText_jsonObject (isText_moduleFields m)

theorem textBytes_modulesValue_le {modules : List ModuleFact} (h : ∀ m ∈ modules, m.Bounded) :
    textBytes (modulesValue modules).text ≤
      256 * modules.length + 6 * (modules.map ModuleFact.nameUnits).sum + 2 := by
  have helements : elementsBytes (modules.map fun m => jsonObject (moduleFields m)) ≤
      256 * modules.length + 6 * (modules.map ModuleFact.nameUnits).sum := by
    induction modules with
    | nil => exact Nat.le_refl 0
    | cons m rest ih =>
      have hmodule := textBytes_module_le (h m List.mem_cons_self)
      have hrest := ih fun x hx => h x (List.mem_cons_of_mem m hx)
      simp only [elementsBytes, List.map_cons, List.sum_cons, List.length_cons] at hrest ⊢
      omega
  have harray := @textBytes_jsonArray_le (modules.map fun m => jsonObject (moduleFields m)) (by
    intro v hv
    obtain ⟨m, -, rfl⟩ := List.mem_map.mp hv
    exact isText_jsonObject (isText_moduleFields m))
  unfold modulesValue
  omega

/-! ## Accepted files -/

/-- With a value, a part of the inspection ends as `P` says. -/
def Gives {α : Type} (x : Inspect α) (P : α → Prop) : Prop :=
  Prog.Keeps (fun _ => True) (fun _ => True) x P

section Files

variable {source : RandomAccessSource}

theorem gives_any {α : Type} (x : Inspect α) : Gives x fun _ => True := by
  intro s _
  unfold Prog.wp
  split
  · exact ⟨trivial, trivial⟩
  · exact ⟨trivial, trivial⟩

theorem gives_of_draws {α : Type} {x : Inspect α} {R : α → Nat → Prop} (h : Draws x R) :
    Gives x fun a => ∃ n, R a n := by
  intro s _
  refine Prog.wp_mono (h s) ?_ fun _ _ _ => ⟨trivial, trivial⟩
  rintro a s' ⟨n, -, ha⟩
  exact ⟨trivial, n, ha⟩

theorem gives_stream {α : Type} {stream : Option DirectoryEntry}
    {inspect : DirectoryEntry → Inspect α} {P : α → Prop} (h : ∀ entry, Gives (inspect entry) P) :
    Gives (inspectStream stream inspect) fun o => ∀ a ∈ o, P a := by
  cases stream with
  | none => exact Prog.Keeps.pure fun a ha => by cases ha
  | some entry =>
    refine (h entry).bind ?_
    intro a ha
    exact Prog.Keeps.pure fun b hb => Option.some.inj hb ▸ ha

/-- The modules of an accepted file are paid for out of one budget. -/
theorem gives_modules (entry : DirectoryEntry) :
    Gives (inspectModules source entry) fun modules =>
      textBytes (modulesValue modules).text ≤ maxModuleMetadataBytes - 1022 := by
  refine (gives_any _).bind ?_
  intro _ _
  refine (gives_any _).bind ?_
  intro header _
  refine (gives_any _).bind ?_
  intro _ _
  refine (gives_any _).bind ?_
  intro _ _
  refine (gives_any _).bind ?_
  intro _ _
  refine (gives_any _).bind ?_
  intro _ _ s _
  -- the budget starts here
  unfold newBudget
  rw [Prog.wp_bind, Prog.wp_modify]
  have hbudget := (@draws_reserved source entry.rva (uintLE header 0 4)).le
    { s with remaining := maxModuleMetadataBytes - 1024 }
  refine Prog.wp_mono hbudget ?_ fun _ _ _ => ⟨trivial, trivial⟩
  rintro modules s' ⟨n, hle, m, rfl, hcharged⟩
  have hsize := textBytes_modulesValue_le hcharged.bounded
  have hpaid := hcharged.paid
  have hleft : 256 * modules.length + m ≤ maxModuleMetadataBytes - 1024 := hle
  refine ⟨trivial, ?_⟩
  unfold maxModuleMetadataBytes at hleft ⊢
  omega

theorem gives_memoryList (entry : DirectoryEntry) :
    Gives (inspectMemoryList source entry) fun facts => facts.ranges ≤ maxMemoryRanges := by
  refine (gives_any _).bind ?_
  intro _ _
  refine (gives_any _).bind ?_
  intro header _
  refine (gives_of_draws draws_require).bind ?_
  rintro _ ⟨_, -, hcount⟩
  refine (gives_any _).bind ?_
  intro _ _
  refine (gives_any _).bind ?_
  intro _ _
  refine (gives_any _).bind ?_
  intro _ _
  refine (gives_any _).bind ?_
  intro _ _
  exact Prog.Keeps.pure hcount

theorem gives_memory64List (entry : DirectoryEntry) :
    Gives (inspectMemory64List source entry) fun facts => facts.ranges ≤ maxMemoryRanges := by
  refine (gives_any _).bind ?_
  intro _ _
  refine (gives_any _).bind ?_
  intro header _
  refine (gives_of_draws draws_require).bind ?_
  rintro _ ⟨_, -, hcount⟩
  refine (gives_any _).bind ?_
  intro _ _
  refine (gives_any _).bind ?_
  intro _ _
  refine (gives_any _).bind ?_
  intro _ _
  refine (gives_any _).bind ?_
  intro _ _
  refine (gives_any _).bind ?_
  intro _ _
  exact Prog.Keeps.pure hcount

theorem gives_architecture (entry : DirectoryEntry) :
    Gives (inspectArchitecture source entry) fun o => ∀ name ∈ o, (utf16 name).length ≤ 6 := by
  refine (gives_any _).bind ?_
  intro _ _
  refine (gives_any _).bind ?_
  intro bytes _
  refine Prog.Keeps.pure ?_
  intro name hname
  unfold architectureName at hname
  split at hname
  · rw [← Option.some.inj hname]
    decide
  · rw [← Option.some.inj hname]
    decide
  · rw [← Option.some.inj hname]
    decide
  · rw [← Option.some.inj hname]
    decide
  · rw [← Option.some.inj hname]
    decide
  · cases hname

theorem gives_exception (entry : DirectoryEntry) :
    Gives (inspectException source entry) fun facts =>
      facts.exceptionCode < 10 ^ 10 ∧ facts.exceptionAddress < 10 ^ 20 := by
  refine (gives_any _).bind ?_
  intro _ _
  refine (gives_any _).bind ?_
  intro bytes _
  refine (gives_any _).bind ?_
  intro _ _
  exact Prog.Keeps.pure ⟨(uintLE_lt bytes 8 4).trans (by decide),
    (uintLE_lt bytes 24 8).trans (by decide)⟩

/-- The numbers and the names of the facts are short; the modules have a budget of their own. -/
structure MinidumpFacts.Bounded (facts : MinidumpFacts) : Prop where
  minidumpFlags : facts.minidumpFlags < 10 ^ 20
  capturedMemoryBytes : facts.capturedMemoryBytes < 10 ^ 20
  memoryRangeCount : facts.memoryRangeCount < 10 ^ 6
  architecture : ∀ name ∈ facts.architecture, (utf16 name).length ≤ 6
  exceptionCode : ∀ code ∈ facts.exceptionCode, code < 10 ^ 10
  exceptionAddress : ∀ address ∈ facts.exceptionAddress, address < 10 ^ 20
  modules : ∀ modules ∈ facts.modules,
    textBytes (modulesValue modules).text ≤ maxModuleMetadataBytes - 1022

theorem gives_minidump : Gives (inspectMinidump source) MinidumpFacts.Bounded := by
  refine (gives_any _).bind ?_
  intro header _
  refine (gives_any _).bind ?_
  intro _ _
  refine (gives_any _).bind ?_
  intro _ _
  refine (gives_any _).bind ?_
  intro _ _
  refine (gives_any _).bind ?_
  intro _ _
  refine (gives_any _).bind ?_
  intro _ _
  refine (gives_any _).bind ?_
  intro _ _
  refine (gives_any _).bind ?_
  intro scan _
  refine (gives_any _).bind ?_
  intro _ _
  refine (gives_stream gives_memoryList).bind ?_
  intro memoryListFacts hmemory
  refine (gives_stream gives_memory64List).bind ?_
  intro memory64Facts hmemory64
  refine (gives_of_draws (draws_checkedAdd _ _ _)).bind ?_
  rintro captured ⟨_, -, -, hcaptured⟩
  refine (gives_stream gives_architecture).bind ?_
  intro architecture harchitecture
  refine (gives_stream gives_exception).bind ?_
  intro exceptionFacts hexception
  refine (gives_stream gives_modules).bind ?_
  intro modules hmodules
  have hranges {o : Option MemoryFacts} (h : ∀ facts ∈ o, facts.ranges ≤ maxMemoryRanges) :
      (o.getD ⟨0, 0⟩).ranges ≤ maxMemoryRanges := by
    cases o with
    | none => exact Nat.zero_le _
    | some facts => exact h facts rfl
  refine Prog.Keeps.pure ⟨(uintLE_lt header 24 8).trans (by decide),
    hcaptured.trans_lt (by decide), ?_, ?_, ?_, ?_, hmodules⟩
  · have hfirst := hranges hmemory
    have hsecond := hranges hmemory64
    unfold maxMemoryRanges at hfirst hsecond
    show (memoryListFacts.getD ⟨0, 0⟩).ranges + (memory64Facts.getD ⟨0, 0⟩).ranges < 10 ^ 6
    omega
  · intro name hname
    exact harchitecture (some name) (Option.join_eq_some_iff.mp hname) name rfl
  · intro code hcode
    obtain ⟨facts, hfacts, rfl⟩ := Option.mem_map.mp hcode
    exact (hexception facts hfacts).1
  · intro address haddress
    obtain ⟨facts, hfacts, rfl⟩ := Option.mem_map.mp haddress
    exact (hexception facts hfacts).2

end Files

theorem isText_factsFields (facts : MinidumpFacts) :
    ∀ f ∈ factsFields facts, IsText f.2.text := by
  simp only [factsFields, List.forall_mem_append, List.forall_mem_cons]
  exact ⟨⟨⟨⟨⟨isText_bigintValue _, isText_bigintValue _, isText_jsonNumber _,
    isText_booleanValue _, isText_booleanValue _, List.forall_mem_nil _⟩,
    isText_optionalField isText_textValue⟩, isText_optionalField isText_bigintValue⟩,
    isText_optionalField isText_bigintValue⟩, isText_optionalField isText_modulesValue⟩

/-- What was kept back of the budget pays for the rest of the facts. -/
theorem textBytes_facts_le {facts : MinidumpFacts} (h : facts.Bounded) :
    textBytes (stringifyFacts facts) ≤ maxModuleMetadataBytes := by
  have hfixed : membersBytes [("minidumpFlags", bigintValue facts.minidumpFlags),
      ("capturedMemoryBytes", bigintValue facts.capturedMemoryBytes),
      ("memoryRangeCount", jsonNumber facts.memoryRangeCount),
      ("hasMemoryListStream", booleanValue facts.hasMemoryListStream),
      ("hasMemory64ListStream", booleanValue facts.hasMemory64ListStream)] ≤ 168 := by
    have hflagsKey : textBytes (quoted "minidumpFlags").text = 15 := by decide
    have hcapturedKey : textBytes (quoted "capturedMemoryBytes").text = 21 := by decide
    have hcountKey : textBytes (quoted "memoryRangeCount").text = 18 := by decide
    have hlistKey : textBytes (quoted "hasMemoryListStream").text = 21 := by decide
    have hlist64Key : textBytes (quoted "hasMemory64ListStream").text = 23 := by decide
    have hflags := textBytes_bigintValue_le (by decide) h.minidumpFlags
    have hcaptured := textBytes_bigintValue_le (by decide) h.capturedMemoryBytes
    have hcount := textBytes_jsonNumber_le (by decide) h.memoryRangeCount
    have hlist := textBytes_booleanValue_le facts.hasMemoryListStream
    have hlist64 := textBytes_booleanValue_le facts.hasMemory64ListStream
    simp only [membersBytes_cons, membersBytes_nil, memberBytes]
    omega
  have harchitecture :
      membersBytes (optionalField "architecture" textValue facts.architecture) ≤ 14 + 38 + 2 := by
    refine membersBytes_optional_le (by decide) ?_
    intro name hname
    have hvalue := textBytes_textValue_le name
    have hlength := h.architecture name hname
    omega
  have hcode : membersBytes (optionalField "exceptionCode" bigintValue facts.exceptionCode) ≤
      15 + 12 + 2 :=
    membersBytes_optional_le (by decide) fun code hcode =>
      textBytes_bigintValue_le (by decide) (h.exceptionCode code hcode)
  have haddress : membersBytes (optionalField "exceptionAddress" bigintValue
      facts.exceptionAddress) ≤ 18 + 22 + 2 :=
    membersBytes_optional_le (by decide) fun address haddress =>
      textBytes_bigintValue_le (by decide) (h.exceptionAddress address haddress)
  have hmodules : membersBytes (optionalField "modules" modulesValue facts.modules) ≤
      9 + (maxModuleMetadataBytes - 1022) + 2 :=
    membersBytes_optional_le (by decide) h.modules
  have hparts : membersBytes (factsFields facts) =
      membersBytes [("minidumpFlags", bigintValue facts.minidumpFlags),
        ("capturedMemoryBytes", bigintValue facts.capturedMemoryBytes),
        ("memoryRangeCount", jsonNumber facts.memoryRangeCount),
        ("hasMemoryListStream", booleanValue facts.hasMemoryListStream),
        ("hasMemory64ListStream", booleanValue facts.hasMemory64ListStream)] +
      membersBytes (optionalField "architecture" textValue facts.architecture) +
      membersBytes (optionalField "exceptionCode" bigintValue facts.exceptionCode) +
      membersBytes (optionalField "exceptionAddress" bigintValue facts.exceptionAddress) +
      membersBytes (optionalField "modules" modulesValue facts.modules) := by
    simp only [factsFields, membersBytes_append]
  have hobject := textBytes_jsonObject_le (isText_factsFields facts)
  show textBytes (jsonObject (factsFields facts)).text ≤ maxModuleMetadataBytes
  unfold maxModuleMetadataBytes at hmodules ⊢
  omega

/-- **The facts fit their budget.** The text of the facts of a file that the inspector accepts has
4 MiB at most. -/
theorem facts_fit (source : RandomAccessSource) (facts : MinidumpFacts)
    (h : inspect source = .ok facts) :
    textBytes (stringifyFacts facts) ≤ 4 * 1024 * 1024 := by
  unfold inspect runInspection at h
  have hwp := @gives_minidump source { reads := [], remaining := 0 } trivial
  unfold Prog.wp at hwp
  generalize inspectMinidump source { reads := [], remaining := 0 } = result at h hwp
  obtain ⟨outcome, s⟩ := result
  cases outcome with
  | error e => cases h
  | ok value =>
    cases h
    exact textBytes_facts_le hwp.2

namespace Sample

/-- One module, whose name is a surrogate without its pair. -/
def loneName : Bytes :=
  let signature : Bytes := [0x4D, 0x44, 0x4D, 0x50]
  let header := signature ++ [0x93, 0xA7, 0, 0, 1, 0, 0, 0, 32, 0, 0, 0] ++ List.replicate 16 0
  let directory : Bytes := [4, 0, 0, 0, 112, 0, 0, 0, 44, 0, 0, 0]
  let descriptor := List.replicate 20 0 ++ [156, 0, 0, 0] ++ List.replicate 84 0
  header ++ directory ++ [1, 0, 0, 0] ++ descriptor ++ [2, 0, 0, 0, 0, 0xD8]

def loneNameFacts : MinidumpFacts :=
  ⟨.unknown, 0, 0, 0, false, false, none, none, none, some [⟨some [0xD800], 0, 0, 0, none, none⟩]⟩

end Sample

/-- The name is written as an escape. -/
theorem facts_fit_lone :
    inspect (bufferSource Sample.loneName) = .ok Sample.loneNameFacts ∧
      textBytes (stringifyFacts Sample.loneNameFacts) ≤ 4 * 1024 * 1024 := by
  have haccepted : inspect (bufferSource Sample.loneName) = .ok Sample.loneNameFacts := by
    decide +kernel
  exact ⟨haccepted, facts_fit _ _ haccepted⟩

end DumpLedger.Minidump
