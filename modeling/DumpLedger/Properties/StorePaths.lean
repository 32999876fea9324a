import DumpLedger.Http.SymbolRoutes
import DumpLedger.Properties.ManifestFields
import DumpLedger.Properties.SymbolIds

/-!
# Names and identifiers in store paths

Both copies of the grammar let the same names through. An identifier that a parser has formatted is
one of capital hexadecimal digits, and not too long for a path. What is encoded as a path is decoded
again.
-/

namespace DumpLedger.Symbols

open Lib

/-! ## Names -/

theorem controlCharacterIndex_isSome {value : Units} :
    (controlCharacterIndex value).isSome = hasControlCharacter value := by
  rw [controlCharacterIndex, List.findIdx?_isSome, hasControlCharacter]
  rfl

/-- **The two copies of the grammar agree.** -/
theorem isBasenameSegment_iff {value : Units} :
    isBasenameSegment value = true ↔ storeSegmentProblem value = none := by
  unfold isBasenameSegment storeSegmentProblem segmentMaxLength
  rw [controlCharacterIndex_isSome]
  by_cases hempty : value = []
  · simp [hempty]
  by_cases hlength : 255 < (codePoints value).length
  · simp [hempty, hlength]
  by_cases hseparator : unitOf '/' ∈ value ∨ unitOf '\\' ∈ value
  · simp [hempty, hlength, hseparator]
  by_cases hdots : [unitOf '.', unitOf '.'] <:+: value
  · simp [hempty, hlength, hseparator, hdots]
  by_cases hedge : value.head? = some (unitOf '.') ∨ value.getLast? = some (unitOf '.')
  · simp [hempty, hlength, hseparator, hdots, hedge]
  by_cases hcontrol : hasControlCharacter value = true
  · simp [hempty, hlength, hseparator, hdots, hedge, hcontrol]
  · simp [hempty, hlength, hseparator, hdots, hedge, hcontrol]

theorem separator_notMem {value : Units} (h : storeSegmentProblem value = none) :
    unitOf '/' ∉ value := by
  intro hmem
  unfold storeSegmentProblem at h
  by_cases hempty : value = []
  · rw [hempty] at hmem
    exact absurd hmem List.not_mem_nil
  rw [if_neg hempty] at h
  by_cases hlength : segmentMaxLength < (codePoints value).length
  · rw [if_pos hlength] at h
    cases h
  rw [if_neg hlength, if_pos (Or.inl hmem)] at h
  cases h

/-! ## Identifiers -/

/-- Capital hexadecimal digits, as many as a path can carry. -/
structure IsStoreId (id : String) : Prop where
  digits : ∀ c ∈ id.toList, isUpperHex c = true
  minimum : 2 ≤ id.toList.length
  maximum : id.toList.length ≤ 64

theorem isUpperHex_bounds {c : Char} (h : isUpperHex c = true) :
    48 ≤ c.toNat ∧ c.toNat ≤ 57 ∨ 65 ≤ c.toNat ∧ c.toNat ≤ 70 := by
  unfold isUpperHex Char.isDigit at h
  simp only [Bool.or_eq_true, Bool.and_eq_true, decide_eq_true_eq, Char.le_def,
    UInt32.le_iff_toNat_le] at h
  exact h

/-- The digits that a capital one is the capital of. -/
theorem toUpper_bounds {c : Char} (h : isUpperHex c.toUpper = true) :
    48 ≤ c.toNat ∧ c.toNat ≤ 57 ∨ 65 ≤ c.toNat ∧ c.toNat ≤ 70 ∨
      97 ≤ c.toNat ∧ c.toNat ≤ 102 := by
  have hbounds := isUpperHex_bounds h
  unfold Char.toUpper at hbounds
  by_cases hlower : 'a'.val ≤ c.val ∧ c.val ≤ 'z'.val
  · rw [dif_pos hlower] at hbounds
    simp only [UInt32.le_iff_toNat_le] at hlower
    obtain ⟨hge, hle⟩ := hlower
    have ha : ('a' : Char).val.toNat = 97 := rfl
    have hz : ('z' : Char).val.toNat = 122 := rfl
    have hvalue : (c.val + ('A'.val - 'a'.val)).toNat = c.val.toNat - 32 := by
      rw [UInt32.toNat_add]
      have hdiff : ('A'.val - 'a'.val).toNat = 4294967264 := rfl
      rw [hdiff]
      omega
    have hnat : c.toNat = c.val.toNat := rfl
    change 48 ≤ (c.val + ('A'.val - 'a'.val)).toNat ∧ (c.val + ('A'.val - 'a'.val)).toNat ≤ 57 ∨
      65 ≤ (c.val + ('A'.val - 'a'.val)).toNat ∧
        (c.val + ('A'.val - 'a'.val)).toNat ≤ 70 at hbounds
    omega
  · rw [dif_neg hlower] at hbounds
    omega

/-- Each spelling of an identifier fits the pattern. -/
theorem isDebugId_of_toUpper {id spelling : String} (hid : IsStoreId id)
    (h : spelling.toUpper = id) : isDebugId (utf16 spelling) = true := by
  have hlist : spelling.toList.map Char.toUpper = id.toList := by
    rw [← h, String.toUpper, String.toList_map]
  have hdigit : ∀ c ∈ spelling.toList, 48 ≤ c.toNat ∧ c.toNat ≤ 57 ∨
      65 ≤ c.toNat ∧ c.toNat ≤ 70 ∨ 97 ≤ c.toNat ∧ c.toNat ≤ 102 := by
    intro c hc
    refine toUpper_bounds (hid.digits _ ?_)
    rw [← hlist]
    exact List.mem_map_of_mem hc
  have hascii : ∀ c ∈ spelling.toList, c.toNat < 128 := by
    intro c hc
    have := hdigit c hc
    omega
  have hlength : spelling.toList.length = id.toList.length := by
    rw [← hlist, List.length_map]
  have hminimum := hid.minimum
  have hmaximum := hid.maximum
  unfold isDebugId
  rw [Bool.and_eq_true, Bool.and_eq_true, decide_eq_true_eq, decide_eq_true_eq,
    List.all_eq_true, length_utf16_ascii hascii, utf16_ascii hascii]
  refine ⟨⟨by omega, by omega⟩, ?_⟩
  intro u hu
  obtain ⟨c, hc, rfl⟩ := List.mem_map.mp hu
  have hbounds := hdigit c hc
  have hunit : (unitOf c).toNat = c.toNat := by
    have := hascii c hc
    simp only [unitOf, Nat.toUInt16_eq, UInt16.toNat_ofNat']
    omega
  simp only [isHexUnit, hunit, Bool.or_eq_true, Bool.and_eq_true, decide_eq_true_eq]
  omega

theorem toUpper_of_upperHex {c : Char} (h : isUpperHex c = true) : c.toUpper = c := by
  have hbounds := isUpperHex_bounds h
  unfold Char.toUpper
  refine dif_neg ?_
  simp only [UInt32.le_iff_toNat_le]
  rintro ⟨hge, -⟩
  have ha : ('a' : Char).val.toNat = 97 := rfl
  have hnat : c.toNat = c.val.toNat := rfl
  omega

/-- An identifier is its own canonical spelling. -/
theorem IsStoreId.toUpper {id : String} (h : IsStoreId id) : id.toUpper = id := by
  refine String.toList_injective ?_
  rw [String.toUpper, String.toList_map]
  calc
    id.toList.map Char.toUpper = id.toList.map (fun c => c) :=
      List.map_congr_left fun c hc => toUpper_of_upperHex (h.digits c hc)
    _ = id.toList := List.map_id' id.toList

theorem length_hexText_le {width value size : Nat} (hwidth : width ≤ size) (hsize : 0 < size)
    (h : value < 16 ^ size) : width ≤ (hexText width value).length ∧
      (hexText width value).length ≤ size := by
  have hdigits := (Nat.length_toDigits_le_iff (b := 16) (by decide) hsize).mpr h
  unfold hexText
  rw [List.length_leftpad, List.length_map]
  omega

theorem hexBytes_isUpperHex {bytes : Bytes} {c : Char} (h : c ∈ hexBytes bytes) :
    isUpperHex c = true := by
  obtain ⟨b, -, hb⟩ := List.mem_flatMap.mp h
  exact hexText_isUpperHex hb

theorem isStoreId_formatSymsrvDebugId {guid : Bytes} {age : Nat} (hguid : guid.length = 16)
    (hage : age < 16 ^ 8) : IsStoreId (DumpLedger.formatSymsrvDebugId guid age) := by
  have hdata1 : (hexText 8 (uintLE guid 0 4)).length = 8 :=
    @length_hexText_uintLE guid 0 4 (by decide)
  have hdata2 : (hexText 4 (uintLE guid 4 2)).length = 4 :=
    @length_hexText_uintLE guid 4 2 (by decide)
  have hdata3 : (hexText 4 (uintLE guid 6 2)).length = 4 :=
    @length_hexText_uintLE guid 6 2 (by decide)
  have hdata4 : (hexBytes (window guid 8 8)).length = 16 := by
    rw [length_hexBytes, length_window (by omega)]
  obtain ⟨hagemin, hagemax⟩ := length_hexText_le (by decide : 1 ≤ 8) (by decide) hage
  have hlist := toList_formatSymsrvDebugId guid age
  have hlength : (DumpLedger.formatSymsrvDebugId guid age).toList.length =
      32 + (hexText 1 age).length := by
    rw [hlist]
    simp only [List.length_append, hdata1, hdata2, hdata3, hdata4]
  refine ⟨?_, by omega, by omega⟩
  intro c hc
  rw [hlist] at hc
  simp only [List.mem_append] at hc
  rcases hc with (((hc | hc) | hc) | hc) | hc
  · exact hexText_isUpperHex hc
  · exact hexText_isUpperHex hc
  · exact hexText_isUpperHex hc
  · exact hexBytes_isUpperHex hc
  · exact hexText_isUpperHex hc

theorem isStoreId_formatPeCodeId {timestamp sizeOfImage : Nat} (ht : timestamp < 16 ^ 8)
    (hs : sizeOfImage < 16 ^ 8) : IsStoreId (formatPeCodeId timestamp sizeOfImage) := by
  have htime : (hexText 8 timestamp).length = 8 := length_hexText (by decide) ht
  obtain ⟨hmin, hmax⟩ := length_hexText_le (by decide : 1 ≤ 8) (by decide) hs
  have hlist : (formatPeCodeId timestamp sizeOfImage).toList =
      hexText 8 timestamp ++ hexText 1 sizeOfImage := by
    rw [formatPeCodeId, String.toList_append, toList_upperHex, toList_upperHex]
  have hlength := congrArg List.length hlist
  rw [List.length_append, htime] at hlength
  refine ⟨?_, by omega, by omega⟩
  intro c hc
  rw [hlist, List.mem_append] at hc
  rcases hc with hc | hc <;> exact hexText_isUpperHex hc

/-! ## Paths -/

theorem separator_notMem_id {id : Units} (h : isDebugId id = true) : unitOf '/' ∉ id := by
  intro hmem
  unfold isDebugId at h
  rw [Bool.and_eq_true] at h
  exact absurd (List.all_eq_true.mp h.2 _ hmem) (by decide)

/-- **What is encoded is decoded again.** -/
theorem decodeStorePath_encode {name id : Units} (hname : storeSegmentProblem name = none)
    (hid : isDebugId id = true) :
    ∃ path, encodeStorePath name id = .ok path ∧ decodeStorePath path = some ⟨name, id, name⟩ := by
  refine ⟨name ++ unitOf '/' :: id ++ unitOf '/' :: name, ?_, ?_⟩
  · unfold encodeStorePath
    rw [hname]
    exact if_pos hid
  · have hsplit : (name ++ unitOf '/' :: id ++ unitOf '/' :: name).splitOn (unitOf '/') =
        [name, id, name] := by
      rw [List.append_assoc, List.cons_append,
        List.splitOn_append_cons_self_of_not_mem (separator_notMem hname),
        List.splitOn_append_cons_self_of_not_mem (separator_notMem_id hid),
        List.splitOn_eq_singleton (separator_notMem hname)]
    unfold decodeStorePath
    rw [hsplit]
    simp only [hname, Option.isSome_none, Bool.false_eq_true, if_false, hid, if_true]

/-! ## Identities of staged files -/

section Staged

variable {g : Ingest} {staged : Bytes} {fault : Option Nat}

theorem identityOrUndefined_eq_some {α : Type} {x : Parse α} {identity : α}
    (h : identityOrUndefined x fault = .ok (some identity)) :
    ¬ readFails x fault ∧ (x.run .start).1 = .ok (some identity) := by
  unfold identityOrUndefined at h
  by_cases hfails : readFails x fault
  · rw [if_pos hfails] at h
    cases h
  · rw [if_neg hfails] at h
    refine ⟨hfails, ?_⟩
    generalize (x.run .start).1 = out at h ⊢
    cases out with
    | ok o =>
      cases h
      rfl
    | error e => cases e <;> cases h

/-- Only a read that fails is thrown on. -/
theorem identityOrUndefined_eq_error {α : Type} {allowed : ReadRequest → Prop} {file : Bytes}
    {x : Parse α} (hx : Contained allowed file (x.run .start)) :
    (∃ e, identityOrUndefined x fault = .error e) ↔ readFails x fault := by
  unfold identityOrUndefined
  by_cases hfails : readFails x fault
  · rw [if_pos hfails]
    exact ⟨fun _ => hfails, fun _ => ⟨_, rfl⟩⟩
  · rw [if_neg hfails]
    refine ⟨?_, fun h => absurd h hfails⟩
    rintro ⟨e, h⟩
    have hdeclared := hx.declared
    generalize (x.run .start).1 = out at h hdeclared
    cases out with
    | ok o => cases h
    | error e' =>
      obtain ⟨message, rfl | rfl⟩ := hdeclared e' rfl <;> cases h

/-- The read of the staged bytes throws at some point. -/
def StagedReadFails (g : Ingest) (staged : Bytes) (fault : Option Nat) : Prop :=
  match g.kind with
  | .pdb => readFails (parsePdbIdentityFrom (byteReaderOf staged) (utf16 g.originalName)) fault
  | .exe => readFails (parsePeIdentityFrom (byteReaderOf staged) (utf16 g.originalName)) fault

theorem mapped_eq_error {α β : Type} {x : Except Thrown α} {f : α → β} :
    (∃ e, (do return f (← x) : Except Thrown β) = .error e) ↔ ∃ e, x = .error e := by
  cases x with
  | ok a =>
    constructor
    · rintro ⟨e, h⟩
      cases h
    · rintro ⟨e, h⟩
      cases h
  | error e => exact ⟨fun _ => ⟨e, rfl⟩, fun _ => ⟨e, rfl⟩⟩

theorem stagedIdentity_eq_error :
    (∃ e, stagedIdentity g staged fault = .error e) ↔ StagedReadFails g staged fault := by
  obtain ⟨hpdb, hpe, -⟩ :=
    symbol_parsers_contained staged (byteReaderOf staged) (utf16 g.originalName) []
  unfold stagedIdentity StagedReadFails
  cases g.kind with
  | pdb =>
    dsimp only
    rw [← identityOrUndefined_eq_error hpdb]
    exact mapped_eq_error
  | exe =>
    dsimp only
    rw [← identityOrUndefined_eq_error hpe]
    exact mapped_eq_error

/-- An identity that can be stored under the name of the file. -/
structure Named (g : Ingest) (identity : SymbolIngestIdentity) : Prop where
  file : identity.file = g.originalName
  segment : storeSegmentProblem (utf16 g.originalName) = none
  id : IsStoreId identity.id

theorem stagedIdentity_named {identity : SymbolIngestIdentity}
    (h : stagedIdentity g staged fault = .ok (some identity)) : Named g identity := by
  unfold stagedIdentity at h
  cases hkind : g.kind with
  | pdb =>
    rw [hkind] at h
    obtain ⟨parsed, hparsed, h⟩ := bind_eq_ok.mp h
    obtain ⟨pdb, rfl, rfl⟩ := Option.map_eq_some_iff.mp (pure_eq_ok.mp h)
    obtain ⟨-, hrun⟩ := identityOrUndefined_eq_some hparsed
    have hrun := run_of_fst hrun
    obtain ⟨-, hname⟩ := Walks.result
      (parses_parsePdbIdentityFrom fun _ hr => hr) bounded_start hrun
    obtain ⟨hfile, hsegment⟩ := hname pdb rfl
    obtain ⟨s, directory, hused⟩ := used_of_run hrun
    obtain ⟨-, -, -, header, hlength, -, hid⟩ := hused.read
    unfold pdbInfoHeaderBytes at hlength
    refine ⟨?_, hsegment, ?_⟩
    · rw [hfile, toText_utf16]
    · show IsStoreId pdb.debugId
      rw [hid]
      exact isStoreId_formatSymsrvDebugId (length_window (by omega)) (uintLE_lt _ _ 4)
  | exe =>
    rw [hkind] at h
    obtain ⟨parsed, hparsed, h⟩ := bind_eq_ok.mp h
    obtain ⟨image, rfl, rfl⟩ := Option.map_eq_some_iff.mp (pure_eq_ok.mp h)
    obtain ⟨-, hrun⟩ := identityOrUndefined_eq_some hparsed
    obtain ⟨-, hname⟩ := Walks.result parses_parsePeIdentityFrom bounded_start (run_of_fst hrun)
    obtain ⟨rfl, hsegment⟩ := hname image rfl
    refine ⟨?_, hsegment, ?_⟩
    · rw [toText_utf16]
    · exact isStoreId_formatPeCodeId (uintLE_lt _ _ 4) (uintLE_lt _ _ 4)

/-- Without a failing read the identity is the one of the bytes. -/
theorem stagedIdentity_of_ok {o : Option SymbolIngestIdentity}
    (h : stagedIdentity g staged fault = .ok o) : stagedIdentity g staged none = .ok o := by
  have hnone : ∀ {α : Type} (x : Parse α) (out : Option α),
      identityOrUndefined x fault = .ok out → identityOrUndefined x none = .ok out := by
    intro α x out hx
    unfold identityOrUndefined at hx ⊢
    rw [if_neg (by rintro ⟨_, hmem, -⟩; cases hmem)]
    by_cases hfails : readFails x fault
    · rw [if_pos hfails] at hx
      cases hx
    · rwa [if_neg hfails] at hx
  unfold stagedIdentity at h ⊢
  cases hkind : g.kind with
  | pdb =>
    rw [hkind] at h
    obtain ⟨parsed, hparsed, hmap⟩ := bind_eq_ok.mp h
    exact bind_eq_ok.mpr ⟨parsed, hnone _ _ hparsed, hmap⟩
  | exe =>
    rw [hkind] at h
    obtain ⟨parsed, hparsed, hmap⟩ := bind_eq_ok.mp h
    exact bind_eq_ok.mpr ⟨parsed, hnone _ _ hparsed, hmap⟩

end Staged

end DumpLedger.Symbols
