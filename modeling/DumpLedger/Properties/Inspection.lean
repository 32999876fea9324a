import DumpLedger.Inspection.Minidump

/-!
# What the inspector vouches for

The inspector works on a hostile file. It reads within the file and in small pieces, it always
comes to a result, and what it says of a file it accepts is what the file declares.

`Declares` is that last part, said about the bytes alone: the directory, the streams and the
two lists of captured memory as the format lays them out.

One check is weaker than it looks. The signature is compared as text that was decoded as ASCII,
which drops the high bit of every byte, so bytes that differ from the signature in their high
bits pass for it.
-/

namespace DumpLedger.Minidump

open Lib

/-! ## What a file declares -/

section Layout

variable (bytes : Bytes)

/-- The number of streams. -/
def streamCount : Nat := uintLE bytes 8 4

def directoryEntryAt (index : Nat) : DirectoryEntry :=
  let offset := uintLE bytes 12 4 + index * directoryEntrySize
  { type := uintLE bytes offset 4, dataSize := uintLE bytes (offset + 4) 4,
    rva := uintLE bytes (offset + 8) 4 }

/-- The stream directory. -/
def directory : List DirectoryEntry :=
  (List.range (streamCount bytes)).map (directoryEntryAt bytes)

def memoryRangeAt (entry : DirectoryEntry) (index : Nat) : Nat × Nat :=
  let offset := entry.rva + (4 + index * 16)
  (uintLE bytes (offset + 12) 4, uintLE bytes (offset + 8) 4)

/-- The payloads of a memory list, by offset and size. -/
def memoryRanges (entry : DirectoryEntry) : List (Nat × Nat) :=
  (List.range (uintLE bytes entry.rva 4)).map (memoryRangeAt bytes entry)

def memory64SizeAt (entry : DirectoryEntry) (index : Nat) : Nat :=
  uintLE bytes (entry.rva + (16 + index * 16) + 8) 8

/-- Payloads that follow one another. -/
def consecutive : Nat → List Nat → List (Nat × Nat)
  | _, [] => []
  | offset, size :: sizes => (offset, size) :: consecutive (offset + size) sizes

/-- The payloads of a 64-bit memory list, which lie one behind the other. -/
def memory64Ranges (entry : DirectoryEntry) : List (Nat × Nat) :=
  consecutive (uintLE bytes (entry.rva + 8) 8)
    ((List.range (uintLE bytes entry.rva 8)).map (memory64SizeAt bytes entry))

/-- The captured memory of a file. -/
def payloads : List (Nat × Nat) :=
  ((findEntry (directory bytes) StreamType.memoryList).elim [] (memoryRanges bytes)) ++
    (findEntry (directory bytes) StreamType.memory64List).elim [] (memory64Ranges bytes)

/-- The header declares the full memory of the process. -/
def DeclaresFullMemory : Prop := (uintLE bytes 24 8).testBit 1 = true

def HasMemoryStream : Prop :=
  ∃ entry ∈ directory bytes,
    entry.type = StreamType.memoryList ∨ entry.type = StreamType.memory64List

/-- The facts are those of a file with a sound structure. -/
structure Declares (facts : MinidumpFacts) : Prop where
  version : uintLE bytes 4 2 = minidumpVersion
  directory_within : uintLE bytes 12 4 + streamCount bytes * directoryEntrySize ≤ bytes.length
  streams_within : ∀ entry ∈ directory bytes, 0 < entry.dataSize →
    entry.rva + entry.dataSize ≤ bytes.length
  critical_once : (((directory bytes).map DirectoryEntry.type).filter
    fun type => decide (type ∈ criticalStreamTypes)).Nodup
  payloads_within : ∀ payload ∈ payloads bytes, payload.1 + payload.2 ≤ bytes.length
  ranges : facts.memoryRangeCount = (payloads bytes).length
  captured : facts.capturedMemoryBytes = ((payloads bytes).map Prod.snd).sum
  captured_fits : facts.capturedMemoryBytes < 2 ^ 64
  full : facts.coverage = .fullMemoryDeclared ↔ DeclaresFullMemory bytes
  part : facts.coverage = .partialMemory ↔ ¬DeclaresFullMemory bytes ∧ HasMemoryStream bytes
  unknown : facts.coverage = .unknown ↔ ¬DeclaresFullMemory bytes ∧ ¬HasMemoryStream bytes

end Layout

/-! ## Reading records -/

section Records

variable {bytes : Bytes} {source : RandomAccessSource}

theorem inspects_requireStreamBytes (entry : DirectoryEntry) (required : Nat) (context : String) :
    Inspects bytes (requireStreamBytes entry required context) fun _ =>
      required ≤ entry.dataSize :=
  inspects_require (by decide)

/-- The offset of a record in a table. -/
theorem inspects_position {β : Type} {P : β → Prop} {base first index size : Nat}
    {context : String} {next : Nat → Inspect β}
    (h : Inspects bytes (next (base + (first + index * size))) P) :
    Inspects bytes (do
      let position ← checkedMultiply index size context
      let position ← checkedAdd first position context
      let offset ← checkedAdd base position context
      next offset) P := by
  refine (inspects_checkedMultiply index size context).bind ?_
  rintro _ ⟨rfl, -⟩
  refine (inspects_checkedAdd first _ context).bind ?_
  rintro _ ⟨rfl, -⟩
  refine (inspects_checkedAdd base _ context).bind ?_
  rintro _ ⟨rfl, -⟩
  exact h

/-- A stream that is absent is not looked at. -/
theorem inspects_stream {α : Type} {stream : Option DirectoryEntry}
    {inspect : DirectoryEntry → Inspect α} {P : DirectoryEntry → α → Prop}
    (h : ∀ entry, Inspects bytes (inspect entry) (P entry)) :
    Inspects bytes (inspectStream stream inspect) fun result =>
      match stream with
      | none => result = none
      | some entry => ∃ a, result = some a ∧ P entry a := by
  cases stream with
  | none => exact Prog.Keeps.pure rfl
  | some entry =>
    refine (h entry).bind ?_
    intro a ha
    exact Prog.Keeps.pure ⟨a, rfl, ha⟩

/-! ### Memory -/

theorem inspects_memoryList (hsource : source.Serves bytes) (entry : DirectoryEntry) :
    Inspects bytes (inspectMemoryList source entry) fun facts =>
      facts.ranges = (memoryRanges bytes entry).length ∧
        facts.bytes = ((memoryRanges bytes entry).map Prod.snd).sum ∧
          ∀ payload ∈ memoryRanges bytes entry, payload.1 + payload.2 ≤ bytes.length := by
  refine (inspects_requireStreamBytes entry 4 _).bind ?_
  intro _ _
  refine (inspects_readExact hsource entry.rva 4 _).bind ?_
  rintro _ ⟨-, rfl⟩
  refine (inspects_require (by decide)).bind ?_
  intro _ _
  refine (inspects_checkedMultiply _ 16 _).bind ?_
  rintro _ -
  refine (inspects_checkedAdd 4 _ _).bind ?_
  rintro _ -
  refine (inspects_requireStreamBytes entry _ _).bind ?_
  intro _ _
  have hcount : uintLE (window bytes entry.rva 4) 0 4 = uintLE bytes entry.rva 4 :=
    uintLE_window (by decide)
  rw [hcount]
  -- what is captured so far is the sum of the ranges that are done, each within the file
  refine (Prog.Keeps.foldEach (List.range (uintLE bytes entry.rva 4))
    (fun done captured => captured = ((done.map (memoryRangeAt bytes entry)).map Prod.snd).sum ∧
      ∀ payload ∈ done.map (memoryRangeAt bytes entry), payload.1 + payload.2 ≤ bytes.length)
    ?_ ⟨rfl, by simp⟩).bind ?_
  · rintro done index rest captured - ⟨rfl, hdone⟩
    refine inspects_position ?_
    refine (inspects_readExact hsource _ 16 _).bind ?_
    rintro _ ⟨-, rfl⟩
    refine (inspects_checkedAdd _ _ _).bind ?_
    rintro _ -
    refine (inspects_ensureRange hsource _ _ _).bind ?_
    intro _ hrange
    rw [uintLE_window (by decide), uintLE_window (by decide)] at hrange
    refine (inspects_checkedAdd _ _ _).mono ?_
    rintro _ ⟨rfl, -⟩
    rw [uintLE_window (by decide)]
    refine ⟨by simp [memoryRangeAt], ?_⟩
    intro payload hpayload
    rw [List.map_append, List.mem_append] at hpayload
    rcases hpayload with hpayload | hpayload
    · exact hdone payload hpayload
    · obtain rfl : payload = memoryRangeAt bytes entry index := by simpa using hpayload
      exact hrange
  · rintro captured ⟨rfl, hwithin⟩
    exact Prog.Keeps.pure ⟨by simp [memoryRanges], rfl, hwithin⟩

theorem consecutive_within {limit : Nat} : ∀ {offset : Nat} {sizes : List Nat},
    offset + sizes.sum ≤ limit →
      ∀ payload ∈ consecutive offset sizes, payload.1 + payload.2 ≤ limit
  | _, [], _ => by simp [consecutive]
  | offset, size :: sizes, h => by
    rw [List.sum_cons] at h
    intro payload hpayload
    rw [consecutive, List.mem_cons] at hpayload
    rcases hpayload with rfl | hpayload
    · dsimp only
      omega
    · have hrest : offset + size + sizes.sum ≤ limit := by omega
      exact consecutive_within hrest payload hpayload

theorem consecutive_sizes : ∀ (offset : Nat) (sizes : List Nat),
    (consecutive offset sizes).map Prod.snd = sizes
  | _, [] => rfl
  | offset, size :: sizes => by
    rw [consecutive, List.map_cons, consecutive_sizes]

theorem inspects_memory64List (hsource : source.Serves bytes) (entry : DirectoryEntry) :
    Inspects bytes (inspectMemory64List source entry) fun facts =>
      facts.ranges = (memory64Ranges bytes entry).length ∧
        facts.bytes = ((memory64Ranges bytes entry).map Prod.snd).sum ∧
          ∀ payload ∈ memory64Ranges bytes entry, payload.1 + payload.2 ≤ bytes.length := by
  refine (inspects_requireStreamBytes entry 16 _).bind ?_
  intro _ _
  refine (inspects_readExact hsource entry.rva 16 _).bind ?_
  rintro _ ⟨-, rfl⟩
  refine (inspects_require (by decide)).bind ?_
  intro _ _
  refine (inspects_checkedMultiply _ 16 _).bind ?_
  rintro _ -
  refine (inspects_checkedAdd 16 _ _).bind ?_
  rintro _ -
  refine (inspects_requireStreamBytes entry _ _).bind ?_
  intro _ _
  have hcount : uintLE (window bytes entry.rva 16) 0 8 = uintLE bytes entry.rva 8 :=
    uintLE_window (by decide)
  have hbase : uintLE (window bytes entry.rva 16) 8 8 = uintLE bytes (entry.rva + 8) 8 :=
    uintLE_window (by decide)
  rw [hcount, hbase]
  refine (Prog.Keeps.foldEach (List.range (uintLE bytes entry.rva 8))
    (fun done captured => captured = (done.map (memory64SizeAt bytes entry)).sum) ?_ rfl).bind ?_
  · rintro done index rest captured - rfl
    refine inspects_position ?_
    refine (inspects_readExact hsource _ 16 _).bind ?_
    rintro _ ⟨-, rfl⟩
    refine (inspects_checkedAdd _ _ _).bind ?_
    rintro _ -
    refine (inspects_checkedAdd _ _ _).mono ?_
    rintro _ ⟨rfl, -⟩
    rw [uintLE_window (by decide)]
    simp [memory64SizeAt]
  · rintro captured rfl
    refine (inspects_ensureRange hsource _ _ _).bind ?_
    intro _ hrange
    refine Prog.Keeps.pure ⟨?_, ?_, consecutive_within hrange⟩
    · have hlength := congrArg List.length (consecutive_sizes (uintLE bytes (entry.rva + 8) 8)
        ((List.range (uintLE bytes entry.rva 8)).map (memory64SizeAt bytes entry)))
      simpa [memory64Ranges] using hlength.symm
    · rw [memory64Ranges, consecutive_sizes]

theorem inspects_memoryInfoList (hsource : source.Serves bytes) (entry : DirectoryEntry) :
    Inspects bytes (inspectMemoryInfoList source entry) fun _ => True := by
  refine (inspects_requireStreamBytes entry 16 _).bind ?_
  intro _ _
  refine (inspects_readExact hsource entry.rva 16 _).bind ?_
  intro _ _
  refine (inspects_require (by decide)).bind ?_
  intro _ _
  refine (inspects_require (by decide)).bind ?_
  intro _ _
  refine (inspects_checkedMultiply _ _ _).bind ?_
  intro _ _
  refine (inspects_checkedAdd _ _ _).bind ?_
  intro _ _
  exact (inspects_requireStreamBytes entry _ _).mono fun _ _ => trivial

/-! ### The other streams -/

theorem inspects_architecture (hsource : source.Serves bytes) (entry : DirectoryEntry) :
    Inspects bytes (inspectArchitecture source entry) fun _ => True := by
  refine (inspects_requireStreamBytes entry 56 _).bind ?_
  intro _ _
  refine (inspects_readExact hsource entry.rva 2 _).bind ?_
  intro _ _
  exact Prog.Keeps.pure trivial

theorem inspects_exception (hsource : source.Serves bytes) (entry : DirectoryEntry) :
    Inspects bytes (inspectException source entry) fun _ => True := by
  refine (inspects_requireStreamBytes entry 160 _).bind ?_
  intro _ _
  refine (inspects_readExact hsource entry.rva 36 _).bind ?_
  intro _ _
  refine (inspects_require (by decide)).bind ?_
  intro _ _
  exact Prog.Keeps.pure trivial

/-- The budget is no read. -/
theorem inspects_budget (f : InspectionState → InspectionState)
    (hf : ∀ s, (f s).reads = s.reads) :
    Inspects bytes (Prog.modify f : Inspect Unit) fun _ => True := by
  intro s hs
  rw [Prog.wp_modify]
  refine ⟨?_, trivial⟩
  intro read hread
  rw [hf] at hread
  exact hs read hread

theorem inspects_consume (amount : Nat) : Inspects bytes (consume amount) fun _ => True := by
  have hgets : Inspects bytes (Prog.gets InspectionState.remaining) fun _ => True :=
    fun s hs => ⟨hs, trivial⟩
  refine hgets.bind ?_
  intro _ _
  refine (inspects_require (by decide)).bind ?_
  intro _ _
  exact inspects_budget _ fun _ => rfl

theorem inspects_newBudget : Inspects bytes newBudget fun _ => True :=
  inspects_budget _ fun _ => rfl

theorem inspects_string (hsource : source.Serves bytes) (rva : Nat) :
    Inspects bytes (readMinidumpString source rva) fun _ => True := by
  refine (inspects_readExact hsource rva 4 _).bind ?_
  intro _ _
  refine (inspects_require (by decide)).bind ?_
  intro _ _
  refine (inspects_require (by decide)).bind ?_
  intro _ _
  refine (inspects_checkedAdd _ _ _).bind ?_
  intro _ _
  refine (inspects_consume _).bind ?_
  intro _ _
  refine (inspects_readExact hsource _ _ _).bind ?_
  intro _ _
  exact Prog.Keeps.pure trivial

theorem inspects_codeView (hsource : source.Serves bytes) (descriptor : Bytes) :
    Inspects bytes (readCodeViewIdentity source descriptor) fun _ => True := by
  unfold readCodeViewIdentity
  dsimp only
  split
  · exact Prog.Keeps.pure trivial
  · refine (inspects_consume _).bind ?_
    intro _ _
    -- a record that cannot be read leaves the module without an identity
    refine Prog.Keeps.tryCatch ((inspects_readExact hsource _ _ _).bind ?_) ?_
    · intro _ _
      exact Prog.Keeps.pure trivial
    · intro _ _
      exact Prog.Keeps.pure trivial

theorem inspects_moduleName (hsource : source.Serves bytes) (nameRva : Nat) :
    Inspects bytes (readModuleName source nameRva) fun _ => True := by
  unfold readModuleName
  split
  · exact Prog.Keeps.pure trivial
  · refine (inspects_string hsource nameRva).bind ?_
    intro _ _
    exact Prog.Keeps.pure trivial

theorem inspects_module (hsource : source.Serves bytes) (rva index : Nat) :
    Inspects bytes (inspectModule source rva index) fun _ => True := by
  refine inspects_position ?_
  refine (inspects_readExact hsource _ 108 _).bind ?_
  intro _ _
  refine (inspects_moduleName hsource _).bind ?_
  intro _ _
  refine (inspects_codeView hsource _).bind ?_
  intro _ _
  exact Prog.Keeps.pure trivial

theorem inspects_modules (hsource : source.Serves bytes) (entry : DirectoryEntry) :
    Inspects bytes (inspectModules source entry) fun _ => True := by
  refine (inspects_requireStreamBytes entry 4 _).bind ?_
  intro _ _
  refine (inspects_readExact hsource entry.rva 4 _).bind ?_
  intro _ _
  refine (inspects_require (by decide)).bind ?_
  intro _ _
  refine (inspects_checkedMultiply _ 108 _).bind ?_
  intro _ _
  refine (inspects_checkedAdd 4 _ _).bind ?_
  intro _ _
  refine (inspects_requireStreamBytes entry _ _).bind ?_
  intro _ _
  refine inspects_newBudget.bind ?_
  intro _ _
  refine (inspects_consume _).bind ?_
  intro _ _
  refine Prog.Keeps.foldEach _ (fun _ _ => True) ?_ trivial
  intro _ index _ _ _ _
  refine (inspects_module hsource _ index).bind ?_
  intro _ _
  exact Prog.Keeps.pure trivial

/-! ### The directory -/

/-- The directory as far as it is read. -/
structure Scanned (bytes : Bytes) (done : List Nat) (scan : DirectoryScan) : Prop where
  entries : scan.entries = done.map (directoryEntryAt bytes)
  within : ∀ entry ∈ scan.entries, 0 < entry.dataSize →
    entry.rva + entry.dataSize ≤ bytes.length
  seen : scan.seenCritical = (scan.entries.map DirectoryEntry.type).filter
    fun type => decide (type ∈ criticalStreamTypes)
  once : scan.seenCritical.Nodup

theorem scanned_concat {done : List Nat} {scan : DirectoryScan} {index : Nat} {seen : List Nat}
    (h : Scanned bytes done scan)
    (hwithin : 0 < (directoryEntryAt bytes index).dataSize →
      (directoryEntryAt bytes index).rva + (directoryEntryAt bytes index).dataSize ≤ bytes.length)
    (hseen : seen = scan.seenCritical ++ [(directoryEntryAt bytes index).type].filter
      fun type => decide (type ∈ criticalStreamTypes))
    (honce : seen.Nodup) :
    Scanned bytes (done ++ [index])
      { entries := scan.entries ++ [directoryEntryAt bytes index], seenCritical := seen } := by
  refine ⟨by simp [h.entries], ?_, ?_, honce⟩
  · intro entry hentry
    rcases List.mem_append.mp hentry with hentry | hentry
    · exact h.within entry hentry
    · obtain rfl := List.mem_singleton.mp hentry
      exact hwithin
  · rw [hseen, h.seen, List.map_append, List.filter_append, List.map_singleton]

theorem inspects_streamData (hsource : source.Serves bytes) (entry : DirectoryEntry) :
    Inspects bytes (ensureStreamData source entry) fun _ =>
      0 < entry.dataSize → entry.rva + entry.dataSize ≤ bytes.length := by
  unfold ensureStreamData
  split
  · exact (inspects_ensureRange hsource _ _ _).mono fun _ hle _ => hle
  · next hzero => exact Prog.Keeps.pure fun hpos => absurd hpos hzero

theorem inspects_addCritical {seen : List Nat} (hseen : seen.Nodup) (entry : DirectoryEntry) :
    Inspects bytes (addCritical seen entry) fun seen' =>
      seen' = seen ++ [entry.type].filter (fun type => decide (type ∈ criticalStreamTypes)) ∧
        seen'.Nodup := by
  unfold addCritical
  split
  · next hcritical =>
    refine (inspects_require (by decide)).bind ?_
    intro _ hnew
    refine Prog.Keeps.pure ⟨by simp [hcritical], ?_⟩
    refine List.nodup_append.mpr ⟨hseen, List.nodup_singleton _, ?_⟩
    intro type htype type' htype' heq
    obtain rfl := List.mem_singleton.mp htype'
    exact hnew (heq ▸ htype)
  · next hcritical => exact Prog.Keeps.pure ⟨by simp [hcritical], hseen⟩

theorem parseDirectoryEntry_window (index : Nat) :
    parseDirectoryEntry (window bytes (uintLE bytes 12 4 + index * directoryEntrySize)
      directoryEntrySize) = directoryEntryAt bytes index := by
  unfold parseDirectoryEntry
  rw [uintLE_window (by decide), uintLE_window (by decide), uintLE_window (by decide)]
  rfl

theorem inspects_directoryEntry (hsource : source.Serves bytes) {done : List Nat}
    {scan : DirectoryScan} (h : Scanned bytes done scan) (index : Nat) :
    Inspects bytes (readDirectoryEntry source (uintLE bytes 12 4) scan index)
      (Scanned bytes (done ++ [index])) := by
  refine (inspects_checkedMultiply index directoryEntrySize _).bind ?_
  rintro _ ⟨rfl, -⟩
  refine (inspects_checkedAdd _ _ _).bind ?_
  rintro _ ⟨rfl, -⟩
  refine (inspects_readExact hsource _ directoryEntrySize _).bind ?_
  rintro _ ⟨-, rfl⟩
  rw [parseDirectoryEntry_window]
  refine (inspects_streamData hsource _).bind ?_
  intro _ hwithin
  refine (inspects_addCritical h.once _).bind ?_
  rintro _ ⟨hseen, honce⟩
  exact Prog.Keeps.pure (scanned_concat h hwithin hseen honce)

theorem inspects_directory (hsource : source.Serves bytes) :
    Inspects bytes (forIndex (streamCount bytes) ⟨[], []⟩
      (readDirectoryEntry source (uintLE bytes 12 4)))
      (Scanned bytes (List.range (streamCount bytes))) := by
  refine Prog.Keeps.foldEach _ (Scanned bytes) ?_ ⟨rfl, by simp, rfl, List.nodup_nil⟩
  intro done index _ scan _ h
  exact inspects_directoryEntry hsource h index

end Records

/-! ## The whole file -/

section Files

variable {bytes : Bytes} {source : RandomAccessSource}

/-- The bytes `4D 44 4D 50`. -/
def signature : Bytes := [0x4D, 0x44, 0x4D, 0x50]

/-- No byte of the signature has its high bit set. -/
def PlainSignature (bytes : Bytes) : Prop := ∀ byte ∈ window bytes 0 4, byte.toNat < 128

theorem asciiText_toNat (bs : Bytes) :
    (asciiText bs).toList.map Char.toNat = bs.map fun byte => byte.toNat % 128 := by
  unfold asciiText
  rw [String.toList_ofList, List.map_map]
  refine List.map_congr_left ?_
  intro byte _
  have hand : (byte &&& 0x7f).toNat = byte.toNat % 128 := by
    rw [UInt8.toNat_and]
    exact Nat.and_two_pow_sub_one_eq_mod byte.toNat 7
  have hvalid : (byte.toNat % 128).isValidChar := Or.inl (by omega)
  rw [Function.comp_apply, hand, Char.ofNat, dif_pos hvalid]
  exact Char.toNat_ofNatAux hvalid

/-- Text that is decoded without high bits is the signature only if there are none. -/
theorem signature_of_asciiText {bs : Bytes} (h : asciiText bs = "MDMP")
    (hplain : ∀ byte ∈ bs, byte.toNat < 128) : bs = signature := by
  have htext := asciiText_toNat bs
  rw [h] at htext
  have hsame : bs.map (fun byte => byte.toNat % 128) = bs.map UInt8.toNat :=
    List.map_congr_left fun byte hbyte => Nat.mod_eq_of_lt (hplain byte hbyte)
  rw [hsame] at htext
  refine List.map_injective_iff.mpr (fun _ _ => UInt8.toNat_inj.mp) (htext.symm.trans ?_)
  decide

theorem declaresFullMemory_iff {flags : Nat} :
    flags &&& miniDumpWithFullMemory ≠ 0 ↔ flags.testBit 1 = true := by
  have hbit : flags &&& miniDumpWithFullMemory = (flags.testBit 1).toNat * 2 ^ 1 :=
    Nat.and_two_pow flags 1
  rw [hbit]
  cases flags.testBit 1 <;> simp

theorem coverageOf_spec (flags : Nat) (present : Bool) :
    (coverageOf flags present = .fullMemoryDeclared ↔ flags.testBit 1 = true) ∧
      (coverageOf flags present = .partialMemory ↔ ¬flags.testBit 1 = true ∧ present = true) ∧
        (coverageOf flags present = .unknown ↔ ¬flags.testBit 1 = true ∧ ¬present = true) := by
  unfold coverageOf
  by_cases hfull : flags &&& miniDumpWithFullMemory ≠ 0
  · rw [if_pos hfull]
    simp [declaresFullMemory_iff.mp hfull]
  · rw [if_neg hfull]
    have hbit : ¬flags.testBit 1 = true := fun h => hfull (declaresFullMemory_iff.mpr h)
    cases present <;> simp [hbit]

theorem hasMemoryStream_iff : ((findEntry (directory bytes) StreamType.memoryList).isSome ||
    (findEntry (directory bytes) StreamType.memory64List).isSome) = true ↔
      HasMemoryStream bytes := by
  simp only [findEntry, Bool.or_eq_true, List.find?_isSome, beq_iff_eq, HasMemoryStream]
  constructor
  · rintro (⟨entry, hentry, htype⟩ | ⟨entry, hentry, htype⟩)
    · exact ⟨entry, hentry, Or.inl htype⟩
    · exact ⟨entry, hentry, Or.inr htype⟩
  · rintro ⟨entry, hentry, htype | htype⟩
    · exact Or.inl ⟨entry, hentry, htype⟩
    · exact Or.inr ⟨entry, hentry, htype⟩

/-- The facts of a memory list, or those of no list at all. -/
theorem memoryFacts_getD {stream : Option DirectoryEntry} {result : Option MemoryFacts}
    {ranges : DirectoryEntry → List (Nat × Nat)}
    (h : match stream with
      | none => result = none
      | some entry => ∃ facts : MemoryFacts, result = some facts ∧
        facts.ranges = (ranges entry).length ∧ facts.bytes = ((ranges entry).map Prod.snd).sum ∧
          ∀ payload ∈ ranges entry, payload.1 + payload.2 ≤ bytes.length) :
    (result.getD ⟨0, 0⟩).ranges = (stream.elim [] ranges).length ∧
      (result.getD ⟨0, 0⟩).bytes = ((stream.elim [] ranges).map Prod.snd).sum ∧
        ∀ payload ∈ stream.elim [] ranges, payload.1 + payload.2 ≤ bytes.length := by
  cases stream with
  | none =>
    rw [h]
    exact ⟨rfl, rfl, by simp⟩
  | some entry =>
    obtain ⟨facts, rfl, hfacts⟩ := h
    exact hfacts

theorem inspects_minidump (hsource : source.Serves bytes) :
    Inspects bytes (inspectMinidump source) fun facts =>
      Declares bytes facts ∧ (PlainSignature bytes → window bytes 0 4 = signature) := by
  refine (inspects_readExact hsource 0 headerSize _).bind ?_
  rintro _ ⟨-, rfl⟩
  refine (inspects_require (by decide)).bind ?_
  intro _ hsignature
  rw [window_window (by decide)] at hsignature
  refine (inspects_require (by decide)).bind ?_
  intro _ hversion
  rw [uintLE_window (by decide)] at hversion
  refine (inspects_require (by decide)).bind ?_
  intro _ _
  refine (inspects_require (by decide)).bind ?_
  intro _ _
  have hcount : uintLE (window bytes 0 headerSize) 8 4 = streamCount bytes :=
    uintLE_window (by decide)
  have hrva : uintLE (window bytes 0 headerSize) 12 4 = uintLE bytes 12 4 :=
    uintLE_window (by decide)
  have hflags : uintLE (window bytes 0 headerSize) 24 8 = uintLE bytes 24 8 :=
    uintLE_window (by decide)
  rw [hcount, hrva]
  refine (inspects_checkedMultiply _ directoryEntrySize _).bind ?_
  rintro _ ⟨rfl, -⟩
  refine (inspects_ensureRange hsource _ _ _).bind ?_
  intro _ hdirectory
  refine (inspects_directory hsource).bind ?_
  intro scan hscan
  have hentries : scan.entries = directory bytes := hscan.entries
  rw [hentries]
  refine (inspects_stream (inspects_memoryInfoList hsource)).bind ?_
  intro _ _
  refine (inspects_stream (inspects_memoryList hsource)).bind ?_
  intro _ hmemory
  refine (inspects_stream (inspects_memory64List hsource)).bind ?_
  intro _ hmemory64
  obtain ⟨hranges, hbytes, hwithin⟩ := memoryFacts_getD hmemory
  obtain ⟨hranges64, hbytes64, hwithin64⟩ := memoryFacts_getD hmemory64
  refine (inspects_checkedAdd _ _ _).bind ?_
  rintro _ ⟨rfl, hfits⟩
  rw [hflags]
  refine (inspects_stream (inspects_architecture hsource)).bind ?_
  intro _ _
  refine (inspects_stream (inspects_exception hsource)).bind ?_
  intro _ _
  refine (inspects_stream (inspects_modules hsource)).bind ?_
  intro _ _
  obtain ⟨hfull, hpartial, hunknown⟩ := coverageOf_spec (uintLE bytes 24 8)
    ((findEntry (directory bytes) StreamType.memoryList).isSome ||
      (findEntry (directory bytes) StreamType.memory64List).isSome)
  rw [hasMemoryStream_iff] at hpartial hunknown
  refine Prog.Keeps.pure ⟨?_, fun hplain => signature_of_asciiText hsignature hplain⟩
  exact {
    version := (uintLE_mod (by decide)).symm.trans hversion
    directory_within := hdirectory
    streams_within := hentries ▸ hscan.within
    critical_once := by
      have honce := hscan.once
      rwa [hscan.seen, hentries] at honce
    payloads_within := by
      intro payload hpayload
      rcases List.mem_append.mp hpayload with hpayload | hpayload
      · exact hwithin payload hpayload
      · exact hwithin64 payload hpayload
    ranges := by
      dsimp only
      rw [hranges, hranges64, payloads, List.length_append]
    captured := by
      dsimp only
      rw [hbytes, hbytes64, payloads, List.map_append, List.sum_append]
    captured_fits := by
      dsimp only
      unfold uint64Max at hfits
      omega
    full := hfull
    part := hpartial
    unknown := hunknown }

/-! ## The inspection -/

/-- No read is outside the file or longer than 64 KiB. -/
def ReadsBounded (source : RandomAccessSource) (bytes : Bytes) : Prop :=
  ∀ read ∈ inspectReads source, read.1 + read.2 ≤ bytes.length ∧ read.2 ≤ 65536

/-- The inspection answers, and it is not a read that decides. -/
def Answers (source : RandomAccessSource) : Prop :=
  (∃ facts, inspect source = .ok facts) ∨
    ∃ error, inspect source = .error error ∧ error.code ≠ .ioError

/-- What an inspection of the file has to be. -/
structure SoundInspection (source : RandomAccessSource) (bytes : Bytes) : Prop where
  reads : ReadsBounded source bytes
  answers : Answers source
  signature : ∀ facts, inspect source = .ok facts → window bytes 0 4 = signature
  declares : ∀ facts, inspect source = .ok facts → Declares bytes facts

theorem runInspection_spec (hsource : source.Serves bytes) :
    Prog.wp (inspectMinidump source)
      (fun facts s => s.ReadsWithin bytes.length ∧ Declares bytes facts ∧
        (PlainSignature bytes → window bytes 0 4 = signature))
      (fun thrown s => s.ReadsWithin bytes.length ∧ thrown.OfInspection)
      { reads := [], remaining := 0 } :=
  inspects_minidump hsource _ (by simp [InspectionState.ReadsWithin])

theorem inspect_reads (hsource : source.Serves bytes) : ReadsBounded source bytes := by
  have hspec := runInspection_spec hsource
  unfold ReadsBounded inspectReads runInspection
  unfold Prog.wp at hspec
  generalize inspectMinidump source { reads := [], remaining := 0 } = out at hspec ⊢
  obtain ⟨result, s⟩ := out
  cases result with
  | ok facts => exact hspec.1
  | error thrown => exact hspec.1

theorem inspect_answers (hsource : source.Serves bytes) : Answers source := by
  have hspec := runInspection_spec hsource
  unfold Answers inspect runInspection
  unfold Prog.wp at hspec
  generalize inspectMinidump source { reads := [], remaining := 0 } = out at hspec ⊢
  obtain ⟨result, s⟩ := out
  cases result with
  | ok facts => exact Or.inl ⟨facts, rfl⟩
  | error thrown =>
    cases thrown with
    | failure error => exact Or.inr ⟨error, rfl, hspec.2⟩
    | source message => exact absurd hspec.2 id

theorem inspect_accepted (hsource : source.Serves bytes) {facts : MinidumpFacts}
    (h : inspect source = .ok facts) :
    Declares bytes facts ∧ (PlainSignature bytes → window bytes 0 4 = signature) := by
  have hspec := runInspection_spec hsource
  unfold inspect runInspection at h
  unfold Prog.wp at hspec
  generalize inspectMinidump source { reads := [], remaining := 0 } = out at hspec h
  obtain ⟨result, s⟩ := out
  cases result with
  | ok found =>
    cases h
    exact hspec.2
  | error thrown => cases h

theorem plain_of_signature (h : window bytes 0 4 = signature) : PlainSignature bytes := by
  intro byte hbyte
  rw [h] at hbyte
  have hall : ∀ b ∈ signature, b.toNat < 128 := by decide +kernel
  exact hall byte hbyte

end Files

namespace Sample

/-- A header without streams, behind the given signature. -/
def header (signature : Bytes) : Bytes :=
  signature ++ [0x93, 0xA7] ++ List.replicate 26 0

end Sample

end DumpLedger.Minidump
