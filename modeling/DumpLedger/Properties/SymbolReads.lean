import DumpLedger.Lib.BlockLayout
import DumpLedger.Symbols.Identity

/-!
# What the symbol parsers read

One rule for each function of the parsers: it stays within the bounds, it throws only what is
declared, and what it answers is what the file has at the places the file itself names. The loops
over blocks keep `LaidOut`.
-/

namespace DumpLedger.Symbols

open Lib

section Rules

variable {allowed : ReadRequest → Prop} {file : Bytes} {α : Type}

/-! ## Errors -/

theorem declared_unreadable (detail : String) : Declared (symbolIdentityUnreadable detail) :=
  ⟨_, .inl rfl⟩

theorem declared_invalidInput (detail : String) : Declared (invalidInput detail) :=
  ⟨_, .inr rfl⟩

theorem walks_require {c : Prop} [Decidable c] {detail : String} :
    Walks allowed file (require c detail) fun _ => c := by
  unfold require
  by_cases hc : c
  · rw [if_pos hc]
    exact Walks.pure hc
  · rw [if_neg hc]
    exact Walks.throw (declared_unreadable detail)

theorem walks_orUnreadable {x : Parse α} {detail : String} {P : α → Prop}
    (h : Parses allowed file x P) : Walks allowed file (orUnreadable x detail) P := by
  refine Walks.bind h ?_
  intro o ho
  cases o with
  | none => exact Walks.throw (declared_unreadable detail)
  | some a => exact Walks.pure (ho a rfl)

theorem walks_requireSegment {label : String} {name : Units} :
    Walks allowed file (requireSegment label name) fun _ => storeSegmentProblem name = none := by
  unfold requireSegment
  cases storeSegmentProblem name with
  | none => exact Walks.pure rfl
  | some problem => exact Walks.throw (declared_invalidInput _)

/-! ## Identifiers -/

theorem walks_getUint {view : Bytes} {offset size : Nat} (h : offset + size ≤ view.length) :
    Walks allowed file (getUint view offset size) fun n => n = uintLE view offset size := by
  unfold getUint
  rw [if_neg (by omega)]
  exact Walks.pure rfl

/-- The bytes of a window, one after the other. -/
theorem map_getD_range' (bytes : Bytes) {start size : Nat} (h : start + size ≤ bytes.length) :
    (List.range' start size).map (fun i => bytes.getD i 0) = window bytes start size := by
  refine List.ext_getElem? fun i => ?_
  rw [getElem?_window, List.getElem?_map]
  by_cases hi : i < size
  · rw [if_pos hi, List.getElem?_range' hi, Option.map_some, List.getD_eq_getElem?_getD,
      List.getElem?_eq_getElem (by omega), List.getElem?_eq_getElem (by omega), Option.getD_some]
    simp only [Nat.one_mul]
  · rw [if_neg hi, List.getElem?_eq_none (by rw [List.length_range']; omega), Option.map_none]

theorem walks_formatSymsrvDebugId {guid : Bytes} {age : Nat} (h : guid.length = 16) :
    Walks allowed file (formatSymsrvDebugId guid age) fun id =>
      id = DumpLedger.formatSymsrvDebugId guid age := by
  unfold formatSymsrvDebugId
  refine Walks.bind (walks_getUint (by omega)) ?_
  rintro _ rfl
  refine Walks.bind (walks_getUint (by omega)) ?_
  rintro _ rfl
  refine Walks.bind (walks_getUint (by omega)) ?_
  rintro _ rfl
  refine Walks.pure ?_
  have hrest : ((List.range' 8 8).map fun index => upperHex 2 (guid.getD index 0).toNat) =
      (window guid 8 8).map fun byte => upperHex 2 byte.toNat := by
    rw [← map_getD_range' guid (by omega), List.map_map]
    rfl
  rw [hrest, DumpLedger.formatSymsrvDebugId]

/-! ## Blocks -/

section Blocks

variable {reader : ByteReader file} {blockSize : Nat}

/-- The places of a copy lie within the file and the buffer. -/
theorem parses_copy (hallowed : ∀ r, r.InBounds file → allowed r) {target : Bytes}
    {start take offset : Nat} {f : Bytes → Parse α} {P : α → Prop}
    (hin : start + take ≤ file.length) (hfits : offset + take ≤ target.length)
    (hf : Parses allowed file (f (overwrite target offset (window file start take))) P) :
    Parses allowed file (do
      let chunk ← reader.read start take
      guard (chunk.length = take)
      let out ← OptionT.lift (setBytes target chunk offset)
      f out) P := by
  refine Parses.bind (parses_read (hallowed _ hin)) ?_
  rintro _ ⟨-, rfl⟩
  refine Parses.guarded ?_
  intro hlength
  refine Parses.bind (Parses.lift (walks_setBytes (by omega))) ?_
  rintro _ rfl
  exact hf

/-- The invariant of the loop: `copied` bytes are laid out. A block that came up short is the last
of the file, so the loop ends with it or fails at the next. -/
theorem parses_consecutiveLoop (hallowed : ∀ r, r.InBounds file → allowed r)
    {first byteCount : Nat} (left : Nat) :
    ∀ (k copied : Nat) (out : Bytes), byteCount - copied ≤ left → out.length = byteCount →
      copied ≤ byteCount → LaidOut file blockSize (fun k => first + k) out copied →
      (copied = k * blockSize ∨ copied = byteCount ∨ file.length < (first + k) * blockSize) →
      Parses allowed file (consecutiveLoop reader blockSize byteCount (first + k) copied out)
        fun bytes => bytes.length = byteCount ∧
          bytes = window file (first * blockSize) byteCount := by
  have hdone : ∀ (k copied : Nat) (out : Bytes), out.length = byteCount → copied ≤ byteCount →
      LaidOut file blockSize (fun k => first + k) out copied → ¬ copied < byteCount →
      Parses allowed file (consecutiveLoop reader blockSize byteCount (first + k) copied out)
        fun bytes => bytes.length = byteCount ∧
          bytes = window file (first * blockSize) byteCount := by
    intro k copied out hlength hle hlaid hmore
    rw [consecutiveLoop, dif_neg hmore]
    obtain rfl : copied = byteCount := by omega
    exact Parses.pure ⟨hlength, hlaid.consecutive hlength⟩
  induction left with
  | zero =>
    intro k copied out hleft hlength hle hlaid _
    exact hdone k copied out hlength hle hlaid (by omega)
  | succ left ih =>
    intro k copied out hleft hlength hle hlaid hposition
    by_cases hmore : copied < byteCount
    · rw [consecutiveLoop, dif_pos hmore]
      by_cases hlast : file.length / blockSize < first + k
      · rw [if_pos hlast]
        exact Parses.failure
      rw [if_neg hlast]
      have hstart : (first + k) * blockSize ≤ file.length :=
        (Nat.mul_le_mul_right blockSize (Nat.not_lt.mp hlast)).trans (Nat.div_mul_le_self _ _)
      obtain rfl : copied = k * blockSize := by omega
      generalize htake : min (min blockSize (file.length - (first + k) * blockSize))
        (byteCount - k * blockSize) = take
      by_cases hzero : take = 0
      · rw [dif_pos hzero]
        exact Parses.failure
      rw [dif_neg hzero]
      have hnext : (first + (k + 1)) * blockSize = (first + k) * blockSize + blockSize := by
        rw [← Nat.add_assoc, Nat.succ_mul]
      have hturn : (k + 1) * blockSize = k * blockSize + blockSize := Nat.succ_mul _ _
      have hwithin : (window file ((first + k) * blockSize) take).length = take :=
        length_window (by omega)
      refine parses_copy hallowed (by omega) (by omega) ?_
      refine ih (k + 1) _ _ (by omega) ?_ (by omega) ?_ (by omega)
      · rw [length_overwrite (by omega), hlength]
      · exact hlaid.overwrite (by omega) (by omega) (by omega)
    · exact hdone k copied out hlength hle hlaid hmore

/-- Blocks in a row are read as one range of the file. -/
theorem parses_readConsecutiveBlocksFrom (hallowed : ∀ r, r.InBounds file → allowed r)
    {first byteCount : Nat} (hfile : byteCount ≤ file.length)
    (hmax : byteCount ≤ msfMaxDirectoryBytes) :
    Parses allowed file (readConsecutiveBlocksFrom reader blockSize first byteCount) fun bytes =>
      bytes.length = byteCount ∧ bytes = window file (first * blockSize) byteCount := by
  unfold readConsecutiveBlocksFrom
  refine Parses.bind (Parses.lift (walks_newBuffer hfile hmax)) ?_
  rintro _ rfl
  refine parses_consecutiveLoop hallowed byteCount 0 0 _ (by omega) List.length_replicate
    (by omega) laidOut_zero (by omega)

/-- One block is copied, up to the end of the file or of the buffer. -/
theorem parses_copyBlockIntoFrom (hallowed : ∀ r, r.InBounds file → allowed r) {block : Nat}
    {target : Bytes} {offset byteCount : Nat} (hfits : offset + byteCount ≤ target.length) :
    Parses allowed file (copyBlockIntoFrom reader blockSize block target offset byteCount)
      fun copied =>
        block * blockSize + copied.count ≤ file.length ∧
        copied.count = min (min blockSize (file.length - block * blockSize)) byteCount ∧
        copied.target =
          overwrite target offset (window file (block * blockSize) copied.count) := by
  unfold copyBlockIntoFrom
  by_cases hlast : file.length / blockSize < block
  · rw [if_pos hlast]
    exact Parses.failure
  rw [if_neg hlast]
  have hstart : block * blockSize ≤ file.length :=
    (Nat.mul_le_mul_right blockSize (Nat.not_lt.mp hlast)).trans (Nat.div_mul_le_self _ _)
  generalize htake : min (min blockSize (file.length - block * blockSize)) byteCount = take
  by_cases hzero : take = 0
  · rw [if_pos hzero]
    exact Parses.failure
  rw [if_neg hzero]
  refine parses_copy hallowed (by omega) (by omega) ?_
  have hwithin : block * blockSize + take ≤ file.length := by omega
  exact Parses.pure ⟨hwithin, rfl, rfl⟩

end Blocks

/-! ## The superblock -/

/-- The fields of the superblock are those of the file, and in range. -/
structure SuperblockOf (file : Bytes) (s : Superblock) : Prop where
  blockSize : s.blockSize = uintLE file msfBlockSizeOffset 4
  numDirectoryBytes : s.numDirectoryBytes = uintLE file msfNumDirectoryBytesOffset 4
  blockMapAddr : s.blockMapAddr = uintLE file msfBlockMapAddrOffset 4
  blockSize_ge : msfMinBlockSize ≤ s.blockSize
  blockSize_le : s.blockSize ≤ file.length
  directory_pos : s.numDirectoryBytes ≠ 0
  directory_le : s.numDirectoryBytes ≤ file.length
  directory_max : s.numDirectoryBytes ≤ msfMaxDirectoryBytes

theorem walks_superblockOf :
    Walks allowed file (superblockOf file.length (window file 0 (min file.length 56)))
      (SuperblockOf file) := by
  unfold superblockOf
  refine Walks.bind walks_require ?_
  intro _ hlength
  have hle := hlength.trans length_window_le
  have hfield : ∀ offset, offset + 4 ≤ 56 →
      uintLE (window file 0 (min file.length 56)) offset 4 = uintLE file offset 4 := by
    intro offset hoffset
    rw [uintLE_window (by omega), Nat.zero_add]
  refine Walks.bind (walks_orUnreadable parses_readUint32) ?_
  rintro _ ⟨-, rfl⟩
  refine Walks.bind (walks_orUnreadable parses_readUint32) ?_
  rintro _ ⟨-, rfl⟩
  refine Walks.bind (walks_orUnreadable parses_readUint32) ?_
  rintro _ ⟨-, rfl⟩
  rw [hfield msfBlockSizeOffset (by decide), hfield msfNumDirectoryBytesOffset (by decide),
    hfield msfBlockMapAddrOffset (by decide)]
  refine Walks.bind walks_require ?_
  rintro _ ⟨hmin, -, -⟩
  refine Walks.bind walks_require ?_
  intro _ hfits
  refine Walks.bind walks_require ?_
  intro _ hpos
  refine Walks.bind walks_require ?_
  rintro _ ⟨hfile, hmax⟩
  exact Walks.pure ⟨rfl, rfl, rfl, hmin, hfits, hpos, hfile, hmax⟩

theorem parses_readSuperblock (hallowed : ∀ r, r.InBounds file → allowed r)
    {reader : ByteReader file} :
    Parses allowed file (readSuperblock reader) (SuperblockOf file) := by
  unfold readSuperblock
  have hwithin : 0 + min file.length 56 ≤ file.length := by omega
  refine Parses.bind (parses_read (hallowed _ hwithin)) ?_
  rintro _ ⟨-, rfl⟩
  refine Parses.guarded ?_
  intro _
  exact Parses.lift walks_superblockOf

/-! ## The stream directory -/

theorem lt_blocksOf {n blockSize k : Nat} (hpos : 0 < blockSize) :
    k < blocksOf n blockSize ↔ k * blockSize < n := by
  unfold blocksOf
  rw [Nat.lt_div_iff_mul_lt hpos]
  omega

/-- An entry of the block map. -/
def directoryBlock (file : Bytes) (s : Superblock) (k : Nat) : Nat :=
  uintLE file (s.blockMapAddr * s.blockSize + k * 4) 4

/-- Each block of the directory but the last lies within the file to its end. -/
def WholeBlocks (file : Bytes) (s : Superblock) : Prop :=
  ∀ k, k + 1 < blocksOf s.numDirectoryBytes s.blockSize →
    (directoryBlock file s k + 1) * s.blockSize ≤ file.length

section Directory

variable {reader : ByteReader file} {s : Superblock}

theorem blockMap_le (hs : SuperblockOf file s) :
    blocksOf s.numDirectoryBytes s.blockSize * 4 ≤ file.length ∧
      blocksOf s.numDirectoryBytes s.blockSize * 4 ≤ msfMaxDirectoryBytes := by
  have hsize := hs.blockSize_ge
  have hfits := hs.blockSize_le
  have hfile := hs.directory_le
  have hmax := hs.directory_max
  unfold msfMinBlockSize at hsize
  unfold msfMaxDirectoryBytes at hmax ⊢
  have hblocks : blocksOf s.numDirectoryBytes s.blockSize ≤ s.numDirectoryBytes / 512 + 1 := by
    unfold blocksOf
    have hsplit : (s.numDirectoryBytes + s.blockSize - 1) / s.blockSize ≤
        s.numDirectoryBytes / s.blockSize + 1 := by
      rw [← Nat.add_div_right _ (by omega)]
      exact Nat.div_le_div_right (by omega)
    have hdiv : s.numDirectoryBytes / s.blockSize ≤ s.numDirectoryBytes / 512 :=
      Nat.div_le_div_left hsize (by decide)
    omega
  omega

/-- What the loop knows of the bytes it has copied. Without whole blocks it only knows how many
they are. -/
structure Assembled (file : Bytes) (s : Superblock) (count : Nat) (directory : Bytes) : Prop where
  length : directory.length = s.numDirectoryBytes
  count_le : count ≤ s.numDirectoryBytes
  laidOut : WholeBlocks file s →
    LaidOut file s.blockSize (directoryBlock file s) directory count

theorem walks_directoryLoop (hallowed : ∀ r, r.InBounds file → allowed r)
    (hpos : 0 < s.blockSize) (left : Nat) :
    ∀ (index copied : Nat) (directory : Bytes),
      left + index = blocksOf s.numDirectoryBytes s.blockSize →
      Assembled file s copied directory →
      (WholeBlocks file s → left ≠ 0 → copied = index * s.blockSize) →
      Walks allowed file
        (directoryLoop reader s (window file (s.blockMapAddr * s.blockSize)
          (blocksOf s.numDirectoryBytes s.blockSize * 4)) left index copied directory)
        fun c => Assembled file s c.count c.target := by
  induction left with
  | zero =>
    intro index copied directory _ hassembled _
    exact Walks.pure hassembled
  | succ left ih =>
    intro index copied directory hindex hassembled hcopied
    rw [directoryLoop]
    by_cases hmore : copied < s.numDirectoryBytes
    · rw [if_pos hmore]
      refine Walks.bind (walks_orUnreadable parses_readUint32) ?_
      rintro _ ⟨-, rfl⟩
      rw [uintLE_window (by omega)]
      have hlength := hassembled.length
      refine Walks.bind (walks_orUnreadable
        (parses_copyBlockIntoFrom hallowed (by omega))) ?_
      rintro took ⟨hwithin, hcount, htarget⟩
      have hwindow := length_window hwithin
      refine ih (index + 1) _ _ (by omega) ?_ ?_
      · refine ⟨?_, by omega, ?_⟩
        · rw [htarget, length_overwrite (by omega), hlength]
        · intro hwhole
          obtain rfl := hcopied hwhole (Nat.succ_ne_zero left)
          rw [htarget]
          exact (hassembled.laidOut hwhole).overwrite (by omega) hwithin (by omega)
      · intro hwhole hleft
        -- a block that is not the last is copied whole
        have hlast : index + 1 < blocksOf s.numDirectoryBytes s.blockSize := by omega
        have hfull := (lt_blocksOf hpos).mp hlast
        have hblock := hwhole index hlast
        rw [Nat.succ_mul] at hfull hblock ⊢
        rw [hcopied hwhole (Nat.succ_ne_zero left)] at hcount ⊢
        unfold directoryBlock at hblock
        omega
    · rw [if_neg hmore]
      exact Walks.pure hassembled

/-- The entries of the block map lie within the file. -/
def Mapped (file : Bytes) (s : Superblock) : Prop :=
  s.blockMapAddr * s.blockSize + blocksOf s.numDirectoryBytes s.blockSize * 4 ≤ file.length

theorem walks_readStreamDirectory (hallowed : ∀ r, r.InBounds file → allowed r)
    (hs : SuperblockOf file s) :
    Walks allowed file (readStreamDirectory reader s) fun directory =>
      Mapped file s ∧ Assembled file s s.numDirectoryBytes directory := by
  have hpos : 0 < s.blockSize := (by decide : 0 < msfMinBlockSize).trans_le hs.blockSize_ge
  obtain ⟨hfile, hmax⟩ := blockMap_le hs
  unfold readStreamDirectory
  refine Walks.bind (walks_orUnreadable
    (parses_readConsecutiveBlocksFrom hallowed hfile hmax)) ?_
  rintro _ ⟨hlength, rfl⟩
  have hblocks : 0 < blocksOf s.numDirectoryBytes s.blockSize :=
    (lt_blocksOf hpos).mpr (by
      rw [Nat.zero_mul]
      exact Nat.pos_of_ne_zero hs.directory_pos)
  have hmapped : Mapped file s := within_of_length_window hlength (by omega)
  refine Walks.bind (walks_newBuffer hs.directory_le hs.directory_max) ?_
  rintro _ rfl
  have hstart : Assembled file s 0 (List.replicate s.numDirectoryBytes 0) :=
    ⟨List.length_replicate, Nat.zero_le _, fun _ => laidOut_zero⟩
  refine Walks.bind (walks_directoryLoop hallowed hpos _ 0 0 _ rfl hstart
    fun _ _ => (Nat.zero_mul _).symm) ?_
  intro copied hcopied
  refine Walks.bind walks_require ?_
  intro _ hcount
  rw [hcount] at hcopied
  exact Walks.pure ⟨hmapped, hcopied⟩

end Directory

/-! ## Stream 1 -/

/-- Where the block list of a stream begins, as the size table says. -/
def listOffsetOf (directory : Bytes) (blockSize streamIndex : Nat) : Nat :=
  (List.range streamIndex).foldl (fun listOffset index =>
    listOffset + streamBlocks blockSize (uintLE directory (4 + index * 4) 4) * 4)
    (4 + uintLE directory 0 4 * 4)

/-- An entry of the block list of a stream. -/
def streamBlock (directory : Bytes) (blockSize streamIndex k : Nat) : Nat :=
  uintLE directory (listOffsetOf directory blockSize streamIndex + k * 4) 4

/-- The first `size` bytes of a stream, and where the directory lists its blocks. -/
structure StreamHead (file directory : Bytes) (blockSize streamIndex : Nat) (head : Bytes) :
    Prop where
  listed : listOffsetOf directory blockSize streamIndex +
    blocksOf head.length blockSize * 4 ≤ directory.length
  laidOut : LaidOut file blockSize (streamBlock directory blockSize streamIndex) head head.length

section Stream

variable {reader : ByteReader file} {directory : Bytes} {blockSize : Nat}

theorem parses_blockListOffset (streamIndex : Nat) :
    Parses allowed file
      (blockListOffset directory blockSize streamIndex (uintLE directory 0 4))
      fun listOffset => listOffset = listOffsetOf directory blockSize streamIndex := by
  unfold blockListOffset listOffsetOf
  generalize 4 + uintLE directory 0 4 * 4 = listOffset
  generalize List.range streamIndex = indices
  induction indices generalizing listOffset with
  | nil => exact Parses.pure rfl
  | cons index rest ih =>
    rw [List.foldlM_cons, List.foldl_cons]
    refine Parses.bind (P := fun n => n = listOffset +
      streamBlocks blockSize (uintLE directory (4 + index * 4) 4) * 4) ?_ ?_
    · refine Parses.bind parses_readUint32 ?_
      rintro _ ⟨-, rfl⟩
      exact Parses.pure rfl
    · rintro _ rfl
      exact ih _

theorem parses_streamLoop (hallowed : ∀ r, r.InBounds file → allowed r) (hpos : 0 < blockSize)
    {streamIndex scanBytes : Nat} (left : Nat) :
    ∀ (entry copied : Nat) (out : Bytes), left + entry = blocksOf scanBytes blockSize →
      copied = min (entry * blockSize) scanBytes → out.length = scanBytes →
      LaidOut file blockSize (streamBlock directory blockSize streamIndex) out copied →
      Parses allowed file
        (streamLoop reader directory blockSize (listOffsetOf directory blockSize streamIndex)
          scanBytes left entry copied out)
        fun head => head.length = scanBytes ∧
          LaidOut file blockSize (streamBlock directory blockSize streamIndex) head
            scanBytes := by
  have hdone : ∀ {copied : Nat} {out : Bytes}, ¬ copied < scanBytes → out.length = scanBytes →
      LaidOut file blockSize (streamBlock directory blockSize streamIndex) out copied →
      Parses allowed file (Pure.pure out : Parse Bytes) fun head => head.length = scanBytes ∧
        LaidOut file blockSize (streamBlock directory blockSize streamIndex) head
          scanBytes := by
    intro copied out hmore hlength hlaid
    exact Parses.pure ⟨hlength, hlaid.mono (Nat.not_lt.mp hmore)⟩
  induction left with
  | zero =>
    intro entry copied out hentry hcopied hlength hlaid
    refine hdone ?_ hlength hlaid
    have hend : ¬ entry < blocksOf scanBytes blockSize := by omega
    rw [lt_blocksOf hpos] at hend
    omega
  | succ left ih =>
    intro entry copied out hentry hcopied hlength hlaid
    rw [streamLoop]
    by_cases hmore : copied < scanBytes
    · rw [if_pos hmore]
      refine Parses.bind parses_readUint32 ?_
      rintro _ ⟨-, rfl⟩
      refine Parses.guarded ?_
      intro _
      refine Parses.guarded ?_
      intro hwithin
      obtain rfl : copied = entry * blockSize := by omega
      have hwindow := length_window hwithin
      refine parses_copy hallowed hwithin (by omega) ?_
      refine ih (entry + 1) _ _ (by omega) ?_ ?_ ?_
      · rw [Nat.succ_mul]
        omega
      · rw [length_overwrite (by omega), hlength]
      · exact hlaid.overwrite (by omega) hwithin (by omega)
    · rw [if_neg hmore]
      exact hdone hmore hlength hlaid

theorem parses_readStreamPrefix (hallowed : ∀ r, r.InBounds file → allowed r)
    (hpos : 0 < blockSize) {streamIndex scanBytes : Nat} (hfile : scanBytes ≤ file.length)
    (hmax : scanBytes ≤ msfMaxDirectoryBytes) :
    Parses allowed file
      (readStreamPrefix reader directory blockSize streamIndex (uintLE directory 0 4) scanBytes)
      fun head => head.length = scanBytes ∧
        StreamHead file directory blockSize streamIndex head := by
  unfold readStreamPrefix
  refine Parses.bind (parses_blockListOffset streamIndex) ?_
  rintro _ rfl
  refine Parses.guarded ?_
  intro hlisted
  refine Parses.bind (Parses.lift (walks_newBuffer hfile hmax)) ?_
  rintro _ rfl
  refine (parses_streamLoop hallowed hpos _ 0 0 _ rfl (by omega) List.length_replicate
    laidOut_zero).mono ?_
  rintro head ⟨rfl, hlaid⟩
  exact ⟨rfl, hlisted, hlaid⟩

/-- The header of stream 1, and the identity in it. -/
structure InfoHeader (file directory : Bytes) (blockSize : Nat) (header : Bytes)
    (identity : PdbIdentity) : Prop where
  length : header.length = pdbInfoHeaderBytes
  stream : StreamHead file directory blockSize 1 header
  debugId : identity.debugId =
    DumpLedger.formatSymsrvDebugId (window header 12 16) (uintLE header 8 4)

theorem walks_readPdbInfoIdentity (hallowed : ∀ r, r.InBounds file → allowed r)
    (hmin : msfMinBlockSize ≤ blockSize) (hfits : blockSize ≤ file.length) {debugFile : Units} :
    Walks allowed file (readPdbInfoIdentity reader directory blockSize debugFile)
      fun identity => identity.debugFile = debugFile ∧
        ∃ header, InfoHeader file directory blockSize header identity := by
  have hpos : 0 < blockSize := (by decide : 0 < msfMinBlockSize).trans_le hmin
  have hheader : pdbInfoHeaderBytes ≤ file.length :=
    ((by decide : pdbInfoHeaderBytes ≤ msfMinBlockSize).trans hmin).trans hfits
  unfold readPdbInfoIdentity
  refine Walks.bind (walks_orUnreadable parses_readUint32) ?_
  rintro _ ⟨-, rfl⟩
  refine Walks.bind walks_require ?_
  intro _ _
  refine Walks.bind walks_require ?_
  intro _ _
  refine Walks.bind (walks_orUnreadable parses_readUint32) ?_
  rintro _ ⟨-, rfl⟩
  refine Walks.bind walks_require ?_
  intro _ _
  refine Walks.bind (walks_orUnreadable
    (parses_readStreamPrefix hallowed hpos hheader (by decide))) ?_
  rintro header ⟨hlength, hstream⟩
  have hguid : (window header 12 16).length = 16 := length_window (by rw [hlength]; decide)
  refine Walks.bind (walks_orUnreadable parses_readUint32) ?_
  rintro _ ⟨-, rfl⟩
  refine Walks.bind walks_require ?_
  intro _ _
  refine Walks.bind (walks_orUnreadable parses_readUint32) ?_
  rintro _ ⟨-, rfl⟩
  refine Walks.bind (walks_formatSymsrvDebugId hguid) ?_
  rintro _ rfl
  exact Walks.pure ⟨rfl, header, hlength, hstream, rfl⟩

end Stream

/-! ## The parsers -/

/-- A PDB is read within its bounds. -/
theorem parses_parsePdbIdentityFrom (hallowed : ∀ r, r.InBounds file → allowed r)
    {reader : ByteReader file} {debugFile : Units} :
    Parses allowed file (parsePdbIdentityFrom reader debugFile) fun identity =>
      identity.debugFile = debugFile ∧ storeSegmentProblem debugFile = none := by
  unfold parsePdbIdentityFrom
  refine Parses.bind (Parses.lift walks_requireSegment) ?_
  intro _ hname
  refine Parses.bind (parses_readSuperblock hallowed) ?_
  intro s hs
  refine Parses.bind (Parses.lift (walks_readStreamDirectory hallowed hs)) ?_
  intro directory _
  refine (Parses.lift (walks_readPdbInfoIdentity hallowed hs.blockSize_ge
    hs.blockSize_le)).mono ?_
  rintro identity ⟨hfile, -⟩
  exact ⟨hfile, hname⟩

/-- Where `e_lfanew` points. -/
def peOffsetOf (file : Bytes) : Nat := uintLE file dosELfanewOffset 4

/-- `TimeDateStamp`. -/
def timestampOf (file : Bytes) : Nat :=
  uintLE file (peOffsetOf file + 4 + coffTimestampOffset) 4

def sizeOfImageOffset (file : Bytes) : Nat :=
  peOffsetOf file + 4 + coffHeaderBytes + optionalHeaderSizeOfImageOffset

/-- `SizeOfImage`. -/
def sizeOfImageOf (file : Bytes) : Nat := uintLE file (sizeOfImageOffset file) 4

/-- The request lies within the image, or it is the one for `SizeOfImage`: that may lie beyond the
end, and then the source has refused it. -/
def ReadRequest.InBoundsOrRefused (file : Bytes) (r : ReadRequest) : Prop :=
  r.InBounds file ∨ r = ⟨sizeOfImageOffset file, 4, false⟩

/-- A PE image is read within its bounds. -/
theorem parses_parsePeIdentityFrom {reader : ByteReader file} {codeFile : Units} :
    Parses (ReadRequest.InBoundsOrRefused file) file (parsePeIdentityFrom reader codeFile)
      fun identity => identity = ⟨codeFile, formatPeCodeId (timestampOf file)
        (sizeOfImageOf file)⟩ ∧ storeSegmentProblem codeFile = none := by
  have hallowed : ∀ {offset length : Nat}, offset + length ≤ file.length →
      ReadRequest.InBoundsOrRefused file ⟨offset, length,
        (reader.readAt offset length).isSome⟩ := fun h => .inl h
  have hlast : ReadRequest.InBoundsOrRefused file ⟨sizeOfImageOffset file, 4,
      (reader.readAt (sizeOfImageOffset file) 4).isSome⟩ := by
    cases hread : reader.readAt (sizeOfImageOffset file) 4 with
    | none => exact .inr rfl
    | some chunk => exact .inl (reader.serves hread).1
  unfold parsePeIdentityFrom
  refine Parses.bind (Parses.lift walks_requireSegment) ?_
  intro _ hname
  refine Parses.guarded ?_
  intro hdos
  refine Parses.bind (parses_read (hallowed (by omega))) ?_
  rintro _ ⟨-, rfl⟩
  refine Parses.bind parses_readUint16 ?_
  intro _ _
  refine Parses.guarded ?_
  intro _
  refine Parses.bind parses_readUint32 ?_
  rintro _ ⟨-, rfl⟩
  rw [uintLE_window (by omega), Nat.zero_add]
  unfold dosELfanewOffset at hdos
  refine Parses.guarded ?_
  intro hpe
  refine Parses.bind (parses_read (hallowed (by omega))) ?_
  rintro _ -
  refine Parses.guarded ?_
  intro _
  refine Parses.guarded ?_
  intro hcoff
  unfold coffHeaderBytes at hcoff
  refine Parses.bind (parses_read (hallowed (by unfold coffHeaderBytes; omega))) ?_
  rintro _ ⟨-, rfl⟩
  refine Parses.bind parses_readUint32 ?_
  rintro _ ⟨-, rfl⟩
  rw [uintLE_window (by decide)]
  refine Parses.bind parses_readUint16 ?_
  intro _ _
  refine Parses.guarded ?_
  intro _
  refine Parses.bind (parses_read hlast) ?_
  rintro _ ⟨-, rfl⟩
  refine Parses.bind parses_readUint32 ?_
  rintro _ ⟨-, rfl⟩
  rw [uintLE_window (by decide)]
  exact Parses.pure ⟨rfl, hname⟩

end Rules

end DumpLedger.Symbols
