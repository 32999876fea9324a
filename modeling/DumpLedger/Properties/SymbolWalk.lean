import DumpLedger.Properties.SymbolReads

/-!
# The walk to a symbol identity

Whatever a file says of itself, its parser ends in a declared way, asks for nothing beyond the file
and allocates no more than the file is long. What a PDB is read as is what its blocks hold, as long
as each block of the stream directory but the last is a whole one.
-/

namespace DumpLedger.Symbols

open Lib

section Runs

variable {allowed : ReadRequest → Prop} {file : Bytes} {α β : Type}

theorem Walks.result {x : Walk α} {P : α → Prop} (h : Walks allowed file x P)
    {t t' : WalkTrace} {a : α} (ht : Bounded allowed file t) (hx : x t = (.ok a, t')) :
    Bounded allowed file t' ∧ P a := by
  have hwp := h t ht
  unfold Prog.wp at hwp
  rw [hx] at hwp
  exact hwp

theorem run_of_fst {x : Walk α} {a : Except Thrown α} {t : WalkTrace} (h : (x t).1 = a) :
    x t = (a, (x t).2) :=
  Prod.ext h rfl

theorem run_bind_ok {x : Walk α} {f : α → Walk β} {a : α} {t t' : WalkTrace}
    (h : x t = (.ok a, t')) : (x >>= f) t = f a t' := by
  simp only [bind]
  rw [h]

theorem run_bind_eq_ok {x : Walk α} {f : α → Walk β} {b : β} {t t' : WalkTrace}
    (h : (x >>= f) t = (.ok b, t')) : ∃ a t1, x t = (.ok a, t1) ∧ f a t1 = (.ok b, t') := by
  simp only [bind] at h
  generalize x t = out at h ⊢
  obtain ⟨result, t1⟩ := out
  cases result with
  | ok a => exact ⟨a, t1, rfl, h⟩
  | error e => cases h

theorem run_bind_eq_some {x : Parse α} {f : α → Parse β} {b : β} {t t' : WalkTrace}
    (h : (x >>= f).run t = (.ok (some b), t')) :
    ∃ a t1, x.run t = (.ok (some a), t1) ∧ (f a).run t1 = (.ok (some b), t') := by
  obtain ⟨o, t1, hx, hf⟩ := run_bind_eq_ok (x := x.run) h
  cases o with
  | none => cases hf
  | some a => exact ⟨a, t1, hx, hf⟩

theorem run_lift_eq_some {x : Walk α} {a : α} {t t' : WalkTrace}
    (h : (OptionT.lift x : Parse α).run t = (.ok (some a), t')) : x t = (.ok a, t') := by
  obtain ⟨b, t1, hx, hb⟩ := run_bind_eq_ok (x := x) h
  cases hb
  exact hx

/-! ## Bounds -/

/-- How a parser ended, and what it has done to memory by then. -/
structure Contained (allowed : ReadRequest → Prop) (file : Bytes)
    (out : Except Thrown (Option α) × WalkTrace) : Prop where
  declared : ∀ e, out.1 = .error e → Declared e
  bounded : Bounded allowed file out.2

theorem Parses.contained {x : Parse α} {P : α → Prop} (h : Parses allowed file x P) :
    Contained allowed file (x.run .start) := by
  have hwp := h .start bounded_start
  unfold Prog.wp at hwp
  generalize x.run .start = out at hwp ⊢
  obtain ⟨result, t⟩ := out
  cases result with
  | ok o =>
    refine ⟨?_, hwp.1⟩
    intro e he
    cases he
  | error e =>
    refine ⟨?_, hwp.1⟩
    intro e' he
    cases he
    exact hwp.2

end Runs

/-! ### CodeView records -/

section Record

variable {α β γ : Type}

/-- The walk touches nothing and throws nothing: it is a function. -/
def Answers (x : Parse α) (o : Option α) : Prop := ∀ t, x.run t = (.ok o, t)

theorem answers_pure (o : Option α) : Answers (OptionT.mk (pure o)) o := fun _ => rfl

theorem guard_eq_some {c : Prop} [Decidable c] {u : Unit} (h : (guard c : Option Unit) = some u) :
    c := by
  by_contra hc
  simp [guard, hc] at h

theorem answers_guard {c : Prop} [Decidable c] : Answers (guard c) (guard c) := by
  intro t
  by_cases hc : c
  · simp only [guard, hc, if_true]
    rfl
  · simp only [guard, hc, if_false]
    rfl

theorem answers_readUint32 {view : Bytes} {offset : Nat} :
    Answers (readUint32 view offset) (DumpLedger.readUint32 view offset) := by
  intro t
  unfold readUint32 DumpLedger.readUint32 getUint
  by_cases hout : view.length < offset + 4
  · rw [if_pos hout, if_neg (by omega)]
    rfl
  · rw [if_neg hout, if_neg hout, if_pos (by omega)]
    rfl

theorem answers_formatSymsrvDebugId {guid : Bytes} {age : Nat} (h : guid.length = 16) :
    Answers (OptionT.lift (formatSymsrvDebugId guid age))
      (some (DumpLedger.formatSymsrvDebugId guid age)) := by
  intro t
  unfold formatSymsrvDebugId DumpLedger.formatSymsrvDebugId
  rw [← map_getD_range' guid (by omega), List.map_map]
  unfold getUint
  rw [if_neg (by omega), if_neg (by omega), if_neg (by omega)]
  rfl

theorem Answers.bind {x : Parse α} {o : Option α} {f : α → Parse β} {g : α → Option γ}
    {view : γ → β} (h : Answers x o)
    (hf : ∀ a, o = some a → Answers (f a) ((g a).map view)) :
    Answers (x >>= f) ((o >>= g).map view) := by
  intro t
  cases o with
  | none => exact run_bind_ok (x := x.run) (h t)
  | some a => exact (run_bind_ok (x := x.run) (h t)).trans (hf a rfl t)

/-- A record is read without a throw, as the inspector reads it, and in place. -/
theorem answers_parseRsdsCodeViewRecord (record : Bytes) :
    Answers (parseRsdsCodeViewRecord record)
      ((DumpLedger.parseRsdsCodeViewRecord record).map fun identity =>
        ⟨utf16 identity.debugFile, identity.debugId⟩) := by
  unfold parseRsdsCodeViewRecord DumpLedger.parseRsdsCodeViewRecord
  refine Answers.bind answers_guard ?_
  intro _ _
  refine Answers.bind answers_guard ?_
  intro _ hlength
  refine Answers.bind answers_readUint32 ?_
  intro age _
  refine Answers.bind (answers_pure _) ?_
  intro pathLength _
  refine Answers.bind (answers_pure _) ?_
  intro path _
  refine Answers.bind answers_guard ?_
  intro _ _
  refine Answers.bind (answers_pure _) ?_
  intro debugFile _
  refine Answers.bind answers_guard ?_
  intro _ _
  have hguid : (window record 4 16).length = 16 := by
    have hle := (guard_eq_some hlength).trans le_rfl
    unfold rsdsHeaderBytes at hle
    exact length_window (by omega)
  refine Answers.bind (g := fun debugId => some _) (answers_formatSymsrvDebugId hguid) ?_
  intro debugId _
  exact answers_pure _

end Record

/-- **The parsers fail only as they say.** -/
theorem symbol_parsers_contained (file : Bytes) (reader : ByteReader file) (name : Units)
    (record : Bytes) :
    Contained (ReadRequest.InBounds file) file ((parsePdbIdentityFrom reader name).run .start) ∧
      Contained (ReadRequest.InBoundsOrRefused file) file
        ((parsePeIdentityFrom reader name).run .start) ∧
      ∃ o, (parseRsdsCodeViewRecord record).run .start = (.ok o, .start) := by
  refine ⟨?_, ?_, ?_⟩
  · exact (parses_parsePdbIdentityFrom fun _ h => h).contained
  · exact parses_parsePeIdentityFrom.contained
  · exact ⟨_, answers_parseRsdsCodeViewRecord record .start⟩

/-! ## The stream walk of a PDB -/

/-- The walk has read this superblock and assembled this directory on its way. -/
def Used {file : Bytes} (reader : ByteReader file) (debugFile : Units) (s : Superblock)
    (directory : Bytes) (identity : PdbIdentity) : Prop :=
  ∃ t1 t2 t3, (readSuperblock reader).run .start = (.ok (some s), t1) ∧
    readStreamDirectory reader s t1 = (.ok directory, t2) ∧
    readPdbInfoIdentity reader directory s.blockSize debugFile t2 = (.ok identity, t3)

/-- What the walk claims to have read. -/
structure Logical (file : Bytes) (s : Superblock) (directory : Bytes) (identity : PdbIdentity) :
    Prop where
  superblock : SuperblockOf file s
  mapped : Mapped file s
  length : directory.length = s.numDirectoryBytes
  /-- Each byte of the directory is the byte at its place in the block that the map names. -/
  blocks : LaidOut file s.blockSize (directoryBlock file s) directory s.numDirectoryBytes
  /-- So is each byte of the header, in the blocks that the directory names. -/
  header : ∃ header, InfoHeader file directory s.blockSize header identity

section Walk

variable {file : Bytes} {reader : ByteReader file} {debugFile : Units} {identity : PdbIdentity}
  {s : Superblock} {directory : Bytes} {t : WalkTrace}

/-- The parts of a run that found an identity. -/
theorem used_of_run (h : (parsePdbIdentityFrom reader debugFile).run .start =
    (.ok (some identity), t)) : ∃ s directory, Used reader debugFile s directory identity := by
  unfold parsePdbIdentityFrom at h
  obtain ⟨_, t0, hname, h⟩ := run_bind_eq_some h
  obtain ⟨s, t1, hs, h⟩ := run_bind_eq_some h
  obtain ⟨directory, t2, hdirectory, h⟩ := run_bind_eq_some h
  -- the check of the name leaves the trace as it was
  have ht0 : t0 = .start := by
    have hname := run_lift_eq_some hname
    unfold requireSegment at hname
    cases hproblem : storeSegmentProblem debugFile with
    | none =>
      rw [hproblem] at hname
      cases hname
      rfl
    | some problem =>
      rw [hproblem] at hname
      cases hname
  rw [ht0] at hs
  exact ⟨s, directory, t1, t2, t, hs, run_lift_eq_some hdirectory, run_lift_eq_some h⟩

/-- What a walk has used, apart from the order of the bytes of its directory. -/
theorem Used.read (h : Used reader debugFile s directory identity) :
    SuperblockOf file s ∧ Mapped file s ∧ Assembled file s s.numDirectoryBytes directory ∧
      ∃ header, InfoHeader file directory s.blockSize header identity := by
  obtain ⟨t1, t2, t3, hs, hdirectory, hidentity⟩ := h
  have hallowed : ∀ r : ReadRequest, r.InBounds file → r.InBounds file := fun _ hr => hr
  obtain ⟨ht1, hs⟩ := Walks.result (parses_readSuperblock hallowed) bounded_start hs
  have hs := hs s rfl
  obtain ⟨ht2, hmapped, hassembled⟩ :=
    (walks_readStreamDirectory hallowed hs).result ht1 hdirectory
  obtain ⟨-, -, hheader⟩ :=
    (walks_readPdbInfoIdentity hallowed hs.blockSize_ge hs.blockSize_le).result ht2 hidentity
  exact ⟨hs, hmapped, hassembled, hheader⟩

/-- A block of the directory that is not the last one is used to its end. -/
theorem wholeBlocks_of_laidOut (hpos : 0 < s.blockSize)
    (h : LaidOut file s.blockSize (directoryBlock file s) directory s.numDirectoryBytes) :
    WholeBlocks file s := by
  intro k hk
  have hnext := (lt_blocksOf hpos).mp hk
  rw [Nat.succ_mul] at hnext ⊢
  have hposition := (h (k * s.blockSize + (s.blockSize - 1)) (by omega)).1
  rw [blockPosition_of (by omega)] at hposition
  omega

theorem Used.logical_iff (h : Used reader debugFile s directory identity) :
    Logical file s directory identity ↔ WholeBlocks file s := by
  obtain ⟨hs, hmapped, hassembled, hheader⟩ := h.read
  have hpos : 0 < s.blockSize := (by decide : 0 < msfMinBlockSize).trans_le hs.blockSize_ge
  constructor
  · intro hlogical
    exact wholeBlocks_of_laidOut hpos hlogical.blocks
  · intro hwhole
    exact ⟨hs, hmapped, hassembled.length, hassembled.laidOut hwhole, hheader⟩

/-- **The walk reads what it claims to, exactly when no block but the last one of the directory is
cut off by the end of the file.** -/
theorem pdb_walk (h : (parsePdbIdentityFrom reader debugFile).run .start =
    (.ok (some identity), t)) :
    ∃ s directory, Used reader debugFile s directory identity ∧
      (Logical file s directory identity ↔ WholeBlocks file s) := by
  obtain ⟨s, directory, hused⟩ := used_of_run h
  exact ⟨s, directory, hused, hused.logical_iff⟩

end Walk

namespace Sample

/-- A little-endian field. -/
def uint32 (n : Nat) : Bytes := (List.range 4).map fun k => UInt8.ofNat (n / 256 ^ k % 256)

def padded (size : Nat) (bytes : Bytes) : Bytes := bytes ++ List.replicate (size - bytes.length) 0

/-- Three blocks and a part of a fourth one: the superblock, the block map, the header of stream 1,
the stream directory. -/
def pdb (numDirectoryBytes : Nat) (blockMap : List Nat) : Bytes :=
  padded 512 (charCodes msfMagic.toList ++ [0, 0, 0] ++
    [512, 1, 4, numDirectoryBytes, 0, 1].flatMap uint32) ++
  padded 512 (blockMap.flatMap uint32) ++
  padded 512 ([20000404, 7, 10].flatMap uint32 ++ List.replicate 16 0x5a) ++
  padded 100 ([2, 0, 28, 2].flatMap uint32)

/-- The directory is the part of the fourth block. -/
def plainPdb : Bytes := pdb 16 [3]

/-- The directory begins in the part of the fourth block and goes on in the third. -/
def cutPdb : Bytes := pdb 600 [3, 2]

def identity : PdbIdentity :=
  ⟨utf16 "app.pdb", "5A5A5A5A5A5A5A5A5A5A5A5A5A5A5A5AA"⟩

theorem plainPdb_identity :
    ((parsePdbIdentityFrom (byteReaderOf plainPdb) (utf16 "app.pdb")).run .start).1 =
      .ok (some identity) := by
  decide +kernel

theorem cutPdb_identity :
    ((parsePdbIdentityFrom (byteReaderOf cutPdb) (utf16 "app.pdb")).run .start).1 =
      .ok (some identity) := by
  decide +kernel

end Sample

/-- A directory of one block. -/
theorem pdb_walk_plain :
    ∃ s directory, Used (byteReaderOf Sample.plainPdb) (utf16 "app.pdb") s directory
        Sample.identity ∧
      (Logical Sample.plainPdb s directory Sample.identity ↔ WholeBlocks Sample.plainPdb s) :=
  pdb_walk (run_of_fst Sample.plainPdb_identity)

/-- The first block of this directory has 100 bytes, and the second is put right behind them. -/
theorem pdb_walk_cut :
    (∃ t, (parsePdbIdentityFrom (byteReaderOf Sample.cutPdb) (utf16 "app.pdb")).run .start =
      (.ok (some Sample.identity), t)) ∧
    ∀ s directory, Used (byteReaderOf Sample.cutPdb) (utf16 "app.pdb") s directory
        Sample.identity → ¬ Logical Sample.cutPdb s directory Sample.identity := by
  refine ⟨⟨_, run_of_fst Sample.cutPdb_identity⟩, ?_⟩
  intro s directory hused hlogical
  obtain ⟨hs, -⟩ := hused.read
  have hwhole := hused.logical_iff.mp hlogical
  have hfields : s = ⟨512, 600, 1⟩ := by
    have hvalues : uintLE Sample.cutPdb msfBlockSizeOffset 4 = 512 ∧
        uintLE Sample.cutPdb msfNumDirectoryBytesOffset 4 = 600 ∧
        uintLE Sample.cutPdb msfBlockMapAddrOffset 4 = 1 := by decide +kernel
    obtain ⟨blockSize, numDirectoryBytes, blockMapAddr⟩ := s
    rw [Superblock.mk.injEq]
    exact ⟨hs.blockSize.trans hvalues.1, hs.numDirectoryBytes.trans hvalues.2.1,
      hs.blockMapAddr.trans hvalues.2.2⟩
  rw [hfields] at hwhole
  have hblock : ¬ (directoryBlock Sample.cutPdb ⟨512, 600, 1⟩ 0 + 1) * 512 ≤
      Sample.cutPdb.length := by decide +kernel
  have hzero := hwhole 0 (by decide)
  dsimp only at hzero
  exact hblock hzero

end DumpLedger.Symbols
