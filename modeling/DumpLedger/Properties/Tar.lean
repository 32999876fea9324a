import DumpLedger.Transfer.Tar

/-!
# Reading what was written

* `parseHeaderBlock_encode` — the reader takes the header of every entry that the writer adds
* `writeEntry_segment` — an entry in the archive is its header, its bytes and zeros
* `iterateTar_segments` — the reader's loop, by induction on the entries that are left
* `readTar_writeTar` — the archive of a list of entries is read back
-/

namespace DumpLedger.Tar

open Lib

/-! ## Blocks as fields -/

/-- The fields of a block, one after another. -/
def writeFields (block : Bytes) (fields : List (Nat × Bytes)) : Bytes :=
  fields.foldl (fun block field => overwrite block field.1 field.2) block

/-- No two fields overlap, and all are within `length` bytes. -/
structure Disjoint (length : Nat) (fields : List (Nat × Bytes)) : Prop where
  within : ∀ f ∈ fields, f.1 + f.2.length ≤ length
  apart : fields.Pairwise fun f g => f.1 + f.2.length ≤ g.1 ∨ g.1 + g.2.length ≤ f.1

section Fields

variable {block : Bytes} {fields : List (Nat × Bytes)}

theorem length_writeFields (h : ∀ f ∈ fields, f.1 + f.2.length ≤ block.length) :
    (writeFields block fields).length = block.length := by
  induction fields generalizing block with
  | nil => rfl
  | cons f rest ih =>
    have hlength := length_overwrite (h f List.mem_cons_self)
    show (writeFields (overwrite block f.1 f.2) rest).length = block.length
    rw [ih, hlength]
    intro g hg
    rw [hlength]
    exact h g (List.mem_cons_of_mem _ hg)

/-- A window that no field touches. -/
theorem window_writeFields_of_disjoint (h : ∀ f ∈ fields, f.1 + f.2.length ≤ block.length)
    {start size : Nat}
    (hdisjoint : ∀ f ∈ fields, start + size ≤ f.1 ∨ f.1 + f.2.length ≤ start) :
    window (writeFields block fields) start size = window block start size := by
  induction fields generalizing block with
  | nil => rfl
  | cons f rest ih =>
    have hf := h f List.mem_cons_self
    show window (writeFields (overwrite block f.1 f.2) rest) start size = window block start size
    rw [ih, window_overwrite_of_disjoint hf (hdisjoint f List.mem_cons_self)]
    · intro g hg
      rw [length_overwrite hf]
      exact h g (List.mem_cons_of_mem _ hg)
    · exact fun g hg => hdisjoint g (List.mem_cons_of_mem _ hg)

/-- **A field is read where it was written.** -/
theorem window_writeFields (h : Disjoint block.length fields) {f : Nat × Bytes}
    (hf : f ∈ fields) : window (writeFields block fields) f.1 f.2.length = f.2 := by
  induction fields generalizing block with
  | nil => cases hf
  | cons g rest ih =>
    have hg := h.within g List.mem_cons_self
    have hlength := length_overwrite hg
    have hrest : Disjoint (overwrite block g.1 g.2).length rest := by
      rw [hlength]
      exact ⟨fun f hf => h.within f (List.mem_cons_of_mem _ hf), (List.pairwise_cons.mp h.apart).2⟩
    show window (writeFields (overwrite block g.1 g.2) rest) f.1 f.2.length = f.2
    rcases List.mem_cons.mp hf with rfl | hmem
    · rw [window_writeFields_of_disjoint hrest.within, window_overwrite hg]
      exact fun e he => (List.pairwise_cons.mp h.apart).1 e he
    · exact ih hrest hmem

end Fields

/-- A field after another one is one field. -/
theorem overwrite_overwrite {block x y : Bytes} {offset : Nat}
    (h : offset + x.length + y.length ≤ block.length) :
    overwrite (overwrite block offset x) (offset + x.length) y =
      overwrite block offset (x ++ y) := by
  have hx : offset + x.length ≤ block.length := by omega
  have hlength := length_overwrite hx
  apply List.ext_getElem?
  intro i
  rw [getElem?_overwrite (by rw [hlength]; exact h), getElem?_overwrite hx,
    getElem?_overwrite (by rw [List.length_append]; omega), List.length_append,
    List.getElem?_append]
  by_cases hlow : i < offset + x.length
  · rw [if_neg (by omega)]
    by_cases hoffset : offset ≤ i
    · rw [if_pos ⟨hoffset, hlow⟩, if_pos ⟨hoffset, by omega⟩, if_pos (by omega)]
    · rw [if_neg (by omega), if_neg (by omega)]
  · by_cases hhigh : i < offset + x.length + y.length
    · rw [if_pos ⟨by omega, hhigh⟩, if_pos ⟨by omega, by omega⟩, if_neg (by omega)]
      congr 1
      omega
    · rw [if_neg (by omega), if_neg (by omega), if_neg (by omega)]

/-- A number that fits is written as its digits and a NUL. -/
theorem writeOctalField_ok (offset width : Nat) (label : String) {block : Bytes} {value : Int}
    (hwidth : 0 < width) (hpos : 0 ≤ value) (hvalue : value < 8 ^ width)
    (hfits : offset + width + 1 ≤ block.length) :
    writeOctalField block offset (width + 1) value label =
      .ok (overwrite block offset (octalText value.toNat width ++ [0])) := by
  have hnat : value.toNat < 8 ^ width := by
    have hcast : (value.toNat : Int) < ((8 ^ width : Nat) : Int) := by
      rw [Int.toNat_of_nonneg hpos]
      exact_mod_cast hvalue
    exact_mod_cast hcast
  have hdigits := (Nat.length_toDigits_le_iff (b := 8) (by decide) hwidth).mpr hnat
  have hlength := length_octalText hwidth hnat
  unfold writeOctalField
  rw [if_neg (by rw [Nat.add_sub_cancel]; omega), Nat.add_sub_cancel]
  have hnext : offset + (width + 1) - 1 = offset + (octalText value.toNat width).length := by
    rw [hlength]
    omega
  rw [hnext, overwrite_overwrite (by rw [hlength]; exact hfits)]

/-! ## Fields that are read back -/

theorem isOctalDigit_high {b : UInt8} (h : isOctalDigit b = true) : b &&& 0x80 = 0 := by
  have hall : ∀ n : Fin 256, isOctalDigit (UInt8.ofFin n) = true →
      UInt8.ofFin n &&& 0x80 = 0 := by decide +kernel
  exact hall b.toFin h

/-- Digits and a NUL. -/
theorem octalLoop_digits (label : String) {digits : Bytes}
    (h : ∀ b ∈ digits, isOctalDigit b = true) (value count : Nat)
    (hcount : 0 < count + digits.length) :
    octalLoop label (digits ++ [0]) value count false = .ok (octalValue value digits) := by
  induction digits generalizing value count with
  | nil =>
    have hpos : count ≠ 0 := by
      rw [List.length_nil] at hcount
      omega
    show octalLoop label [0] value count false = .ok value
    rw [octalLoop, if_neg (fun hd => absurd hd.2 (by decide)), if_pos (Or.inl rfl), octalLoop,
      if_neg hpos]
  | cons b rest ih =>
    rw [List.cons_append, octalLoop, if_pos ⟨rfl, h b List.mem_cons_self⟩,
      ih (fun c hc => h c (List.mem_cons_of_mem _ hc)) _ _ (by omega)]
    rfl

theorem parseOctalField_octalText {value width : Nat} (hwidth : 0 < width)
    (hvalue : value < 8 ^ width) (label : String) :
    parseOctalField (octalText value width ++ [0]) label = .ok value := by
  unfold parseOctalField
  rw [octalLoop_digits label all_octalText 0 0 (by rw [length_octalText hwidth hvalue]; omega),
    octalValue_octalText]

/-- **The size field is read back.** -/
theorem parseTarSize_encode {size : Int} {field : Bytes} (h : encodeTarSize size = .ok field) :
    field.length = 12 ∧ parseTarSize field = .ok size.toNat := by
  unfold encodeTarSize at h
  split at h
  · cases h
  · next hpos =>
    split at h
    · next hsmall =>
      have hvalue : size.toNat < 8 ^ 11 := by
        unfold octalSizeLimit at hsmall
        omega
      have hlength : (octalText size.toNat 11).length = 11 := length_octalText (by decide) hvalue
      have hfield : field = octalText size.toNat 11 ++ [0] := by
        cases h
        unfold overwrite
        rw [hlength]
        rfl
      rw [hfield]
      refine ⟨by rw [List.length_append, hlength]; rfl, ?_⟩
      cases hdigits : octalText size.toNat 11 with
      | nil =>
        rw [hdigits] at hlength
        cases hlength
      | cons b rest =>
        have hb : isOctalDigit b = true :=
          all_octalText b (by rw [hdigits]; exact List.mem_cons_self)
        have hrest : (rest ++ [0]).length = 11 := by
          rw [hdigits, List.length_cons] at hlength
          rw [List.length_append, List.length_singleton]
          omega
        rw [List.cons_append, parseTarSize, if_neg (not_not_intro hrest),
          if_neg (not_not_intro (isOctalDigit_high hb)), ← List.cons_append, ← hdigits]
        exact parseOctalField_octalText (by decide) hvalue _
    · split at h
      · cases h
      · next hlarge hlimit =>
        cases h
        refine ⟨by rw [List.length_cons, length_bigEndian], ?_⟩
        rw [parseTarSize, if_neg (not_not_intro (length_bigEndian ..)), if_pos (by decide),
          if_neg (by decide), beValue_bigEndian, Nat.mod_eq_of_lt]
        unfold base256SizeLimit at hlimit
        have hcast : ((256 ^ 11 : Nat) : Int) = ((2 ^ 88 : Nat) : Int) := by norm_num
        omega

/-! ## Names -/

/-- Every character is printable ASCII. -/
def PrintableAscii (name : String) : Prop :=
  ∀ c ∈ name.toList, 0x20 ≤ c.toNat ∧ c.toNat ≤ 0x7e

theorem utf8Bytes_eq (s : String) : utf8Bytes s = s.toList.flatMap String.utf8EncodeChar := by
  unfold utf8Bytes
  rw [← String.utf8Encode_toList]
  unfold List.utf8Encode
  rw [List.toList_data_toByteArray]

theorem utf8EncodeChar_ascii {c : Char} (h : c.toNat ≤ 0x7e) :
    String.utf8EncodeChar c = [UInt8.ofNat c.toNat] := by
  apply String.utf8EncodeChar_eq_singleton
  rw [Char.utf8Size_eq_one_iff]
  show c.val.toNat ≤ 127
  exact h.trans (by decide)

/-- The bytes of a printable name have no NUL among them. -/
theorem utf8Bytes_ne_zero {name : String} (h : PrintableAscii name) :
    ∀ b ∈ utf8Bytes name, (b != 0) = true := by
  intro b hb
  rw [utf8Bytes_eq, List.mem_flatMap] at hb
  obtain ⟨c, hc, hb⟩ := hb
  have hbounds := h c hc
  rw [utf8EncodeChar_ascii hbounds.2, List.mem_singleton] at hb
  rw [bne_iff_ne, hb]
  intro hzero
  have hvalue := congrArg UInt8.toNat hzero
  rw [UInt8.toNat_ofNat_of_lt' (hbounds.2.trans_lt (by decide))] at hvalue
  have hz : c.toNat = 0 := hvalue
  omega

theorem decodeUtf8_utf8Bytes {name : String} (h : PrintableAscii name) :
    decodeUtf8 (utf8Bytes name) = some name := by
  unfold decodeUtf8
  rw [fromUTF8?_utf8Bytes, Option.map_some]
  cases hname : name.toList with
  | nil => rfl
  | cons c rest =>
    split
    · next hbom =>
      have hc := (h c (by rw [hname]; exact List.mem_cons_self)).2
      cases hbom
      exact absurd hc (by decide)
    · rfl

/-! ## Headers -/

/-- The fields of a header with spaces for the checksum; the name is padded to its field. -/
def headerFields (name sizeField : Bytes) (mtime mode : Nat) : List (Nat × Bytes) :=
  [(0, name ++ List.replicate (headerNameBytes - name.length) 0),
    (100, octalText mode 7 ++ [0]),
    (108, octalText 0 7 ++ [0]),
    (116, octalText 0 7 ++ [0]),
    (124, sizeField),
    (136, octalText mtime 11 ++ [0]),
    (148, List.replicate 8 0x20),
    (156, [typeflagRegular]),
    (257, ustarMagic)]

/-- An empty block. -/
def zeroBlock : Bytes := List.replicate blockSize 0

theorem length_zeroBlock : zeroBlock.length = 512 := List.length_replicate ..

/-- A name and zeros are the name in an empty block. -/
theorem overwrite_zeroBlock {name : Bytes} (h : name.length ≤ headerNameBytes) :
    overwrite zeroBlock 0 name =
      overwrite zeroBlock 0 (name ++ List.replicate (headerNameBytes - name.length) 0) := by
  unfold headerNameBytes at h ⊢
  have hzeros : 0 + (name ++ List.replicate (100 - name.length) (0 : UInt8)).length = 100 := by
    rw [List.length_append, List.length_replicate]
    omega
  unfold overwrite zeroBlock blockSize
  rw [hzeros, List.take_zero, List.nil_append, List.nil_append, List.drop_replicate,
    List.drop_replicate, List.append_assoc, ← List.replicate_add]
  congr 2
  omega

section Header

variable {name : String} {size mtime mode : Int}

/-- The values that `addEntry` has checked. -/
structure HeaderInput (name : String) (mtime mode : Int) : Prop where
  nameLength : (utf8Bytes name).length ≤ headerNameBytes
  mtime_nonneg : 0 ≤ mtime
  mtime_le : mtime ≤ octalSizeLimit
  mode_nonneg : 0 ≤ mode
  mode_le : mode ≤ 0o7777

theorem headerFields_disjoint (h : HeaderInput name mtime mode) {sizeField : Bytes}
    (hsize : sizeField.length = 12) :
    Disjoint zeroBlock.length
      (headerFields (utf8Bytes name) sizeField mtime.toNat mode.toNat) := by
  have hname := h.nameLength
  have hmode : (octalText mode.toNat 7).length = 7 :=
    length_octalText (by decide) (by have := h.mode_le; have := h.mode_nonneg; omega)
  have hmtime : (octalText mtime.toNat 11).length = 11 := by
    have hle := h.mtime_le
    have hpos := h.mtime_nonneg
    unfold octalSizeLimit at hle
    exact length_octalText (by decide) (by omega)
  have hzero : (octalText 0 7).length = 7 := length_octalText (by decide) (by decide)
  have hmagic : ustarMagic.length = 8 := rfl
  rw [length_zeroBlock]
  unfold headerNameBytes at hname
  constructor
  · simp only [headerFields, headerNameBytes, List.forall_mem_cons, List.length_append,
      List.length_replicate, List.length_singleton, hmode, hmtime, hzero, hsize, hmagic]
    refine ⟨by omega, by omega, by omega, by omega, by omega, by omega, by omega, by omega,
      by omega, ?_⟩
    intro f hf
    cases hf
  · simp only [headerFields, headerNameBytes, List.pairwise_cons, List.forall_mem_cons,
      List.length_append, List.length_replicate, List.length_singleton, hmode, hmtime, hzero,
      hsize, hmagic, List.not_mem_nil, false_imp_iff, implies_true, List.Pairwise.nil, and_true]
    omega

/-- Beside the magic no field goes beyond the type flag. -/
theorem headerFields_extent (h : HeaderInput name mtime mode) {sizeField : Bytes}
    (hsize : sizeField.length = 12) :
    ∀ f ∈ headerFields (utf8Bytes name) sizeField mtime.toNat mode.toNat,
      f.1 + f.2.length ≤ 157 ∨ (257 ≤ f.1 ∧ f.1 + f.2.length ≤ 265) := by
  have hname := h.nameLength
  have hmode : (octalText mode.toNat 7).length = 7 :=
    length_octalText (by decide) (by have := h.mode_le; have := h.mode_nonneg; omega)
  have hmtime : (octalText mtime.toNat 11).length = 11 := by
    have hle := h.mtime_le
    unfold octalSizeLimit at hle
    exact length_octalText (by decide) (by omega)
  have hzero : (octalText 0 7).length = 7 := length_octalText (by decide) (by decide)
  have hmagic : ustarMagic.length = 8 := rfl
  unfold headerNameBytes at hname
  simp only [headerFields, headerNameBytes, List.forall_mem_cons, List.length_append,
    List.length_replicate, List.length_singleton, hmode, hmtime, hzero, hsize, hmagic]
  refine ⟨by omega, by omega, by omega, by omega, by omega, by omega, by omega, by omega,
    by omega, ?_⟩
  intro f hf
  cases hf

/-- A block keeps its length under a field. -/
theorem length_field {block field : Bytes} {offset : Nat} (hblock : block.length = 512)
    (hfield : offset + field.length ≤ 512) : (overwrite block offset field).length = 512 := by
  rw [length_overwrite (by rw [hblock]; exact hfield), hblock]

theorem unsummedHeader_eq (h : HeaderInput name mtime mode) {sizeField : Bytes}
    (hsize : encodeTarSize size = .ok sizeField) :
    unsummedHeader name size mtime mode =
      .ok (writeFields zeroBlock
        (headerFields (utf8Bytes name) sizeField mtime.toNat mode.toNat)) := by
  have hwithin := (headerFields_disjoint h (parseTarSize_encode hsize).1).within
  rw [length_zeroBlock] at hwithin
  simp only [headerFields, List.forall_mem_cons] at hwithin
  obtain ⟨hname, hmode, huid, hgid, hsizeField, hmtime, -⟩ := hwithin
  have hmode8 : mode < 8 ^ 7 := by
    have hle := h.mode_le
    norm_num at hle ⊢
    omega
  have hmtime8 : mtime < 8 ^ 11 := by
    have hle := h.mtime_le
    unfold octalSizeLimit at hle
    norm_num at hle ⊢
    omega
  -- every block on the way has 512 bytes, so the next field fits
  have hblock := length_field length_zeroBlock hname
  rw [← overwrite_zeroBlock h.nameLength] at hblock
  have hblock₁ := length_field hblock hmode
  have hblock₂ := length_field hblock₁ huid
  have hblock₃ := length_field hblock₂ hgid
  have hblock₄ := length_field hblock₃ hsizeField
  rw [overwrite_zeroBlock h.nameLength] at hblock hblock₁ hblock₂ hblock₃ hblock₄
  have hmodeField := writeOctalField_ok 100 7 "mode" (by decide) h.mode_nonneg hmode8
    (by rw [hblock]; decide)
  have huidField := writeOctalField_ok 108 7 "uid" (by decide) le_rfl (by decide)
    (by rw [hblock₁]; decide)
  have hgidField := writeOctalField_ok 116 7 "gid" (by decide) le_rfl (by decide)
    (by rw [hblock₂]; decide)
  have hmtimeField := writeOctalField_ok 136 11 "mtime" (by decide) h.mtime_nonneg hmtime8
    (by rw [hblock₄]; decide)
  unfold unsummedHeader
  rw [← zeroBlock, overwrite_zeroBlock h.nameLength]
  simp only [hmodeField, huidField, Int.toNat_zero, hgidField, hsize, hmtimeField, bind_ok]
  rfl

end Header

/-! ## Checksums -/

section Checksum

variable {block : Bytes}

theorem byteSum_le (block : Bytes) : byteSum block ≤ 255 * block.length := by
  unfold byteSum
  induction block with
  | nil => exact le_rfl
  | cons b rest ih =>
    have hb := b.toNat_lt
    rw [List.map_cons, List.sum_cons, List.length_cons]
    omega

/-- Six digits hold the sum of a block. -/
theorem byteSum_lt (h : block.length = 512) : byteSum block < 8 ^ 6 := by
  have hle := byteSum_le block
  rw [h] at hle
  exact hle.trans_lt (by decide)

def checksumField (block : Bytes) : Bytes := octalText (byteSum block) 6 ++ [0x00, 0x20]

theorem length_checksumField (h : block.length = 512) : (checksumField block).length = 8 := by
  unfold checksumField
  rw [List.length_append, length_octalText (by decide) (byteSum_lt h)]
  rfl

theorem setChecksum_eq (h : block.length = 512) :
    setChecksum block = overwrite block 148 (checksumField block) := by
  have hdigits : (octalText (byteSum block) 6).length = 6 :=
    length_octalText (by decide) (byteSum_lt h)
  have hfirst : overwrite (overwrite block 148 (octalText (byteSum block) 6)) 154 [0x00] =
      overwrite block 148 (octalText (byteSum block) 6 ++ [0x00]) := by
    have heq : 154 = 148 + (octalText (byteSum block) 6).length := by rw [hdigits]
    rw [heq, overwrite_overwrite (by rw [hdigits, h]; decide)]
  have hlength : (octalText (byteSum block) 6 ++ [0x00]).length = 7 := by
    rw [List.length_append, hdigits]
    rfl
  have hsecond : 155 = 148 + (octalText (byteSum block) 6 ++ [0x00]).length := by rw [hlength]
  unfold setChecksum
  rw [hfirst, hsecond, overwrite_overwrite (by rw [hlength, h]; decide), List.append_assoc]
  rfl

/-- The field of the checksum is within the block. -/
theorem checksumField_within (h : block.length = 512) :
    148 + (checksumField block).length ≤ block.length := by
  rw [length_checksumField h, h]
  decide

theorem length_setChecksum (h : block.length = 512) : (setChecksum block).length = 512 := by
  rw [setChecksum_eq h, length_overwrite (checksumField_within h), h]

theorem window_setChecksum (h : block.length = 512) :
    window (setChecksum block) 148 8 = checksumField block := by
  have hwindow := window_overwrite (checksumField_within h)
  rw [length_checksumField h] at hwindow
  rw [setChecksum_eq h, hwindow]

theorem window_setChecksum_of_disjoint (h : block.length = 512) {start size : Nat}
    (hdisjoint : start + size ≤ 148 ∨ 156 ≤ start) :
    window (setChecksum block) start size = window block start size := by
  rw [setChecksum_eq h]
  refine window_overwrite_of_disjoint (checksumField_within h) ?_
  rw [length_checksumField h]
  omega

/-- The reader sums what the writer summed: the block with spaces for the checksum. -/
theorem checksum_setChecksum (h : block.length = 512)
    (hspaces : window block 148 8 = List.replicate 8 0x20) :
    checksum (setChecksum block) = byteSum block := by
  unfold checksum byteSum
  refine congrArg List.sum ?_
  refine List.ext_getElem ?_ fun i hi hi' => ?_
  · rw [List.length_map, List.length_range, List.length_map, h]
    rfl
  · have hlt : i < block.length := by rwa [List.length_map] at hi'
    rw [List.getElem_map, List.getElem_map, List.getElem_range]
    by_cases hfield : 148 ≤ i ∧ i < 156
    · have hspace := getElem?_window block 148 8 (i - 148)
      rw [hspaces, if_pos (by omega), List.getElem?_replicate, if_pos (by omega),
        show 148 + (i - 148) = i by omega, List.getElem?_eq_getElem hlt] at hspace
      rw [if_pos hfield, ← Option.some_inj.mp hspace]
      rfl
    · rw [if_neg hfield, setChecksum_eq h, List.getD_eq_getElem?_getD,
        getElem?_overwrite (checksumField_within h), length_checksumField h, if_neg hfield,
        List.getElem?_eq_getElem hlt, Option.getD_some]

theorem verifyChecksum_setChecksum (h : block.length = 512)
    (hspaces : window block 148 8 = List.replicate 8 0x20) :
    verifyChecksum (setChecksum block) = .ok () := by
  have hfield := window_setChecksum h
  have hdigitsLength : (octalText (byteSum block) 6).length = 6 :=
    length_octalText (by decide) (byteSum_lt h)
  have hdigits : checksumDigits (setChecksum block) = octalText (byteSum block) 6 := by
    have hsub : window (window (setChecksum block) 148 8) 0 6 =
        window (setChecksum block) (148 + 0) 6 := window_window (by decide)
    rw [hfield] at hsub
    show window (setChecksum block) 148 6 = _
    rw [← hsub]
    unfold checksumField window
    rw [List.drop_zero, List.take_left' hdigitsLength]
  have hnul : window (setChecksum block) 154 1 = [0x00] := by
    have hsub : window (window (setChecksum block) 148 8) 6 1 =
        window (setChecksum block) (148 + 6) 1 := window_window (by decide)
    rw [hfield] at hsub
    rw [← hsub]
    unfold checksumField
    rw [window_append_right hdigitsLength.symm]
    rfl
  have hspace : window (setChecksum block) 155 1 = [0x20] := by
    have hsub : window (window (setChecksum block) 148 8) 7 1 =
        window (setChecksum block) (148 + 7) 1 := window_window (by decide)
    rw [hfield] at hsub
    rw [← hsub]
    have hsplit : checksumField block = (octalText (byteSum block) 6 ++ [0x00]) ++ [0x20] := by
      rw [List.append_assoc]
      rfl
    rw [hsplit, window_append_right (by rw [List.length_append, hdigitsLength]; rfl)]
    rfl
  unfold verifyChecksum
  rw [hdigits, guardThat_of (List.all_eq_true.mpr all_octalText), bind_ok,
    guardThat_of ⟨hnul, hspace⟩, bind_ok, checksum_setChecksum h hspaces, octalValue_octalText,
    guardThat_of rfl]

end Checksum

/-! ## Headers are read back -/

section ReadHeader

variable {name : String} {size mtime mode : Int} {sizeField : Bytes}

/-- The header of an entry without its checksum. -/
def headerBlock (name : String) (sizeField : Bytes) (mtime mode : Int) : Bytes :=
  writeFields zeroBlock (headerFields (utf8Bytes name) sizeField mtime.toNat mode.toNat)

theorem length_headerBlock (h : HeaderInput name mtime mode) (hsize : sizeField.length = 12) :
    (headerBlock name sizeField mtime mode).length = 512 := by
  unfold headerBlock
  rw [length_writeFields (headerFields_disjoint h hsize).within, length_zeroBlock]

theorem window_headerBlock (h : HeaderInput name mtime mode) (hsize : sizeField.length = 12)
    (offset : Nat) (field : Bytes) {length : Nat} (hfield : (offset, field) ∈
      headerFields (utf8Bytes name) sizeField mtime.toNat mode.toNat)
    (hlength : field.length = length) :
    window (headerBlock name sizeField mtime mode) offset length = field := by
  rw [← hlength]
  exact window_writeFields (headerFields_disjoint h hsize) hfield

/-- What no field touches is zeros. -/
theorem window_headerBlock_zeros (h : HeaderInput name mtime mode)
    (hsize : sizeField.length = 12) {start length : Nat} (hwithin : start + length ≤ 512)
    (hdisjoint : ∀ f ∈ headerFields (utf8Bytes name) sizeField mtime.toNat mode.toNat,
      start + length ≤ f.1 ∨ f.1 + f.2.length ≤ start) :
    isZeroBlock (window (headerBlock name sizeField mtime mode) start length) = true := by
  unfold headerBlock
  rw [window_writeFields_of_disjoint (headerFields_disjoint h hsize).within hdisjoint]
  unfold zeroBlock blockSize
  rw [window_replicate hwithin]
  unfold isZeroBlock
  rw [List.all_replicate]
  simp

theorem getD_of_window {block : Bytes} {i : Nat} {b : UInt8} (h : window block i 1 = [b]) :
    block.getD i 0 = b := by
  have hbyte := getElem?_window block i 1 0
  rw [h, if_pos (by decide), Nat.add_zero] at hbyte
  rw [List.getD_eq_getElem?_getD, ← hbyte]
  rfl

/-- The name is what stands before the first NUL of its field. -/
theorem takeWhile_name {bytes : Bytes} (h : ∀ b ∈ bytes, (b != 0) = true) (n : Nat) :
    (bytes ++ List.replicate n 0).takeWhile (fun b => b != 0) = bytes := by
  rw [List.takeWhile_append_of_pos h]
  cases n with
  | zero => exact List.append_nil _
  | succ n =>
    rw [List.replicate_succ, List.takeWhile_cons_of_neg (by decide), List.append_nil]

/-- What the reader finds in the header of an entry. -/
structure IsHeaderOf (block : Bytes) (name : String) (size : Nat) : Prop where
  length : block.length = blockSize
  verified : verifyChecksum block = .ok ()
  magic : window block 257 8 = ustarMagic
  typeflag : block.getD 156 0 = typeflagRegular
  link : isZeroBlock (window block 157 100) = true
  device : isZeroBlock (window block 329 171) = true
  name : window block 0 headerNameBytes =
    utf8Bytes name ++ List.replicate (headerNameBytes - (utf8Bytes name).length) 0
  mode : ∃ value, parseOctalField (window block 100 8) "mode" = .ok value
  uid : ∃ value, parseOctalField (window block 108 8) "uid" = .ok value
  gid : ∃ value, parseOctalField (window block 116 8) "gid" = .ok value
  mtime : ∃ value, parseOctalField (window block 136 12) "mtime" = .ok value
  size : parseTarSize (window block 124 12) = .ok size

/-- **The reader takes a header, and reads the name and the size.** -/
theorem IsHeaderOf.parse {block : Bytes} {size : Nat} (h : IsHeaderOf block name size)
    (hascii : PrintableAscii name) (hcheck : checkEntryName name = .ok ()) {maxNameLength : Nat}
    (hbound : (utf8Bytes name).length ≤ maxNameLength) :
    parseHeaderBlock block maxNameLength = .ok ⟨name, size⟩ := by
  obtain ⟨mode, hmode⟩ := h.mode
  obtain ⟨uid, huid⟩ := h.uid
  obtain ⟨gid, hgid⟩ := h.gid
  obtain ⟨mtime, hmtime⟩ := h.mtime
  have hpad : isZeroBlock ((utf8Bytes name ++
      List.replicate (headerNameBytes - (utf8Bytes name).length) 0).drop
        (utf8Bytes name).length) = true := by
    rw [List.drop_left]
    unfold isZeroBlock
    rw [List.all_replicate]
    simp
  have htypeflag : block.getD 156 0 = typeflagRegular ∨ block.getD 156 0 = 0x00 :=
    Or.inl h.typeflag
  unfold parseHeaderBlock
  dsimp only
  rw [h.verified, bind_ok, guardThat_of h.magic, bind_ok, guardThat_of htypeflag, bind_ok,
    guardThat_of h.link, bind_ok, guardThat_of h.device, bind_ok, h.name,
    takeWhile_name (utf8Bytes_ne_zero hascii), guardThat_of hpad, bind_ok, guardThat_of hbound,
    bind_ok, decodeUtf8_utf8Bytes hascii, orThrow_some, bind_ok, hcheck, bind_ok, hmode, bind_ok,
    huid, bind_ok, hgid, bind_ok, hmtime, bind_ok, h.size]
  rfl

/-- A header is not a block of zeros. -/
theorem IsHeaderOf.not_zero {block : Bytes} {size : Nat} (h : IsHeaderOf block name size) :
    isZeroBlock block = false := by
  rw [Bool.eq_false_iff]
  intro hzero
  have hmagic : (0x75 : UInt8) ∈ block := by
    have hmem : (0x75 : UInt8) ∈ window block 257 8 := by
      rw [h.magic]
      exact List.mem_cons_self
    exact List.mem_of_mem_drop (List.mem_of_mem_take hmem)
  have hbyte := List.all_eq_true.mp hzero _ hmagic
  exact absurd hbyte (by decide)

/-- **The header of an entry whose values the writer has checked.** -/
theorem isHeaderOf_encode (h : HeaderInput name mtime mode)
    (hsize : encodeTarSize size = .ok sizeField) :
    IsHeaderOf (setChecksum (headerBlock name sizeField mtime mode)) name size.toNat := by
  obtain ⟨hsizeLength, hsizeParsed⟩ := parseTarSize_encode hsize
  have hblock := length_headerBlock h hsizeLength
  have hmode7 : mode.toNat < 8 ^ 7 := by
    have hle := h.mode_le
    omega
  have hmtime11 : mtime.toNat < 8 ^ 11 := by
    have hle := h.mtime_le
    unfold octalSizeLimit at hle
    omega
  have hdigits : ∀ {value width : Nat}, 0 < width → value < 8 ^ width →
      (octalText value width ++ [0]).length = width + 1 := by
    intro value width hwidth hvalue
    rw [List.length_append, length_octalText hwidth hvalue]
    rfl
  have hnameLength : (utf8Bytes name ++
      List.replicate (headerNameBytes - (utf8Bytes name).length) 0).length = headerNameBytes := by
    have hle := h.nameLength
    rw [List.length_append, List.length_replicate]
    omega
  -- the fields that the reader looks at, beside the checksum
  have hfield : ∀ (offset : Nat) (field : Bytes) {length : Nat}, (offset, field) ∈
        headerFields (utf8Bytes name) sizeField mtime.toNat mode.toNat → field.length = length →
      (offset + length ≤ 148 ∨ 156 ≤ offset) →
      window (setChecksum (headerBlock name sizeField mtime mode)) offset length = field := by
    intro offset field length hmem hlength hdisjoint
    rw [window_setChecksum_of_disjoint hblock hdisjoint,
      window_headerBlock h hsizeLength offset field hmem hlength]
  have hzeros : ∀ start length : Nat, (156 ≤ start) → start + length ≤ 512 →
      (∀ f ∈ headerFields (utf8Bytes name) sizeField mtime.toNat mode.toNat,
        start + length ≤ f.1 ∨ f.1 + f.2.length ≤ start) →
      isZeroBlock
        (window (setChecksum (headerBlock name sizeField mtime mode)) start length) = true := by
    intro start length hstart hwithin hdisjoint
    rw [window_setChecksum_of_disjoint hblock (Or.inr hstart)]
    exact window_headerBlock_zeros h hsizeLength hwithin hdisjoint
  have hextent := headerFields_extent h hsizeLength
  constructor
  case length => exact length_setChecksum hblock
  case verified =>
    exact verifyChecksum_setChecksum hblock
      (window_headerBlock h hsizeLength 148 _ (by simp [headerFields]) rfl)
  case magic => exact hfield 257 ustarMagic (by simp [headerFields]) rfl (by decide)
  case typeflag =>
    exact getD_of_window (hfield 156 [typeflagRegular] (by simp [headerFields]) rfl (by decide))
  case link =>
    refine hzeros 157 100 (by decide) (by decide) fun f hf => ?_
    have hf := hextent f hf
    omega
  case device =>
    refine hzeros 329 171 (by decide) (by decide) fun f hf => ?_
    have hf := hextent f hf
    omega
  case name => exact hfield 0 _ List.mem_cons_self hnameLength (by decide)
  case mode =>
    rw [hfield 100 (octalText mode.toNat 7 ++ [0]) (by simp [headerFields])
      (hdigits (by decide) hmode7) (by decide)]
    exact ⟨_, parseOctalField_octalText (by decide) hmode7 _⟩
  case uid =>
    rw [hfield 108 (octalText 0 7 ++ [0]) (by simp [headerFields])
      (hdigits (by decide) (by decide)) (by decide)]
    exact ⟨_, parseOctalField_octalText (by decide) (by decide) _⟩
  case gid =>
    rw [hfield 116 (octalText 0 7 ++ [0]) (by simp [headerFields])
      (hdigits (by decide) (by decide)) (by decide)]
    exact ⟨_, parseOctalField_octalText (by decide) (by decide) _⟩
  case mtime =>
    rw [hfield 136 (octalText mtime.toNat 11 ++ [0]) (by simp [headerFields])
      (hdigits (by decide) hmtime11) (by decide)]
    exact ⟨_, parseOctalField_octalText (by decide) hmtime11 _⟩
  case size =>
    rw [hfield 124 sizeField (by simp [headerFields]) hsizeLength (by decide)]
    exact hsizeParsed

end ReadHeader

/-! ## Writing an archive -/

/-- An entry with what the clock gives when it is added, and its bytes as they arrive. -/
structure EntryInput where
  name : String
  size : Int
  mtime : Int
  chunks : List Bytes

/-- `addEntry`, an `append` for each chunk, and `finish`. -/
def writeEntry (w : TarWriter) (e : EntryInput) : Except Thrown TarWriter := do
  let added ← w.addEntry e.name e.size e.mtime
  let filled ← e.chunks.foldlM TarWriter.append added
  filled.finishEntry

/-- The archive of a list of entries. -/
def writeTar (mode : Int) (entries : List EntryInput) : Except Thrown Bytes := do
  let w ← createTarWriter mode
  let filled ← entries.foldlM writeEntry w
  let finished ← filled.finish
  return finished.archive

/-- The zeros after an entry. -/
def zeroPadding (size : Nat) : Bytes := List.replicate (TarWriter.padding size) 0

/-- The entries as they stand in the archive. -/
inductive Segments : List EntryInput → Bytes → Prop
  | nil : Segments [] []
  | cons {e : EntryInput} {entries : List EntryInput} {header body : Bytes}
      (hheader : IsHeaderOf header e.name e.size.toNat)
      (hname : checkEntryName e.name = .ok ())
      (hsize : (e.chunks.flatten.length : Int) = e.size)
      (hrest : Segments entries body) :
      Segments (e :: entries)
        (header ++ e.chunks.flatten ++ zeroPadding e.chunks.flatten.length ++ body)

/-- A writer that takes entries. -/
structure TarWriter.Ready (mode : Int) (w : TarWriter) : Prop where
  mode_eq : w.mode = mode
  unsealed : w.sealed = false
  closed : w.checkClosed = .ok ()

section Writer

variable {w w' : TarWriter} {mode : Int} {e : EntryInput}

theorem createTarWriter_ready (h : createTarWriter mode = .ok w) :
    w.Ready mode ∧ w.archive = [] ∧ 0 ≤ mode ∧ mode ≤ 0o7777 := by
  unfold createTarWriter at h
  obtain ⟨_, hmode, h⟩ := bind_eq_ok.mp h
  have hbounds := guardThat_eq_ok.mp hmode
  cases h
  exact ⟨⟨rfl, rfl, rfl⟩, rfl, hbounds⟩

/-- What `addEntry` has checked when it takes an entry. -/
structure Accepted (mode : Int) (e : EntryInput) : Prop where
  size_nonneg : 0 ≤ e.size
  name : checkEntryName e.name = .ok ()
  nameLength : (utf8Bytes e.name).length ≤ headerNameBytes
  mtime : 0 ≤ e.mtime ∧ e.mtime ≤ maxSafeInteger ∧ e.mtime ≤ octalSizeLimit
  header : ∃ header, encodeHeaderBlock e.name e.size e.mtime mode = .ok header

theorem accepted_of_addEntry (hmode : w.mode = mode)
    (h : w.addEntry e.name e.size e.mtime = .ok w') : Accepted mode e := by
  unfold TarWriter.addEntry at h
  obtain ⟨_, -, h⟩ := bind_eq_ok.mp h
  obtain ⟨_, -, h⟩ := bind_eq_ok.mp h
  obtain ⟨_, hsize, h⟩ := bind_eq_ok.mp h
  obtain ⟨_, hname, h⟩ := bind_eq_ok.mp h
  obtain ⟨_, hlength, h⟩ := bind_eq_ok.mp h
  obtain ⟨_, hmtime, h⟩ := bind_eq_ok.mp h
  obtain ⟨header, hheader, -⟩ := bind_eq_ok.mp h
  rw [hmode] at hheader
  exact ⟨guardThat_eq_ok.mp hsize, hname, guardThat_eq_ok.mp hlength, guardThat_eq_ok.mp hmtime,
    header, hheader⟩

/-- Every writer that is ready takes the entry. -/
theorem addEntry_of_accepted (hw : w.Ready mode) (h : Accepted mode e) {header : Bytes}
    (hheader : encodeHeaderBlock e.name e.size e.mtime mode = .ok header) :
    w.addEntry e.name e.size e.mtime =
      .ok { w.write header with
        openEntry := some ⟨e.name, e.size.toNat, e.size.toNat, false⟩ } := by
  unfold TarWriter.addEntry
  rw [guardThat_of hw.unsealed, bind_ok, hw.closed, bind_ok, guardThat_of h.size_nonneg, bind_ok,
    h.name, bind_ok, guardThat_of h.nameLength, bind_ok, guardThat_of h.mtime, bind_ok,
    hw.mode_eq, hheader]
  rfl

/-- A header that was encoded is one that the reader takes. -/
theorem isHeaderOf_of_accepted (h : Accepted mode e) (hmode : 0 ≤ mode ∧ mode ≤ 0o7777)
    {header : Bytes} (hheader : encodeHeaderBlock e.name e.size e.mtime mode = .ok header) :
    IsHeaderOf header e.name e.size.toNat := by
  have hinput : HeaderInput e.name e.mtime mode :=
    ⟨h.nameLength, h.mtime.1, h.mtime.2.2, hmode.1, hmode.2⟩
  unfold encodeHeaderBlock at hheader
  obtain ⟨block, hblock, rfl⟩ := map_eq_ok.mp hheader
  have hsizeField : ∃ sizeField, encodeTarSize e.size = .ok sizeField := by
    unfold unsummedHeader at hblock
    obtain ⟨_, -, hblock⟩ := bind_eq_ok.mp hblock
    obtain ⟨_, -, hblock⟩ := bind_eq_ok.mp hblock
    obtain ⟨_, -, hblock⟩ := bind_eq_ok.mp hblock
    obtain ⟨sizeField, hsizeField, -⟩ := bind_eq_ok.mp hblock
    exact ⟨sizeField, hsizeField⟩
  obtain ⟨sizeField, hsizeField⟩ := hsizeField
  rw [unsummedHeader_eq hinput hsizeField] at hblock
  rw [← Except.ok.inj hblock]
  exact isHeaderOf_encode hinput hsizeField

/-- The chunks go to the sink as they are. -/
theorem append_chunks {name : String} {size : Nat} (chunks : List Bytes) (w : TarWriter)
    (remaining : Nat) (hopen : w.openEntry = some ⟨name, size, remaining, false⟩)
    (hfits : chunks.flatten.length ≤ remaining) :
    chunks.foldlM TarWriter.append w =
      .ok { w with
        sink := w.sink ++ chunks
        openEntry := some ⟨name, size, remaining - chunks.flatten.length, false⟩ } := by
  induction chunks generalizing w remaining with
  | nil =>
    rw [List.append_nil]
    show Except.ok w = Except.ok { w with openEntry := some ⟨name, size, remaining, false⟩ }
    rw [← hopen]
  | cons chunk rest ih =>
    rw [List.flatten_cons, List.length_append] at hfits ⊢
    have hfirst : w.append chunk = .ok { w.write chunk with
        openEntry := some ⟨name, size, remaining - chunk.length, false⟩ } := by
      unfold TarWriter.append
      rw [hopen]
      dsimp only
      rw [guardThat_of rfl, bind_ok, guardThat_of (show chunk.length ≤ remaining by omega)]
      rfl
    rw [List.foldlM_cons, hfirst, bind_ok, ih _ (remaining - chunk.length) rfl (by omega)]
    unfold TarWriter.write
    simp only [List.append_assoc, List.singleton_append, Nat.sub_sub]

theorem finishEntry_ok {entry : OpenEntry} (hopen : w.openEntry = some entry)
    (hunfinished : entry.finished = false) (hremaining : entry.remaining = 0) :
    ∃ w', w.finishEntry = .ok w' ∧ w'.mode = w.mode ∧ w'.sealed = w.sealed ∧
      w'.checkClosed = .ok () ∧ w'.archive = w.archive ++ zeroPadding entry.size := by
  unfold TarWriter.finishEntry
  rw [hopen]
  simp only [guardThat_of hunfinished, guardThat_of hremaining, bind_ok]
  refine ⟨_, rfl, ?_, ?_, guardThat_of rfl, ?_⟩
  · split <;> rfl
  · split <;> rfl
  · unfold zeroPadding TarWriter.archive
    split
    · exact List.flatten_concat
    · next hnone =>
      have hzero : TarWriter.padding entry.size = 0 := by omega
      rw [hzero, List.replicate_zero, List.append_nil]

/-- **An entry in the archive is its header, its bytes and zeros.** -/
theorem writeEntry_segment (hw : w.Ready mode) (hmode : 0 ≤ mode ∧ mode ≤ 0o7777)
    (h : Accepted mode e) (hsize : (e.chunks.flatten.length : Int) = e.size) :
    ∃ w' header, writeEntry w e = .ok w' ∧ w'.Ready mode ∧
      IsHeaderOf header e.name e.size.toNat ∧
      w'.archive = w.archive ++
        (header ++ e.chunks.flatten ++ zeroPadding e.chunks.flatten.length) := by
  obtain ⟨header, hheader⟩ := h.header
  have hlength : e.size.toNat = e.chunks.flatten.length := by omega
  have hfill := append_chunks e.chunks
    { w.write header with openEntry := some ⟨e.name, e.size.toNat, e.size.toNat, false⟩ }
    e.size.toNat rfl hlength.ge
  obtain ⟨w', hfinish, hmode', hsealed, hclosed, harchive⟩ := finishEntry_ok
    (w := { (w.write header) with
      sink := (w.write header).sink ++ e.chunks
      openEntry := some ⟨e.name, e.size.toNat, e.size.toNat - e.chunks.flatten.length, false⟩ })
    rfl rfl (by simp only; omega)
  refine ⟨w', header, ?_, ⟨hmode'.trans hw.mode_eq, hsealed.trans hw.unsealed, hclosed⟩,
    isHeaderOf_of_accepted h hmode hheader, ?_⟩
  · unfold writeEntry
    rw [addEntry_of_accepted hw h hheader, bind_ok, hfill, bind_ok]
    exact hfinish
  · rw [harchive]
    unfold TarWriter.archive TarWriter.write
    simp only [List.flatten_append, List.flatten_cons, List.flatten_nil, List.append_nil,
      List.append_assoc, hlength]

theorem writeEntries_segments {entries : List EntryInput} (hw : w.Ready mode)
    (hmode : 0 ≤ mode ∧ mode ≤ 0o7777) (h : ∀ e ∈ entries, Accepted mode e)
    (hsize : ∀ e ∈ entries, (e.chunks.flatten.length : Int) = e.size) :
    ∃ w' body, entries.foldlM writeEntry w = .ok w' ∧ w'.Ready mode ∧
      Segments entries body ∧ w'.archive = w.archive ++ body := by
  induction entries generalizing w with
  | nil => exact ⟨w, [], rfl, hw, .nil, (List.append_nil _).symm⟩
  | cons e rest ih =>
    have he := h e List.mem_cons_self
    have hesize := hsize e List.mem_cons_self
    obtain ⟨w₁, header, hwrite, hready, hheader, harchive⟩ :=
      writeEntry_segment hw hmode he hesize
    obtain ⟨w', body, hrest, hready', hsegments, harchive'⟩ := ih hready
      (fun e' he' => h e' (List.mem_cons_of_mem _ he'))
      (fun e' he' => hsize e' (List.mem_cons_of_mem _ he'))
    refine ⟨w', _, ?_, hready', .cons hheader he.name hesize hsegments, ?_⟩
    · rw [List.foldlM_cons, hwrite, bind_ok, hrest]
    · rw [harchive', harchive, List.append_assoc]

/-- The archive of the entries: their segments and the end marker. -/
theorem writeTar_segments {entries : List EntryInput} {fresh : TarWriter}
    (hfresh : createTarWriter mode = .ok fresh) (h : ∀ e ∈ entries, Accepted mode e)
    (hsize : ∀ e ∈ entries, (e.chunks.flatten.length : Int) = e.size) :
    ∃ body, Segments entries body ∧
      writeTar mode entries = .ok (body ++ List.replicate 1024 0) := by
  obtain ⟨hready, hempty, hmode⟩ := createTarWriter_ready hfresh
  obtain ⟨w', body, hwrite, hready', hsegments, harchive⟩ :=
    writeEntries_segments hready hmode h hsize
  refine ⟨body, hsegments, ?_⟩
  unfold writeTar TarWriter.finish
  rw [hfresh, bind_ok, hwrite, bind_ok, guardThat_of hready'.unsealed, bind_ok, hready'.closed,
    bind_ok]
  have hfinal : (w'.write (List.replicate (blockSize * endMarkerBlocks) 0)).archive =
      body ++ List.replicate 1024 0 := by
    unfold TarWriter.archive TarWriter.write
    rw [List.flatten_concat]
    show w'.archive ++ _ = _
    rw [harchive, hempty]
    rfl
  rw [← hfinal]
  rfl

end Writer

/-! ## Reading it back -/

section Reader

variable {source : Bytes}

theorem readBlock_eq {before block rest : Bytes} {offset : Nat}
    (hsource : source = before ++ (block ++ rest)) (hoffset : offset = before.length)
    (hblock : block.length = blockSize) : readBlock source offset = some block := by
  have hwindow : window source offset blockSize = block := by
    rw [hsource, window_append_right hoffset, ← hblock, List.take_left]
  have hlength : ¬ source.length < offset + blockSize := by
    rw [hsource, List.length_append, List.length_append]
    omega
  unfold readBlock
  rw [if_neg hlength]
  dsimp only
  rw [hwindow, if_pos hblock]

theorem isZeroBlock_zeros (n : Nat) : isZeroBlock (List.replicate n 0) = true := by
  unfold isZeroBlock
  rw [List.all_replicate]
  simp

/-- One block of zeros after the end marker is all there is. -/
theorem checkTrailer_zeros {before : Bytes} {offset : Nat}
    (hsource : source = before ++ List.replicate blockSize 0) (hoffset : offset = before.length) :
    checkTrailer source offset = .ok () := by
  have hlength : source.length = offset + blockSize := by
    rw [hsource, List.length_append, List.length_replicate, hoffset]
  have hsplit : source = before ++ (List.replicate blockSize 0 ++ []) := by
    rw [List.append_nil]
    exact hsource
  have hblock := readBlock_eq hsplit hoffset (List.length_replicate ..)
  rw [checkTrailer, if_pos (by rw [hlength]; exact Nat.lt_add_of_pos_right (by decide)), hblock,
    orThrow_some, bind_ok, guardThat_of (isZeroBlock_zeros _), bind_ok, checkTrailer,
    if_neg (Nat.not_lt.mpr hlength.le)]

/-- The chunks of an entry that is there are its bytes. -/
theorem entryChunks_flatten {position remaining : Nat}
    (h : position + remaining ≤ source.length) :
    (entryChunks source position remaining).thrown = none ∧
      (entryChunks source position remaining).values.flatten =
        window source position remaining := by
  induction remaining using Nat.strong_induction_on generalizing position with
  | _ remaining ih =>
    rw [entryChunks]
    by_cases hzero : remaining = 0
    · rw [if_pos hzero, hzero]
      exact ⟨rfl, rfl⟩
    · have hpos : 0 < min remaining entryChunkSize := by
        unfold entryChunkSize
        omega
      have hle : min remaining entryChunkSize ≤ remaining := min_le_left _ _
      have hchunk : (window source position (min remaining entryChunkSize)).length =
          min remaining entryChunkSize := length_window (by omega)
      have hnext : position + min remaining entryChunkSize +
          (remaining - min remaining entryChunkSize) ≤ source.length := by omega
      obtain ⟨hthrown, hvalues⟩ := ih (remaining - min remaining entryChunkSize) (by omega) hnext
      rw [if_neg hzero]
      dsimp only
      rw [if_neg (not_not_intro hchunk)]
      refine ⟨hthrown, ?_⟩
      show window source position _ ++ _ = _
      rw [hvalues, window_append_window source position hle]

/-- A round of the loop on an entry that is there, new, and within the bounds. -/
theorem nextEntry_segment {bounds : TarBounds} {cursor : TarCursor} {e : EntryInput}
    {before header rest : Bytes}
    (hsource : source = before ++
      (header ++ e.chunks.flatten ++ zeroPadding e.chunks.flatten.length ++ rest))
    (hoffset : cursor.offset = before.length)
    (hheader : IsHeaderOf header e.name e.size.toNat) (hascii : PrintableAscii e.name)
    (hname : checkEntryName e.name = .ok ()) (hsize : (e.chunks.flatten.length : Int) = e.size)
    (hbound : (utf8Bytes e.name).length ≤ bounds.maxNameLength)
    (hentries : cursor.entries + 1 ≤ bounds.maxEntries)
    (hbytes : cursor.totalBytes + e.chunks.flatten.length ≤ bounds.maxBytes)
    (hnew : e.name ∉ cursor.seen) :
    nextEntry source bounds cursor =
      .ok (some (⟨e.name, e.chunks.flatten.length, cursor.offset + blockSize⟩,
        cursor.after ⟨e.name, e.chunks.flatten.length⟩)) := by
  have hlength : e.size.toNat = e.chunks.flatten.length := by omega
  rw [hlength] at hheader
  have hsplit : source = before ++ (header ++
      (e.chunks.flatten ++ (zeroPadding e.chunks.flatten.length ++ rest))) := by
    rw [hsource, List.append_assoc, List.append_assoc]
  have hblock := readBlock_eq hsplit hoffset hheader.length
  have hend : paddedEnd (cursor.offset + blockSize) e.chunks.flatten.length ≤ source.length := by
    unfold paddedEnd
    rw [hsource, hoffset]
    simp only [List.length_append, zeroPadding, List.length_replicate, hheader.length]
    omega
  have hne : cursor.offset ≠ source.length := by
    have hpos : 0 < blockSize := by decide
    unfold paddedEnd at hend
    omega
  unfold nextEntry
  rw [guardThat_of hne, bind_ok, hblock, orThrow_some, bind_ok, hheader.not_zero,
    if_neg Bool.false_ne_true]
  unfold readEntry
  rw [hheader.parse hascii hname hbound, bind_ok, guardThat_of hentries, bind_ok,
    guardThat_of hbytes, bind_ok, guardThat_of hend, bind_ok, guardThat_of hnew]
  rfl

/-- The entry that is read is the one that was written. -/
structure ReadBack (source : Bytes) (e : EntryInput) (entry : TarEntry) : Prop where
  name : entry.name = e.name
  size : (entry.size : Int) = e.size
  complete : (entry.chunks source).thrown = none
  bytes : (entry.chunks source).values.flatten = e.chunks.flatten

/-- The bytes of an entry stand behind its header. -/
theorem readBack_segment {e : EntryInput} {before header rest : Bytes} {offset : Nat}
    (hsource : source = before ++
      (header ++ e.chunks.flatten ++ zeroPadding e.chunks.flatten.length ++ rest))
    (hoffset : offset = before.length) (hheader : header.length = blockSize)
    (hsize : (e.chunks.flatten.length : Int) = e.size) :
    ReadBack source e ⟨e.name, e.chunks.flatten.length, offset + blockSize⟩ := by
  have hdata : source = (before ++ header) ++
      (e.chunks.flatten ++ (zeroPadding e.chunks.flatten.length ++ rest)) := by
    rw [hsource]
    simp only [List.append_assoc]
  have hstart : offset + blockSize = (before ++ header).length := by
    rw [List.length_append, hheader, hoffset]
  have hwithin : offset + blockSize + e.chunks.flatten.length ≤ source.length := by
    rw [hdata, List.length_append, ← hstart, List.length_append]
    omega
  obtain ⟨hthrown, hvalues⟩ := entryChunks_flatten hwithin
  refine ⟨rfl, hsize, hthrown, hvalues.trans ?_⟩
  rw [hdata, window_append_right hstart, List.take_left]

/-- The loop ends after the last segment. -/
theorem iterateTar_end {bounds : TarBounds} {cursor : TarCursor} {before : Bytes}
    (hsource : source = before ++ List.replicate 1024 0) (hoffset : cursor.offset = before.length) :
    iterateTar source bounds cursor = ⟨[], none⟩ := by
  have hzeros : List.replicate 1024 (0 : UInt8) =
      List.replicate blockSize 0 ++ List.replicate blockSize 0 :=
    List.replicate_add 512 512 0
  have hlength : source.length = cursor.offset + 1024 := by
    rw [hsource, List.length_append, List.length_replicate, hoffset]
  have hblock : readBlock source cursor.offset = some (List.replicate blockSize 0) :=
    readBlock_eq (hsource.trans (by rw [hzeros])) hoffset (List.length_replicate ..)
  have htrailer : checkTrailer source (cursor.offset + blockSize) = .ok () := by
    have hsplit : source =
        (before ++ List.replicate blockSize 0) ++ List.replicate blockSize 0 := by
      rw [hsource, hzeros, List.append_assoc]
    refine checkTrailer_zeros hsplit ?_
    rw [List.length_append, List.length_replicate, hoffset]
  have hnext : nextEntry source bounds cursor = .ok none := by
    unfold nextEntry
    rw [guardThat_of (show cursor.offset ≠ source.length by omega), bind_ok, hblock,
      orThrow_some, bind_ok, if_pos (isZeroBlock_zeros _), htrailer]
    rfl
  exact iterateTar_done hnext

/-- **The loop yields the entries that are left, and ends.** -/
theorem iterateTar_segments {bounds : TarBounds} {entries : List EntryInput} {body : Bytes}
    (hsegments : Segments entries body) {before : Bytes} {cursor : TarCursor}
    (hsource : source = before ++ (body ++ List.replicate 1024 0))
    (hoffset : cursor.offset = before.length)
    (hascii : ∀ e ∈ entries, PrintableAscii e.name)
    (hbound : ∀ e ∈ entries, (utf8Bytes e.name).length ≤ bounds.maxNameLength)
    (hentries : cursor.entries + entries.length ≤ bounds.maxEntries)
    (hbytes : cursor.totalBytes + (entries.map fun e => e.chunks.flatten.length).sum ≤
      bounds.maxBytes)
    (hnew : ∀ e ∈ entries, e.name ∉ cursor.seen)
    (hdistinct : (entries.map EntryInput.name).Pairwise (· ≠ ·)) :
    ∃ values, iterateTar source bounds cursor = ⟨values, none⟩ ∧
      List.Forall₂ (ReadBack source) entries values := by
  induction hsegments generalizing before cursor with
  | nil => exact ⟨[], iterateTar_end hsource hoffset, .nil⟩
  | @cons e entries header body hheader hname hsize hrest ih =>
    rw [List.map_cons, List.pairwise_cons] at hdistinct
    rw [List.map_cons, List.sum_cons] at hbytes
    rw [List.length_cons] at hentries
    have hsplit : source = before ++ (header ++ e.chunks.flatten ++
        zeroPadding e.chunks.flatten.length ++ (body ++ List.replicate 1024 0)) := by
      rw [hsource, List.append_assoc _ body]
    have hnext := nextEntry_segment hsplit hoffset hheader (hascii e List.mem_cons_self) hname
      hsize (hbound e List.mem_cons_self) (by omega) (by omega) (hnew e List.mem_cons_self)
    have hsplit' : source = (before ++ (header ++ e.chunks.flatten ++
        zeroPadding e.chunks.flatten.length)) ++ (body ++ List.replicate 1024 0) := by
      rw [hsplit, List.append_assoc before]
    have hoffset' : (cursor.after ⟨e.name, e.chunks.flatten.length⟩).offset =
        (before ++ (header ++ e.chunks.flatten ++
          zeroPadding e.chunks.flatten.length)).length := by
      simp only [TarCursor.after, paddedEnd, List.length_append, zeroPadding,
        List.length_replicate, hheader.length, hoffset]
      omega
    have hnew' : ∀ e' ∈ entries,
        e'.name ∉ (cursor.after ⟨e.name, e.chunks.flatten.length⟩).seen := by
      intro e' he'
      show e'.name ∉ e.name :: cursor.seen
      rw [List.mem_cons, not_or]
      exact ⟨(hdistinct.1 _ (List.mem_map_of_mem he')).symm, hnew e' (List.mem_cons_of_mem _ he')⟩
    obtain ⟨values, hiterate, hread⟩ := ih hsplit' hoffset'
      (fun e' he' => hascii e' (List.mem_cons_of_mem _ he'))
      (fun e' he' => hbound e' (List.mem_cons_of_mem _ he'))
      (by simp only [TarCursor.after]; omega) (by simp only [TarCursor.after]; omega)
      hnew' hdistinct.2
    refine ⟨_, ?_, .cons (readBack_segment hsplit hoffset hheader.length hsize) hread⟩
    rw [iterateTar_next hnext, hiterate]
    rfl

end Reader

/-- The entries are within the bounds of a reader. -/
structure Within (bounds : TarBounds) (entries : List EntryInput) : Prop where
  count : entries.length ≤ bounds.maxEntries
  bytes : (entries.map EntryInput.size).sum ≤ bounds.maxBytes
  names : ∀ e ∈ entries, (utf8Bytes e.name).length ≤ bounds.maxNameLength

/-- **Reading the archive of a list of entries gives the entries.** The writer takes every entry,
its chunks add up to its size, the names are printable and differ, and the entries are within the
reader's bounds. -/
theorem readTar_writeTar {mode : Int} {fresh : TarWriter} {entries : List EntryInput}
    {options : TarReaderOptions} {bounds : TarBounds}
    (hfresh : createTarWriter mode = .ok fresh)
    (haccepted : ∀ e ∈ entries, ∃ w, fresh.addEntry e.name e.size e.mtime = .ok w)
    (hchunks : ∀ e ∈ entries, ((e.chunks.map List.length).sum : Int) = e.size)
    (hascii : ∀ e ∈ entries, PrintableAscii e.name)
    (hdistinct : (entries.map EntryInput.name).Pairwise (· ≠ ·))
    (hbounds : readerBounds options = .ok bounds) (hwithin : Within bounds entries) :
    ∃ archive values, writeTar mode entries = .ok archive ∧
      readTar archive options = .ok ⟨values, none⟩ ∧
      List.Forall₂ (ReadBack archive) entries values := by
  have hsizes : ∀ e ∈ entries, (e.chunks.flatten.length : Int) = e.size := by
    intro e he
    rw [List.length_flatten]
    exact hchunks e he
  have hmode := (createTarWriter_ready hfresh).1.mode_eq
  have haccepts : ∀ e ∈ entries, Accepted mode e := by
    intro e he
    obtain ⟨w, hw⟩ := haccepted e he
    exact accepted_of_addEntry hmode hw
  obtain ⟨body, hsegments, hwrite⟩ := writeTar_segments hfresh haccepts hsizes
  have htotal : (((entries.map fun e => e.chunks.flatten.length).sum : Nat) : Int) =
      (entries.map EntryInput.size).sum := by
    rw [Nat.cast_list_sum, List.map_map]
    exact congrArg List.sum (List.map_congr_left hsizes)
  have hsource : body ++ List.replicate 1024 0 = [] ++ (body ++ List.replicate 1024 0) := rfl
  have hstart : (⟨0, 0, 0, []⟩ : TarCursor).offset = ([] : Bytes).length := rfl
  have hcount := hwithin.count
  have hbytes := hwithin.bytes
  obtain ⟨values, hiterate, hread⟩ := iterateTar_segments hsegments hsource hstart hascii
    hwithin.names (by simp only; omega) (by simp only; omega) (fun e he => List.not_mem_nil)
    hdistinct
  refine ⟨_, values, hwrite, ?_, hread⟩
  unfold readTar
  rw [hbounds, bind_ok, hiterate]
  rfl

namespace Sample

/-- A file of three bytes that arrive in two chunks. -/
def entry : EntryInput := ⟨"manifest.json", 3, 0, [[0x7b], [0x20, 0x7d]]⟩

theorem entry_printable : PrintableAscii entry.name := by
  have hall : entry.name.toList.all
      (fun c => decide (0x20 ≤ c.toNat) && decide (c.toNat ≤ 0x7e)) = true := by decide +kernel
  intro c hc
  simpa using List.all_eq_true.mp hall c hc

theorem entry_accepted :
    ∃ w, (⟨0o644, [], none, false⟩ : TarWriter).addEntry entry.name entry.size entry.mtime =
      .ok w := by
  have hok : ((⟨0o644, [], none, false⟩ : TarWriter).addEntry entry.name entry.size
      entry.mtime).isOk = true := by decide +kernel
  cases hadd : (⟨0o644, [], none, false⟩ : TarWriter).addEntry entry.name entry.size entry.mtime
  with
  | error e =>
    rw [hadd] at hok
    cases hok
  | ok w => exact ⟨w, rfl⟩

end Sample

theorem readTar_writeTar_entry :
    ∃ archive values, writeTar 0o644 [Sample.entry] = .ok archive ∧
      readTar archive ⟨none, none, none⟩ = .ok ⟨values, none⟩ ∧
      List.Forall₂ (ReadBack archive) [Sample.entry] values :=
  @readTar_writeTar 0o644 ⟨0o644, [], none, false⟩ [Sample.entry] ⟨none, none, none⟩
    ⟨1000000, maxSafeInteger, headerNameBytes⟩ rfl
    (List.forall_mem_singleton.mpr Sample.entry_accepted)
    (List.forall_mem_singleton.mpr (by decide))
    (List.forall_mem_singleton.mpr Sample.entry_printable) (List.pairwise_singleton _ _) rfl
    ⟨by decide, by decide, List.forall_mem_singleton.mpr (by decide +kernel)⟩

end DumpLedger.Tar
