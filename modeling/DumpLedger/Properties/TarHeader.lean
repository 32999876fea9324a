import DumpLedger.Domain.JsonPrint
import DumpLedger.Properties.TarReading

/-!
# Headers of any name

The writer takes any JavaScript string for a name and encodes its text; the reader decodes the
name with a decoder that drops a byte order mark. So a name comes back unless it starts with that
mark or has a surrogate that belongs to no pair.

* `withoutMark` — what the decoder makes of an encoded text
* `IsHeaderOf.parse_text` — the reader on the header of any name
* `header_codec` — which names come back
-/

namespace DumpLedger.Tar

open Lib

/-! ## Encoded names -/

/-- The bytes of a character other than NUL are not zero. -/
theorem utf8EncodeChar_ne_zero {c : Char} (h : c ≠ '\x00') :
    ∀ b ∈ String.utf8EncodeChar c, (b != 0) = true := by
  have hvalue : c.val.toNat ≠ 0 := fun hzero => h (Char.toNat_inj.mp hzero)
  have hbounds := char_bounds c
  have hnat : c.toNat = c.val.toNat := rfl
  have hbyte : ∀ n : Nat, 0 < n → n < 256 → (UInt8.ofNat n != 0) = true := by
    intro n hpos hlt
    rw [bne_iff_ne]
    intro hzero
    have hn := congrArg UInt8.toNat hzero
    rw [UInt8.toNat_ofNat_of_lt' hlt] at hn
    exact absurd hn hpos.ne'
  unfold String.utf8EncodeChar
  intro b hb
  dsimp only at hb
  split at hb
  · rw [List.mem_singleton.mp hb]
    exact hbyte _ (by omega) (by omega)
  · split at hb
    · simp only [List.mem_cons, List.not_mem_nil, or_false] at hb
      rcases hb with rfl | rfl
      · exact hbyte _ (by omega) (by omega)
      · exact hbyte _ (by omega) (by omega)
    · split at hb
      · simp only [List.mem_cons, List.not_mem_nil, or_false] at hb
        rcases hb with rfl | rfl | rfl
        · exact hbyte _ (by omega) (by omega)
        · exact hbyte _ (by omega) (by omega)
        · exact hbyte _ (by omega) (by omega)
      · simp only [List.mem_cons, List.not_mem_nil, or_false] at hb
        rcases hb with rfl | rfl | rfl | rfl
        · exact hbyte _ (by omega) (by omega)
        · exact hbyte _ (by omega) (by omega)
        · exact hbyte _ (by omega) (by omega)
        · exact hbyte _ (by omega) (by omega)

theorem utf8Bytes_ne_zero_of_noNul {s : String} (h : '\x00' ∉ s.toList) :
    ∀ b ∈ utf8Bytes s, (b != 0) = true := by
  intro b hb
  rw [utf8Bytes_eq, List.mem_flatMap] at hb
  obtain ⟨c, hc, hb⟩ := hb
  refine utf8EncodeChar_ne_zero ?_ b hb
  rintro rfl
  exact h hc

/-- A text without the byte order mark that it may start with. -/
def withoutMark (s : String) : String :=
  match s.toList with
  | '\uFEFF' :: rest => String.ofList rest
  | _ => s

/-- **What the decoder makes of an encoded text.** -/
theorem decodeUtf8_text (s : String) : decodeUtf8 (utf8Bytes s) = some (withoutMark s) := by
  rw [decodeUtf8, fromUTF8?_utf8Bytes]
  rfl

theorem withoutMark_eq_self {s : String} :
    withoutMark s = s ↔ s.toList.head? ≠ some '\uFEFF' := by
  unfold withoutMark
  split
  · next rest hs =>
    rw [hs]
    constructor
    · intro h
      have hlength := congrArg (fun t => t.toList.length) h
      simp only [hs, String.toList_ofList, List.length_cons] at hlength
      omega
    · intro h
      exact absurd rfl h
  · next hs =>
    refine iff_of_true rfl fun hhead => ?_
    obtain ⟨rest, hrest⟩ := List.head?_eq_some_iff.mp hhead
    exact hs rest hrest

/-! ## Headers -/

section Header

variable {block : Bytes} {name : String} {size : Nat}

/-- **The reader on the header of any name**: what is left of the name is checked again. -/
theorem IsHeaderOf.parse_text (h : IsHeaderOf block name size)
    (hname : RelativeName name) (hlength : (utf8Bytes name).length ≤ headerNameBytes) :
    parseHeaderBlock block headerNameBytes =
      (checkEntryName (withoutMark name)).map fun _ => ⟨withoutMark name, size⟩ := by
  obtain ⟨mode, hmode⟩ := h.mode
  obtain ⟨uid, huid⟩ := h.uid
  obtain ⟨gid, hgid⟩ := h.gid
  obtain ⟨mtime, hmtime⟩ := h.mtime
  have hpad : isZeroBlock ((utf8Bytes name ++
      List.replicate (headerNameBytes - (utf8Bytes name).length) 0).drop
        (utf8Bytes name).length) = true := by
    rw [List.drop_left]
    exact isZeroBlock_zeros _
  have htypeflag : block.getD 156 0 = typeflagRegular ∨ block.getD 156 0 = 0x00 :=
    Or.inl h.typeflag
  unfold parseHeaderBlock
  dsimp only
  rw [h.verified, bind_ok, guardThat_of h.magic, bind_ok, guardThat_of htypeflag, bind_ok,
    guardThat_of h.link, bind_ok, guardThat_of h.device, bind_ok, h.name,
    takeWhile_name (utf8Bytes_ne_zero_of_noNul hname.noNul), guardThat_of hpad, bind_ok,
    guardThat_of hlength, bind_ok, decodeUtf8_text, orThrow_some, bind_ok]
  cases hcheck : checkEntryName (withoutMark name) with
  | error e => rfl
  | ok u =>
    rw [bind_ok, hmode, bind_ok, huid, bind_ok, hgid, bind_ok, hmtime, bind_ok, h.size]
    rfl

end Header

/-- The header comes back as the name and the size that went into it. -/
def ReadsBack (block : Bytes) (name : Units) (size : Int) : Prop :=
  ∃ header, parseHeaderBlock block headerNameBytes = .ok header ∧ utf16 header.name = name ∧
    (header.size : Int) = size

/-- The first unit of a text is that of its first character. -/
theorem head?_utf16 (s : String) :
    (utf16 s).head? = some 0xFEFF ↔ s.toList.head? = some '\uFEFF' := by
  unfold utf16
  cases hs : s.toList with
  | nil => simp
  | cons c rest =>
    rw [List.flatMap_cons, List.head?_cons, Option.some.injEq]
    have hbounds := char_bounds c
    unfold charUnits
    split
    · rw [List.cons_append, List.head?_cons, Option.some.injEq]
      constructor
      · intro h
        have hnat := congrArg UInt16.toNat h
        simp only [Nat.toUInt16_eq, UInt16.toNat_ofNat'] at hnat
        have hmark : (0xFEFF : CodeUnit).toNat = '\uFEFF'.toNat := rfl
        exact Char.toNat_inj.mp (by omega)
      · rintro rfl
        rfl
    · next hlarge =>
      rw [List.cons_append, List.head?_cons, Option.some.injEq]
      constructor
      · intro h
        have hnat := congrArg UInt16.toNat h
        simp only [highSurrogate, Nat.toUInt16_eq, UInt16.toNat_ofNat'] at hnat
        have hmark : (0xFEFF : CodeUnit).toNat = 0xFEFF := rfl
        omega
      · rintro rfl
        exact absurd (by decide) hlarge

theorem readsBack_iff {block : Bytes} {name : Units} {size : Int}
    (hsize : 0 ≤ size) (h : IsHeaderOf block (toText name) size.toNat)
    (hname : RelativeName (toText name))
    (hlength : (utf8Bytes (toText name)).length ≤ headerNameBytes) :
    ReadsBack block name size ↔ IsText name ∧ name.head? ≠ some 0xFEFF := by
  have hparse := h.parse_text hname hlength
  constructor
  · rintro ⟨header, hheader, hunits, -⟩
    rw [hparse] at hheader
    obtain ⟨u, -, rfl⟩ := map_eq_ok.mp hheader
    have hself : withoutMark (toText name) = toText name := by
      rw [← toText_utf16 (withoutMark (toText name)), hunits]
    rw [hself] at hunits
    refine ⟨hunits ▸ isText_utf16 _, fun hmark => ?_⟩
    rw [← hunits, head?_utf16] at hmark
    exact withoutMark_eq_self.mp hself hmark
  · rintro ⟨htext, hmark⟩
    have hunits : utf16 (toText name) = name := utf16_toText htext
    have hself : withoutMark (toText name) = toText name := by
      rw [withoutMark_eq_self]
      intro hhead
      have hunit := (head?_utf16 _).mpr hhead
      rw [hunits] at hunit
      exact hmark hunit
    refine ⟨⟨toText name, size.toNat⟩, ?_, hunits, Int.toNat_of_nonneg hsize⟩
    have hcheck : checkEntryName (toText name) = .ok () := checkEntryName_eq_ok.mpr hname
    rw [hparse, hself, hcheck]
    rfl

/-- **Which headers come back**: those of every name that the writer takes, but for names that
start with a byte order mark or have a surrogate that belongs to no pair. -/
theorem header_codec {mode size mtime : Int} {name : Units} {fresh w : TarWriter}
    (hfresh : createTarWriter mode = .ok fresh)
    (hadd : fresh.addEntry (toText name) size mtime = .ok w) :
    ∃ block, encodeHeaderBlock (toText name) size mtime mode = .ok block ∧
      (ReadsBack block name size ↔ IsText name ∧ name.head? ≠ some 0xFEFF) := by
  obtain ⟨hready, -, hmode⟩ := createTarWriter_ready hfresh
  have haccepted : Accepted mode ⟨toText name, size, mtime, []⟩ :=
    accepted_of_addEntry hready.mode_eq hadd
  obtain ⟨block, hblock⟩ := haccepted.header
  exact ⟨block, hblock, readsBack_iff haccepted.size_nonneg
    (isHeaderOf_of_accepted haccepted hmode hblock) (checkEntryName_eq_ok.mp haccepted.name)
    haccepted.nameLength⟩

/-- A name without a mark comes back. -/
theorem header_codec_entry :
    ∃ block, encodeHeaderBlock Sample.entry.name 3 0 0o644 = .ok block ∧
      ReadsBack block (utf16 Sample.entry.name) 3 := by
  obtain ⟨w, hw⟩ := Sample.entry_accepted
  have hfresh : createTarWriter 0o644 = .ok ⟨0o644, [], none, false⟩ := rfl
  have htext : toText (utf16 Sample.entry.name) = Sample.entry.name := toText_utf16 _
  rw [← htext] at hw
  obtain ⟨block, hblock, hread⟩ := header_codec hfresh hw
  rw [htext] at hblock
  exact ⟨block, hblock, hread.mpr ⟨isText_utf16 _, by decide +kernel⟩⟩

namespace Sample

/-- A file whose name starts with a byte order mark. -/
def markedEntry : EntryInput := ⟨"\uFEFFa", 0, 0, []⟩

theorem markedEntry_added :
    ∃ w, (⟨0o644, [], none, false⟩ : TarWriter).addEntry markedEntry.name markedEntry.size
      markedEntry.mtime = .ok w := by
  have hok : ((⟨0o644, [], none, false⟩ : TarWriter).addEntry markedEntry.name markedEntry.size
      markedEntry.mtime).isOk = true := by decide +kernel
  cases hadd : (⟨0o644, [], none, false⟩ : TarWriter).addEntry markedEntry.name markedEntry.size
      markedEntry.mtime with
  | error e =>
    rw [hadd] at hok
    cases hok
  | ok w => exact ⟨w, rfl⟩

end Sample

/-- The mark is lost: the writer takes the name, and the reader makes another one of it. -/
theorem header_codec_mark :
    ∃ w block, (⟨0o644, [], none, false⟩ : TarWriter).addEntry Sample.markedEntry.name 0 0 = .ok w ∧
      encodeHeaderBlock Sample.markedEntry.name 0 0 0o644 = .ok block ∧
      ¬ ReadsBack block (utf16 Sample.markedEntry.name) 0 := by
  obtain ⟨w, hw⟩ := Sample.markedEntry_added
  have haccepted : Accepted 0o644 Sample.markedEntry := accepted_of_addEntry rfl hw
  have htext : toText (utf16 Sample.markedEntry.name) = Sample.markedEntry.name := toText_utf16 _
  obtain ⟨block, hblock⟩ := haccepted.header
  refine ⟨w, block, hw, hblock, fun hread => ?_⟩
  have hheader := isHeaderOf_of_accepted haccepted (by decide) hblock
  have hname := checkEntryName_eq_ok.mp haccepted.name
  have hlength := haccepted.nameLength
  rw [← htext] at hheader hname hlength
  obtain ⟨-, hmark⟩ := (readsBack_iff (le_refl 0) hheader hname hlength).mp hread
  exact hmark (by decide +kernel)

end DumpLedger.Tar
