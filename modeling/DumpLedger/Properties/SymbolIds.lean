import DumpLedger.Lib.Hex
import DumpLedger.Properties.SymbolWalk

/-!
# Symbol identifiers

The identifier of a PDB and the one in a CodeView record agree exactly when the GUIDs and the ages
do; the one of a PE image tells its time stamp and size. All but the last part of an identifier has
a fixed width, so the parts can be told apart.
-/

namespace DumpLedger.Symbols

open Lib

/-! ## The text of an identifier -/

theorem toList_upperHex (width value : Nat) :
    (upperHex width value).toList = hexText width value :=
  String.toList_ofList

theorem toList_join_upperHex (bytes : Bytes) :
    (String.join (bytes.map fun b => upperHex 2 b.toNat)).toList = hexBytes bytes := by
  rw [String.toList_join, List.flatMap_map]
  simp only [toList_upperHex, hexBytes]

theorem toList_formatSymsrvDebugId (guid : Bytes) (age : Nat) :
    (DumpLedger.formatSymsrvDebugId guid age).toList =
      hexText 8 (uintLE guid 0 4) ++ hexText 4 (uintLE guid 4 2) ++ hexText 4 (uintLE guid 6 2) ++
        hexBytes (window guid 8 8) ++ hexText 1 age := by
  unfold DumpLedger.formatSymsrvDebugId
  rw [String.toList_append, String.toList_append, String.toList_append, String.toList_append,
    toList_join_upperHex]
  simp only [toList_upperHex]

/-- A field of a GUID has the width of its digits. -/
theorem length_hexText_uintLE {bytes : Bytes} {offset size : Nat} (hpos : 0 < size) :
    (hexText (2 * size) (uintLE bytes offset size)).length = 2 * size := by
  refine length_hexText (by omega) ?_
  have hlt := uintLE_lt bytes offset size
  rw [Nat.pow_mul]
  exact hlt

theorem window_of_uintLE {bytes other : Bytes} {offset size : Nat}
    (hbytes : offset + size ≤ bytes.length) (hother : offset + size ≤ other.length)
    (h : uintLE bytes offset size = uintLE other offset size) :
    window bytes offset size = window other offset size :=
  leValue_inj ((length_window hbytes).trans (length_window hother).symm) h

/-- The fields of a GUID, one after the other. -/
theorem guid_of_windows {guid : Bytes} (h : guid.length = 16) :
    guid = window guid 0 4 ++ window guid 4 2 ++ window guid 6 2 ++ window guid 8 8 := by
  have h1 : window guid 0 4 ++ window guid 4 2 = window guid 0 6 :=
    window_append_window guid 0 (show 4 ≤ 6 by decide)
  have h2 : window guid 0 6 ++ window guid 6 2 = window guid 0 8 :=
    window_append_window guid 0 (show 6 ≤ 8 by decide)
  have h3 : window guid 0 8 ++ window guid 8 8 = window guid 0 16 :=
    window_append_window guid 0 (show 8 ≤ 16 by decide)
  have hall : window guid 0 16 = guid := by
    unfold window
    rw [List.drop_zero, List.take_of_length_le h.le]
  rw [h1, h2, h3, hall]

/-- **Two identifiers agree when their GUIDs and ages do.** -/
theorem formatSymsrvDebugId_inj {guid other : Bytes} {age otherAge : Nat}
    (hguid : guid.length = 16) (hother : other.length = 16) :
    DumpLedger.formatSymsrvDebugId guid age = DumpLedger.formatSymsrvDebugId other otherAge ↔
      guid = other ∧ age = otherAge := by
  constructor
  · intro h
    have hlist := congrArg String.toList h
    rw [toList_formatSymsrvDebugId, toList_formatSymsrvDebugId] at hlist
    have h8 : ∀ bytes : Bytes, (hexText 8 (uintLE bytes 0 4)).length = 8 :=
      fun bytes => @length_hexText_uintLE bytes 0 4 (by decide)
    have h4 : ∀ (bytes : Bytes) (offset : Nat), (hexText 4 (uintLE bytes offset 2)).length = 4 :=
      fun bytes offset => @length_hexText_uintLE bytes offset 2 (by decide)
    have hrest : (hexBytes (window guid 8 8)).length = (hexBytes (window other 8 8)).length := by
      rw [length_hexBytes, length_hexBytes, length_window (by omega), length_window (by omega)]
    obtain ⟨hfields, hage⟩ := List.append_inj hlist (by simp [h8, h4, hrest])
    obtain ⟨hfields, hdata4⟩ := List.append_inj hfields (by simp [h8, h4])
    obtain ⟨hfields, hdata3⟩ := List.append_inj hfields (by simp [h8, h4])
    obtain ⟨hdata1, hdata2⟩ := List.append_inj hfields (by simp [h8])
    refine ⟨?_, hexText_inj hage⟩
    rw [guid_of_windows hguid, guid_of_windows hother,
      window_of_uintLE (by omega) (by omega) (hexText_inj hdata1),
      window_of_uintLE (by omega) (by omega) (hexText_inj hdata2),
      window_of_uintLE (by omega) (by omega) (hexText_inj hdata3), hexBytes_inj hdata4]
  · rintro ⟨rfl, rfl⟩
    rfl

theorem formatPeCodeId_inj {timestamp other sizeOfImage otherSize : Nat}
    (htimestamp : timestamp < 16 ^ 8) (hother : other < 16 ^ 8) :
    formatPeCodeId timestamp sizeOfImage = formatPeCodeId other otherSize ↔
      timestamp = other ∧ sizeOfImage = otherSize := by
  constructor
  · intro h
    have hlist := congrArg String.toList h
    unfold formatPeCodeId at hlist
    rw [String.toList_append, String.toList_append, toList_upperHex, toList_upperHex,
      toList_upperHex, toList_upperHex] at hlist
    obtain ⟨hstamp, hsize⟩ := List.append_inj hlist (by
      rw [length_hexText (by decide) htimestamp, length_hexText (by decide) hother])
    exact ⟨hexText_inj hstamp, hexText_inj hsize⟩
  · rintro ⟨rfl, rfl⟩
    rfl

/-! ## What a record and an image are read as -/

theorem parseRsdsCodeViewRecord_fields {record : Bytes} {identity : DumpLedger.PdbIdentity}
    (h : DumpLedger.parseRsdsCodeViewRecord record = some identity) :
    rsdsHeaderBytes + 1 ≤ record.length ∧ identity.debugId =
      DumpLedger.formatSymsrvDebugId (window record 4 16) (uintLE record 20 4) := by
  unfold DumpLedger.parseRsdsCodeViewRecord at h
  simp only [bind, Option.bind_eq_some_iff] at h
  obtain ⟨_, -, _, hlength, age, hage, _, -, _, -, _, -, _, -, _, -, hidentity⟩ := h
  have hle := guard_eq_some hlength
  unfold DumpLedger.readUint32 at hage
  unfold rsdsHeaderBytes at hle
  rw [if_pos (by omega)] at hage
  cases hage
  cases hidentity
  exact ⟨hle, rfl⟩

theorem parsePeIdentityFrom_fields {file : Bytes} {reader : ByteReader file} {codeFile : Units}
    {identity : PeIdentity} {t : WalkTrace}
    (h : (parsePeIdentityFrom reader codeFile).run .start = (.ok (some identity), t)) :
    identity.codeId = formatPeCodeId (timestampOf file) (sizeOfImageOf file) := by
  obtain ⟨-, hidentity⟩ := Walks.result parses_parsePeIdentityFrom bounded_start h
  rw [(hidentity identity rfl).1]

/-! ## Linking -/

/-- The GUID and the age of a PDB. -/
def infoGuid (header : Bytes) : Bytes := window header 12 16
def infoAge (header : Bytes) : Nat := uintLE header 8 4

/-- The GUID and the age of a record. -/
def recordGuid (record : Bytes) : Bytes := window record 4 16
def recordAge (record : Bytes) : Nat := uintLE record 20 4

/-- **Identifiers link exactly the right files.** The GUID and the age of a PDB are in the header of
the stream that the walk has found. -/
theorem debug_identities_link :
    (∀ (file record : Bytes) (reader : ByteReader file) (debugFile : Units)
      (pdb rsds : PdbIdentity) (t t' : WalkTrace),
      (parsePdbIdentityFrom reader debugFile).run .start = (.ok (some pdb), t) →
      (parseRsdsCodeViewRecord record).run .start = (.ok (some rsds), t') →
      ∃ s directory header, Used reader debugFile s directory pdb ∧
        header.length = pdbInfoHeaderBytes ∧ StreamHead file directory s.blockSize 1 header ∧
        (pdb.debugId = rsds.debugId ↔
          infoGuid header = recordGuid record ∧ infoAge header = recordAge record)) ∧
    ∀ (file other : Bytes) (reader : ByteReader file) (otherReader : ByteReader other)
      (codeFile otherFile : Units) (image otherImage : PeIdentity) (t t' : WalkTrace),
      (parsePeIdentityFrom reader codeFile).run .start = (.ok (some image), t) →
      (parsePeIdentityFrom otherReader otherFile).run .start = (.ok (some otherImage), t') →
      (image.codeId = otherImage.codeId ↔
        timestampOf file = timestampOf other ∧ sizeOfImageOf file = sizeOfImageOf other) := by
  constructor
  · intro file record reader debugFile pdb rsds t t' hpdb hrsds
    obtain ⟨s, directory, hused⟩ := used_of_run hpdb
    obtain ⟨-, -, -, header, hlength, hstream, hdebugId⟩ := hused.read
    refine ⟨s, directory, header, hused, hlength, hstream, ?_⟩
    rw [answers_parseRsdsCodeViewRecord record] at hrsds
    obtain ⟨hsome, -⟩ := Prod.mk.inj hrsds
    obtain ⟨identity, hidentity, rfl⟩ := Option.map_eq_some_iff.mp (Except.ok.inj hsome)
    obtain ⟨hrecord, hid⟩ := parseRsdsCodeViewRecord_fields hidentity
    unfold rsdsHeaderBytes at hrecord
    unfold pdbInfoHeaderBytes at hlength
    rw [hdebugId, hid]
    exact formatSymsrvDebugId_inj (length_window (by omega)) (length_window (by omega))
  · intro file other reader otherReader codeFile otherFile image otherImage t t' himage hother
    rw [parsePeIdentityFrom_fields himage, parsePeIdentityFrom_fields hother]
    exact formatPeCodeId_inj (uintLE_lt _ _ 4) (uintLE_lt _ _ 4)

namespace Sample

/-- The record of a module that was linked with `plainPdb`. -/
def record : Bytes :=
  charCodes "RSDS".toList ++ List.replicate 16 0x5a ++ uint32 10 ++
    charCodes "C:\\build\\app.pdb".toList ++ [0]

/-- A PE image of two headers: a time stamp of 7 and an image of 4096 bytes. -/
def image : Bytes :=
  padded 60 (charCodes "MZ".toList) ++ uint32 64 ++
    charCodes peSignature.toList ++ uint32 0 ++ uint32 7 ++ uint32 0 ++ uint32 0 ++ [60, 0, 0, 0] ++
    padded 56 [] ++ uint32 4096

theorem record_identity :
    ((parseRsdsCodeViewRecord record).run .start).1 = .ok (some identity) := by
  decide +kernel

theorem image_identity :
    ((parsePeIdentityFrom (byteReaderOf image) (utf16 "app.exe")).run .start).1 =
      .ok (some ⟨utf16 "app.exe", "000000071000"⟩) := by
  decide +kernel

end Sample

/-- A module finds its PDB. -/
theorem debug_identities_link_sample :
    (∃ s directory header, Used (byteReaderOf Sample.plainPdb) (utf16 "app.pdb") s directory
        Sample.identity ∧
      header.length = pdbInfoHeaderBytes ∧
      StreamHead Sample.plainPdb directory s.blockSize 1 header ∧
      (Sample.identity.debugId = Sample.identity.debugId ↔
        infoGuid header = recordGuid Sample.record ∧
          infoAge header = recordAge Sample.record)) ∧
    ("000000071000" = "000000071000" ↔
      timestampOf Sample.image = timestampOf Sample.image ∧
        sizeOfImageOf Sample.image = sizeOfImageOf Sample.image) :=
  ⟨debug_identities_link.1 _ _ _ _ _ _ _ _ (run_of_fst Sample.plainPdb_identity)
      (run_of_fst Sample.record_identity),
    debug_identities_link.2 _ _ _ _ _ _ _ _ _ _ (run_of_fst Sample.image_identity)
      (run_of_fst Sample.image_identity)⟩

end DumpLedger.Symbols
