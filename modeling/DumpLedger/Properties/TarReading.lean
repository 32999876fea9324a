import DumpLedger.Properties.Tar

/-!
# Reading any archive

What the reader yields from bytes that nobody vouches for. Each round of its loop either ends or
goes on behind the entry that it has yielded, so the entries lie one behind the other, and the
sizes that the headers claim cannot lead out of the source.

* `Laid` — the entries, each with its header before it and its padding behind it
* `iterateTar_laid` — the loop, by induction on the source that is left
* `readTar_sound` — what holds of every entry that is yielded, and of an archive that is read to
  its end
-/

namespace DumpLedger.Tar

open Lib

/-! ## What the reader has found -/

/-- A path that stays below the directory it is resolved in. -/
structure RelativeName (name : String) : Prop where
  nonempty : name ≠ ""
  noNul : '\x00' ∉ name.toList
  noBackslash : '\\' ∉ name.toList
  relative : name.toList.head? ≠ some '/' ∧ startsWithDrive name = false
  components : ∀ component ∈ name.toList.splitOn '/', component ≠ [] ∧ component ≠ ['.', '.']

/-- The entries from `offset` on, one behind the other, up to `stop`. -/
inductive Laid (source : Bytes) : Nat → List TarEntry → Nat → Prop
  | nil {offset : Nat} : Laid source offset [] offset
  | cons {offset stop : Nat} {e : TarEntry} {entries : List TarEntry}
      (hdata : e.dataOffset = offset + blockSize)
      (hfits : paddedEnd e.dataOffset e.size ≤ source.length)
      (hrest : Laid source (paddedEnd e.dataOffset e.size) entries stop) :
      Laid source offset (e :: entries) stop

/-- One block of zeros or more, and nothing else. -/
def ZeroBlocks (bytes : Bytes) : Prop :=
  ∃ count, 0 < count ∧ bytes = List.replicate (count * blockSize) 0

/-- What a reader with these bounds may rely on. -/
structure SoundRead (source : Bytes) (bounds : TarBounds) (y : Yields TarEntry) : Prop where
  rounds : y.values.length * blockSize ≤ source.length
  names : ∀ e ∈ y.values, RelativeName e.name
  distinct : (y.values.map TarEntry.name).Nodup
  within : ∀ e ∈ y.values, e.dataOffset + e.size ≤ source.length
  disjoint : y.values.Pairwise fun e e' => e.dataOffset + e.size ≤ e'.dataOffset
  count : y.values.length ≤ bounds.maxEntries
  bytes : (y.values.map TarEntry.size).sum ≤ bounds.maxBytes
  chunks : ∀ e ∈ y.values, (e.chunks source).thrown = none ∧
    (e.chunks source).values.flatten = window source e.dataOffset e.size
  trailer : y.thrown = none → ∃ stop, Laid source 0 y.values stop ∧ ZeroBlocks (source.drop stop)

/-! ## Names -/

theorem checkComponents_eq_ok {name : String} {components : List (List Char)} {u : Unit} :
    checkComponents name components = .ok u ↔
      ∀ component ∈ components, component ≠ [] ∧ component ≠ ['.', '.'] := by
  induction components with
  | nil => simp [checkComponents]
  | cons component rest ih =>
    simp only [checkComponents, bind_eq_ok, guardThat_eq_ok, ih, List.forall_mem_cons,
      exists_const, and_assoc]

theorem checkEntryName_eq_ok {name : String} {u : Unit} :
    checkEntryName name = .ok u ↔ RelativeName name := by
  simp only [checkEntryName, bind_eq_ok, guardThat_eq_ok, checkComponents_eq_ok, exists_const]
  constructor
  · rintro ⟨hne, hnul, hslash, hrelative, hcomponents⟩
    exact ⟨hne, hnul, hslash, hrelative, hcomponents⟩
  · intro h
    exact ⟨h.nonempty, h.noNul, h.noBackslash, h.relative, h.components⟩

/-! ## The loop -/

section Reader

variable {source : Bytes} {bounds : TarBounds}

theorem name_of_parseHeaderBlock {block : Bytes} {maxNameLength : Nat} {header : TarHeader}
    (h : parseHeaderBlock block maxNameLength = .ok header) : RelativeName header.name := by
  simp only [parseHeaderBlock, bind_eq_ok, pure_eq_ok] at h
  obtain ⟨_, -, _, -, _, -, _, -, _, -, _, -, _, -, name, -, _, hname, _, -, _, -, _, -, _, -, size,
    -, rfl⟩ := h
  exact checkEntryName_eq_ok.mp hname

/-- What a round that yields an entry has checked. -/
structure Yielded (source : Bytes) (bounds : TarBounds) (cursor : TarCursor) (e : TarEntry)
    (cursor' : TarCursor) : Prop where
  name : RelativeName e.name
  dataOffset : e.dataOffset = cursor.offset + blockSize
  fits : paddedEnd e.dataOffset e.size ≤ source.length
  fresh : e.name ∉ cursor.seen
  count : cursor.entries + 1 ≤ bounds.maxEntries
  bytes : cursor.totalBytes + e.size ≤ bounds.maxBytes
  after : cursor' = cursor.after ⟨e.name, e.size⟩

theorem yielded_of_nextEntry {cursor cursor' : TarCursor} {e : TarEntry}
    (h : nextEntry source bounds cursor = .ok (some (e, cursor'))) :
    Yielded source bounds cursor e cursor' := by
  simp only [nextEntry, bind_eq_ok] at h
  obtain ⟨_, -, block, -, h⟩ := h
  split at h
  · obtain ⟨_, -, h⟩ := map_eq_ok.mp h
    cases h
  · obtain ⟨next, hnext, h⟩ := map_eq_ok.mp h
    cases h
    simp only [readEntry, bind_eq_ok, guardThat_eq_ok, pure_eq_ok] at hnext
    obtain ⟨header, hheader, _, hcount, _, hbytes, _, hfits, _, hfresh, heq⟩ := hnext
    cases heq
    exact ⟨name_of_parseHeaderBlock hheader, rfl, hfits, hfresh, hcount, hbytes, rfl⟩

/-- A block that was read is the source at its offset. -/
theorem readBlock_eq_some {offset : Nat} {block : Bytes}
    (h : readBlock source offset = some block) :
    block = window source offset blockSize ∧ offset + blockSize ≤ source.length := by
  unfold readBlock at h
  split at h
  · cases h
  · next hle =>
    dsimp only at h
    split at h
    · exact ⟨(Option.some.inj h).symm, Nat.not_lt.mp hle⟩
    · cases h

theorem zeros_of_isZeroBlock {block : Bytes} (h : isZeroBlock block = true) :
    block = List.replicate block.length 0 := by
  rw [List.eq_replicate_iff]
  refine ⟨rfl, fun b hb => ?_⟩
  have hzero := List.all_eq_true.mp h b hb
  simpa using hzero

/-- A block of zeros, and what follows it. -/
theorem drop_zeroBlock {offset : Nat} {block : Bytes} (h : readBlock source offset = some block)
    (hzero : isZeroBlock block = true) :
    source.drop offset = List.replicate blockSize 0 ++ source.drop (offset + blockSize) := by
  obtain ⟨hblock, hle⟩ := readBlock_eq_some h
  have hlength : block.length = blockSize := by
    rw [hblock]
    exact length_window hle
  have hzeros : window source offset blockSize = List.replicate blockSize 0 := by
    rw [← hblock, zeros_of_isZeroBlock hzero, hlength]
  rw [← hzeros, window, ← List.drop_drop, List.take_append_drop]

/-- **A trailer that passes is zeros up to the end.** -/
theorem zeros_of_checkTrailer {offset : Nat} (hle : offset ≤ source.length)
    (h : checkTrailer source offset = .ok ()) :
    ∃ count, source.drop offset = List.replicate (count * blockSize) 0 := by
  fun_induction checkTrailer source offset with
  | case1 offset hlt ih =>
    simp only [bind_eq_ok, guardThat_eq_ok, orThrow_eq_ok] at h
    obtain ⟨block, hblock, _, hzero, h⟩ := h
    obtain ⟨count, hcount⟩ := ih (readBlock_eq_some hblock).2 h
    refine ⟨count + 1, ?_⟩
    rw [drop_zeroBlock hblock hzero, hcount, List.replicate_append_replicate, Nat.add_comm,
      Nat.succ_mul]
  | case2 offset hge =>
    refine ⟨0, ?_⟩
    rw [List.drop_eq_nil_of_le (Nat.not_lt.mp hge), Nat.zero_mul, List.replicate_zero]

theorem zeroBlocks_of_nextEntry {cursor : TarCursor}
    (h : nextEntry source bounds cursor = .ok none) : ZeroBlocks (source.drop cursor.offset) := by
  simp only [nextEntry, bind_eq_ok, orThrow_eq_ok] at h
  obtain ⟨_, -, block, hblock, h⟩ := h
  split at h
  · next hzero =>
    obtain ⟨u, htrailer, -⟩ := map_eq_ok.mp h
    obtain ⟨count, hcount⟩ := zeros_of_checkTrailer (readBlock_eq_some hblock).2 htrailer
    refine ⟨count + 1, Nat.succ_pos count, ?_⟩
    rw [drop_zeroBlock hblock hzero, hcount, List.replicate_append_replicate, Nat.add_comm,
      Nat.succ_mul]
  · obtain ⟨_, -, h⟩ := map_eq_ok.mp h
    cases h

/-- What the loop comes to from a cursor. -/
structure LoopSound (source : Bytes) (bounds : TarBounds) (cursor : TarCursor)
    (y : Yields TarEntry) : Prop where
  names : ∀ e ∈ y.values, RelativeName e.name
  distinct : (y.values.map TarEntry.name).Nodup
  fresh : ∀ e ∈ y.values, e.name ∉ cursor.seen
  count : cursor.entries + y.values.length ≤ bounds.maxEntries
  bytes : cursor.totalBytes + (y.values.map TarEntry.size).sum ≤ bounds.maxBytes
  laid : ∃ stop, Laid source cursor.offset y.values stop ∧
    (y.thrown = none → ZeroBlocks (source.drop stop))

theorem LoopSound.cons {cursor cursor' : TarCursor} {e : TarEntry} {y : Yields TarEntry}
    (he : Yielded source bounds cursor e cursor') (h : LoopSound source bounds cursor' y) :
    LoopSound source bounds cursor (y.cons e) := by
  obtain ⟨stop, hlaid, htrailer⟩ := h.laid
  have hcount := h.count
  have hbytes := h.bytes
  have hfresh := h.fresh
  rw [he.after] at hcount hbytes hfresh hlaid
  simp only [TarCursor.after, ← he.dataOffset, List.mem_cons, not_or] at hcount hbytes hfresh hlaid
  constructor
  case names => exact List.forall_mem_cons.mpr ⟨he.name, h.names⟩
  case distinct =>
    refine List.nodup_cons.mpr ⟨fun hmem => ?_, h.distinct⟩
    obtain ⟨e', he', hname⟩ := List.mem_map.mp hmem
    exact (hfresh e' he').1 hname
  case fresh => exact List.forall_mem_cons.mpr ⟨he.fresh, fun e' he' => (hfresh e' he').2⟩
  case count =>
    simp only [Yields.cons, List.length_cons]
    omega
  case bytes =>
    simp only [Yields.cons, List.map_cons, List.sum_cons]
    omega
  case laid => exact ⟨stop, .cons he.dataOffset he.fits hlaid, htrailer⟩

/-- **The loop**, by induction on the source that is left. -/
theorem iterateTar_laid {cursor : TarCursor} (hcount : cursor.entries ≤ bounds.maxEntries)
    (hbytes : cursor.totalBytes ≤ bounds.maxBytes) :
    LoopSound source bounds cursor (iterateTar source bounds cursor) := by
  fun_induction iterateTar source bounds cursor with
  | case1 cursor error herror =>
    exact ⟨by simp, by simp, by simp, hcount, hbytes, cursor.offset, .nil, by simp⟩
  | case2 cursor hdone =>
    exact ⟨by simp, by simp, by simp, hcount, hbytes, cursor.offset, .nil,
      fun _ => zeroBlocks_of_nextEntry hdone⟩
  | case3 cursor e cursor' hnext ih =>
    have he := yielded_of_nextEntry hnext
    have hcount' : cursor'.entries ≤ bounds.maxEntries := by
      rw [he.after]
      exact he.count
    have hbytes' : cursor'.totalBytes ≤ bounds.maxBytes := by
      rw [he.after]
      exact he.bytes
    exact (ih hcount' hbytes').cons he

/-! ## Regions -/

theorem Laid.within {offset stop : Nat} {entries : List TarEntry}
    (h : Laid source offset entries stop) :
    ∀ e ∈ entries, offset ≤ e.dataOffset ∧ e.dataOffset + e.size ≤ source.length := by
  induction h with
  | nil => simp
  | @cons offset stop e entries hdata hfits hrest ih =>
    unfold paddedEnd at hfits ih
    intro e' he'
    rcases List.mem_cons.mp he' with rfl | he'
    · omega
    · have hnext := ih e' he'
      omega

/-- Each entry takes a block of the source at least. -/
theorem Laid.rounds {offset stop : Nat} {entries : List TarEntry}
    (h : Laid source offset entries stop) (hoffset : offset ≤ source.length) :
    offset + entries.length * blockSize ≤ source.length := by
  induction h with
  | nil => simpa using hoffset
  | cons hdata hfits hrest ih =>
    have hnext := ih hfits
    unfold paddedEnd blockSize at hnext
    unfold blockSize at hdata ⊢
    rw [List.length_cons]
    omega

theorem Laid.disjoint {offset stop : Nat} {entries : List TarEntry}
    (h : Laid source offset entries stop) :
    entries.Pairwise fun e e' => e.dataOffset + e.size ≤ e'.dataOffset := by
  induction h with
  | nil => exact List.Pairwise.nil
  | cons hdata hfits hrest ih =>
    refine List.pairwise_cons.mpr ⟨fun e' he' => ?_, ih⟩
    have hnext := (hrest.within e' he').1
    unfold paddedEnd at hnext
    omega

end Reader

/-- **Tar reading is sound on arbitrary input.** -/
theorem readTar_sound {source : Bytes} {options : TarReaderOptions} {y : Yields TarEntry}
    (h : readTar source options = .ok y) :
    ∃ bounds, readerBounds options = .ok bounds ∧ SoundRead source bounds y := by
  obtain ⟨bounds, hbounds, h⟩ := bind_eq_ok.mp h
  rw [pure_eq_ok] at h
  have hloop : LoopSound source bounds ⟨0, 0, 0, []⟩ y := by
    rw [← h]
    exact iterateTar_laid (Nat.zero_le _) (Nat.zero_le _)
  obtain ⟨stop, hlaid, htrailer⟩ := hloop.laid
  refine ⟨bounds, hbounds, ?_⟩
  constructor
  case rounds => simpa using hlaid.rounds (Nat.zero_le _)
  case names => exact hloop.names
  case distinct => exact hloop.distinct
  case within => exact fun e he => (hlaid.within e he).2
  case disjoint => exact hlaid.disjoint
  case count => simpa using hloop.count
  case bytes => simpa using hloop.bytes
  case chunks => exact fun e he => entryChunks_flatten (hlaid.within e he).2
  case trailer => exact fun hthrown => ⟨stop, hlaid, htrailer hthrown⟩

/-- An archive of one file. -/
theorem readTar_sound_entry :
    ∃ archive y, readTar archive ⟨none, none, none⟩ = .ok y ∧ y.values.length = 1 ∧
      ∃ bounds, readerBounds ⟨none, none, none⟩ = .ok bounds ∧ SoundRead archive bounds y := by
  have haccepts : ∀ e ∈ [Sample.entry], Accepted 0o644 e := by
    obtain ⟨w, hw⟩ := Sample.entry_accepted
    exact List.forall_mem_singleton.mpr (accepted_of_addEntry rfl hw)
  have hfresh : createTarWriter 0o644 = .ok ⟨0o644, [], none, false⟩ := rfl
  obtain ⟨body, hsegments, -⟩ :=
    writeTar_segments hfresh haccepts (List.forall_mem_singleton.mpr (by decide))
  have hsource : body ++ List.replicate 1024 (0 : UInt8) =
      [] ++ (body ++ List.replicate 1024 0) := rfl
  have hnew : ∀ e ∈ [Sample.entry], e.name ∉ ([] : List String) :=
    List.forall_mem_singleton.mpr List.not_mem_nil
  have hloop : ∃ values,
      iterateTar (body ++ List.replicate 1024 0) ⟨1000000, maxSafeInteger, headerNameBytes⟩
        ⟨0, 0, 0, []⟩ = ⟨values, none⟩ ∧
      List.Forall₂ (ReadBack (body ++ List.replicate 1024 0)) [Sample.entry] values :=
    iterateTar_segments hsegments hsource rfl
      (List.forall_mem_singleton.mpr Sample.entry_printable)
      (List.forall_mem_singleton.mpr (by decide +kernel)) (by decide) (by decide) hnew
      (List.pairwise_singleton _ _)
  obtain ⟨values, hiterate, hread⟩ := hloop
  have hok : readTar (body ++ List.replicate 1024 0) ⟨none, none, none⟩ = .ok ⟨values, none⟩ := by
    have hbounds : readerBounds ⟨none, none, none⟩ =
        .ok ⟨1000000, maxSafeInteger, headerNameBytes⟩ := rfl
    unfold readTar
    rw [hbounds, bind_ok, hiterate]
    rfl
  exact ⟨_, _, hok, hread.length_eq.symm, readTar_sound hok⟩

end DumpLedger.Tar
