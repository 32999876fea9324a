import DumpLedger.Engine.Run
import DumpLedger.Vault.FilesystemVault
import DumpLedger.Vault.MemoryVault

/-!
# The two vaults

`Sim` relates the in-memory vault to the files: a staging object is a file with its chunks one
after another, and is open when the process holds its descriptor; an object is the file under
its path; a reader's descriptor is of a file that nobody writes.

* `Sim.call` — what a call keeps, as long as it is `Fair`
* `Sim.differ` — on the others the vaults differ: a staging object beside an immutable one,
  and a symbol read that starts past the end
* `vaults_interchangeable` — hence of every sequence of calls
-/

namespace DumpLedger

open Lib

/-! ## The simulation -/

/-- The staging object of `id` as a file. -/
def StagingSim (m : MemoryVault) (f : FilesystemVault) (id : ObjectId) : Prop :=
  match m.staging id with
  | none => f.files.links (stagingPath id) = none ∧ f.openStaging id = none
  | some staging => ∃ inode, f.files.links (stagingPath id) = some inode ∧
      f.files.data inode = staging.chunks.flatten ∧
      f.openStaging id = if staging.isOpen then some inode else none

structure ReaderSim (f : FilesystemVault) (r : MemoryReader) (r' : FileReader) : Prop where
  kind : r'.kind = r.kind
  closed : r'.closed = r.closed
  snapshot : f.files.data r'.inode = r.snapshot
  made : r'.inode < f.files.next
  /-- Nobody writes the file. -/
  unwritten : ∀ id, f.openStaging id ≠ some r'.inode

structure Sim (m : MemoryVault) (f : FilesystemVault) : Prop where
  files : f.files.Sound
  staging : ∀ id, StagingSim m f id
  objects : ∀ id, f.files.content (objectPath id) = m.objects id
  readers : List.Forall₂ (ReaderSim f) m.readers f.readers

theorem sim_empty : Sim MemoryVault.empty FilesystemVault.empty where
  files := FileSystem.sound_empty
  staging _ := ⟨rfl, rfl⟩
  objects _ := rfl
  readers := .nil

section Staging

variable {m : MemoryVault} {f : FilesystemVault} {id : ObjectId}

theorem stagingSim_none (h : m.staging id = none) :
    StagingSim m f id ↔ f.files.links (stagingPath id) = none ∧ f.openStaging id = none := by
  unfold StagingSim
  rw [h]

theorem stagingSim_some {staging : StagingObject} (h : m.staging id = some staging) :
    StagingSim m f id ↔ ∃ inode, f.files.links (stagingPath id) = some inode ∧
      f.files.data inode = staging.chunks.flatten ∧
      f.openStaging id = if staging.isOpen then some inode else none := by
  unfold StagingSim
  rw [h]

/-- What the staging file of an identifier depends on. -/
theorem StagingSim.congr {m' : MemoryVault} {f' : FilesystemVault}
    (h : StagingSim m f id) (hstaging : m'.staging id = m.staging id)
    (hlinks : f'.files.links (stagingPath id) = f.files.links (stagingPath id))
    (hdata : ∀ inode, f.files.links (stagingPath id) = some inode →
      f'.files.data inode = f.files.data inode)
    (hopen : f'.openStaging id = f.openStaging id) : StagingSim m' f' id := by
  cases hm : m.staging id with
  | none =>
    rw [stagingSim_none hm] at h
    rw [stagingSim_none (hstaging.trans hm), hlinks, hopen]
    exact h
  | some staging =>
    rw [stagingSim_some hm] at h
    obtain ⟨inode, hlink, hbytes, hdescriptor⟩ := h
    rw [stagingSim_some (hstaging.trans hm)]
    exact ⟨inode, hlinks.trans hlink, (hdata inode hlink).trans hbytes,
      hopen.trans hdescriptor⟩

/-- What a reader depends on. -/
theorem ReaderSim.congr {f' : FilesystemVault} {r : MemoryReader} {r' : FileReader}
    (h : ReaderSim f r r') (hdata : f'.files.data r'.inode = f.files.data r'.inode)
    (hnext : f.files.next ≤ f'.files.next)
    (hopen : ∀ id, f'.openStaging id ≠ some r'.inode) : ReaderSim f' r r' :=
  ⟨h.kind, h.closed, hdata.trans h.snapshot, h.made.trans_le hnext, hopen⟩

/-- The descriptor that is open for writing is one of the staging file. -/
theorem Sim.links_of_openStaging (h : Sim m f) {inode : Nat}
    (hopen : f.openStaging id = some inode) : f.files.links (stagingPath id) = some inode := by
  have hs := h.staging id
  cases hm : m.staging id with
  | none =>
    rw [stagingSim_none hm] at hs
    rw [hs.2] at hopen
    cases hopen
  | some staging =>
    rw [stagingSim_some hm] at hs
    obtain ⟨inode', hlink, -, hdescriptor⟩ := hs
    rw [hdescriptor] at hopen
    split at hopen
    · cases hopen
      exact hlink
    · cases hopen

theorem Sim.exists_staging (h : Sim m f) :
    f.exists? (stagingPath id) = (m.staging id).isSome := by
  have hs := h.staging id
  unfold FilesystemVault.exists?
  cases hm : m.staging id with
  | none =>
    rw [stagingSim_none hm] at hs
    rw [hs.1]
    rfl
  | some staging =>
    rw [stagingSim_some hm] at hs
    obtain ⟨inode, hlink, -⟩ := hs
    rw [hlink]
    rfl

theorem Sim.exists_object (h : Sim m f) :
    f.exists? (objectPath id) = (m.objects id).isSome := by
  rw [← h.objects id]
  unfold FilesystemVault.exists? FileSystem.content
  rw [Option.isSome_map]

/-- **The vaults report the same presence.** -/
theorem Sim.presence (h : Sim m f) : f.presence id = m.presence id := by
  unfold FilesystemVault.presence MemoryVault.presence
  rw [h.exists_staging, h.exists_object]

/-- A staging file is open for writing exactly when the staging object is. -/
theorem Sim.openStaging_eq_none (h : Sim m f) (id : ObjectId) :
    f.openStaging id = none ↔ ∀ staging, m.staging id = some staging → staging.isOpen = false := by
  have hs := h.staging id
  cases hm : m.staging id with
  | none =>
    rw [stagingSim_none hm] at hs
    simp [hs.2]
  | some staging =>
    rw [stagingSim_some hm] at hs
    obtain ⟨inode, -, -, hdescriptor⟩ := hs
    rw [hdescriptor]
    simp

end Staging

/-! ## The operations of one namespace -/

section Operations

variable {m m' : MemoryVault} {f f' : FilesystemVault} {id : ObjectId}

/-- The readers are as before when their files are, and no more descriptors write. -/
theorem Sim.readers_congr (h : Sim m f) (hm : m'.readers = m.readers) (hf : f'.readers = f.readers)
    (hreader : ∀ r r', ReaderSim f r r' → ReaderSim f' r r') :
    List.Forall₂ (ReaderSim f') m'.readers f'.readers := by
  rw [hm, hf]
  exact h.readers.imp hreader

/-- The staging objects of the other identifiers. -/
theorem Sim.staging_of (h : Sim m f) (hid : StagingSim m' f' id)
    (hother : ∀ id', id' ≠ id → m'.staging id' = m.staging id' ∧
      f'.files.links (stagingPath id') = f.files.links (stagingPath id') ∧
      (∀ inode, f.files.links (stagingPath id') = some inode →
        f'.files.data inode = f.files.data inode) ∧
      f'.openStaging id' = f.openStaging id') : ∀ id', StagingSim m' f' id' := by
  intro id'
  by_cases heq : id' = id
  · rw [heq]
    exact hid
  · obtain ⟨hstaging, hlinks, hdata, hopen⟩ := hother id' heq
    exact (h.staging id').congr hstaging hlinks hdata hopen

/-- Where no object is under the identifier, both vaults make an empty open staging object, or
both find one. -/
theorem Sim.create (h : Sim m f) (hfair : m.staging id = none → m.objects id = none)
    (exists? : String) :
    Together Sim (m.createIn id exists?) (f.createIn id) := by
  unfold MemoryVault.createIn FilesystemVault.createIn
  rw [h.exists_staging]
  by_cases hs : m.staging id = none
  · rw [guardThat_of ⟨hs, hfair hs⟩, guardThat_of (by rw [hs]; rfl)]
    have hfree := h.staging id
    rw [stagingSim_none hs] at hfree
    refine .ok ⟨h.files.create, ?_, ?_, ?_⟩
    · refine h.staging_of ((stagingSim_some (Function.update_self ..)).mpr ?_) ?_
      · exact ⟨f.files.next, by rw [FileSystem.links_create, if_pos rfl],
          FileSystem.data_create_next, Function.update_self ..⟩
      · intro id' hne
        refine ⟨Function.update_of_ne hne .., ?_, ?_, Function.update_of_ne hne ..⟩
        · rw [FileSystem.links_create, if_neg (mt stagingPath_inj.mp hne)]
        · intro inode hlink
          exact FileSystem.data_create (h.files.made _ inode hlink)
    · intro id'
      exact (FileSystem.content_create h.files (stagingPath_ne_objectPath id id').symm).trans
        (h.objects id')
    · refine h.readers_congr rfl rfl fun r r' hr => ?_
      refine hr.congr (FileSystem.data_create hr.made) (Nat.le_succ _) fun id' => ?_
      -- the new descriptor is of a file that no reader knows
      show Function.update f.openStaging id (some f.files.next) id' ≠ _
      rw [Function.update_apply]
      split
      · intro he
        exact absurd hr.made (by rw [Option.some_inj.mp he]; exact Nat.lt_irrefl _)
      · exact hr.unwritten id'
  · rw [guardThat_of_not fun hp => hs hp.1, guardThat_of_not]
    · exact .error _ _
    · rw [Option.isSome_eq_false_iff, Option.isNone_iff_eq_none]
      exact hs

theorem Sim.append (h : Sim m f) (bytes : Bytes) (notOpen : String) :
    Together Sim (m.appendIn id bytes notOpen) (f.appendIn id bytes notOpen) := by
  have hid := h.staging id
  unfold MemoryVault.appendIn FilesystemVault.appendIn
  cases hs : m.staging id with
  | none =>
    rw [stagingSim_none hs] at hid
    rw [hid.2]
    exact .error _ _
  | some staging =>
    rw [stagingSim_some hs] at hid
    obtain ⟨inode, hlink, hbytes, hdescriptor⟩ := hid
    by_cases hopen : staging.isOpen = true
    · rw [hdescriptor, if_pos hopen, orThrow_some]
      simp only [guardThat_of hopen]
      rw [if_pos hopen] at hdescriptor
      refine .ok ⟨h.files.write, ?_, ?_, ?_⟩
      · refine h.staging_of ((stagingSim_some (Function.update_self ..)).mpr ?_) ?_
        · refine ⟨inode, hlink, ?_, ?_⟩
          · rw [FileSystem.data_write_self, hbytes, List.flatten_concat]
          · rw [hdescriptor, if_pos hopen]
        · intro id' hne
          refine ⟨Function.update_of_ne hne .., rfl, ?_, rfl⟩
          intro inode' hlink'
          refine FileSystem.data_write ?_
          rintro rfl
          exact hne (stagingPath_inj.mp (h.files.single _ _ _ hlink' hlink))
      · intro id'
        have hne := (stagingPath_ne_objectPath id id').symm
        exact (FileSystem.content_write h.files hlink hne).trans (h.objects id')
      · refine h.readers_congr rfl rfl fun r r' hr => ?_
        refine hr.congr (FileSystem.data_write ?_) le_rfl hr.unwritten
        rintro he
        exact hr.unwritten id (by rw [hdescriptor, he])
    · rw [hdescriptor, if_neg hopen]
      simp only [guardThat_of_not hopen]
      exact .error _ _

/-- Closing keeps the bytes. -/
theorem Sim.close_staging (h : Sim m f) {staging : StagingObject}
    (hs : m.staging id = some staging) :
    Sim (m.setStaging id (some { staging with isOpen := false })) (f.closeStaging id) := by
  have hid := h.staging id
  rw [stagingSim_some hs] at hid
  obtain ⟨inode, hlink, hbytes, -⟩ := hid
  refine ⟨h.files, ?_, h.objects, ?_⟩
  · refine h.staging_of ((stagingSim_some (Function.update_self ..)).mpr ?_) ?_
    · exact ⟨inode, hlink, hbytes, Function.update_self ..⟩
    · intro id' hne
      exact ⟨Function.update_of_ne hne .., rfl, fun _ _ => rfl, Function.update_of_ne hne ..⟩
  · refine h.readers_congr rfl rfl fun r r' hr => ?_
    refine hr.congr rfl le_rfl fun id' => ?_
    show Function.update f.openStaging id none id' ≠ _
    rw [Function.update_apply]
    split
    · intro he
      cases he
    · exact hr.unwritten id'

theorem Sim.syncAndClose (h : Sim m f) (missing : String) :
    Together Sim (m.syncAndCloseIn id missing) (f.syncAndCloseIn id missing) := by
  have hid := h.staging id
  unfold MemoryVault.syncAndCloseIn FilesystemVault.syncAndCloseIn
  rw [h.exists_staging]
  cases hs : m.staging id with
  | none =>
    rw [stagingSim_none hs] at hid
    rw [hid.2]
    exact .error _ _
  | some staging =>
    have hclosed := h.close_staging hs
    rw [stagingSim_some hs] at hid
    obtain ⟨inode, -, -, hdescriptor⟩ := hid
    cases hopen : staging.isOpen with
    | true =>
      rw [hopen, if_pos rfl] at hdescriptor
      rw [hdescriptor]
      exact .ok hclosed
    | false =>
      rw [hopen, if_neg Bool.false_ne_true] at hdescriptor
      rw [hdescriptor]
      -- closed already: closing it once more changes nothing
      have hsame : f.closeStaging id = f := by
        show { f with openStaging := Function.update f.openStaging id none } = f
        rw [← hdescriptor, Function.update_eq_self]
      rw [hsame] at hclosed
      exact .ok hclosed

/-- Without the staging object. -/
theorem Sim.removeStaging (h : Sim m f) :
    Sim (m.removeStagingIn id) (f.removeStagingIn id) := by
  refine ⟨h.files.unlink, ?_, ?_, ?_⟩
  · refine h.staging_of ((stagingSim_none (Function.update_self ..)).mpr ?_) ?_
    · refine ⟨?_, Function.update_self ..⟩
      show (f.files.unlink (stagingPath id)).links (stagingPath id) = none
      rw [FileSystem.links_unlink, if_pos rfl]
    · intro id' hne
      refine ⟨Function.update_of_ne hne .., ?_, fun _ _ => rfl, Function.update_of_ne hne ..⟩
      show (f.files.unlink (stagingPath id)).links (stagingPath id') = _
      rw [FileSystem.links_unlink, if_neg (mt stagingPath_inj.mp hne)]
  · intro id'
    show (f.files.unlink (stagingPath id)).content (objectPath id') = m.objects id'
    rw [FileSystem.content_unlink, if_neg (stagingPath_ne_objectPath id id').symm]
    exact h.objects id'
  · refine h.readers_congr rfl rfl fun r r' hr => ?_
    refine hr.congr rfl le_rfl fun id' => ?_
    show Function.update f.openStaging id none id' ≠ _
    rw [Function.update_apply]
    split
    · intro he
      cases he
    · exact hr.unwritten id'

theorem Sim.remove (h : Sim m f) : Sim (m.removeIn id) (f.removeIn id) := by
  have hremoved : Sim (m.removeStagingIn id) (f.removeStagingIn id) := h.removeStaging
  refine ⟨hremoved.files.unlink, ?_, ?_, ?_⟩
  · intro id'
    refine (hremoved.staging id').congr rfl ?_ (fun _ _ => rfl) rfl
    show ((f.removeStagingIn id).files.unlink (objectPath id)).links (stagingPath id') = _
    rw [FileSystem.links_unlink, if_neg (stagingPath_ne_objectPath id' id)]
  · intro id'
    show ((f.removeStagingIn id).files.unlink (objectPath id)).content (objectPath id') =
      Function.update m.objects id none id'
    rw [FileSystem.content_unlink, Function.update_apply]
    by_cases heq : id' = id
    · rw [if_pos (congrArg objectPath heq), if_pos heq]
    · rw [if_neg (mt objectPath_inj.mp heq), if_neg heq]
      exact hremoved.objects id'
  · exact hremoved.readers_congr rfl rfl fun r r' hr => hr.congr rfl le_rfl hr.unwritten

/-- A closed staging object becomes the immutable one. -/
theorem Sim.rename (h : Sim m f) {staging : StagingObject} (hs : m.staging id = some staging)
    (hclosed : f.openStaging id = none) :
    Sim ((m.setObject id (some staging.chunks.flatten)).setStaging id none)
      { f with files := f.files.rename (stagingPath id) (objectPath id) } := by
  have hid := h.staging id
  rw [stagingSim_some hs] at hid
  obtain ⟨inode, hlink, hbytes, -⟩ := hid
  refine ⟨h.files.rename, ?_, ?_, ?_⟩
  · refine h.staging_of ((stagingSim_none (Function.update_self ..)).mpr ⟨?_, hclosed⟩) ?_
    · show (f.files.rename (stagingPath id) (objectPath id)).links (stagingPath id) = none
      rw [FileSystem.links_rename, if_neg (stagingPath_ne_objectPath id id), if_pos rfl]
    · intro id' hne
      refine ⟨Function.update_of_ne hne .., ?_, fun _ _ => rfl, rfl⟩
      show (f.files.rename (stagingPath id) (objectPath id)).links (stagingPath id') = _
      rw [FileSystem.links_rename, if_neg (stagingPath_ne_objectPath id' id),
        if_neg (mt stagingPath_inj.mp hne)]
  · intro id'
    show (f.files.rename (stagingPath id) (objectPath id)).content (objectPath id') =
      Function.update m.objects id (some staging.chunks.flatten) id'
    rw [FileSystem.content_rename, Function.update_apply]
    by_cases heq : id' = id
    · rw [if_pos (congrArg objectPath heq), if_pos heq]
      unfold FileSystem.content
      rw [hlink, Option.map_some, hbytes]
    · rw [if_neg (mt objectPath_inj.mp heq), if_neg (stagingPath_ne_objectPath id id').symm,
        if_neg heq]
      exact h.objects id'
  · exact h.readers_congr rfl rfl fun r r' hr => hr.congr rfl le_rfl hr.unwritten

theorem Sim.promote (h : Sim m f) (missing notSealed both : String) :
    Together Sim (m.promoteIn id missing notSealed both)
      (f.promoteIn id missing notSealed both) := by
  have hclosed := h.openStaging_eq_none id
  unfold MemoryVault.promoteIn FilesystemVault.promoteIn
  rw [h.exists_staging, h.exists_object]
  cases hs : m.staging id with
  | none =>
    rw [guardThat_of (hclosed.mpr (by simp [hs]))]
    cases ho : m.objects id with
    | none => exact .error _ _
    | some object => exact .ok h
  | some staging =>
    by_cases hopen : staging.isOpen = false
    · have hdescriptor : f.openStaging id = none := hclosed.mpr (by simp [hs, hopen])
      rw [guardThat_of hdescriptor]
      simp only [guardThat_of hopen]
      cases ho : m.objects id with
      | none => exact .ok (h.rename hs hdescriptor)
      | some object => exact .error _ _
    · have hdescriptor : f.openStaging id ≠ none :=
        fun hnone => hopen (hclosed.mp hnone staging hs)
      rw [guardThat_of_not hdescriptor]
      simp only [guardThat_of_not hopen]
      exact .error _ _

end Operations

/-! ## Readers -/

section Readers

variable {m : MemoryVault} {f : FilesystemVault} {id : ObjectId}

/-- Both vaults fail, or give the same answer and are related after it. -/
def Agree : Except Thrown (VaultAnswer × MemoryVault) →
    Except Thrown (VaultAnswer × FilesystemVault) → Prop :=
  Together fun a b => a.1 = b.1 ∧ Sim a.2 b.2

theorem Sim.openReader (h : Sim m f) (kind : ReaderKind) {inode : Nat}
    (hmade : inode < f.files.next) (hunwritten : ∀ id, f.openStaging id ≠ some inode) :
    (m.openReader kind (f.files.data inode)).1 = (f.openReader kind inode).1 ∧
      Sim (m.openReader kind (f.files.data inode)).2 (f.openReader kind inode).2 := by
  refine ⟨?_, h.files, h.staging, h.objects, ?_⟩
  · show VaultAnswer.reader m.readers.length _ = VaultAnswer.reader f.readers.length _
    rw [h.readers.length_eq]
  · refine List.rel_append (h.readers.imp fun r r' hr => ?_) (.cons ?_ .nil)
    · exact hr.congr rfl le_rfl hr.unwritten
    · exact ⟨rfl, rfl, rfl, hmade, hunwritten⟩

/-- An object's file is not open for writing. -/
theorem Sim.openReader_object (h : Sim m f) (kind : ReaderKind) {inode : Nat}
    (hlink : f.files.links (objectPath id) = some inode) :
    (m.openReader kind (f.files.data inode)).1 = (f.openReader kind inode).1 ∧
      Sim (m.openReader kind (f.files.data inode)).2 (f.openReader kind inode).2 := by
  refine h.openReader kind (h.files.made _ _ hlink) fun id' hopen => ?_
  have hstaging := h.links_of_openStaging hopen
  exact stagingPath_ne_objectPath id' id (h.files.single _ _ _ hstaging hlink)

theorem Sim.openImmutable (h : Sim m f) (dumpId : DumpId) :
    Agree (m.openImmutable dumpId) (f.openImmutable dumpId) := by
  have hobject := h.objects (.dump dumpId)
  unfold FileSystem.content at hobject
  unfold MemoryVault.openImmutable FilesystemVault.openImmutable
  cases hlink : f.files.links (objectPath (.dump dumpId)) with
  | none =>
    rw [hlink] at hobject
    rw [← hobject]
    exact .error _ _
  | some inode =>
    rw [hlink] at hobject
    rw [← hobject]
    exact .ok (h.openReader_object .vault hlink)

theorem Sim.openSymbol (h : Sim m f) (artifactId : SymbolArtifactId) :
    Agree (.ok (m.openSymbol artifactId)) (.ok (f.openSymbol artifactId)) := by
  have hobject := h.objects (.symbol artifactId)
  unfold FileSystem.content at hobject
  unfold MemoryVault.openSymbol FilesystemVault.openSymbol
  cases hlink : f.files.links (objectPath (.symbol artifactId)) with
  | none =>
    rw [hlink] at hobject
    rw [← hobject]
    exact .ok ⟨rfl, h⟩
  | some inode =>
    rw [hlink] at hobject
    rw [← hobject]
    exact .ok (h.openReader_object .symbol hlink)

theorem Sim.openSymbolStagingReader (h : Sim m f) (artifactId : SymbolArtifactId) :
    Agree (m.openSymbolStagingReader artifactId) (f.openSymbolStagingReader artifactId) := by
  have hid := h.staging (.symbol artifactId)
  have hclosed := h.openStaging_eq_none (.symbol artifactId)
  unfold MemoryVault.openSymbolStagingReader FilesystemVault.openSymbolStagingReader
  cases hs : m.staging (.symbol artifactId) with
  | none =>
    rw [stagingSim_none hs] at hid
    rw [guardThat_of hid.2, hid.1]
    exact .ok ⟨rfl, h⟩
  | some staging =>
    by_cases hopen : staging.isOpen = false
    · have hdescriptor : f.openStaging (.symbol artifactId) = none :=
        hclosed.mpr (by simp [hs, hopen])
      rw [stagingSim_some hs] at hid
      obtain ⟨inode, hlink, hbytes, -⟩ := hid
      rw [guardThat_of hdescriptor, hlink]
      simp only [guardThat_of hopen, ← hbytes]
      refine .ok (h.openReader .symbolStaging (h.files.made _ _ hlink) fun id' hid' => ?_)
      -- a descriptor of this file would be one of this very object, and that one is closed
      have hsame := h.files.single _ _ _ (h.links_of_openStaging hid') hlink
      rw [stagingPath_inj.mp hsame, hdescriptor] at hid'
      cases hid'
    · have hdescriptor : f.openStaging (.symbol artifactId) ≠ none :=
        fun hnone => hopen (hclosed.mp hnone staging hs)
      rw [guardThat_of_not hdescriptor]
      simp only [guardThat_of_not hopen]
      exact .error _ _

theorem forall₂_modify {α β : Type} {R S : α → β → Prop} {as : List α} {bs : List β} {n : Nat}
    {g : α → α} {g' : β → β} (h : List.Forall₂ R as bs) (hkeep : ∀ a b, R a b → S a b)
    (hchange : ∀ a b, R a b → S (g a) (g' b)) :
    List.Forall₂ S (as.modify n g) (bs.modify n g') := by
  induction h generalizing n with
  | nil => cases n <;> exact .nil
  | cons hab hrest ih =>
    cases n with
    | zero => exact .cons (hchange _ _ hab) (hrest.imp hkeep)
    | succ n => exact .cons (hkeep _ _ hab) ih

theorem Sim.close (h : Sim m f) (reader : Nat) : Sim (m.close reader) (f.close reader) := by
  refine ⟨h.files, h.staging, h.objects, forall₂_modify h.readers ?_ ?_⟩
  · exact fun r r' hr => hr.congr rfl le_rfl hr.unwritten
  · exact fun r r' hr => ⟨hr.kind, rfl, hr.snapshot, hr.made, hr.unwritten⟩

/-- A read that both readers take the same way: the one of a symbol in memory refuses what
starts past the end. -/
def FairRead (r : MemoryReader) (position length : Int) : Prop :=
  r.closed = false → 0 ≤ position → 0 ≤ length →
    (position ≤ r.lastPosition ↔ position ≤ maxSafeInteger)

theorem ReaderSim.read {r : MemoryReader} {r' : FileReader} (h : ReaderSim f r r')
    {position length : Int} (hfair : FairRead r position length) :
    Together Eq (r.read position length) (f.readFile r' position length) := by
  unfold MemoryReader.read FilesystemVault.readFile
  rw [h.closed, h.kind, h.snapshot]
  by_cases hclosed : r.closed = false
  · have hranges : r.inRange position length ↔
        0 ≤ position ∧ position ≤ maxSafeInteger ∧ 0 ≤ length := by
      have hsize := hfair hclosed
      unfold MemoryReader.inRange
      tauto
    simp only [guardThat_of hclosed]
    by_cases hrange : r.inRange position length
    · simp only [guardThat_of hrange, guardThat_of (hranges.mp hrange)]
      exact .ok rfl
    · simp only [guardThat_of_not hrange, guardThat_of_not (mt hranges.mpr hrange)]
      exact .error _ _
  · simp only [guardThat_of_not hclosed]
    exact .error _ _

/-- Any other read fails in one vault only. -/
theorem ReaderSim.read_differ {r : MemoryReader} {r' : FileReader} (h : ReaderSim f r r')
    {position length : Int} (hunfair : ¬ FairRead r position length) :
    ¬ Together Eq (r.read position length) (f.readFile r' position length) := by
  unfold FairRead at hunfair
  simp only [Classical.not_imp] at hunfair
  obtain ⟨hclosed, hposition, hlength, hsize⟩ := hunfair
  unfold MemoryReader.read FilesystemVault.readFile
  rw [h.closed, h.kind, h.snapshot]
  simp only [guardThat_of hclosed]
  by_cases hend : position ≤ r.lastPosition
  · have hrange : r.inRange position length := ⟨hposition, hlength, hend⟩
    have hunsafe : ¬ (0 ≤ position ∧ position ≤ maxSafeInteger ∧ 0 ≤ length) :=
      fun hs => hsize ⟨fun _ => hs.2.1, fun _ => hend⟩
    simp only [guardThat_of hrange, guardThat_of_not hunsafe]
    intro hboth
    cases hboth
  · have hrange : ¬ r.inRange position length := fun hr => hend hr.2.2
    have hsafe : 0 ≤ position ∧ position ≤ maxSafeInteger ∧ 0 ≤ length := by
      refine ⟨hposition, ?_, hlength⟩
      by_contra hs
      exact hsize ⟨fun he => absurd he hend, fun he => absurd he hs⟩
    simp only [guardThat_of_not hrange, guardThat_of hsafe]
    intro hboth
    cases hboth

end Readers

/-! ## Calls -/

/-- A call that the vaults take the same way. -/
def Fair (m : MemoryVault) : VaultCall → Prop
  | .createStaging dumpId => m.staging (.dump dumpId) = none → m.objects (.dump dumpId) = none
  | .createSymbolStaging artifactId =>
    m.staging (.symbol artifactId) = none → m.objects (.symbol artifactId) = none
  | .read reader position length => ∀ r, m.readers[reader]? = some r → FairRead r position length
  | _ => True

section Calls

variable {m : MemoryVault} {f : FilesystemVault} {id : ObjectId}

theorem agree_done {x : Except Thrown MemoryVault} {y : Except Thrown FilesystemVault}
    (h : Together Sim x y) :
    Agree ((VaultAnswer.done, ·) <$> x) ((VaultAnswer.done, ·) <$> y) :=
  h.map fun _ _ hs => ⟨rfl, hs⟩

/-- Beside an immutable object only the files get a staging object. -/
theorem Sim.create_differ (h : Sim m f) (exists? : String)
    (hunfair : ¬ (m.staging id = none → m.objects id = none)) :
    ¬ Together (fun _ _ => True) (m.createIn id exists?) (f.createIn id) := by
  obtain ⟨hs, ho⟩ := Classical.not_imp.mp hunfair
  unfold MemoryVault.createIn FilesystemVault.createIn
  rw [h.exists_staging, guardThat_of_not fun hp => ho hp.2, guardThat_of (by rw [hs]; rfl)]
  intro hboth
  cases hboth

theorem Sim.reader (h : Sim m f) (reader : Nat) :
    (m.readers[reader]? = none ∧ f.readers[reader]? = none) ∨
      ∃ r r', m.readers[reader]? = some r ∧ f.readers[reader]? = some r' ∧ ReaderSim f r r' := by
  have hreaders := h.readers
  generalize m.readers = readers at hreaders
  generalize f.readers = readers' at hreaders
  induction hreaders generalizing reader with
  | nil => exact Or.inl ⟨rfl, rfl⟩
  | @cons r r' _ _ hr _ ih =>
    cases reader with
    | zero => exact Or.inr ⟨r, r', rfl, rfl, hr⟩
    | succ reader => exact ih reader

/-- **What a fair call keeps**: the answers are the same, and so are the vaults after it. -/
theorem Sim.call (h : Sim m f) (call : VaultCall) (hfair : Fair m call) :
    Agree (m.step call) (f.step call) := by
  cases call with
  | createStaging dumpId => exact agree_done (h.create hfair _)
  | append dumpId bytes => exact agree_done (h.append bytes _)
  | syncAndClose dumpId => exact agree_done (h.syncAndClose _)
  | promote dumpId => exact agree_done (h.promote _ _ _)
  | openImmutable dumpId => exact h.openImmutable dumpId
  | removeStaging dumpId => exact .ok ⟨rfl, h.removeStaging⟩
  | remove dumpId => exact .ok ⟨rfl, h.remove⟩
  | inspectPresence dumpId => exact .ok ⟨congrArg VaultAnswer.presence h.presence.symm, h⟩
  | createSymbolStaging artifactId => exact agree_done (h.create hfair _)
  | appendSymbol artifactId bytes => exact agree_done (h.append bytes _)
  | syncAndCloseSymbol artifactId => exact agree_done (h.syncAndClose _)
  | openSymbolStagingReader artifactId => exact h.openSymbolStagingReader artifactId
  | promoteSymbol artifactId => exact agree_done (h.promote _ _ _)
  | openSymbol artifactId => exact h.openSymbol artifactId
  | removeSymbolStaging artifactId => exact .ok ⟨rfl, h.removeStaging⟩
  | removeSymbol artifactId => exact .ok ⟨rfl, h.remove⟩
  | symbolPresence artifactId => exact .ok ⟨congrArg VaultAnswer.presence h.presence.symm, h⟩
  | read reader position length =>
    have hread : Together Eq (m.read reader position length) (f.read reader position length) := by
      unfold MemoryVault.read FilesystemVault.read
      rcases h.reader reader with ⟨hr, hr'⟩ | ⟨r, r', hr, hr', hsim⟩
      · rw [hr, hr']
        exact .error _ _
      · rw [hr, hr']
        exact hsim.read (hfair r hr)
    exact hread.map fun _ _ heq => ⟨congrArg VaultAnswer.bytes heq, h⟩
  | close reader => exact .ok ⟨rfl, h.close reader⟩

/-- The two vaults, each after its own calls. -/
abbrev BothVaults := MemoryVault × FilesystemVault

def BothVaults.after (s : BothVaults) (call : VaultCall) : BothVaults :=
  (afterCall MemoryVault.step s.1 call, afterCall FilesystemVault.step s.2 call)

/-- Both take the call or both refuse it, they answer the same, and they report the same presence
after it. -/
def Alike (s : BothVaults) (call : VaultCall) : Prop :=
  answerOf MemoryVault.step s.1 call = answerOf FilesystemVault.step s.2 call ∧
    ∀ id, (s.after call).1.presence id = (s.after call).2.presence id

theorem Agree.answerOf_eq {s : BothVaults} {call : VaultCall}
    (h : Agree (s.1.step call) (s.2.step call)) :
    answerOf MemoryVault.step s.1 call = answerOf FilesystemVault.step s.2 call := by
  unfold answerOf
  generalize s.1.step call = x at h
  generalize s.2.step call = y at h
  cases h with
  | ok h => exact congrArg some h.1
  | error e e' => rfl

theorem Agree.after {s : BothVaults} {call : VaultCall} (hs : Sim s.1 s.2)
    (h : Agree (s.1.step call) (s.2.step call)) :
    Sim (s.after call).1 (s.after call).2 := by
  unfold BothVaults.after afterCall
  generalize s.1.step call = x at h
  generalize s.2.step call = y at h
  cases h with
  | ok h => exact h.2
  | error e e' => exact hs

/-- Answers that are the same come from results that are there together. -/
theorem together_of_answerOf {s : BothVaults} {call : VaultCall}
    (h : answerOf MemoryVault.step s.1 call = answerOf FilesystemVault.step s.2 call) :
    Together (fun a b => a.1 = b.1) (s.1.step call) (s.2.step call) := by
  unfold answerOf at h
  generalize s.1.step call = x at h
  generalize s.2.step call = y at h
  cases x <;> cases y
  · exact .error _ _
  · cases h
  · cases h
  · exact .ok (Option.some_inj.mp h)

/-- A call the vaults take the same way is a fair one. -/
theorem Sim.fair_of_alike {s : BothVaults} (h : Sim s.1 s.2) {call : VaultCall}
    (halike : Alike s call) : Fair s.1 call := by
  have hboth := together_of_answerOf halike.1
  cases call with
  | createStaging dumpId =>
    by_contra hunfair
    exact h.create_differ _ hunfair (hboth.of_map.mono fun _ _ _ => trivial)
  | createSymbolStaging artifactId =>
    by_contra hunfair
    exact h.create_differ _ hunfair (hboth.of_map.mono fun _ _ _ => trivial)
  | read reader position length =>
    have hread : Together Eq (s.1.read reader position length) (s.2.read reader position length) :=
      hboth.of_map.mono fun _ _ heq => VaultAnswer.bytes.inj heq
    unfold MemoryVault.read FilesystemVault.read at hread
    intro r hr
    rcases h.reader reader with ⟨hr', -⟩ | ⟨r₁, r', hr₁, hr', hsim⟩
    · rw [hr] at hr'
      cases hr'
    · cases hr.symm.trans hr₁
      rw [hr, hr'] at hread
      by_contra hunfair
      exact hsim.read_differ hunfair hread
  | _ => trivial

/-- **Related vaults take a call the same way exactly when it is fair.** -/
theorem Sim.alike_iff {s : BothVaults} (h : Sim s.1 s.2) {call : VaultCall} :
    Alike s call ↔ Fair s.1 call := by
  refine ⟨h.fair_of_alike, fun hfair => ⟨(h.call call hfair).answerOf_eq, fun id => ?_⟩⟩
  exact ((h.call call hfair).after h).presence.symm

theorem Sim.along_iff {s : BothVaults} (h : Sim s.1 s.2) {calls : List VaultCall} :
    Along BothVaults.after Alike s calls ↔ Along (afterCall MemoryVault.step) Fair s.1 calls := by
  induction calls generalizing s with
  | nil => exact Iff.rfl
  | cons call calls ih =>
    rw [along_cons, along_cons, h.alike_iff]
    refine and_congr_right fun hfair => ?_
    exact ih ((h.call call hfair).after h)

end Calls

/-! ## Sequences of calls -/

/-- **The vaults are interchangeable as long as no call is unfair**: they take the same calls,
give the same answers and report the same presence throughout a sequence of calls exactly when
each is fair to the vault in memory as it is then. -/
theorem vaults_interchangeable (calls : List VaultCall) :
    Along BothVaults.after Alike (MemoryVault.empty, FilesystemVault.empty) calls ↔
      Along (afterCall MemoryVault.step) Fair MemoryVault.empty calls :=
  Sim.along_iff (s := (MemoryVault.empty, FilesystemVault.empty)) sim_empty

namespace Sample

/-- An upload under the identifier of an object there is. -/
def createOverObject : List VaultCall :=
  let dumpId := (host 0).dumpId
  [.createStaging dumpId, .syncAndClose dumpId, .promote dumpId, .createStaging dumpId]

/-- A read of an empty symbol artifact from its second byte on. -/
def readPastEnd : List VaultCall :=
  let artifactId := (host 0).symbolId
  [.createSymbolStaging artifactId, .syncAndCloseSymbol artifactId, .promoteSymbol artifactId,
    .openSymbol artifactId, .read 0 1 1]

end Sample

/-- Both kinds of calls that the vaults take differently. -/
theorem vaults_differ :
    ¬ Along BothVaults.after Alike (MemoryVault.empty, FilesystemVault.empty)
        Sample.createOverObject ∧
      ¬ Along BothVaults.after Alike (MemoryVault.empty, FilesystemVault.empty)
        Sample.readPastEnd := by
  constructor
  · rintro ⟨-, -, -, ⟨hanswer, -⟩, -⟩
    exact absurd hanswer (by decide)
  · rintro ⟨-, -, -, -, ⟨hanswer, -⟩, -⟩
    exact absurd hanswer (by decide)

end DumpLedger
