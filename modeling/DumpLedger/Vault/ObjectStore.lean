import DumpLedger.Domain.Errors
import DumpLedger.Domain.Text
import DumpLedger.Lib.Table

/-!
# The filesystem vault

Bytes live in two places: a staging file while they arrive, an immutable object
afterwards. `promote` renames the one onto the other. A staging file may be open for
writing; the open descriptors belong to the process, so a restart closes them all.

Dumps and symbol artifacts have separate roots and the same operations; `ObjectStore`
is one root, for identifiers `κ`.
-/

namespace DumpLedger

open Lib

structure StagingFile (κ : Type) where
  id : κ
  bytes : Bytes
  isOpen : Bool
  modifiedAt : Int
  deriving DecidableEq

structure StoredObject (κ : Type) where
  id : κ
  bytes : Bytes
  deriving DecidableEq

instance (κ : Type) : Keyed (StagingFile κ) κ := ⟨StagingFile.id⟩
instance (κ : Type) : Keyed (StoredObject κ) κ := ⟨StoredObject.id⟩

@[simp] theorem key_stagingFile {κ : Type} (f : StagingFile κ) : key f = f.id := rfl
@[simp] theorem key_storedObject {κ : Type} (f : StoredObject κ) : key f = f.id := rfl

structure ObjectStore (κ : Type) where
  staging : Table (StagingFile κ)
  objects : Table (StoredObject κ)

structure VaultPresence where
  staging : Bool
  vault : Bool
  deriving DecidableEq, Repr

namespace ObjectStore

variable {κ : Type} [DecidableEq κ]

def empty : ObjectStore κ := ⟨.empty, .empty⟩

/-! ## Reads -/

def inspectPresence (s : ObjectStore κ) (id : κ) : VaultPresence :=
  ⟨s.staging.contains id, s.objects.contains id⟩

/-- `openImmutable`, read to the end. -/
def object? (s : ObjectStore κ) (id : κ) : Option Bytes :=
  (s.objects.find? id).map StoredObject.bytes

/-- The bytes of a staging file. -/
def staged? (s : ObjectStore κ) (id : κ) : Option Bytes :=
  (s.staging.find? id).map StagingFile.bytes

def stagingModifiedAt (s : ObjectStore κ) (id : κ) : Option Int :=
  (s.staging.find? id).map StagingFile.modifiedAt

/-- `openStaging.has(id)`. -/
def hasOpenStaging (s : ObjectStore κ) (id : κ) : Bool :=
  match s.staging.find? id with
  | some f => f.isOpen
  | none => false

def listStagingIds [LE κ] [DecidableRel (α := κ) (· ≤ ·)] (s : ObjectStore κ) : List κ :=
  s.staging.sorted.map StagingFile.id

/-! ## Writes -/

/-- `open(..., O_CREAT | O_EXCL)`. -/
def createStaging (s : ObjectStore κ) (nowMs : Int) (id : κ) :
    Except Thrown (ObjectStore κ) := do
  let staging ← orThrow (s.staging.insert? ⟨id, [], true, nowMs⟩) ioError
  return { s with staging }

def append (s : ObjectStore κ) (nowMs : Int) (id : κ) (bytes : Bytes) :
    Except Thrown (ObjectStore κ) := do
  let staging ← orThrow
    (s.staging.modify? id StagingFile.isOpen
      (fun f => { f with bytes := f.bytes ++ bytes, modifiedAt := nowMs }) (fun _ => rfl))
    (invalidTransition "staging object is not open")
  return { s with staging }

def syncAndClose (s : ObjectStore κ) (id : κ) : Except Thrown (ObjectStore κ) := do
  let staging ← orThrow
    (s.staging.modify? id (fun _ => true) (fun f => { f with isOpen := false }) (fun _ => rfl))
    (.ledgerError .storageUnavailable "staging object is missing")
  return { s with staging }

def removeStaging (s : ObjectStore κ) (id : κ) : ObjectStore κ :=
  { s with staging := s.staging.delete fun f => decide (f.id = id) }

def remove (s : ObjectStore κ) (id : κ) : ObjectStore κ :=
  { s.removeStaging id with objects := s.objects.delete fun f => decide (f.id = id) }

/-- `rename` of the staging file onto the object path; a promotion that already
happened is repeated without effect. -/
def promote (s : ObjectStore κ) (id : κ) : Except Thrown (ObjectStore κ) :=
  match s.staging.find? id with
  | none =>
    if s.objects.contains id then .ok s
    else .error (.ledgerError .storageUnavailable "staging object is missing")
  | some f => do
    guardThat (f.isOpen = false) (invalidTransition "staging object is not sealed")
    let objects ← orThrow (s.objects.insert? ⟨id, f.bytes⟩)
      (integrityFailure "staging and vault objects both exist")
    return { s.removeStaging id with objects }

/-- A restart: the process's descriptors are gone, the files stay. -/
def reopen (s : ObjectStore κ) : ObjectStore κ :=
  { s with
    staging := s.staging.update (fun _ => true) (fun f => { f with isOpen := false })
      (fun _ => rfl) }

/-! ## What is there afterwards -/

variable {s s' : ObjectStore κ} {id id' : κ} {nowMs : Int} {bytes : Bytes}

theorem createStaging_eq_ok :
    s.createStaging nowMs id = .ok s' ↔
      ∃ h : s.staging.find? id = none,
        s' = { s with staging := s.staging.insert ⟨id, [], true, nowMs⟩ h } := by
  simp only [createStaging, bind_eq_ok, orThrow_eq_ok, Table.insert?_eq_some, pure_eq_ok]
  constructor
  · rintro ⟨_, ⟨h, rfl⟩, rfl⟩
    exact ⟨h, rfl⟩
  · rintro ⟨h, rfl⟩
    exact ⟨_, ⟨h, rfl⟩, rfl⟩

theorem append_eq_ok :
    s.append nowMs id bytes = .ok s' ↔
      ∃ f, s.staging.find? id = some f ∧ f.isOpen = true ∧
        s' = { s with
              staging := s.staging.updateKey id
                (fun f => { f with bytes := f.bytes ++ bytes, modifiedAt := nowMs })
                (fun _ => rfl) } := by
  simp only [append, bind_eq_ok, orThrow_eq_ok, Table.modify?_eq_some, pure_eq_ok]
  constructor
  · rintro ⟨_, ⟨f, hf, ho, rfl⟩, rfl⟩
    exact ⟨f, hf, ho, rfl⟩
  · rintro ⟨f, hf, ho, rfl⟩
    exact ⟨_, ⟨f, hf, ho, rfl⟩, rfl⟩

theorem syncAndClose_eq_ok :
    s.syncAndClose id = .ok s' ↔
      ∃ f, s.staging.find? id = some f ∧
        s' = { s with
              staging := s.staging.updateKey id (fun f => { f with isOpen := false })
                (fun _ => rfl) } := by
  simp only [syncAndClose, bind_eq_ok, orThrow_eq_ok, Table.modify?_eq_some, pure_eq_ok]
  constructor
  · rintro ⟨_, ⟨f, hf, -, rfl⟩, rfl⟩
    exact ⟨f, hf, rfl⟩
  · rintro ⟨f, hf, rfl⟩
    exact ⟨_, ⟨f, hf, trivial, rfl⟩, rfl⟩

/-- A promotion either moved closed staging bytes to a free object, or had happened. -/
theorem promote_eq_ok :
    s.promote id = .ok s' ↔
      (s.staging.find? id = none ∧ s.objects.contains id = true ∧ s' = s) ∨
        ∃ f, s.staging.find? id = some f ∧ f.isOpen = false ∧
          ∃ h : s.objects.find? id = none,
            s' = { s.removeStaging id with objects := s.objects.insert ⟨id, f.bytes⟩ h } := by
  unfold promote
  cases hf : s.staging.find? id with
  | none =>
    by_cases ho : s.objects.contains id = true
    · simp only [ho, if_true, Except.ok.injEq, true_and, reduceCtorEq, false_and, exists_false,
        or_false]
      exact eq_comm
    · simp [ho]
  | some f =>
    simp only [bind_eq_ok, guardThat_eq_ok, orThrow_eq_ok, Table.insert?_eq_some, pure_eq_ok,
      reduceCtorEq, false_and, false_or, Option.some.injEq]
    constructor
    · rintro ⟨-, ho, _, ⟨h, rfl⟩, rfl⟩
      exact ⟨f, rfl, ho, h, rfl⟩
    · rintro ⟨_, rfl, ho, h, rfl⟩
      exact ⟨(), ho, _, ⟨h, rfl⟩, rfl⟩

theorem find?_removeStaging :
    (s.removeStaging id).staging.find? id' = if id' = id then none else s.staging.find? id' := by
  rw [removeStaging, Table.find?_delete]
  cases h : s.staging.find? id' with
  | none => simp
  | some f =>
    have hk : f.id = id' := Table.key_of_find? h
    by_cases he : id' = id <;> simp [Option.filter, hk, he]

@[simp] theorem objects_removeStaging : (s.removeStaging id).objects = s.objects := rfl

@[simp] theorem staging_remove : (s.remove id).staging = (s.removeStaging id).staging := rfl

theorem find?_remove :
    (s.remove id).objects.find? id' = if id' = id then none else s.objects.find? id' := by
  rw [remove, Table.find?_delete]
  cases h : s.objects.find? id' with
  | none => simp
  | some f =>
    have hk : f.id = id' := Table.key_of_find? h
    by_cases he : id' = id <;> simp [Option.filter, hk, he]

omit [DecidableEq κ] in
@[simp] theorem objects_reopen : s.reopen.objects = s.objects := rfl

theorem find?_reopen :
    s.reopen.staging.find? id = (s.staging.find? id).map fun f => { f with isOpen := false } := by
  rw [reopen, Table.find?_update]
  simp

theorem contains_removeStaging :
    (s.removeStaging id).staging.contains id' = (decide (id' ≠ id) && s.staging.contains id') := by
  rw [Table.contains, find?_removeStaging, Table.contains]
  by_cases he : id' = id <;> simp [he]

theorem mem_removeStaging {f : StagingFile κ} :
    f ∈ (s.removeStaging id).staging ↔ f ∈ s.staging ∧ f.id ≠ id := by
  rw [removeStaging, Table.mem_delete, decide_eq_false_iff_not]

theorem contains_remove :
    (s.remove id).objects.contains id' = (decide (id' ≠ id) && s.objects.contains id') := by
  rw [Table.contains, find?_remove, Table.contains]
  by_cases he : id' = id <;> simp [he]

theorem contains_reopen : s.reopen.staging.contains id = s.staging.contains id := by
  rw [Table.contains, find?_reopen, Option.isSome_map, Table.contains]

theorem append_open {f : StagingFile κ} (nowMs : Int) (bytes : Bytes)
    (hf : s.staging.find? id = some f) (hopen : f.isOpen = true) :
    ∃ s', s.append nowMs id bytes = .ok s' ∧
      s'.staging.find? id = some { f with bytes := f.bytes ++ bytes, modifiedAt := nowMs } := by
  refine ⟨_, append_eq_ok.mpr ⟨f, hf, hopen, rfl⟩, ?_⟩
  dsimp only
  rw [Table.find?_updateKey_self hf]

theorem syncAndClose_there {f : StagingFile κ} (hf : s.staging.find? id = some f) :
    ∃ s', s.syncAndClose id = .ok s' ∧
      s'.staging.find? id = some { f with isOpen := false } := by
  refine ⟨_, syncAndClose_eq_ok.mpr ⟨f, hf, rfl⟩, ?_⟩
  dsimp only
  rw [Table.find?_updateKey_self hf]

/-! ## What is left alone -/

/-- Presence and bytes under `id`, staging and final, are the same in both. -/
def SameObjects (s s' : ObjectStore κ) (id : κ) : Prop :=
  s'.staging.find? id = s.staging.find? id ∧ s'.objects.find? id = s.objects.find? id

instance (s s' : ObjectStore κ) (id : κ) : Decidable (SameObjects s s' id) :=
  inferInstanceAs (Decidable (_ ∧ _))

theorem SameObjects.trans {s'' : ObjectStore κ} (h : SameObjects s s' id)
    (h' : SameObjects s' s'' id) : SameObjects s s'' id :=
  ⟨h'.1.trans h.1, h'.2.trans h.2⟩

theorem SameObjects.contains (h : SameObjects s s' id) :
    s'.staging.contains id = s.staging.contains id ∧
      s'.objects.contains id = s.objects.contains id :=
  ⟨congrArg Option.isSome h.1, congrArg Option.isSome h.2⟩

theorem SameObjects.refl (s : ObjectStore κ) (id : κ) : SameObjects s s id := ⟨rfl, rfl⟩

theorem sameObjects_createStaging (h : s.createStaging nowMs id = .ok s') (hne : id' ≠ id) :
    SameObjects s s' id' := by
  obtain ⟨hf, rfl⟩ := createStaging_eq_ok.mp h
  exact ⟨Table.find?_insert_ne (h := hf) (Ne.symm hne), rfl⟩

theorem sameObjects_append (h : s.append nowMs id bytes = .ok s') (hne : id' ≠ id) :
    SameObjects s s' id' := by
  obtain ⟨f, -, -, rfl⟩ := append_eq_ok.mp h
  exact ⟨by dsimp only; rw [Table.find?_updateKey_ne (Ne.symm hne)], rfl⟩

theorem sameObjects_syncAndClose (h : s.syncAndClose id = .ok s') (hne : id' ≠ id) :
    SameObjects s s' id' := by
  obtain ⟨f, -, rfl⟩ := syncAndClose_eq_ok.mp h
  exact ⟨by dsimp only; rw [Table.find?_updateKey_ne (Ne.symm hne)], rfl⟩

theorem sameObjects_removeStaging (hne : id' ≠ id) : SameObjects s (s.removeStaging id) id' :=
  ⟨find?_removeStaging.trans (if_neg hne), rfl⟩

theorem sameObjects_remove (hne : id' ≠ id) : SameObjects s (s.remove id) id' :=
  ⟨find?_removeStaging.trans (if_neg hne), find?_remove.trans (if_neg hne)⟩

theorem sameObjects_promote (h : s.promote id = .ok s') (hne : id' ≠ id) :
    SameObjects s s' id' := by
  rcases promote_eq_ok.mp h with ⟨-, -, rfl⟩ | ⟨f, -, -, ho, rfl⟩
  · exact .refl s' id'
  · exact ⟨find?_removeStaging.trans (if_neg hne),
      Table.find?_insert_ne (h := ho) (Ne.symm hne)⟩

/-- A staging file that is not there is not removed. -/
theorem sameObjects_removeStaging_absent (h : ¬ s.staging.contains id = true) :
    SameObjects s (s.removeStaging id) id' := by
  refine ⟨?_, rfl⟩
  rw [find?_removeStaging]
  by_cases he : id' = id
  · rw [if_pos he, he, Table.contains_eq_false.mp (Bool.eq_false_iff.mpr h)]
  · rw [if_neg he]

/-- A staging file that is not there is not promoted. -/
theorem promote_absent (h : ¬ s.staging.contains id = true) (hp : s.promote id = .ok s') :
    s' = s := by
  rcases promote_eq_ok.mp hp with ⟨-, -, rfl⟩ | ⟨f, hf, -⟩
  · rfl
  · exact absurd (Table.contains_of_find? hf) h

/-- A staging file that is created and removed again leaves no trace. -/
theorem sameObjects_created_removed (h : s.createStaging nowMs id = .ok s') :
    SameObjects s (s'.removeStaging id) id' := by
  obtain ⟨hf, rfl⟩ := createStaging_eq_ok.mp h
  refine ⟨?_, rfl⟩
  rw [find?_removeStaging]
  by_cases he : id' = id
  · rw [if_pos he, he, hf]
  · rw [if_neg he, Table.find?_insert_ne (Ne.symm he)]

end ObjectStore

end DumpLedger
