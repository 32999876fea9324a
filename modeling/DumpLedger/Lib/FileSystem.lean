import Mathlib

/-!
# A file system

Paths link to inodes, and inodes hold bytes. A descriptor names an inode, so it goes on reading
and writing the same bytes when the path is renamed or removed.

* `Sound` — every link names an inode that was made, and no inode has two paths
* the operations keep it, and `content_*` say what each does to the bytes under a path
-/

namespace DumpLedger.Lib

structure FileSystem (π : Type) where
  links : π → Option Nat
  data : Nat → List UInt8
  next : Nat

namespace FileSystem

variable {π : Type} [DecidableEq π]

def empty : FileSystem π where
  links _ := none
  data _ := []
  next := 0

/-- The bytes under a path. -/
def content (fs : FileSystem π) (path : π) : Option (List UInt8) := (fs.links path).map fs.data

/-- `open(path, O_CREAT | O_EXCL)` of a path that is free; the new file is empty. -/
def create (fs : FileSystem π) (path : π) : FileSystem π where
  links := Function.update fs.links path (some fs.next)
  data := Function.update fs.data fs.next []
  next := fs.next + 1

/-- `write`, at the end of the file. -/
def write (fs : FileSystem π) (inode : Nat) (bytes : List UInt8) : FileSystem π :=
  { fs with data := Function.update fs.data inode (fs.data inode ++ bytes) }

def unlink (fs : FileSystem π) (path : π) : FileSystem π :=
  { fs with links := Function.update fs.links path none }

def rename (fs : FileSystem π) (source target : π) : FileSystem π :=
  { fs with
    links := Function.update (Function.update fs.links source none) target (fs.links source) }

/-- Every link names an inode that was made, and no inode has two paths. -/
structure Sound (fs : FileSystem π) : Prop where
  made : ∀ path inode, fs.links path = some inode → inode < fs.next
  single : ∀ path path' inode, fs.links path = some inode → fs.links path' = some inode →
    path = path'

section Operations

variable {fs : FileSystem π} {path path' : π}

omit [DecidableEq π] in
theorem sound_empty : (empty : FileSystem π).Sound where
  made _ _ h := by cases h
  single _ _ _ h := by cases h

theorem links_create :
    (fs.create path).links path' = if path' = path then some fs.next else fs.links path' :=
  Function.update_apply ..

/-- The data of the inodes there are is left alone. -/
theorem data_create {inode : Nat} (h : inode < fs.next) :
    (fs.create path).data inode = fs.data inode :=
  Function.update_of_ne (Nat.ne_of_lt h) ..

theorem data_create_next : (fs.create path).data fs.next = [] := Function.update_self ..

theorem Sound.create (h : fs.Sound) : (fs.create path).Sound := by
  constructor
  · intro p inode hp
    rw [links_create] at hp
    show inode < fs.next + 1
    split at hp
    · cases hp
      exact Nat.lt_succ_self _
    · exact (h.made p inode hp).trans (Nat.lt_succ_self _)
  · intro p p' inode hp hp'
    rw [links_create] at hp hp'
    split at hp <;> split at hp'
    · next he he' => rw [he, he']
    · cases hp
      exact absurd (h.made p' _ hp') (Nat.lt_irrefl _)
    · cases hp'
      exact absurd (h.made p _ hp) (Nat.lt_irrefl _)
    · exact h.single p p' inode hp hp'

theorem content_create (h : fs.Sound) (hne : path' ≠ path) :
    (fs.create path).content path' = fs.content path' := by
  unfold content
  rw [links_create, if_neg hne]
  cases hlink : fs.links path' with
  | none => rfl
  | some inode =>
    rw [Option.map_some, Option.map_some, data_create (h.made path' inode hlink)]

omit [DecidableEq π] in
theorem Sound.write (h : fs.Sound) {inode : Nat} {bytes : List UInt8} :
    (fs.write inode bytes).Sound :=
  ⟨h.made, h.single⟩

omit [DecidableEq π] in
theorem data_write {inode inode' : Nat} {bytes : List UInt8} (hne : inode' ≠ inode) :
    (fs.write inode bytes).data inode' = fs.data inode' :=
  Function.update_of_ne hne ..

omit [DecidableEq π] in
theorem data_write_self {inode : Nat} {bytes : List UInt8} :
    (fs.write inode bytes).data inode = fs.data inode ++ bytes :=
  Function.update_self ..

omit [DecidableEq π] in
/-- A write is seen under one path only. -/
theorem content_write (h : fs.Sound) {inode : Nat} {bytes : List UInt8}
    (hpath : fs.links path = some inode) (hne : path' ≠ path) :
    (fs.write inode bytes).content path' = fs.content path' := by
  show (fs.links path').map _ = (fs.links path').map _
  cases hlink : fs.links path' with
  | none => rfl
  | some inode' =>
    have hother : inode' ≠ inode := by
      rintro rfl
      exact hne (h.single path' path _ hlink hpath)
    rw [Option.map_some, Option.map_some, data_write hother]

theorem links_unlink :
    (fs.unlink path).links path' = if path' = path then none else fs.links path' :=
  Function.update_apply ..

theorem Sound.unlink (h : fs.Sound) : (fs.unlink path).Sound := by
  constructor
  · intro p inode hp
    rw [links_unlink] at hp
    split at hp
    · cases hp
    · exact h.made p inode hp
  · intro p p' inode hp hp'
    rw [links_unlink] at hp hp'
    split at hp
    · cases hp
    · split at hp'
      · cases hp'
      · exact h.single p p' inode hp hp'

theorem content_unlink :
    (fs.unlink path).content path' = if path' = path then none else fs.content path' := by
  unfold content
  rw [links_unlink]
  split <;> rfl

theorem links_rename {source target : π} :
    (fs.rename source target).links path' =
      if path' = target then fs.links source
      else if path' = source then none else fs.links path' := by
  show Function.update (Function.update fs.links source none) target (fs.links source) path' = _
  rw [Function.update_apply, Function.update_apply]

theorem Sound.rename (h : fs.Sound) {source target : π} :
    (fs.rename source target).Sound := by
  have hback : ∀ p inode, (fs.rename source target).links p = some inode →
      (p = target ∧ fs.links source = some inode) ∨
        (p ≠ target ∧ p ≠ source ∧ fs.links p = some inode) := by
    intro p inode hp
    rw [links_rename] at hp
    split at hp
    · next he => exact Or.inl ⟨he, hp⟩
    · next hne =>
      split at hp
      · cases hp
      · next hne' => exact Or.inr ⟨hne, hne', hp⟩
  constructor
  · intro p inode hp
    rcases hback p inode hp with ⟨-, hsource⟩ | ⟨-, -, hp⟩
    · exact h.made source inode hsource
    · exact h.made p inode hp
  · intro p p' inode hp hp'
    rcases hback p inode hp with ⟨rfl, hsource⟩ | ⟨-, hne, hp⟩
    · rcases hback p' inode hp' with ⟨rfl, -⟩ | ⟨-, hne', hp'⟩
      · rfl
      · exact absurd (h.single p' source inode hp' hsource) hne'
    · rcases hback p' inode hp' with ⟨-, hsource⟩ | ⟨-, -, hp'⟩
      · exact absurd (h.single p source inode hp hsource) hne
      · exact h.single p p' inode hp hp'

theorem content_rename {source target : π} :
    (fs.rename source target).content path' =
      if path' = target then fs.content source
      else if path' = source then none else fs.content path' := by
  unfold content
  rw [links_rename]
  split
  · rfl
  · split <;> rfl

end Operations

end FileSystem

end DumpLedger.Lib
