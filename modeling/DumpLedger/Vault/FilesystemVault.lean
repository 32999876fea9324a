import DumpLedger.Lib.FileSystem
import DumpLedger.Vault.Contract

/-!
# The filesystem vault, file by file

A staging object is a file `<id>.part`, an immutable object a file in a directory of its own,
and `promote` renames the one onto the other. The process keeps a descriptor for every staging
file that is open for writing, and one for every reader.

The file system has no faults. The directory of an object is there as long as its file is.
-/

namespace DumpLedger

open Lib

/-- A path below the root, by its segments. -/
abbrev VaultPath := List String

def stagingPath : ObjectId → VaultPath
  | .dump dumpId => ["staging", dumpId.text ++ ".part"]
  | .symbol artifactId => ["symbols-staging", artifactId.text ++ ".part"]

def objectPath : ObjectId → VaultPath
  | .dump dumpId => ["vault", dumpId.text, "original.dmp"]
  | .symbol artifactId => ["symbols", artifactId.text, "artifact.bin"]

theorem stagingPath_inj {id id' : ObjectId} : stagingPath id = stagingPath id' ↔ id = id' := by
  constructor
  · intro h
    cases id <;> cases id' <;> simp only [stagingPath, List.cons.injEq, and_true, true_and] at h
    · rw [Identifier.text_injective (String.append_left_inj _ |>.mp h)]
    · exact absurd h.1 (by decide)
    · exact absurd h.1 (by decide)
    · rw [Identifier.text_injective (String.append_left_inj _ |>.mp h)]
  · exact congrArg stagingPath

theorem objectPath_inj {id id' : ObjectId} : objectPath id = objectPath id' ↔ id = id' := by
  constructor
  · intro h
    cases id <;> cases id' <;> simp only [objectPath, List.cons.injEq, and_true, true_and] at h
    · rw [Identifier.text_injective h]
    · exact absurd h.1 (by decide)
    · exact absurd h.1 (by decide)
    · rw [Identifier.text_injective h]
  · exact congrArg objectPath

/-- The paths of staging files and of objects differ in length. -/
theorem stagingPath_ne_objectPath (id id' : ObjectId) : stagingPath id ≠ objectPath id' := by
  intro h
  have hlength := congrArg List.length h
  cases id <;> cases id' <;> cases hlength

/-- A reader's descriptor. -/
structure FileReader where
  kind : ReaderKind
  inode : Nat
  closed : Bool

structure FilesystemVault where
  files : FileSystem VaultPath
  /-- `openStaging` and `openSymbolStaging`. -/
  openStaging : ObjectId → Option Nat
  readers : List FileReader

namespace FilesystemVault

def empty : FilesystemVault := ⟨.empty, fun _ => none, []⟩

/-! ## One namespace -/

section Namespace

variable (v : FilesystemVault) (id : ObjectId)

/-- `existsSync`. -/
def exists? (path : VaultPath) : Bool := (v.files.links path).isSome

def presence : VaultPresence := ⟨v.exists? (stagingPath id), v.exists? (objectPath id)⟩

/-- `open(..., O_CREAT | O_EXCL)`. -/
def createIn : Except Thrown FilesystemVault := do
  guardThat (v.exists? (stagingPath id) = false) ioError
  return { v with
    files := v.files.create (stagingPath id)
    openStaging := Function.update v.openStaging id (some v.files.next) }

def appendIn (bytes : Bytes) (notOpen : String) : Except Thrown FilesystemVault := do
  let descriptor ← orThrow (v.openStaging id) (invalidTransition notOpen)
  return { v with files := v.files.write descriptor bytes }

def closeStaging : FilesystemVault :=
  { v with openStaging := Function.update v.openStaging id none }

def syncAndCloseIn (missing : String) : Except Thrown FilesystemVault :=
  match v.openStaging id with
  | none =>
    if v.exists? (stagingPath id) = true then .ok v
    else .error (.ledgerError .storageUnavailable missing)
  | some _ => .ok (v.closeStaging id)

def promoteIn (missing notSealed both : String) : Except Thrown FilesystemVault := do
  guardThat (v.openStaging id = none) (invalidTransition notSealed)
  if v.exists? (stagingPath id) = false then
    if v.exists? (objectPath id) = true then .ok v
    else .error (.ledgerError .storageUnavailable missing)
  else do
    guardThat (v.exists? (objectPath id) = false) (integrityFailure both)
    return { v with files := v.files.rename (stagingPath id) (objectPath id) }

def removeStagingIn : FilesystemVault :=
  { v.closeStaging id with files := v.files.unlink (stagingPath id) }

def removeIn : FilesystemVault :=
  { v.removeStagingIn id with
    files := (v.removeStagingIn id).files.unlink (objectPath id) }

end Namespace

/-! ## Readers -/

/-- A new reader with a descriptor of its own. -/
def openReader (v : FilesystemVault) (kind : ReaderKind) (inode : Nat) :
    VaultAnswer × FilesystemVault :=
  (.reader v.readers.length (v.files.data inode).length,
    { v with readers := v.readers ++ [⟨kind, inode, false⟩] })

/-- `pread` of at most `length` bytes. -/
def readFile (v : FilesystemVault) (r : FileReader) (position length : Int) :
    Except Thrown Bytes := do
  guardThat (r.closed = false) (invalidTransition r.kind.closedMessage)
  guardThat (0 ≤ position ∧ position ≤ maxSafeInteger ∧ 0 ≤ length)
    (.rangeError r.kind.rangeMessage)
  return window (v.files.data r.inode) position.toNat length.toNat

/-! ## The calls -/

section Methods

variable (v : FilesystemVault) (dumpId : DumpId) (artifactId : SymbolArtifactId) (bytes : Bytes)

def createStaging : Except Thrown FilesystemVault := v.createIn (.dump dumpId)

def append : Except Thrown FilesystemVault :=
  v.appendIn (.dump dumpId) bytes "staging object is not open"

def syncAndClose : Except Thrown FilesystemVault :=
  v.syncAndCloseIn (.dump dumpId) "staging object is missing"

def promote : Except Thrown FilesystemVault :=
  v.promoteIn (.dump dumpId) "staging object is missing" "staging object is not sealed"
    "staging and vault objects both exist"

/-- The directory of an object that is not there cannot be looked at. -/
def openImmutable : Except Thrown (VaultAnswer × FilesystemVault) := do
  let inode ← orThrow (v.files.links (objectPath (.dump dumpId))) ioError
  return v.openReader .vault inode

def createSymbolStaging : Except Thrown FilesystemVault := v.createIn (.symbol artifactId)

def appendSymbol : Except Thrown FilesystemVault :=
  v.appendIn (.symbol artifactId) bytes "symbol staging object is not open"

def syncAndCloseSymbol : Except Thrown FilesystemVault :=
  v.syncAndCloseIn (.symbol artifactId) "symbol staging object is missing"

def promoteSymbol : Except Thrown FilesystemVault :=
  v.promoteIn (.symbol artifactId) "symbol staging object is missing"
    "symbol staging object is not sealed" "symbol staging and vault objects both exist"

def openSymbolStagingReader : Except Thrown (VaultAnswer × FilesystemVault) := do
  guardThat (v.openStaging (.symbol artifactId) = none)
    (invalidTransition "symbol staging object is not sealed")
  match v.files.links (stagingPath (.symbol artifactId)) with
  | none => return (.missing, v)
  | some inode => return v.openReader .symbolStaging inode

def openSymbol : VaultAnswer × FilesystemVault :=
  match v.files.links (objectPath (.symbol artifactId)) with
  | none => (.missing, v)
  | some inode => v.openReader .symbol inode

def read (reader : Nat) (position length : Int) : Except Thrown Bytes := do
  let r ← orThrow v.readers[reader]? ioError
  v.readFile r position length

def close (reader : Nat) : FilesystemVault :=
  { v with readers := v.readers.modify reader fun r => { r with closed := true } }

end Methods

def step (v : FilesystemVault) : VaultCall → Except Thrown (VaultAnswer × FilesystemVault)
  | .createStaging dumpId => (VaultAnswer.done, ·) <$> v.createStaging dumpId
  | .append dumpId bytes => (VaultAnswer.done, ·) <$> v.append dumpId bytes
  | .syncAndClose dumpId => (VaultAnswer.done, ·) <$> v.syncAndClose dumpId
  | .promote dumpId => (VaultAnswer.done, ·) <$> v.promote dumpId
  | .openImmutable dumpId => v.openImmutable dumpId
  | .removeStaging dumpId => .ok (.done, v.removeStagingIn (.dump dumpId))
  | .remove dumpId => .ok (.done, v.removeIn (.dump dumpId))
  | .inspectPresence dumpId => .ok (.presence (v.presence (.dump dumpId)), v)
  | .createSymbolStaging artifactId => (VaultAnswer.done, ·) <$> v.createSymbolStaging artifactId
  | .appendSymbol artifactId bytes => (VaultAnswer.done, ·) <$> v.appendSymbol artifactId bytes
  | .syncAndCloseSymbol artifactId => (VaultAnswer.done, ·) <$> v.syncAndCloseSymbol artifactId
  | .openSymbolStagingReader artifactId => v.openSymbolStagingReader artifactId
  | .promoteSymbol artifactId => (VaultAnswer.done, ·) <$> v.promoteSymbol artifactId
  | .openSymbol artifactId => .ok (v.openSymbol artifactId)
  | .removeSymbolStaging artifactId => .ok (.done, v.removeStagingIn (.symbol artifactId))
  | .removeSymbol artifactId => .ok (.done, v.removeIn (.symbol artifactId))
  | .symbolPresence artifactId => .ok (.presence (v.presence (.symbol artifactId)), v)
  | .read reader position length => (.bytes ·, v) <$> v.read reader position length
  | .close reader => .ok (.done, v.close reader)

end FilesystemVault

end DumpLedger
