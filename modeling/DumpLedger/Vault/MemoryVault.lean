import DumpLedger.Vault.Contract

/-!
# The in-memory vault

Staging objects are lists of chunks, immutable objects are byte arrays, and a reader holds a
snapshot. Tests and the model-based harness run against this vault.
-/

namespace DumpLedger

open Lib

structure StagingObject where
  chunks : List Bytes
  isOpen : Bool
  deriving DecidableEq

structure MemoryReader where
  kind : ReaderKind
  snapshot : Bytes
  closed : Bool

namespace MemoryReader

/-- The last position a reader takes; one of a dump does not look at the size. -/
def lastPosition (r : MemoryReader) : Nat :=
  match r.kind with
  | .vault => maxSafeInteger
  | .symbol | .symbolStaging => r.snapshot.length

def inRange (r : MemoryReader) (position length : Int) : Prop :=
  0 ≤ position ∧ 0 ≤ length ∧ position ≤ r.lastPosition

instance instDecidableInRange (r : MemoryReader) (position length : Int) :
    Decidable (r.inRange position length) :=
  inferInstanceAs (Decidable (_ ∧ _ ∧ _))

def read (r : MemoryReader) (position length : Int) : Except Thrown Bytes := do
  guardThat (r.closed = false) (invalidTransition r.kind.closedMessage)
  guardThat (r.inRange position length) (.rangeError r.kind.rangeMessage)
  return window r.snapshot position.toNat length.toNat

end MemoryReader

structure MemoryVault where
  staging : ObjectId → Option StagingObject
  objects : ObjectId → Option Bytes
  readers : List MemoryReader

namespace MemoryVault

def empty : MemoryVault := ⟨fun _ => none, fun _ => none, []⟩

/-! ## One namespace -/

section Namespace

variable (v : MemoryVault) (id : ObjectId)

def presence : VaultPresence := ⟨(v.staging id).isSome, (v.objects id).isSome⟩

def setStaging (object : Option StagingObject) : MemoryVault :=
  { v with staging := Function.update v.staging id object }

def setObject (bytes : Option Bytes) : MemoryVault :=
  { v with objects := Function.update v.objects id bytes }

def createIn (exists? : String) : Except Thrown MemoryVault := do
  guardThat (v.staging id = none ∧ v.objects id = none) (integrityFailure exists?)
  return v.setStaging id (some ⟨[], true⟩)

def appendIn (bytes : Bytes) (notOpen : String) : Except Thrown MemoryVault :=
  match v.staging id with
  | some staging => do
    guardThat (staging.isOpen = true) (invalidTransition notOpen)
    return v.setStaging id (some { staging with chunks := staging.chunks ++ [bytes] })
  | none => .error (invalidTransition notOpen)

def syncAndCloseIn (missing : String) : Except Thrown MemoryVault := do
  let staging ← orThrow (v.staging id) (.ledgerError .storageUnavailable missing)
  return v.setStaging id (some { staging with isOpen := false })

def promoteIn (missing notSealed both : String) : Except Thrown MemoryVault :=
  match v.staging id with
  | none =>
    if (v.objects id).isSome = true then .ok v
    else .error (.ledgerError .storageUnavailable missing)
  | some staging => do
    guardThat (staging.isOpen = false) (invalidTransition notSealed)
    guardThat (v.objects id = none) (integrityFailure both)
    return (v.setObject id (some staging.chunks.flatten)).setStaging id none

def removeStagingIn : MemoryVault := v.setStaging id none

def removeIn : MemoryVault := (v.setStaging id none).setObject id none

end Namespace

/-! ## Readers -/

/-- A new reader of a snapshot. -/
def openReader (v : MemoryVault) (kind : ReaderKind) (snapshot : Bytes) :
    VaultAnswer × MemoryVault :=
  (.reader v.readers.length snapshot.length,
    { v with readers := v.readers ++ [⟨kind, snapshot, false⟩] })

/-! ## The calls -/

section Methods

variable (v : MemoryVault) (dumpId : DumpId) (artifactId : SymbolArtifactId) (bytes : Bytes)

def createStaging : Except Thrown MemoryVault :=
  v.createIn (.dump dumpId) "dump storage already exists"

def append : Except Thrown MemoryVault :=
  v.appendIn (.dump dumpId) bytes "staging object is not open"

def syncAndClose : Except Thrown MemoryVault :=
  v.syncAndCloseIn (.dump dumpId) "staging object is missing"

def promote : Except Thrown MemoryVault :=
  v.promoteIn (.dump dumpId) "staging object is missing" "staging object is not sealed"
    "staging and vault objects both exist"

def openImmutable : Except Thrown (VaultAnswer × MemoryVault) := do
  let object ← orThrow (v.objects (.dump dumpId))
    (.ledgerError .storageUnavailable "vault object is missing")
  return v.openReader .vault object

def createSymbolStaging : Except Thrown MemoryVault :=
  v.createIn (.symbol artifactId) "symbol storage already exists"

def appendSymbol : Except Thrown MemoryVault :=
  v.appendIn (.symbol artifactId) bytes "symbol staging object is not open"

def syncAndCloseSymbol : Except Thrown MemoryVault :=
  v.syncAndCloseIn (.symbol artifactId) "symbol staging object is missing"

def promoteSymbol : Except Thrown MemoryVault :=
  v.promoteIn (.symbol artifactId) "symbol staging object is missing"
    "symbol staging object is not sealed" "symbol staging and vault objects both exist"

def openSymbolStagingReader : Except Thrown (VaultAnswer × MemoryVault) :=
  match v.staging (.symbol artifactId) with
  | none => .ok (.missing, v)
  | some staging => do
    guardThat (staging.isOpen = false) (invalidTransition "symbol staging object is not sealed")
    return v.openReader .symbolStaging staging.chunks.flatten

def openSymbol : VaultAnswer × MemoryVault :=
  match v.objects (.symbol artifactId) with
  | none => (.missing, v)
  | some object => v.openReader .symbol object

def read (reader : Nat) (position length : Int) : Except Thrown Bytes := do
  let r ← orThrow v.readers[reader]? ioError
  r.read position length

def close (reader : Nat) : MemoryVault :=
  { v with readers := v.readers.modify reader fun r => { r with closed := true } }

end Methods

def step (v : MemoryVault) : VaultCall → Except Thrown (VaultAnswer × MemoryVault)
  | .createStaging dumpId => (VaultAnswer.done, ·) <$> v.createStaging dumpId
  | .append dumpId bytes => (VaultAnswer.done, ·) <$> v.append dumpId bytes
  | .syncAndClose dumpId => (VaultAnswer.done, ·) <$> v.syncAndClose dumpId
  | .promote dumpId => (VaultAnswer.done, ·) <$> v.promote dumpId
  | .openImmutable dumpId => v.openImmutable dumpId
  | .removeStaging dumpId => .ok (.done, v.removeStagingIn (.dump dumpId))
  | .remove dumpId => .ok (.done, v.removeIn (.dump dumpId))
  | .inspectPresence dumpId => .ok (.presence (v.presence (.dump dumpId)), v)
  | .createSymbolStaging artifactId => (VaultAnswer.done, ·) <$> v.createSymbolStaging artifactId
  | .appendSymbol artifactId bytes => (VaultAnswer.done, ·) <$> v.appendSymbol artifactId bytes
  | .syncAndCloseSymbol artifactId => (VaultAnswer.done, ·) <$> v.syncAndCloseSymbol artifactId
  | .openSymbolStagingReader artifactId => v.openSymbolStagingReader artifactId
  | .promoteSymbol artifactId => (VaultAnswer.done, ·) <$> v.promoteSymbol artifactId
  | .openSymbol artifactId => .ok (v.openSymbol artifactId)
  | .removeSymbolStaging artifactId => .ok (.done, v.removeStagingIn (.symbol artifactId))
  | .removeSymbol artifactId => .ok (.done, v.removeIn (.symbol artifactId))
  | .symbolPresence artifactId => .ok (.presence (v.presence (.symbol artifactId)), v)
  | .read reader position length => (.bytes ·, v) <$> v.read reader position length
  | .close reader => .ok (.done, v.close reader)

end MemoryVault

end DumpLedger
