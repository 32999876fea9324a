import DumpLedger.Domain.Errors
import DumpLedger.Domain.Ids
import DumpLedger.Lib.ByteWindow
import DumpLedger.Lib.Run
import DumpLedger.Vault.ObjectStore

/-!
# The calls of a vault

What a caller can ask of `Vault` and `SymbolVault`, and of the readers they open. Dumps and
symbol artifacts have separate namespaces; `ObjectId` is a name in either.

A reader is named by its number, in the order in which the readers were opened.
-/

namespace DumpLedger

open Lib

inductive ObjectId
  | dump (dumpId : DumpId)
  | symbol (artifactId : SymbolArtifactId)
  deriving DecidableEq

inductive VaultCall
  | createStaging (dumpId : DumpId)
  | append (dumpId : DumpId) (bytes : Bytes)
  | syncAndClose (dumpId : DumpId)
  | promote (dumpId : DumpId)
  | openImmutable (dumpId : DumpId)
  | removeStaging (dumpId : DumpId)
  | remove (dumpId : DumpId)
  | inspectPresence (dumpId : DumpId)
  | createSymbolStaging (artifactId : SymbolArtifactId)
  | appendSymbol (artifactId : SymbolArtifactId) (bytes : Bytes)
  | syncAndCloseSymbol (artifactId : SymbolArtifactId)
  | openSymbolStagingReader (artifactId : SymbolArtifactId)
  | promoteSymbol (artifactId : SymbolArtifactId)
  | openSymbol (artifactId : SymbolArtifactId)
  | removeSymbolStaging (artifactId : SymbolArtifactId)
  | removeSymbol (artifactId : SymbolArtifactId)
  | symbolPresence (artifactId : SymbolArtifactId)
  /-- `read` of a reader. -/
  | read (reader : Nat) (position length : Int)
  /-- `close` of a reader. -/
  | close (reader : Nat)

inductive VaultAnswer
  | done
  | presence (presence : VaultPresence)
  | reader (reader size : Nat)
  /-- `undefined`. -/
  | missing
  | bytes (bytes : Bytes)
  deriving DecidableEq

/-- What a reader was opened on. -/
inductive ReaderKind
  | vault
  | symbol
  | symbolStaging
  deriving DecidableEq, Repr

namespace ReaderKind

def closedMessage : ReaderKind → String
  | vault => "vault reader is closed"
  | symbol => "symbol reader is closed"
  | symbolStaging => "symbol staging reader is closed"

def rangeMessage : ReaderKind → String
  | vault => "invalid vault read range"
  | symbol | symbolStaging => "invalid symbol read range"

end ReaderKind

/-! ## Running calls -/

section Calls

variable {σ : Type} (step : σ → VaultCall → Except Thrown (VaultAnswer × σ))

/-- The answer to a call; `none` when it throws. -/
def answerOf (s : σ) (call : VaultCall) : Option VaultAnswer :=
  match step s call with
  | .ok (answer, _) => some answer
  | .error _ => none

/-- The vault after a call. -/
def afterCall (s : σ) (call : VaultCall) : σ :=
  match step s call with
  | .ok (_, s') => s'
  | .error _ => s

end Calls

/-! ## Succeeding and failing together -/

/-- Both results are there and related, or both are errors. -/
inductive Together {α β : Type} (R : α → β → Prop) : Except Thrown α → Except Thrown β → Prop
  | ok {a : α} {b : β} (h : R a b) : Together R (.ok a) (.ok b)
  | error (e e' : Thrown) : Together R (.error e) (.error e')

theorem Together.mono {α β : Type} {R S : α → β → Prop} {x : Except Thrown α}
    {y : Except Thrown β} (hRS : ∀ a b, R a b → S a b) (h : Together R x y) : Together S x y := by
  cases h with
  | ok h => exact .ok (hRS _ _ h)
  | error e e' => exact .error e e'

theorem Together.map {α β α' β' : Type} {R : α → β → Prop} {S : α' → β' → Prop}
    {f : α → α'} {g : β → β'} {x : Except Thrown α} {y : Except Thrown β}
    (hstep : ∀ a b, R a b → S (f a) (g b)) (h : Together R x y) :
    Together S (f <$> x) (g <$> y) := by
  cases h with
  | ok h => exact .ok (hstep _ _ h)
  | error e e' => exact .error e e'

theorem Together.of_map {α β α' β' : Type} {S : α' → β' → Prop} {f : α → α'} {g : β → β'}
    {x : Except Thrown α} {y : Except Thrown β} (h : Together S (f <$> x) (g <$> y)) :
    Together (fun a b => S (f a) (g b)) x y := by
  cases x <;> cases y <;> cases h
  · exact .error _ _
  · next h => exact .ok h

end DumpLedger
