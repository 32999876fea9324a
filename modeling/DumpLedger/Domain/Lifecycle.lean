import DumpLedger.Domain.Errors

/-!
# Closed vocabularies

Every state column holds a word of a closed list. `Vocabulary` pairs the members
with their stored words, and `parseMember` reads a word back.

* `parseMember_eq_ok` — a word parses to a member exactly when it is that member's word
* `text_injective` — no two members share a word
-/

namespace DumpLedger

open Lib

class Vocabulary (α : Type) where
  label : String
  members : List α
  text : α → String
  mem_members : ∀ a, a ∈ members
  texts_nodup : (members.map text).Nodup

namespace Vocabulary

variable {α : Type} [Vocabulary α]

theorem text_injective {a b : α} (h : text a = text b) : a = b :=
  List.inj_on_of_nodup_map texts_nodup (mem_members a) (mem_members b) h

end Vocabulary

open Vocabulary

def parseMember (α : Type) [Vocabulary α] (value : String) : Except Thrown α :=
  orThrow ((members (α := α)).find? fun a => decide (text a = value))
    (.typeError s!"invalid {label α}")

theorem parseMember_eq_ok {α : Type} [Vocabulary α] {value : String} {a : α} :
    parseMember α value = .ok a ↔ text a = value := by
  rw [parseMember, orThrow_eq_ok]
  constructor
  · intro h
    simpa using List.find?_some h
  · rintro rfl
    cases h : (members (α := α)).find? fun b => decide (text b = text a) with
    | none => exact absurd (List.find?_eq_none.mp h a (mem_members a)) (by simp)
    | some b => rw [text_injective (by simpa using List.find?_some h : text b = text a)]

@[simp] theorem parseMember_text {α : Type} [Vocabulary α] (a : α) :
    parseMember α (text a) = .ok a :=
  parseMember_eq_ok.mpr rfl

/-! ## The vocabularies -/

inductive TokenState
  | issued | consumed | revoked | expired
  deriving DecidableEq, Repr

instance : Vocabulary TokenState where
  label := "token state"
  members := [.issued, .consumed, .revoked, .expired]
  text
    | .issued => "issued"
    | .consumed => "consumed"
    | .revoked => "revoked"
    | .expired => "expired"
  mem_members a := by cases a <;> decide
  texts_nodup := by decide

inductive DumpPhase
  | receiving | sealed | quarantined | available | rejected | deleting | deleted
  deriving DecidableEq, Repr

instance : Vocabulary DumpPhase where
  label := "dump phase"
  members := [.receiving, .sealed, .quarantined, .available, .rejected, .deleting, .deleted]
  text
    | .receiving => "receiving"
    | .sealed => "sealed"
    | .quarantined => "quarantined"
    | .available => "available"
    | .rejected => "rejected"
    | .deleting => "deleting"
    | .deleted => "deleted"
  mem_members a := by cases a <;> decide
  texts_nodup := by decide

inductive BlobState
  | staging | vault | none
  deriving DecidableEq, Repr

instance : Vocabulary BlobState where
  label := "blob state"
  members := [.staging, .vault, .none]
  text
    | .staging => "staging"
    | .vault => "vault"
    | .none => "none"
  mem_members a := by cases a <;> decide
  texts_nodup := by decide

inductive ValidationState
  | notChecked | valid | invalid | transferFailed
  deriving DecidableEq, Repr

instance : Vocabulary ValidationState where
  label := "validation state"
  members := [.notChecked, .valid, .invalid, .transferFailed]
  text
    | .notChecked => "not-checked"
    | .valid => "valid"
    | .invalid => "invalid"
    | .transferFailed => "transfer-failed"
  mem_members a := by cases a <;> decide
  texts_nodup := by decide

inductive CoverageKind
  | partialMemory | fullMemoryDeclared | unknown
  deriving DecidableEq, Repr

instance : Vocabulary CoverageKind where
  label := "coverage kind"
  members := [.partialMemory, .fullMemoryDeclared, .unknown]
  text
    | .partialMemory => "partial"
    | .fullMemoryDeclared => "full-memory-declared"
    | .unknown => "unknown"
  mem_members a := by cases a <;> decide
  texts_nodup := by decide

inductive CaseStatus
  | new | investigating | waitingForCustomer | resolved | closed
  deriving DecidableEq, Repr

instance : Vocabulary CaseStatus where
  label := "case status"
  members := [.new, .investigating, .waitingForCustomer, .resolved, .closed]
  text
    | .new => "new"
    | .investigating => "investigating"
    | .waitingForCustomer => "waiting-for-customer"
    | .resolved => "resolved"
    | .closed => "closed"
  mem_members a := by cases a <;> decide
  texts_nodup := by decide

/-- `pdb` artifacts resolve by their debug identity, `exe` artifacts by their code identity. -/
inductive SymbolArtifactKind
  | pdb | exe
  deriving DecidableEq, Repr

instance : Vocabulary SymbolArtifactKind where
  label := "symbol artifact kind"
  members := [.pdb, .exe]
  text
    | .pdb => "pdb"
    | .exe => "exe"
  mem_members a := by cases a <;> decide
  texts_nodup := by decide

inductive SymbolIngestAuthChannel
  | token | operator
  deriving DecidableEq, Repr

instance : Vocabulary SymbolIngestAuthChannel where
  label := "symbol ingest auth channel"
  members := [.token, .operator]
  text
    | .token => "token"
    | .operator => "operator"
  mem_members a := by cases a <;> decide
  texts_nodup := by decide

inductive AnalysisOutcome
  | completed | failed
  deriving DecidableEq, Repr

instance : Vocabulary AnalysisOutcome where
  label := "analysis outcome"
  members := [.completed, .failed]
  text
    | .completed => "completed"
    | .failed => "failed"
  mem_members a := by cases a <;> decide
  texts_nodup := by decide

/-! ## The parsers -/

def parseTokenState : String → Except Thrown TokenState := parseMember TokenState

def parseDumpPhase : String → Except Thrown DumpPhase := parseMember DumpPhase

def parseBlobState : String → Except Thrown BlobState := parseMember BlobState

def parseValidationState : String → Except Thrown ValidationState := parseMember ValidationState

def parseCaseStatus : String → Except Thrown CaseStatus := parseMember CaseStatus

def parseSymbolArtifactKind : String → Except Thrown SymbolArtifactKind :=
  parseMember SymbolArtifactKind

def parseSymbolIngestAuthChannel : String → Except Thrown SymbolIngestAuthChannel :=
  parseMember SymbolIngestAuthChannel

/-- Coverage has a guard instead of a parser: the callers throw their own error. -/
def isCoverageKind (value : String) : Option CoverageKind :=
  (members (α := CoverageKind)).find? fun a => decide (text a = value)

@[simp] theorem isCoverageKind_text (c : CoverageKind) : isCoverageKind (text c) = some c := by
  cases c <;> decide

end DumpLedger
