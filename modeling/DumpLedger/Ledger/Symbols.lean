import DumpLedger.Ledger.Lifecycle

/-!
# The symbol store of the ledger

A `modules` row holds an identity pair, a `symbol_artifacts` row one artifact of one
kind for a module. The identity a `pdb` artifact resolves by is the debug pair of its
module, that of an `exe` artifact the code pair.

The module key is `moduleIdFor` of the pair: the first 128 bits of a SHA-256 in
Crockford base 32. It does not depend on the kind.
-/

namespace DumpLedger

open Lib Vocabulary

/-! ## Module identifiers -/

structure SymbolIdentity where
  name : BoundedText 255
  id : BoundedText 64
  deriving DecidableEq

def hexValue (c : Char) : Nat :=
  if c.toNat ≤ '9'.toNat then c.toNat - '0'.toNat else c.toNat - 'a'.toNat + 10

/-- The number the first 32 hexadecimal digits of a digest spell. -/
def Sha256.prefix128 (d : Sha256) : Nat :=
  (d.text.toList.take 32).foldl (fun value c => value * 16 + hexValue c) 0

def crockfordAlphabet : List Char := "0123456789ABCDEFGHJKMNPQRSTVWXYZ".toList

def crockfordDigit (n : Nat) : Char := crockfordAlphabet.getD (n % 32) '0'

/-- `count` base 32 digits, the last one least significant. -/
def crockford : Nat → Nat → List Char
  | 0, _ => []
  | count + 1, value => crockford count (value / 32) ++ [crockfordDigit value]

/-- The text whose hash names a module. -/
def SymbolIdentity.joined (i : SymbolIdentity) : String := i.name.text ++ "\x00" ++ i.id.text

def moduleIdFor (sha256 : Bytes → Sha256) (identity : SymbolIdentity) : String :=
  "module_" ++ String.ofList (crockford 26 (sha256 (utf8Bytes identity.joined)).prefix128)

/-! ## Rows -/

namespace ModuleRow

/-- The pair an artifact of `kind` resolves by. -/
def identity (m : ModuleRow) : SymbolArtifactKind → Option SymbolIdentity
  | .pdb => do return ⟨← m.debugFile, ← m.debugId⟩
  | .exe => do return ⟨← m.codeFile, ← m.codeId⟩

/-- The row `sealSymbolArtifact` inserts: the pair of the other kind is NULL. -/
def ofIdentity (moduleId : String) (kind : SymbolArtifactKind) (identity : SymbolIdentity)
    (product version : Option (BoundedText 200)) (arch : Option (BoundedText 64))
    (createdAt : IsoTimestamp) : ModuleRow where
  moduleId := moduleId
  debugFile := if kind = .pdb then some identity.name else none
  debugId := if kind = .pdb then some identity.id else none
  codeFile := if kind = .exe then some identity.name else none
  codeId := if kind = .exe then some identity.id else none
  product := product
  version := version
  arch := arch
  createdAt := createdAt

theorem identity_ofIdentity {moduleId : String} {kind kind' : SymbolArtifactKind}
    {i : SymbolIdentity} {product version : Option (BoundedText 200)}
    {arch : Option (BoundedText 64)} {createdAt : IsoTimestamp} :
    (ofIdentity moduleId kind i product version arch createdAt).identity kind' =
      if kind' = kind then some i else none := by
  cases kind <;> cases kind' <;> rfl

end ModuleRow

/-- An artifact row joined with its module row. -/
structure StoredSymbolArtifact where
  artifactId : SymbolArtifactId
  kind : SymbolArtifactKind
  debugFile : Option (BoundedText 255)
  debugId : Option (BoundedText 64)
  codeFile : Option (BoundedText 255)
  codeId : Option (BoundedText 64)
  byteSize : ℕ+
  sha256 : Sha256
  product : Option (BoundedText 200)
  version : Option (BoundedText 200)
  arch : Option (BoundedText 64)
  createdAt : IsoTimestamp
  deriving DecidableEq

def StoredSymbolArtifact.ofRows (a : SymbolArtifactRow) (m : ModuleRow) : StoredSymbolArtifact where
  artifactId := a.artifactId
  kind := a.kind
  debugFile := m.debugFile
  debugId := m.debugId
  codeFile := m.codeFile
  codeId := m.codeId
  byteSize := a.byteSize
  sha256 := a.sha256
  product := m.product
  version := m.version
  arch := m.arch
  createdAt := a.createdAt

structure SymbolArtifactInsert where
  artifactId : SymbolArtifactId
  kind : SymbolArtifactKind
  identity : SymbolIdentity
  byteSize : ℕ+
  sha256 : Sha256
  product : Option (BoundedText 200)
  version : Option (BoundedText 200)
  arch : Option (BoundedText 64)
  ingestAuth : Option SymbolIngestAuthChannel

/-- The identity members of a symbol event: the pair the kind resolves by. -/
def identityDetail (kind : SymbolArtifactKind) (identity : SymbolIdentity) : JsonObject :=
  match kind with
  | .pdb => [("debugFile", .str identity.name.text), ("debugId", .str identity.id.text)]
  | .exe => [("codeFile", .str identity.name.text), ("codeId", .str identity.id.text)]

/-- The detail of an `IngestSymbol` event. -/
def ingestDetail (insert : SymbolArtifactInsert) : JsonObject :=
  [("artifactId", .str insert.artifactId.text), ("kind", .str (text insert.kind))] ++
    identityDetail insert.kind insert.identity ++
    [("deduplicated", .bool false),
      ("ingestAuth", match insert.ingestAuth with
        | some channel => .str (text channel)
        | none => .null)]

/-- The detail of a `PurgeSymbol` event. -/
def purgeDetail (artifactId : SymbolArtifactId) (kind : SymbolArtifactKind)
    (identity : SymbolIdentity) : JsonObject :=
  [("artifactId", .str artifactId.text), ("kind", .str (text kind))] ++
    identityDetail kind identity

namespace SqliteLedger

/-! ## Reads -/

/-- The join condition of `findSymbolArtifact`. -/
def resolvesTo (l : SqliteLedger) (a : SymbolArtifactRow) (identity : SymbolIdentity)
    (kind : SymbolArtifactKind) : Prop :=
  a.kind = kind ∧ ∃ m ∈ l.modules.find? a.moduleId, m.identity kind = some identity

instance (l : SqliteLedger) (a : SymbolArtifactRow) (identity : SymbolIdentity)
    (kind : SymbolArtifactKind) : Decidable (l.resolvesTo a identity kind) :=
  inferInstanceAs (Decidable (_ ∧ ∃ m ∈ l.modules.find? a.moduleId, m.identity kind = _))

def joined (l : SqliteLedger) (a : SymbolArtifactRow) : Option StoredSymbolArtifact :=
  (l.modules.find? a.moduleId).map (StoredSymbolArtifact.ofRows a)

def findSymbolArtifact (l : SqliteLedger) (identity : SymbolIdentity) (kind : SymbolArtifactKind) :
    Option StoredSymbolArtifact :=
  (l.symbolArtifacts.rows.find? fun a => decide (l.resolvesTo a identity kind)).bind l.joined

/-- The pair that an artifact resolves by is this name and this identifier. -/
def storedAt (l : SqliteLedger) (a : SymbolArtifactRow) (name id : String) : Prop :=
  ∃ m ∈ l.modules.find? a.moduleId, ∃ i ∈ m.identity a.kind, i.name.text = name ∧ i.id.text = id

instance instDecidableStoredAt (l : SqliteLedger) (a : SymbolArtifactRow) (name id : String) :
    Decidable (l.storedAt a name id) :=
  inferInstanceAs (Decidable (∃ m ∈ l.modules.find? a.moduleId, ∃ i ∈ m.identity a.kind, _ ∧ _))

/-- The kind is not given: the first artifact of either kind, by artifact identifier. -/
def findSymbolArtifactByStorePath (l : SqliteLedger) (name id : String) :
    Option StoredSymbolArtifact :=
  (l.symbolArtifacts.sorted.find? fun a => decide (l.storedAt a name id)).bind l.joined

def findSymbolArtifactById (l : SqliteLedger) (artifactId : SymbolArtifactId) :
    Option StoredSymbolArtifact :=
  (l.symbolArtifacts.find? artifactId).bind l.joined

/-! ## Writes -/

/-- `INSERT INTO modules ... ON CONFLICT (file, id) DO NOTHING`: a row with the pair is
kept, but a taken `module_id` is still a constraint violation. -/
def insertModule (l : SqliteLedger) (row : ModuleRow) (kind : SymbolArtifactKind)
    (identity : SymbolIdentity) : Except Thrown SqliteLedger :=
  if ∃ m ∈ l.modules.rows, m.identity kind = some identity then .ok l
  else do
    let modules ← orThrow (l.modules.insert? row) sqliteError
    return { l with modules }

def sealSymbolArtifact (sha256 : Bytes → Sha256) (l : SqliteLedger)
    (insert : SymbolArtifactInsert) (event : EventIdentity) :
    Except Thrown ((StoredSymbolArtifact × Bool) × SqliteLedger) :=
  match l.findSymbolArtifact insert.identity insert.kind with
  | some existing => .ok ((existing, true), l)
  | none => do
    let moduleId := moduleIdFor sha256 insert.identity
    let l ← l.insertModule
      (ModuleRow.ofIdentity moduleId insert.kind insert.identity insert.product insert.version
        insert.arch event.occurredAt)
      insert.kind insert.identity
    let l ← l.insertSymbolArtifact
      { artifactId := insert.artifactId, moduleId, kind := insert.kind,
        byteSize := insert.byteSize, sha256 := insert.sha256, createdAt := event.occurredAt }
    let l ← l.insertAudit event .ingestSymbol none none none (ingestDetail insert)
    let artifact ← orThrow
      ((l.findSymbolArtifact insert.identity insert.kind).filter
        fun a => decide (a.artifactId = insert.artifactId))
      (integrityFailure "sealed symbol artifact was not found after insert")
    return ((artifact, false), l)

/-- `artifactIdentityPair` of a stored artifact. -/
def artifactIdentityPair (artifact : StoredSymbolArtifact) : Except Thrown SymbolIdentity :=
  match artifact.kind with
  | .pdb =>
    orThrow (do return ⟨← artifact.debugFile, ← artifact.debugId⟩)
      (integrityFailure "pdb symbol artifact has no debug identity")
  | .exe =>
    orThrow (do return ⟨← artifact.codeFile, ← artifact.codeId⟩)
      (integrityFailure "exe symbol artifact has no code identity")

def purgeSymbolArtifact (sha256 : Bytes → Sha256) (l : SqliteLedger)
    (artifactId : SymbolArtifactId) (event : EventIdentity) : Except Thrown SqliteLedger := do
  let artifact ← orThrow (l.findSymbolArtifactById artifactId)
    (notFound "symbol artifact was not found")
  let identity ← artifactIdentityPair artifact
  let symbolArtifacts := l.symbolArtifacts.delete fun a => decide (a.artifactId = artifactId)
  let moduleId := moduleIdFor sha256 identity
  let modules :=
    if ∃ a ∈ symbolArtifacts.rows, a.moduleId = moduleId then l.modules
    else l.modules.delete fun m => decide (m.moduleId = moduleId)
  { l with symbolArtifacts, modules }.insertAudit event .purgeSymbol none none none
    (purgeDetail artifactId artifact.kind identity)

/-! ## When an operation commits -/

section Committed

variable {l l' : SqliteLedger} {event : EventIdentity} {sha256 : Bytes → Sha256}

theorem insertModule_eq_ok {row : ModuleRow} {kind : SymbolArtifactKind}
    {identity : SymbolIdentity} :
    l.insertModule row kind identity = .ok l' ↔
      ((∃ m ∈ l.modules, m.identity kind = some identity) ∧ l' = l) ∨
        (¬ (∃ m ∈ l.modules, m.identity kind = some identity) ∧
          ∃ hm : l.modules.find? row.moduleId = none,
            l' = { l with modules := l.modules.insert row hm }) := by
  unfold insertModule
  simp only [Table.mem_rows]
  by_cases hex : ∃ m ∈ l.modules, m.identity kind = some identity
  · rw [if_pos hex, Except.ok.injEq]
    exact ⟨fun h => Or.inl ⟨hex, h.symm⟩, fun h => h.elim (fun h => h.2.symm) fun h => absurd hex h.1⟩
  · rw [if_neg hex]
    simp only [bind_eq_ok, orThrow_eq_ok, Table.insert?_eq_some, pure_eq_ok]
    constructor
    · rintro ⟨_, ⟨hm, rfl⟩, rfl⟩
      exact Or.inr ⟨hex, hm, rfl⟩
    · rintro (⟨h, -⟩ | ⟨-, hm, rfl⟩)
      · exact absurd h hex
      · exact ⟨_, ⟨hm, rfl⟩, rfl⟩

theorem sealSymbolArtifact_ok_cases {insert : SymbolArtifactInsert}
    {artifact : StoredSymbolArtifact} {deduplicated : Bool}
    (h : sealSymbolArtifact sha256 l insert event = .ok ((artifact, deduplicated), l')) :
    (l.findSymbolArtifact insert.identity insert.kind = some artifact ∧ deduplicated = true ∧
        l' = l) ∨
      (l.findSymbolArtifact insert.identity insert.kind = none ∧ deduplicated = false ∧
        ∃ l₁ l₂,
          l.insertModule
              (ModuleRow.ofIdentity (moduleIdFor sha256 insert.identity) insert.kind
                insert.identity insert.product insert.version insert.arch event.occurredAt)
              insert.kind insert.identity = .ok l₁ ∧
          l₁.insertSymbolArtifact
              ⟨insert.artifactId, moduleIdFor sha256 insert.identity, insert.kind,
                insert.byteSize, insert.sha256, event.occurredAt⟩ = .ok l₂ ∧
          ∃ he : l₂.auditEvents.find? event.eventId = none,
            l' = l₂.audited
              (auditRow event .ingestSymbol none none none (ingestDetail insert)) he ∧
            l'.findSymbolArtifact insert.identity insert.kind = some artifact ∧
            artifact.artifactId = insert.artifactId) := by
  unfold sealSymbolArtifact at h
  cases hf : l.findSymbolArtifact insert.identity insert.kind with
  | some existing =>
    rw [hf] at h
    cases h
    exact Or.inl ⟨rfl, rfl, rfl⟩
  | none =>
    rw [hf] at h
    simp only [bind_eq_ok, insertAudit_eq_ok, orThrow_eq_ok, Option.filter_eq_some_iff,
      pure_eq_ok, Prod.mk.injEq, decide_eq_true_eq] at h
    obtain ⟨l₁, h₁, l₂, h₂, _, ⟨-, he, rfl⟩, _, ⟨ha, hid⟩, ⟨rfl, rfl⟩, rfl⟩ := h
    exact Or.inr ⟨rfl, rfl, l₁, l₂, h₁, h₂, he, rfl, ha, hid⟩

theorem purgeSymbolArtifact_eq_ok {artifactId : SymbolArtifactId} :
    purgeSymbolArtifact sha256 l artifactId event = .ok l' ↔
      ∃ artifact identity, l.findSymbolArtifactById artifactId = some artifact ∧
        artifactIdentityPair artifact = .ok identity ∧
          ∃ he : l.auditEvents.find? event.eventId = none,
            l' = { l with
                  symbolArtifacts :=
                    l.symbolArtifacts.delete fun a => decide (a.artifactId = artifactId)
                  modules :=
                    if ∃ a ∈ (l.symbolArtifacts.delete
                        fun a => decide (a.artifactId = artifactId)).rows,
                        a.moduleId = moduleIdFor sha256 identity then l.modules
                    else l.modules.delete
                      fun m => decide (m.moduleId = moduleIdFor sha256 identity) }.audited
                  (auditRow event .purgeSymbol none none none
                    (purgeDetail artifactId artifact.kind identity)) he := by
  simp only [purgeSymbolArtifact, bind_eq_ok, orThrow_eq_ok, insertAudit_eq_ok]
  constructor
  · rintro ⟨a, ha, i, hi, -, he, rfl⟩
    exact ⟨a, i, ha, hi, he, rfl⟩
  · rintro ⟨a, i, ha, hi, he, rfl⟩
    exact ⟨a, ha, i, hi, ⟨by simp, by simp, by simp⟩, he, rfl⟩

end Committed

end SqliteLedger

end DumpLedger
