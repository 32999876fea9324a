import DumpLedger.Engine.Execute
import DumpLedger.Http.Contracts.Filename
import DumpLedger.Symbols.Identity

/-!
# The symbol routes

`GET /symbols/<name>/<id>/<file>` is what debuggers ask. It has its own copy of the store path
grammar, and looks an artifact up by the name and the identifier without knowing its kind.

`POST /api/v1/symbols` stores an artifact. Its handler creates a staging file, takes the bytes in as
they arrive, and when they are complete reads the identity from the staged file and seals it.
Between two chunks other requests are served, so the handler is cut into the parts that run in one
go: `beginIngest`, `receiveChunk`, and at the end `stopIngest` or `completeIngest`.

`DELETE /api/v1/symbols/<artifactId>` purges one.
-/

namespace DumpLedger.Symbols

open Lib Vocabulary

/-- The codes that the symbol routes answer with. -/
inductive HttpErrorCode
  | invalidRequest | notFound | symbolKindUnsupported | symbolTooLarge | symbolIdentityUnreadable
  | storageUnavailable | internalError
  deriving DecidableEq, Repr

/-! ## Reading -/

/-- `hasControlCharacter`. -/
def hasControlCharacter (value : Units) : Bool :=
  value.any fun u => decide (u.toNat ≤ 0x1f) || decide (u.toNat = 0x7f)

/-- The grammar of a name, once more. -/
def isBasenameSegment (value : Units) : Bool :=
  if value = [] then false
  else if 255 < (codePoints value).length then false
  else if unitOf '/' ∈ value ∨ unitOf '\\' ∈ value then false
  else if [unitOf '.', unitOf '.'] <:+: value then false
  else if value.head? = some (unitOf '.') ∨ value.getLast? = some (unitOf '.') then false
  else if hasControlCharacter value = true then false
  else true

/-- `64 * 1024`. -/
def readerChunkBytes : Nat := 64 * 1024

/-- The chunks that are sent of an object. -/
def readerStream (bytes : Bytes) (position : Nat) : List Bytes :=
  if _hmore : position < bytes.length then
    let length := min readerChunkBytes (bytes.length - position)
    window bytes position length :: readerStream bytes (position + length)
  else []
termination_by bytes.length - position
decreasing_by
  unfold readerChunkBytes
  omega

structure OpenedArtifact where
  /-- Which artifact was found; it is not sent. -/
  artifactId : SymbolArtifactId
  byteSize : Nat
  stream : List Bytes

/-- `openSymbolArtifact`. -/
def openSymbolArtifact (w : World) (name id : String) : Option OpenedArtifact := do
  let artifact ← w.ledger.findSymbolArtifactByStorePath name id
  let bytes ← w.vaults.symbols.object? artifact.artifactId
  return ⟨artifact.artifactId, bytes.length, readerStream bytes 0⟩

/-- The route, of the decoded segments of the path. -/
def getSymbol (w : World) (name id file : String) : Except HttpErrorCode OpenedArtifact :=
  if isBasenameSegment (utf16 name) = false ∨ isBasenameSegment (utf16 file) = false ∨
      isDebugId (utf16 id) = false then .error .notFound
  else if file ≠ name then .error .notFound
  else
    -- the spelling of an identifier depends on its kind, the key is in capitals
    match openSymbolArtifact w name id.toUpper with
    | none => .error .notFound
    | some artifact =>
      if maxSafeInteger < artifact.byteSize then .error .internalError else .ok artifact

/-! ## Ingest -/

/-- `MAX_SYMBOL_BYTES`. -/
def maxSymbolBytes : Nat := 8589934592

/-- The headers of a request that was authorised. The HTTP parser lets no `content-length` through
that is not a number. -/
structure IngestRequest where
  filename : Option String
  contentLength : Option Nat
  ingestAuth : SymbolIngestAuthChannel
  product : Option String
  version : Option String
  arch : Option String

/-- No character outside ASCII has one of these letters as its lower case. -/
def symbolKindForFilename (filename : String) : Option SymbolArtifactKind :=
  let lowered := filename.toList.map Char.toLower
  if ".pdb".toList.isSuffixOf lowered = true then some .pdb
  else if ".exe".toList.isSuffixOf lowered = true ∨ ".dll".toList.isSuffixOf lowered = true then
    some .exe
  else none

/-- What the handler holds while the bytes arrive. -/
structure Ingest where
  artifactId : SymbolArtifactId
  kind : SymbolArtifactKind
  originalName : String
  ingestAuth : SymbolIngestAuthChannel
  product : Option String
  version : Option String
  arch : Option String
  byteSize : Nat
  /-- The bytes that the hash was updated with. -/
  received : Bytes
  failed : Option HttpErrorCode
  deriving DecidableEq

structure SymbolIngestIdentity where
  file : String
  id : String
  deriving DecidableEq

/-- The members of the response that depend on the kind are those of `identity`. -/
structure SymbolIngestResponse where
  artifactId : SymbolArtifactId
  kind : SymbolArtifactKind
  identity : SymbolIngestIdentity
  byteSize : Nat
  sha256 : Sha256
  deduplicated : Bool
  deriving DecidableEq

inductive IngestAnswer
  | created (response : SymbolIngestResponse)
  | error (code : HttpErrorCode)
  /-- The handler threw, and the server answers for it. -/
  | thrown (e : Thrown)
  deriving DecidableEq

section Handler

variable (options : EngineOptions)

/-- A staging file is created by one `open`: when that fails there is no file. -/
def openingHost (host : Host) : Host :=
  { host with storageFault := host.storageFault.map fun _ => .before }

/-- The part before the first chunk. There is no answer when the process dies. -/
def beginIngest (host : Host) (w : World) (request : IngestRequest) :
    Option (Except HttpErrorCode Ingest) × World :=
  match decodeSymbolFilenameBase64url request.filename with
  | .error _ => (some (.error .invalidRequest), w)
  | .ok originalName =>
    match symbolKindForFilename originalName with
    | none => (some (.error .symbolKindUnsupported), w)
    | some kind =>
      if ∃ contentLength ∈ request.contentLength, maxSymbolBytes < contentLength then
        (some (.error .symbolTooLarge), w)
      else
        match execute options (openingHost host) w (.ingestSymbol (text kind)) with
        | (.crashed, w) => (none, w)
        | (.receipt (.failure _ _), w) => (some (.error .storageUnavailable), w)
        | (.receipt (.success receipt), w) =>
          match receipt.artifactId with
          | none => (some (.error .storageUnavailable), w)
          | some artifactId =>
            (some (.ok
              { artifactId, kind, originalName, ingestAuth := request.ingestAuth,
                product := request.product, version := request.version, arch := request.arch,
                byteSize := 0, received := [], failed := none }), w)

/-- `destination.write`. A write that fails has written `fault` bytes of the chunk. -/
def receiveChunk (w : World) (g : Ingest) (nowMs : Int) (chunk : Bytes) (fault : Option Nat) :
    Ingest × World :=
  let byteSize := g.byteSize + chunk.length
  if maxSymbolBytes < byteSize then ({ g with byteSize, failed := some .symbolTooLarge }, w)
  else
    let received := g.received ++ chunk
    match fault with
    | some written =>
      ({ g with byteSize, received, failed := some .storageUnavailable },
        match w.vaults.symbols.append nowMs g.artifactId (chunk.take written) with
        | .ok symbols => { w with vaults := { w.vaults with symbols } }
        | .error _ => w)
    | none =>
      match w.vaults.symbols.append nowMs g.artifactId chunk with
      | .ok symbols =>
        ({ g with byteSize, received }, { w with vaults := { w.vaults with symbols } })
      | .error _ => ({ g with byteSize, received, failed := some .storageUnavailable }, w)

/-- `failSymbolIngest`, then the answer. -/
def failIngest (host : Host) (w : World) (g : Ingest) (code : HttpErrorCode) :
    Option IngestAnswer × World :=
  match execute options host w (.failSymbol g.artifactId.text) with
  | (.receipt _, w) => (some (.error code), w)
  | (.crashed, w) => (none, w)

/-- The pipeline was rejected. -/
def stopIngest (host : Host) (w : World) (g : Ingest) : Option IngestAnswer × World :=
  failIngest options host w g (g.failed.getD .storageUnavailable)

/-- Where the work on the staged file fails. -/
structure StagedFaults where
  sync : Bool
  opening : Bool
  /-- The reads that succeed before one throws. -/
  reading : Option Nat
  deriving DecidableEq

/-- The reader throws at some point of the walk. -/
def readFails {α : Type} (x : Parse α) (fault : Option Nat) : Prop :=
  ∃ reads ∈ fault, reads < (x.run .start).2.reads.length

instance instDecidableReadFails {α : Type} (x : Parse α) (fault : Option Nat) :
    Decidable (readFails x fault) :=
  inferInstanceAs (Decidable (∃ reads ∈ fault, reads < _))

/-- `parsePdbIdentityOrUndefined`, `parsePeIdentityOrUndefined`: an error of the parser is no
identity, any other error is thrown on. -/
def identityOrUndefined {α : Type} (x : Parse α) (fault : Option Nat) :
    Except Thrown (Option α) :=
  if readFails x fault then .error ioError
  else
    match (x.run .start).1 with
    | .ok identity => .ok identity
    | .error (.ledgerError _ _) => .ok none
    | .error e => .error e

/-- The identity of the staged bytes. -/
def stagedIdentity (g : Ingest) (staged : Bytes) (fault : Option Nat) :
    Except Thrown (Option SymbolIngestIdentity) :=
  match g.kind with
  | .pdb => do
    let parsed ← identityOrUndefined
      (parsePdbIdentityFrom (byteReaderOf staged) (utf16 g.originalName)) fault
    return parsed.map fun identity => ⟨toText identity.debugFile, identity.debugId⟩
  | .exe => do
    let parsed ← identityOrUndefined
      (parsePeIdentityFrom (byteReaderOf staged) (utf16 g.originalName)) fault
    return parsed.map fun identity => ⟨toText identity.codeFile, identity.codeId⟩

def sealFields (g : Ingest) (identity : SymbolIngestIdentity) : SealSymbolFields where
  artifactId := g.artifactId.text
  kind := g.kind
  file := identity.file
  id := identity.id
  byteSize := g.byteSize
  sha256 := (options.digests.sha256 g.received).text
  product := g.product
  version := g.version
  arch := g.arch
  ingestAuth := some (text g.ingestAuth)

/-- `sealSymbolIngest`, then the answer. -/
def sealIngest (host : Host) (w : World) (g : Ingest) (identity : SymbolIngestIdentity) :
    Option IngestAnswer × World :=
  match execute options host w (.sealSymbol (sealFields options g identity)) with
  | (.crashed, w) => (none, w)
  | (.receipt (.failure _ _), w) => (some (.error .storageUnavailable), w)
  | (.receipt (.success receipt), w) =>
    match receipt.artifactId with
    | none => (some (.error .storageUnavailable), w)
    | some artifactId =>
      (some (.created
        { artifactId, kind := g.kind, identity, byteSize := g.byteSize,
          sha256 := options.digests.sha256 g.received,
          deduplicated := decide (receipt.deduplicated = some true) }), w)

/-- The hosts of the two commands that the end of a request may come to. -/
structure EndHosts where
  sealing : Host
  failing : Host

/-- The pipeline was resolved. -/
def completeIngest (hosts : EndHosts) (w : World) (g : Ingest) (faults : StagedFaults) :
    Option IngestAnswer × World :=
  if faults.sync = true then (some (.thrown ioError), w)
  else
    match w.vaults.symbols.syncAndClose g.artifactId with
    | .error e => (some (.thrown e), w)
    | .ok symbols =>
      let w := { w with vaults := { w.vaults with symbols } }
      if faults.opening = true then (some (.thrown ioError), w)
      else
        match w.vaults.symbols.staged? g.artifactId with
        | none => failIngest options hosts.failing w g .symbolIdentityUnreadable
        | some staged =>
          match stagedIdentity g staged faults.reading with
          | .error e => (some (.thrown e), w)
          | .ok none => failIngest options hosts.failing w g .symbolIdentityUnreadable
          | .ok (some identity) => sealIngest options hosts.sealing w g identity

/-! ## Purge -/

/-- `none` is the answer without content. -/
def deleteSymbol (host : Host) (w : World) (artifactId : String) :
    Option (Option HttpErrorCode) × World :=
  match parseSymbolArtifactId artifactId with
  | .error _ => (some (some .notFound), w)
  | .ok artifactId =>
    match execute options host w (.purgeSymbol artifactId.text) with
    | (.crashed, w) => (none, w)
    | (.receipt (.success _), w) => (some none, w)
    | (.receipt (.failure _ error), w) =>
      (some (some (if error.code = .notFound then .notFound else .internalError)), w)

end Handler

end DumpLedger.Symbols
