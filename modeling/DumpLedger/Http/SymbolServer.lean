import DumpLedger.Engine.Run
import DumpLedger.Http.SymbolRoutes

/-!
# A server of the symbol routes

A step is a request, a chunk or the end of the body of one, a restart of the process, or some other
command of the engine. The chunks of different requests mix in any order. A handler that is cut off
by a restart answers nothing.
-/

namespace DumpLedger.Symbols

open Lib

structure SymbolServer where
  world : World
  /-- The requests whose bodies are arriving. -/
  ingests : SymbolArtifactId → Option Ingest
  /-- What the requests that got as far as a staging file were answered, the oldest first. -/
  answers : List (Ingest × IngestAnswer)

inductive SymbolStep
  | post (host : Host) (request : IngestRequest)
  | chunk (nowMs : Int) (artifactId : SymbolArtifactId) (bytes : Bytes) (fault : Option Nat)
  /-- The stream broke off, or took too long. -/
  | stop (host : Host) (artifactId : SymbolArtifactId)
  | complete (hosts : EndHosts) (artifactId : SymbolArtifactId) (faults : StagedFaults)
  | delete (host : Host) (artifactId : String)
  /-- A command that has nothing to do with symbols. -/
  | other (host : Host) (command : Command)
  | restart

/-- The commands of the symbol routes. -/
def symbolActions : List LifecycleAction := [.ingestSymbol, .sealSymbol, .failSymbol, .purgeSymbol]

namespace SymbolServer

def start : SymbolServer := ⟨.fresh, fun _ => none, []⟩

/-- The process dies and is started again. -/
def restarted (s : SymbolServer) (w : World) : SymbolServer :=
  { s with world := w.reopen, ingests := fun _ => none }

/-- A handler is through. -/
def ended (s : SymbolServer) (g : Ingest) (out : Option IngestAnswer × World) : SymbolServer :=
  match out.1 with
  | none => s.restarted out.2
  | some answer =>
    { world := out.2
      ingests := Function.update s.ingests g.artifactId none
      answers := s.answers ++ [(g, answer)] }

variable (options : EngineOptions) (s : SymbolServer)

def post (host : Host) (request : IngestRequest) : SymbolServer :=
  let out := beginIngest options host s.world request
  match out.1 with
  | none => s.restarted out.2
  | some (.error _) => { s with world := out.2 }
  | some (.ok g) =>
    { s with world := out.2, ingests := Function.update s.ingests g.artifactId (some g) }

/-- The next part of an open request, unless a write of it has failed. -/
def withIngest (artifactId : SymbolArtifactId) (next : Ingest → SymbolServer) : SymbolServer :=
  match s.ingests artifactId with
  | none => s
  | some g => if g.failed = none then next g else s

def chunk (nowMs : Int) (bytes : Bytes) (fault : Option Nat) (g : Ingest) : SymbolServer :=
  let out := receiveChunk s.world g nowMs bytes fault
  { s with world := out.2, ingests := Function.update s.ingests g.artifactId (some out.1) }

def stop (host : Host) (artifactId : SymbolArtifactId) : SymbolServer :=
  match s.ingests artifactId with
  | none => s
  | some g => s.ended g (stopIngest options host s.world g)

def delete (host : Host) (artifactId : String) : SymbolServer :=
  let out := deleteSymbol options host s.world artifactId
  match out.1 with
  | none => s.restarted out.2
  | some _ => { s with world := out.2 }

def other (host : Host) (command : Command) : SymbolServer :=
  if command.type ∈ symbolActions then s
  else
    match execute options host s.world command with
    | (.crashed, w) => s.restarted w
    | (.receipt _, w) => { s with world := w }

def step : SymbolStep → SymbolServer
  | .post host request => s.post options host request
  | .chunk nowMs artifactId bytes fault => s.withIngest artifactId (s.chunk nowMs bytes fault)
  | .stop host artifactId => s.stop options host artifactId
  | .complete hosts artifactId faults =>
    s.withIngest artifactId fun g => s.ended g (completeIngest options hosts s.world g faults)
  | .delete host artifactId => s.delete options host artifactId
  | .other host command => s.other options host command
  | .restart => s.restarted s.world

end SymbolServer

/-- The server after a run that began with an empty store. -/
def served (options : EngineOptions) (steps : List SymbolStep) : SymbolServer :=
  run (fun s e => s.step options e) .start steps

end DumpLedger.Symbols
