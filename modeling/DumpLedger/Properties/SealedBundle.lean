import DumpLedger.Properties.WrittenBundle

/-!
# What an export seals

A session writes one bundle at most. What it seals is the archive of the manifest, the backup, and
an entry for each available dump of the snapshot and each selected symbol, with the bytes that the
vault has when the session runs.

* `writeBundle_entries` — the entries of the archive
* `sealed_once` — over any calls, one bundle at most, of the run that sealed it
-/

namespace DumpLedger.ExportSession

open Lib Tar ImportSession

/-! ## The entries -/

/-- An entry with the bytes of the vault, of which there are as many as was recorded. -/
structure Carries (name : String) (size : Nat) (object : Option Bytes) (e : EntryInput) : Prop where
  named : e.name = name
  declared : e.size = size
  stored : object = some e.chunks.flatten
  recorded : e.chunks.flatten.length = size

theorem writeVaultEntry_carries {w w' : TarWriter} {id name : String} {size : Nat}
    {object : Option Bytes} (h : writeVaultEntry w id name size object = .ok w') :
    ∃ e, Carries name size object e ∧ writeEntry w e = .ok w' := by
  simp only [writeVaultEntry, bind_eq_ok, orThrow_eq_ok, guardThat_eq_ok] at h
  obtain ⟨bytes, rfl, -, hsize, hstream⟩ := h
  have hflatten := flatten_streamChunks bytes
  refine ⟨⟨name, size, 0, streamChunks bytes⟩, ⟨rfl, rfl, ?_, ?_⟩, hstream⟩
  · rw [hflatten]
  · rw [hflatten, hsize]

section Bundle

variable {vaults : Vaults}

/-- The entry of an available dump. -/
def CarriesDump (vaults : Vaults) (dump : DumpRow) (e : EntryInput) : Prop :=
  ∃ byteSize, dump.byteSize = some byteSize ∧ dump.sha256.isSome = true ∧
    Carries (dumpEntryName dump.dumpId) byteSize (vaults.dumps.object? dump.dumpId) e

/-- The entry of a selected symbol. -/
def CarriesSymbol (vaults : Vaults) (symbol : ExportManifestSymbol) (e : EntryInput) : Prop :=
  Carries symbol.entry symbol.byteSize (vaults.symbols.object? symbol.artifactId) e

theorem writeDumpEntry_carries {w w' : TarWriter} {dump : DumpRow}
    (h : writeDumpEntry vaults w dump = .ok w') :
    ∃ e, CarriesDump vaults dump e ∧ writeEntry w e = .ok w' := by
  unfold writeDumpEntry at h
  split at h
  · next byteSize sha256 hsize hsha =>
    obtain ⟨e, hcarries, hwrite⟩ := writeVaultEntry_carries h
    exact ⟨e, ⟨byteSize, hsize, by simp [hsha], hcarries⟩, hwrite⟩
  · cases h

theorem writeSymbolEntry_carries {w w' : TarWriter} {symbol : ExportManifestSymbol}
    (h : writeSymbolEntry vaults w symbol = .ok w') :
    ∃ e, CarriesSymbol vaults symbol e ∧ writeEntry w e = .ok w' :=
  writeVaultEntry_carries h

/-- A loop that writes an entry for each element writes their entries. -/
theorem foldlM_entries {α : Type} {write : TarWriter → α → Except Thrown TarWriter}
    {R : α → EntryInput → Prop} {l : List α} {w w' : TarWriter} (h : l.foldlM write w = .ok w')
    (hwrite : ∀ {w w' a}, write w a = .ok w' → ∃ e, R a e ∧ writeEntry w e = .ok w') :
    ∃ entries, List.Forall₂ R l entries ∧ entries.foldlM writeEntry w = .ok w' := by
  induction l generalizing w with
  | nil => exact ⟨[], .nil, h⟩
  | cons a rest ih =>
    rw [List.foldlM_cons, bind_eq_ok] at h
    obtain ⟨w₁, hfirst, hrest⟩ := h
    obtain ⟨e, hR, hentry⟩ := hwrite hfirst
    obtain ⟨entries, hforall, hentries⟩ := ih hrest
    refine ⟨e :: entries, .cons hR hforall, ?_⟩
    rw [List.foldlM_cons, hentry]
    exact hentries

/-- A bundle of these entries, in the order of the manifest. -/
def Sealed (session : Session) (ledgerFile : Bytes) (vaults : Vaults) (archive : Bytes) : Prop :=
  ∃ dumps symbols,
    List.Forall₂ (CarriesDump vaults) (availableDumps session.snapshot) dumps ∧
      List.Forall₂ (CarriesSymbol vaults) (session.manifest.symbols.getD []) symbols ∧
        writeTar 0o644 (bundleInputs (serializeExportManifest session.manifest) ledgerFile
          (dumps ++ symbols)) = .ok archive

/-- **The entries of a bundle** that was written. -/
theorem writeBundle_entries {session : Session} {ledgerFile archive : Bytes}
    (h : writeBundle vaults session.manifest session.snapshot ledgerFile = .ok archive) :
    Sealed session ledgerFile vaults archive := by
  simp only [writeBundle, bind_eq_ok, pure_eq_ok] at h
  obtain ⟨fresh, hfresh, w₁, hmanifest, w₂, hledger, w₃, hdumps, w₄, hsymbols, w₅, hfinish, rfl⟩ :=
    h
  obtain ⟨dumps, hdumpsOf, hdumpsWritten⟩ :=
    foldlM_entries hdumps writeDumpEntry_carries
  obtain ⟨symbols, hsymbolsOf, hsymbolsWritten⟩ :=
    foldlM_entries hsymbols writeSymbolEntry_carries
  refine ⟨dumps, symbols, hdumpsOf, hsymbolsOf, ?_⟩
  have hfirst : writeEntry fresh (manifestInput (serializeExportManifest session.manifest)) =
      .ok w₁ := hmanifest
  have hsecond : writeEntry w₁ (ledgerInput ledgerFile) = .ok w₂ := hledger
  simp only [writeTar, bundleInputs, List.foldlM_cons, List.foldlM_append, bind_eq_ok, pure_eq_ok]
  exact ⟨fresh, hfresh, w₄, ⟨w₁, hfirst, w₂, hsecond, w₃, hdumpsWritten, hsymbolsWritten⟩, w₅,
    hfinish, rfl⟩

end Bundle

/-! ## Runs of a session -/

inductive Call
  | run (ledgerFile : Bytes) (vaults : Vaults) (sealFails : Option Thrown)
  | discard

def Call.step (session : Session) : Call → Session
  | .run ledgerFile vaults sealFails => (ExportSession.run session ledgerFile vaults sealFails).2
  | .discard => ExportSession.discard session

/-- The bundle that a call has sealed. -/
def Call.bundle? (session : Session) : Call → Option Bytes
  | .run ledgerFile vaults sealFails =>
    match (ExportSession.run session ledgerFile vaults sealFails).1 with
    | .ok (_, bundle) => bundle
    | .error _ => none
  | .discard => none

/-- The bundles that the calls have sealed, one after the other. -/
def sealedBy : Session → List Call → List Bytes
  | _, [] => []
  | session, call :: rest => (call.bundle? session).toList ++ sealedBy (call.step session) rest

theorem step_settled {session : Session} {call : Call} : (call.step session).settled = true := by
  cases call with
  | run ledgerFile vaults sealFails =>
    simp only [Call.step, ExportSession.run]
    by_cases hsettled : session.settled = true
    · rw [if_pos hsettled]
      exact hsettled
    · rw [if_neg hsettled]
      split <;> rfl
  | discard => rfl

theorem bundle?_settled {session : Session} (h : session.settled = true) (call : Call) :
    call.bundle? session = none := by
  cases call with
  | run ledgerFile vaults sealFails => simp [Call.bundle?, ExportSession.run, h]
  | discard => rfl

/-- A session that is settled seals nothing more. -/
theorem sealedBy_settled {session : Session} (h : session.settled = true) (calls : List Call) :
    sealedBy session calls = [] := by
  induction calls generalizing session with
  | nil => rfl
  | cons call rest ih =>
    rw [sealedBy, bundle?_settled h, ih step_settled]
    rfl

/-- What a call seals is the bundle of the session, with what the vault has in the call. -/
theorem bundle?_eq_some {session : Session} {call : Call} {archive : Bytes}
    (h : call.bundle? session = some archive) :
    ∃ ledgerFile vaults, call = .run ledgerFile vaults none ∧
      Sealed session ledgerFile vaults archive := by
  cases call with
  | discard => cases h
  | run ledgerFile vaults sealFails =>
    simp only [Call.bundle?, ExportSession.run] at h
    by_cases hsettled : session.settled = true
    · rw [if_pos hsettled] at h
      cases h
    · rw [if_neg hsettled] at h
      cases hwritten : writeBundle vaults session.manifest session.snapshot ledgerFile with
      | error e =>
        rw [hwritten] at h
        cases h
      | ok written =>
        rw [hwritten] at h
        cases sealFails with
        | some e => cases h
        | none =>
          cases h
          exact ⟨ledgerFile, vaults, rfl, writeBundle_entries hwritten⟩

/-- **One bundle at most**: whatever is called in which order, a session seals at most one bundle,
and that has the manifest, the backup, and each promised dump and symbol with the bytes that the
vault had, as many as were recorded, when it was sealed. -/
theorem sealed_once (session : Session) (calls : List Call) :
    (sealedBy session calls).length ≤ 1 ∧
      ∀ archive ∈ sealedBy session calls, ∃ ledgerFile vaults,
        .run ledgerFile vaults none ∈ calls ∧ Sealed session ledgerFile vaults archive := by
  cases calls with
  | nil => simp [sealedBy]
  | cons call rest =>
    rw [sealedBy, sealedBy_settled step_settled, List.append_nil]
    refine ⟨Option.length_toList_le, ?_⟩
    intro archive harchive
    obtain ⟨ledgerFile, vaults, rfl, hsealed⟩ :=
      bundle?_eq_some (Option.mem_toList.mp harchive)
    exact ⟨ledgerFile, vaults, List.mem_cons_self, hsealed⟩

end DumpLedger.ExportSession
