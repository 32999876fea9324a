import Mathlib

/-!
# Runs

A deterministic machine takes one event after another. `run` folds the step over a list
of events, `Along` says that a condition holds at every step of it.

* `invariant_along` — what every step that meets the condition keeps, the run keeps
* `along_append`, `along_mono` — conditions of a prefix and weaker conditions
* `along_prefix` — so a property of every run is one of every state on the way
* `countAlong` — the number of steps of a kind
-/

namespace DumpLedger.Lib

variable {σ ε : Type}

def run (step : σ → ε → σ) (s : σ) (events : List ε) : σ := events.foldl step s

/-- `C` holds of the state and the event at every step of the run. -/
def Along (step : σ → ε → σ) (C : σ → ε → Prop) : σ → List ε → Prop
  | _, [] => True
  | s, e :: es => C s e ∧ Along step C (step s e) es

variable {step : σ → ε → σ} {C D : σ → ε → Prop} {s : σ} {events : List ε}

@[simp] theorem run_nil : run step s [] = s := rfl

@[simp] theorem run_cons {e : ε} : run step s (e :: events) = run step (step s e) events := rfl

theorem run_append {events' : List ε} :
    run step s (events ++ events') = run step (run step s events) events' :=
  List.foldl_append

@[simp] theorem along_nil : Along step C s [] := trivial

theorem along_cons {e : ε} :
    Along step C s (e :: events) ↔ C s e ∧ Along step C (step s e) events :=
  Iff.rfl

theorem along_append {events' : List ε} :
    Along step C s (events ++ events') ↔
      Along step C s events ∧ Along step C (run step s events) events' := by
  induction events generalizing s with
  | nil => simp
  | cons e es ih =>
    rw [List.cons_append, along_cons, along_cons, ih, run_cons, and_assoc]

theorem along_mono (h : ∀ s e, C s e → D s e) (ha : Along step C s events) :
    Along step D s events := by
  induction events generalizing s with
  | nil => trivial
  | cons e es ih => exact ⟨h s e ha.1, ih ha.2⟩

theorem along_of_forall (h : ∀ s e, C s e) : Along step C s events := by
  induction events generalizing s with
  | nil => trivial
  | cons e es ih => exact ⟨h s e, ih⟩

/-- A condition on the events alone. -/
theorem along_of_all {c : ε → Prop} (h : ∀ e ∈ events, c e) :
    Along step (fun _ e => c e) s events := by
  induction events generalizing s with
  | nil => trivial
  | cons e es ih =>
    exact ⟨h e (List.mem_cons_self ..), ih fun e' he' => h e' (List.mem_cons_of_mem _ he')⟩

/-- **An invariant that every step keeps is kept by the run.** -/
theorem invariant_along {I : σ → Prop} (hstep : ∀ s e, I s → C s e → I (step s e)) (hi : I s)
    (ha : Along step C s events) : I (run step s events) := by
  induction events generalizing s with
  | nil => exact hi
  | cons e es ih => exact ih (hstep s e hi ha.1) ha.2

/-- An unconditional invariant. -/
theorem invariant_run {I : σ → Prop} (hstep : ∀ s e, I s → I (step s e)) (hi : I s) :
    I (run step s events) :=
  invariant_along (C := fun _ _ => True) (fun s e h _ => hstep s e h) hi
    (along_of_forall fun _ _ => trivial)

/-- An invariant may be assumed at every step of the run it holds along. -/
theorem along_and_invariant {I : σ → Prop} (hstep : ∀ s e, I s → C s e → I (step s e)) (hi : I s)
    (ha : Along step C s events) : Along step (fun s e => I s ∧ C s e) s events := by
  induction events generalizing s with
  | nil => trivial
  | cons e es ih => exact ⟨⟨hi, ha.1⟩, ih (hstep s e hi ha.1) ha.2⟩

/-- A state on the way of a run is the end of a prefix, along which the condition holds. -/
theorem along_prefix {es es' : List ε} (h : events = es ++ es') (ha : Along step C s events) :
    Along step C s es := by
  subst h
  exact (along_append.mp ha).1

/-- A condition that can be decided can be decided along a run. -/
instance decidableAlong [hC : ∀ s e, Decidable (C s e)] :
    (s : σ) → (events : List ε) → Decidable (Along step C s events)
  | _, [] => .isTrue trivial
  | s, e :: es => @instDecidableAnd _ _ (hC s e) (decidableAlong (step s e) es)

/-! ## Counting steps -/

/-- The number of steps of the run that `c` picks out. -/
def countAlong (step : σ → ε → σ) (c : σ → ε → Bool) : σ → List ε → Nat
  | _, [] => 0
  | s, e :: es => (if c s e = true then 1 else 0) + countAlong step c (step s e) es

end DumpLedger.Lib
