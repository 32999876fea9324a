import Mathlib

/-!
# Commands over two stores

A command that touches a plain store and a transactional one, in this order: an
operation on the plain store, then a transaction, and, when the transaction throws, an
undo on the plain store. The operation may throw before or after it took effect; the
transaction that throws has no effect; the process may die between the two.

* `run_cases` — the five ways a run ends, with both stores in each
* `transactional_unchanged` — only a completed run changes the transactional store
* `run_invariant` — an invariant of the pair that every durable point keeps
-/

namespace DumpLedger.Lib

structure TwoStore (σ τ ε ρ : Type) where
  operation : σ → Except ε Unit × σ
  transaction : τ → Except ε (ρ × τ)
  undo : σ → σ

namespace TwoStore

inductive Result (ε ρ : Type)
  | done (r : ρ)
  | failed (e : ε)
  | crashed

variable {σ τ ε ρ : Type}

def run (c : TwoStore σ τ ε ρ) (crash : Bool) (s : σ) (t : τ) : Result ε ρ × σ × τ :=
  match c.operation s with
  | (.error e, s₁) => (.failed e, s₁, t)
  | (.ok (), s₁) =>
    if crash then (.crashed, s₁, t)
    else
      match c.transaction t with
      | .ok (r, t₁) => (.done r, s₁, t₁)
      | .error e => (.failed e, c.undo s₁, t)

/-- How a run ended. -/
inductive Ended (c : TwoStore σ τ ε ρ) (crash : Bool) (s : σ) (t : τ) :
    Result ε ρ → σ → τ → Prop
  | operationThrew {e : ε} {s₁ : σ} (hop : c.operation s = (.error e, s₁)) :
      Ended c crash s t (.failed e) s₁ t
  | crashed {s₁ : σ} (hop : c.operation s = (.ok (), s₁)) (hcrash : crash = true) :
      Ended c crash s t .crashed s₁ t
  | committed {s₁ : σ} {r : ρ} {t₁ : τ} (hop : c.operation s = (.ok (), s₁))
      (hcrash : crash = false) (htx : c.transaction t = .ok (r, t₁)) :
      Ended c crash s t (.done r) s₁ t₁
  | rolledBack {s₁ : σ} {e : ε} (hop : c.operation s = (.ok (), s₁)) (hcrash : crash = false)
      (htx : c.transaction t = .error e) :
      Ended c crash s t (.failed e) (c.undo s₁) t

theorem run_cases (c : TwoStore σ τ ε ρ) (crash : Bool) (s : σ) (t : τ) :
    Ended c crash s t (c.run crash s t).1 (c.run crash s t).2.1 (c.run crash s t).2.2 := by
  unfold run
  cases hop : c.operation s with
  | mk outcome s₁ =>
    cases outcome with
    | error e => exact .operationThrew hop
    | ok u =>
      cases crash with
      | true => exact .crashed hop rfl
      | false =>
        cases htx : c.transaction t with
        | error e => simpa [htx] using Ended.rolledBack hop rfl htx
        | ok p => simpa [htx] using Ended.committed hop rfl htx

variable {c : TwoStore σ τ ε ρ} {crash : Bool} {s : σ} {t : τ}

/-- A run that did not complete left the transactional store alone. -/
theorem transactional_unchanged (h : ∀ r, (c.run crash s t).1 ≠ .done r) :
    (c.run crash s t).2.2 = t := by
  have hc := run_cases c crash s t
  generalize c.run crash s t = out at h hc ⊢
  obtain ⟨res, s', t'⟩ := out
  cases hc with
  | operationThrew _ => rfl
  | crashed _ _ => rfl
  | committed _ _ _ => exact absurd rfl (h _)
  | rolledBack _ _ _ => rfl

/-- A completed run is the operation followed by the transaction. -/
theorem run_eq_done {r : ρ} {s' : σ} {t' : τ} :
    c.run crash s t = (.done r, s', t') ↔
      c.operation s = (.ok (), s') ∧ crash = false ∧ c.transaction t = .ok (r, t') := by
  constructor
  · intro h
    have hc := run_cases c crash s t
    rw [h] at hc
    cases hc with
    | committed hop hcrash htx => exact ⟨hop, hcrash, htx⟩
  · rintro ⟨hop, rfl, htx⟩
    simp [run, hop, htx]

/-- An invariant of both stores that the operation, the commit and the undo keep. -/
theorem run_invariant {I : σ → τ → Prop} (h : I s t)
    (hop : ∀ outcome s₁, c.operation s = (outcome, s₁) → I s₁ t)
    (htx : ∀ s₁ r t₁, c.operation s = (.ok (), s₁) → c.transaction t = .ok (r, t₁) → I s₁ t₁)
    (hundo : ∀ s₁, I s₁ t → I (c.undo s₁) t) :
    I (c.run crash s t).2.1 (c.run crash s t).2.2 := by
  have hc := run_cases c crash s t
  generalize c.run crash s t = out at hc ⊢
  obtain ⟨res, s', t'⟩ := out
  cases hc with
  | operationThrew h₁ => exact hop _ _ h₁
  | crashed h₁ _ => exact hop _ _ h₁
  | committed h₁ _ h₂ => exact htx _ _ _ h₁ h₂
  | rolledBack h₁ _ _ => exact hundo _ (hop _ _ h₁)

end TwoStore

end DumpLedger.Lib
