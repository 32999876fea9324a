import DumpLedger.Lib.Prog

/-!
# Programs that draw from a budget

A state holds what is left of a budget, read by a measure. `Draws` says that a program never
gives anything back, and relates its value to the amount that it has drawn.

* `Draws.bind` — the amounts of two programs add up
* `Draws.foldEach` — a loop, with an invariant of the accumulator and the amount drawn so far
* `Draws.le` — what a program has drawn was there
-/

namespace DumpLedger.Lib.Prog

variable {σ ε α β : Type} {left : σ → Nat}

/-- However the program ends, no more is left than before; with a value, it has drawn an amount
that the value is related to. -/
def Draws (left : σ → Nat) (x : Prog σ ε α) (R : α → Nat → Prop) : Prop :=
  ∀ s, wp x (fun a s' => ∃ n, left s' + n = left s ∧ R a n) (fun _ s' => left s' ≤ left s) s

section Rules

variable {x : Prog σ ε α} {R R' : α → Nat → Prop}

theorem Draws.pure {a : α} (h : R a 0) : Draws left (Pure.pure a : Prog σ ε α) R :=
  fun _ => ⟨0, rfl, h⟩

theorem Draws.throw {e : ε} : Draws left (MonadExcept.throw e : Prog σ ε α) R :=
  fun _ => le_rfl

theorem Draws.mono (h : Draws left x R) (hR : ∀ a n, R a n → R' a n) : Draws left x R' := by
  intro s
  refine wp_mono (h s) ?_ fun _ _ he => he
  rintro a s' ⟨n, hleft, ha⟩
  exact ⟨n, hleft, hR a n ha⟩

theorem Draws.bind {f : α → Prog σ ε β} {Q : β → Nat → Prop} (h : Draws left x R)
    (hf : ∀ a n, R a n → Draws left (f a) fun b m => Q b (n + m)) : Draws left (x >>= f) Q := by
  intro s
  rw [wp_bind]
  refine wp_mono (h s) ?_ fun _ _ he => he
  rintro a s' ⟨n, hleft, ha⟩
  refine wp_mono (hf a n ha s') ?_ ?_
  · rintro b s'' ⟨m, hleft', hb⟩
    exact ⟨n + m, by omega, hb⟩
  · intro e s'' hle
    omega

/-- The handler does not know what was drawn before the throw. -/
theorem Draws.tryCatch {h : ε → Prog σ ε α} (hx : Draws left x R)
    (hh : ∀ e n, Draws left (h e) fun a m => R a (n + m)) :
    Draws left (MonadExcept.tryCatch x h) R := by
  intro s
  rw [wp_tryCatch]
  refine wp_mono (hx s) (fun _ _ ha => ha) ?_
  intro e s' hle
  refine wp_mono (hh e (left s - left s') s') ?_ ?_
  · rintro a s'' ⟨m, hleft, ha⟩
    exact ⟨left s - left s' + m, by omega, ha⟩
  · intro _ s'' hle'
    omega

theorem Draws.gets {f : σ → α} (h : ∀ s, R (f s) 0) : Draws left (Prog.gets f : Prog σ ε α) R :=
  fun s => ⟨0, rfl, h s⟩

/-- A write that leaves the budget alone. -/
theorem Draws.modify {f : σ → σ} {Q : Unit → Nat → Prop} (hf : ∀ s, left (f s) = left s)
    (h : Q () 0) : Draws left (Prog.modify f : Prog σ ε Unit) Q :=
  fun s => ⟨0, hf s, h⟩

theorem Draws.lift {y : Except ε α} (h : ∀ a, y = .ok a → R a 0) :
    Draws left (Prog.lift y : Prog σ ε α) R := by
  intro s
  cases y with
  | ok a => exact ⟨0, rfl, h a rfl⟩
  | error e => exact le_rfl

theorem Draws.foldEach {f : β → α → Prog σ ε β} (as : List α) {b : β}
    (J : List α → β → Nat → Prop)
    (hstep : ∀ done a rest b n, as = done ++ a :: rest → J done b n →
      Draws left (f b a) fun b' m => J (done ++ [a]) b' (n + m))
    (h : J [] b 0) : Draws left (foldEach f b as) (J as) := by
  intro s
  have hloop := wp_foldEach (f := f) (b := b) (s := s) (E := fun _ s' => left s' ≤ left s) as
    (I := fun done b s' => ∃ n, left s' + n = left s ∧ J done b n) ?_ ⟨0, rfl, h⟩
  · exact hloop
  · rintro done a rest b s' has ⟨n, hleft, hJ⟩
    refine wp_mono (hstep done a rest b n has hJ s') ?_ ?_
    · rintro b' s'' ⟨m, hleft', hJ'⟩
      exact ⟨n + m, by omega, hJ'⟩
    · intro e s'' hle
      omega

/-- What was drawn was there. -/
theorem Draws.le (h : Draws left x R) (s : σ) :
    wp x (fun a _ => ∃ n ≤ left s, R a n) (fun _ _ => True) s := by
  refine wp_mono (h s) ?_ fun _ _ _ => trivial
  rintro a s' ⟨n, hleft, ha⟩
  exact ⟨n, by omega, ha⟩

end Rules

end DumpLedger.Lib.Prog
