import DumpLedger.Lib.Prog

/-!
# Programs that returned

`Returns x s a s'` says that `x`, from the state `s`, has returned `a` and left `s'`. A program
that returned has gone through all of its parts; the lemmas say what each part did.

* `returns_bind`, `returns_tryCatch` and the other inversions follow the syntax of a program
* `returns_forEach`, `returns_foldEach` — a loop that returned, with an invariant of what is done
* `Keeps.forEach`, `Keeps.returns` — an invariant that holds however a program ends
-/

namespace DumpLedger.Lib.Prog

variable {σ ε α β : Type}

def Returns (x : Prog σ ε α) (s : σ) (a : α) (s' : σ) : Prop := x s = (.ok a, s')

section Inversion

variable {x : Prog σ ε α} {s s' : σ}

@[simp] theorem returns_pure {a b : α} :
    Returns (pure a : Prog σ ε α) s b s' ↔ a = b ∧ s = s' := by
  show (Except.ok a, s) = (Except.ok b, s') ↔ _
  simp

@[simp] theorem returns_throw {e : ε} {b : α} :
    ¬ Returns (throw e : Prog σ ε α) s b s' := by
  intro h
  cases h

@[simp] theorem returns_bind {f : α → Prog σ ε β} {b : β} :
    Returns (x >>= f) s b s' ↔ ∃ a s₁, Returns x s a s₁ ∧ Returns (f a) s₁ b s' := by
  simp only [Returns, Bind.bind]
  rcases x s with ⟨_ | a, s₁⟩ <;> simp

@[simp] theorem returns_map {f : α → β} {b : β} :
    Returns (f <$> x) s b s' ↔ ∃ a, Returns x s a s' ∧ f a = b := by
  show Returns (x >>= fun a => pure (f a)) s b s' ↔ _
  rw [returns_bind]
  constructor
  · rintro ⟨a, s₁, hx, ha⟩
    obtain ⟨rfl, rfl⟩ := returns_pure.mp ha
    exact ⟨a, hx, rfl⟩
  · rintro ⟨a, hx, rfl⟩
    exact ⟨a, s', hx, returns_pure.mpr ⟨rfl, rfl⟩⟩

/-- The handler returned, if the program did not. -/
theorem returns_tryCatch {h : ε → Prog σ ε α} {a : α} :
    Returns (tryCatch x h) s a s' ↔
      Returns x s a s' ∨ ∃ e s₁, x s = (.error e, s₁) ∧ Returns (h e) s₁ a s' := by
  simp only [Returns, MonadExcept.tryCatch]
  rcases x s with ⟨_ | b, s₁⟩ <;> simp

@[simp] theorem returns_gets {f : σ → α} {a : α} :
    Returns (gets f : Prog σ ε α) s a s' ↔ f s = a ∧ s = s' := by
  show (Except.ok (f s), s) = (Except.ok a, s') ↔ _
  simp

@[simp] theorem returns_modify {f : σ → σ} {u : Unit} :
    Returns (modify f : Prog σ ε Unit) s u s' ↔ s' = f s := by
  show (Except.ok (), f s) = (Except.ok u, s') ↔ _
  simp [eq_comm]

@[simp] theorem returns_lift {y : Except ε α} {a : α} :
    Returns (lift y : Prog σ ε α) s a s' ↔ y = .ok a ∧ s = s' := by
  show (y, s) = (Except.ok a, s') ↔ _
  simp

/-- A handler that throws again returns nothing. -/
theorem returns_of_rethrow {h : ε → Prog σ ε α} {a : α}
    (hh : ∀ e s₁, ¬ Returns (h e) s₁ a s') (hr : Returns (tryCatch x h) s a s') :
    Returns x s a s' := by
  rcases returns_tryCatch.mp hr with hx | ⟨e, s₁, -, he⟩
  · exact hx
  · exact absurd he (hh e s₁)

end Inversion

/-! ## Loops -/

section Loops

variable {s s' : σ}

/-- An invariant of the elements that are done, and of the state. -/
theorem returns_forEach {f : α → Prog σ ε Unit} (as : List α) {u : Unit}
    (hrun : Returns (forEach f as) s u s') (I : List α → σ → Prop) (h : I [] s)
    (hstep : ∀ done a rest s s', as = done ++ a :: rest → I done s → Returns (f a) s () s' →
      I (done ++ [a]) s') : I as s' := by
  suffices hsuffix : ∀ rest done s, as = done ++ rest → I done s →
      Returns (forEach f rest) s u s' → I as s' from hsuffix as [] s rfl h hrun
  intro rest
  induction rest with
  | nil =>
    intro done s has hI hr
    obtain ⟨-, rfl⟩ := returns_pure.mp hr
    rwa [has, List.append_nil]
  | cons a rest ih =>
    intro done s has hI hr
    obtain ⟨_, s₁, ha, hrest⟩ := returns_bind.mp hr
    exact ih (done ++ [a]) s₁ (by simp [has]) (hstep done a rest s s₁ has hI ha) hrest

theorem returns_forEach_append {f : α → Prog σ ε Unit} {as bs : List α} {u : Unit} :
    Returns (forEach f (as ++ bs)) s u s' ↔
      ∃ s₁, Returns (forEach f as) s () s₁ ∧ Returns (forEach f bs) s₁ u s' := by
  induction as generalizing s with
  | nil =>
    constructor
    · intro h
      exact ⟨s, returns_pure.mpr ⟨rfl, rfl⟩, h⟩
    · rintro ⟨s₁, hnil, h⟩
      obtain ⟨-, rfl⟩ := returns_pure.mp hnil
      exact h
  | cons a rest ih =>
    simp only [List.cons_append, forEach, returns_bind, ih]
    constructor
    · rintro ⟨v, s₁, ha, s₂, hrest, hbs⟩
      exact ⟨s₂, ⟨v, s₁, ha, hrest⟩, hbs⟩
    · rintro ⟨s₂, ⟨v, s₁, ha, hrest⟩, hbs⟩
      exact ⟨v, s₁, ha, s₂, hrest, hbs⟩

/-- An invariant of the elements that are done, of the accumulator, and of the state. -/
theorem returns_foldEach {f : β → α → Prog σ ε β} (as : List α) {b b' : β}
    (hrun : Returns (foldEach f b as) s b' s') (I : List α → β → σ → Prop) (h : I [] b s)
    (hstep : ∀ done a rest b s b' s', as = done ++ a :: rest → I done b s →
      Returns (f b a) s b' s' → I (done ++ [a]) b' s') : I as b' s' := by
  suffices hsuffix : ∀ rest done b s, as = done ++ rest → I done b s →
      Returns (foldEach f b rest) s b' s' → I as b' s' from hsuffix as [] b s rfl h hrun
  intro rest
  induction rest with
  | nil =>
    intro done b s has hI hr
    obtain ⟨rfl, rfl⟩ := returns_pure.mp hr
    rwa [has, List.append_nil]
  | cons a rest ih =>
    intro done b s has hI hr
    obtain ⟨b₁, s₁, ha, hrest⟩ := returns_bind.mp hr
    exact ih (done ++ [a]) b₁ s₁ (by simp [has]) (hstep done a rest b s b₁ s₁ has hI ha) hrest

end Loops

/-! ## Invariants that hold either way -/

/-- A loop whose steps keep an invariant keeps it. -/
theorem Keeps.forEach {I : σ → Prop} {F : ε → Prop} {f : α → Prog σ ε Unit} (as : List α)
    (h : ∀ a ∈ as, Keeps I F (f a) fun _ => True) :
    Keeps I F (forEach f as) fun _ => True := by
  induction as with
  | nil => exact Keeps.pure trivial
  | cons a rest ih =>
    rw [List.forall_mem_cons] at h
    exact Keeps.bind h.1 fun _ _ => ih h.2

theorem Keeps.returns {I : σ → Prop} {F : ε → Prop} {x : Prog σ ε α} {P : α → Prop}
    (h : Keeps I F x P) {s s' : σ} {a : α} (hs : I s) (hr : Returns x s a s') : I s' ∧ P a := by
  have hwp := h s hs
  unfold wp at hwp
  unfold Returns at hr
  rw [hr] at hwp
  exact hwp

end DumpLedger.Lib.Prog
