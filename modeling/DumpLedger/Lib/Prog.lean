import Mathlib

/-!
# Programs that throw and keep what they wrote

`Prog σ ε α` runs on a state `σ`, ends with an `α` or throws an `ε`, and in both cases
hands on the state it has reached: a throw does not roll back. `wp` is the precondition
under which a program ends as two postconditions say, one for the value and one for the
throw.

* `wp_bind`, `wp_tryCatch` and the other rules follow the syntax of a program
* `wp_collect`, `wp_forEach`, `wp_foldEach` — a loop over a list, with an invariant of what is
  done
* `Keeps` — the same for programs that all keep one invariant of the state
-/

namespace DumpLedger.Lib

def Prog (σ ε α : Type) : Type := σ → Except ε α × σ

namespace Prog

variable {σ ε α β : Type}

instance : Monad (Prog σ ε) where
  pure a s := (.ok a, s)
  bind x f s :=
    match x s with
    | (.ok a, s') => f a s'
    | (.error e, s') => (.error e, s')

instance : MonadExcept ε (Prog σ ε) where
  throw e s := (.error e, s)
  tryCatch x h s :=
    match x s with
    | (.ok a, s') => (.ok a, s')
    | (.error e, s') => h e s'

/-- A read of the state. -/
def gets (f : σ → α) : Prog σ ε α := fun s => (.ok (f s), s)

/-- A write of the state. -/
def modify (f : σ → σ) : Prog σ ε Unit := fun s => (.ok (), f s)

/-- A computation without a state. -/
def lift (x : Except ε α) : Prog σ ε α := fun s => (x, s)

/-- The lists that a step answers for each element, in one list. -/
def collect (f : α → Prog σ ε (List β)) : List α → Prog σ ε (List β)
  | [] => pure []
  | a :: as => do
    let bs ← f a
    let rest ← collect f as
    return bs ++ rest

/-- A step for each element, in order. -/
def forEach (f : α → Prog σ ε Unit) : List α → Prog σ ε Unit
  | [] => pure ()
  | a :: as => do
    f a
    forEach f as

/-- A step for each element, in order, that carries an accumulator along. -/
def foldEach (f : β → α → Prog σ ε β) : β → List α → Prog σ ε β
  | b, [] => pure b
  | b, a :: as => do
    let b ← f b a
    foldEach f b as

/-! ## Preconditions -/

/-- From `s`, the program ends with a value as `Q` says or throws as `E` says. -/
def wp (x : Prog σ ε α) (Q : α → σ → Prop) (E : ε → σ → Prop) (s : σ) : Prop :=
  match x s with
  | (.ok a, s') => Q a s'
  | (.error e, s') => E e s'

section Rules

variable {x : Prog σ ε α} {Q Q' : α → σ → Prop} {E E' : ε → σ → Prop} {s : σ}

@[simp] theorem wp_pure {a : α} : wp (pure a : Prog σ ε α) Q E s ↔ Q a s := Iff.rfl

@[simp] theorem wp_throw {e : ε} : wp (throw e : Prog σ ε α) Q E s ↔ E e s := Iff.rfl

@[simp] theorem wp_bind {f : α → Prog σ ε β} {R : β → σ → Prop} :
    wp (x >>= f) R E s ↔ wp x (fun a s' => wp (f a) R E s') E s := by
  show (match (match x s with
    | (.ok a, s') => f a s'
    | (.error e, s') => (.error e, s')) with
    | (.ok b, s') => R b s'
    | (.error e, s') => E e s') ↔ _
  unfold wp
  cases x s with
  | mk out s' => cases out <;> exact Iff.rfl

@[simp] theorem wp_tryCatch {h : ε → Prog σ ε α} :
    wp (tryCatch x h) Q E s ↔ wp x Q (fun e s' => wp (h e) Q E s') s := by
  show (match (match x s with
    | (Except.ok a, s') => (Except.ok a, s')
    | (.error e, s') => h e s') with
    | (.ok b, s') => Q b s'
    | (.error e, s') => E e s') ↔ _
  unfold wp
  cases x s with
  | mk out s' => cases out <;> exact Iff.rfl

@[simp] theorem wp_gets {f : σ → α} : wp (gets f : Prog σ ε α) Q E s ↔ Q (f s) s := Iff.rfl

@[simp] theorem wp_modify {f : σ → σ} {R : Unit → σ → Prop} :
    wp (modify f : Prog σ ε Unit) R E s ↔ R () (f s) := Iff.rfl

@[simp] theorem wp_lift_ok {a : α} : wp (lift (.ok a) : Prog σ ε α) Q E s ↔ Q a s := Iff.rfl

@[simp] theorem wp_lift_error {e : ε} : wp (lift (.error e) : Prog σ ε α) Q E s ↔ E e s := Iff.rfl

theorem wp_mono (h : wp x Q E s) (hQ : ∀ a s', Q a s' → Q' a s') (hE : ∀ e s', E e s' → E' e s') :
    wp x Q' E' s := by
  unfold wp at h ⊢
  generalize x s = out at h ⊢
  obtain ⟨out, s'⟩ := out
  cases out with
  | ok a => exact hQ a s' h
  | error e => exact hE e s' h

/-- A program that never throws has a value. -/
theorem wp_ok_iff : wp x Q (fun _ _ => False) s ↔ ∃ a s', x s = (.ok a, s') ∧ Q a s' := by
  unfold wp
  cases x s with
  | mk out s' =>
    cases out with
    | ok a =>
      constructor
      · exact fun h => ⟨a, s', rfl, h⟩
      · rintro ⟨a', s'', heq, h⟩
        cases heq
        exact h
    | error e => simp

/-! ## Loops -/

/-- An invariant of the elements that are done, of their answers, and of the state. -/
theorem wp_collect {f : α → Prog σ ε (List β)} (as : List α) {I : List α → List β → σ → Prop}
    (hstep : ∀ done a rest out s, as = done ++ a :: rest → I done out s →
      wp (f a) (fun bs s' => I (done ++ [a]) (out ++ bs) s') E s)
    (h : I [] [] s) : wp (collect f as) (fun out s' => I as out s') E s := by
  suffices hsuffix : ∀ rest done out s, as = done ++ rest → I done out s →
      wp (collect f rest) (fun bs s' => I as (out ++ bs) s') E s by
    simpa using hsuffix as [] [] s rfl h
  intro rest
  induction rest with
  | nil =>
    intro done out s has hI
    rw [List.append_nil] at has
    rw [collect, wp_pure, List.append_nil, has]
    exact hI
  | cons a rest ih =>
    intro done out s has hI
    rw [collect, wp_bind]
    refine wp_mono (hstep done a rest out s has hI) (fun bs s' hI' => ?_) fun _ _ he => he
    rw [wp_bind]
    refine wp_mono (ih (done ++ [a]) (out ++ bs) s' (by simp [has]) hI') (fun cs s'' hI'' => ?_)
      fun _ _ he => he
    rw [wp_pure, ← List.append_assoc]
    exact hI''

/-- The same for a loop without answers. -/
theorem wp_forEach {f : α → Prog σ ε Unit} (as : List α) {I : List α → σ → Prop}
    (hstep : ∀ done a rest s, as = done ++ a :: rest → I done s →
      wp (f a) (fun _ s' => I (done ++ [a]) s') E s)
    (h : I [] s) : wp (forEach f as) (fun _ s' => I as s') E s := by
  suffices hsuffix : ∀ rest done s, as = done ++ rest → I done s →
      wp (forEach f rest) (fun _ s' => I as s') E s from hsuffix as [] s rfl h
  intro rest
  induction rest with
  | nil =>
    intro done s has hI
    rw [List.append_nil] at has
    rw [forEach, wp_pure, has]
    exact hI
  | cons a rest ih =>
    intro done s has hI
    rw [forEach, wp_bind]
    refine wp_mono (hstep done a rest s has hI) (fun _ s' hI' => ?_) fun _ _ he => he
    exact ih (done ++ [a]) s' (by simp [has]) hI'

/-- An invariant of the elements that are done, of the accumulator, and of the state. -/
theorem wp_foldEach {f : β → α → Prog σ ε β} (as : List α) {b : β} {I : List α → β → σ → Prop}
    (hstep : ∀ done a rest b s, as = done ++ a :: rest → I done b s →
      wp (f b a) (fun b' s' => I (done ++ [a]) b' s') E s)
    (h : I [] b s) : wp (foldEach f b as) (fun b' s' => I as b' s') E s := by
  suffices hsuffix : ∀ rest done b s, as = done ++ rest → I done b s →
      wp (foldEach f b rest) (fun b' s' => I as b' s') E s from hsuffix as [] b s rfl h
  intro rest
  induction rest with
  | nil =>
    intro done b s has hI
    rw [List.append_nil] at has
    rw [foldEach, wp_pure, has]
    exact hI
  | cons a rest ih =>
    intro done b s has hI
    rw [foldEach, wp_bind]
    refine wp_mono (hstep done a rest b s has hI) (fun b' s' hI' => ?_) fun _ _ he => he
    exact ih (done ++ [a]) b' s' (by simp [has]) hI'

end Rules

/-! ## An invariant of the state -/

/-- From every state with `I`, the program ends in one with `I`: with a value as `P` says, or by
throwing as `F` says. -/
def Keeps (I : σ → Prop) (F : ε → Prop) (x : Prog σ ε α) (P : α → Prop) : Prop :=
  ∀ s, I s → wp x (fun a s' => I s' ∧ P a) (fun e s' => I s' ∧ F e) s

section Keeps

variable {I : σ → Prop} {F : ε → Prop} {x : Prog σ ε α} {P P' : α → Prop}

theorem Keeps.pure {a : α} (h : P a) : Keeps I F (Pure.pure a : Prog σ ε α) P :=
  fun _ hs => ⟨hs, h⟩

theorem Keeps.throw {e : ε} (h : F e) : Keeps I F (MonadExcept.throw e : Prog σ ε α) P :=
  fun _ hs => ⟨hs, h⟩

theorem Keeps.mono (h : Keeps I F x P) (hp : ∀ a, P a → P' a) : Keeps I F x P' := by
  intro s hs
  refine wp_mono (h s hs) ?_ fun _ _ he => he
  intro a s' ha
  exact ⟨ha.1, hp a ha.2⟩

theorem Keeps.bind {f : α → Prog σ ε β} {Q : β → Prop} (h : Keeps I F x P)
    (hf : ∀ a, P a → Keeps I F (f a) Q) : Keeps I F (x >>= f) Q := by
  intro s hs
  rw [wp_bind]
  refine wp_mono (h s hs) ?_ fun _ _ he => he
  intro a s' ha
  exact hf a ha.2 s' ha.1

/-- What is read says something of the state it is read in. -/
theorem Keeps.gets {f : σ → α} (h : ∀ s, I s → P (f s)) : Keeps I F (gets f) P :=
  fun s hs => ⟨hs, h s hs⟩

theorem Keeps.lift {y : Except ε α} (hok : ∀ a, y = .ok a → P a) (herror : ∀ e, y = .error e → F e) :
    Keeps I F (lift y) P := by
  intro s hs
  cases y with
  | ok a => exact ⟨hs, hok a rfl⟩
  | error e => exact ⟨hs, herror e rfl⟩

/-- What was caught leaves no trace but the state. -/
theorem Keeps.tryCatch {F' : ε → Prop} {h : ε → Prog σ ε α} (hx : Keeps I F' x P)
    (hh : ∀ e, F' e → Keeps I F (h e) P) : Keeps I F (MonadExcept.tryCatch x h) P := by
  intro s hs
  rw [wp_tryCatch]
  refine wp_mono (hx s hs) (fun _ _ ha => ha) ?_
  intro e s' he
  exact hh e he.2 s' he.1

theorem Keeps.foldEach {f : β → α → Prog σ ε β} (as : List α) {b : β} (J : List α → β → Prop)
    (hstep : ∀ done a rest b, as = done ++ a :: rest → J done b →
      Keeps I F (f b a) fun b' => J (done ++ [a]) b')
    (h : J [] b) : Keeps I F (foldEach f b as) (J as) := by
  intro s hs
  have hwp := wp_foldEach (f := f) (b := b) (s := s) (E := fun e s' => I s' ∧ F e) as
    (I := fun done b s => I s ∧ J done b)
    (fun done a rest b s has hI => hstep done a rest b has hI.2 s hI.1) ⟨hs, h⟩
  exact hwp

theorem Keeps.collect {f : α → Prog σ ε (List β)} (as : List α)
    (h : ∀ a ∈ as, Keeps I F (f a) fun _ => True) :
    Keeps I F (collect f as) fun _ => True := by
  intro s hs
  have hwp := wp_collect (f := f) (s := s) (E := fun e s' => I s' ∧ F e) as
    (I := fun _ _ s => I s) (fun done a rest out s has hI => ?_) hs
  · exact wp_mono hwp (fun _ _ hI => ⟨hI, trivial⟩) fun _ _ he => he
  · have ha : a ∈ as := by
      rw [has]
      exact List.mem_append_right _ (List.mem_cons_self ..)
    exact wp_mono (h a ha s hI) (fun _ _ hI' => hI'.1) fun _ _ he => he

/-- The state that a program leaves, however it ends. -/
theorem Keeps.state (h : Keeps I F x P) {s : σ} (hs : I s) : I (x s).2 := by
  have hwp := h s hs
  unfold wp at hwp
  generalize x s = out at hwp ⊢
  obtain ⟨result, s'⟩ := out
  cases result with
  | ok => exact hwp.1
  | error => exact hwp.1

end Keeps

end Prog

end DumpLedger.Lib
