import Mathlib

/-!
# Checks that throw

A validation is a chain of checks in `Except`, each of which throws or hands a
value on. `guardThat` is `if (!p) throw e`, `orThrow` is `o ?? throw e`.

The lemmas turn "the chain returned" into what each check established:
`bind_eq_ok` peels one step off, `guardThat_eq_ok` and `orThrow_eq_ok` say what a
check that passed tells. `Ensures` is the postcondition of a chain, for a property that
does not depend on the checks in between.
-/

namespace DumpLedger.Lib

variable {ε α β : Type}

def guardThat (p : Prop) [Decidable p] (e : ε) : Except ε Unit :=
  if p then .ok () else .error e

def orThrow (o : Option α) (e : ε) : Except ε α :=
  match o with
  | some a => .ok a
  | none => .error e

@[simp] theorem bind_eq_ok {x : Except ε α} {f : α → Except ε β} {b : β} :
    (x >>= f) = .ok b ↔ ∃ a, x = .ok a ∧ f a = .ok b := by
  cases x with
  | error e => simp [bind, Except.bind]
  | ok a => simp [bind, Except.bind]

@[simp] theorem bind_ok {a : α} {f : α → Except ε β} : ((.ok a : Except ε α) >>= f) = f a := rfl

@[simp] theorem bind_error {e : ε} {f : α → Except ε β} :
    ((.error e : Except ε α) >>= f) = .error e := rfl

@[simp] theorem pure_eq_ok {a b : α} : (pure a : Except ε α) = .ok b ↔ a = b := by
  simp [pure, Except.pure]

@[simp] theorem throw_eq_error {e : ε} : (throw e : Except ε α) = .error e := rfl

@[simp] theorem map_eq_ok {x : Except ε α} {f : α → β} {b : β} :
    (f <$> x) = .ok b ↔ ∃ a, x = .ok a ∧ f a = b := by
  cases x with
  | error e => simp [Functor.map, Except.map]
  | ok a => simp [Functor.map, Except.map]

@[simp] theorem guardThat_eq_ok {p : Prop} [Decidable p] {e : ε} {u : Unit} :
    guardThat p e = .ok u ↔ p := by
  by_cases hp : p <;> simp [guardThat, hp]

theorem guardThat_of {p : Prop} [Decidable p] {e : ε} (h : p) : guardThat p e = .ok () := by
  simp [guardThat, h]

theorem guardThat_of_not {p : Prop} [Decidable p] {e : ε} (h : ¬ p) :
    guardThat p e = .error e := by
  simp [guardThat, h]

@[simp] theorem orThrow_eq_ok {o : Option α} {e : ε} {a : α} : orThrow o e = .ok a ↔ o = some a := by
  cases o <;> simp [orThrow]

@[simp] theorem orThrow_some {a : α} {e : ε} : orThrow (some a) e = .ok a := rfl

@[simp] theorem orThrow_none {e : ε} : orThrow (none : Option α) e = .error e := rfl

/-- An optional field: the check runs on the value when there is one. -/
def forOption (o : Option α) (check : α → Except ε β) : Except ε (Option β) :=
  match o with
  | none => .ok none
  | some a => some <$> check a

@[simp] theorem forOption_none {check : α → Except ε β} : forOption none check = .ok none := rfl

theorem forOption_eq_ok {o : Option α} {check : α → Except ε β} {b : Option β} :
    forOption o check = .ok b ↔
      (o = none ∧ b = none) ∨ ∃ a b', o = some a ∧ check a = .ok b' ∧ b = some b' := by
  cases o with
  | none => simp [forOption, eq_comm]
  | some a =>
    simp only [forOption, map_eq_ok]
    constructor
    · rintro ⟨b', hb, rfl⟩
      exact Or.inr ⟨a, b', rfl, hb, rfl⟩
    · rintro (⟨h, -⟩ | ⟨a', b', h, hb, rfl⟩)
      · cases h
      · cases h
        exact ⟨b', hb, rfl⟩

/-! ## Postconditions -/

/-- What the chain returns, if it returns, satisfies `P`. -/
def Ensures (x : Except ε α) (P : α → Prop) : Prop := ∀ a, x = .ok a → P a

namespace Ensures

theorem bind {x : Except ε α} {f : α → Except ε β} {P : β → Prop}
    (h : ∀ a, x = .ok a → Ensures (f a) P) : Ensures (x >>= f) P := by
  intro b hb
  obtain ⟨a, ha, hfa⟩ := bind_eq_ok.mp hb
  exact h a ha b hfa

theorem ok {a : α} {P : α → Prop} (h : P a) : Ensures (.ok a : Except ε α) P := by
  intro b hb
  cases hb
  exact h

theorem error {e : ε} {P : α → Prop} : Ensures (.error e : Except ε α) P := nofun

end Ensures

end DumpLedger.Lib
