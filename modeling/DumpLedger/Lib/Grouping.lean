import Mathlib

/-!
# Grouping

Pairs `(a, b)` are grouped by the key of `a`, as in a map that keeps its entries in the order in
which their keys first came. A group has the first `a` of its key, and the members `b` that came
with the key, each once.

* `lookup_add` — a group after one pair more
* `grouped_addAll` — what the groups of a list of pairs say of the list
-/

namespace DumpLedger.Lib

structure Group (α β : Type) where
  first : α
  members : List β

namespace Group

variable {α β κ : Type} [DecidableEq κ] [DecidableEq β] (key : α → κ)

/-- A set with one element more, in the order of insertion. -/
def insertMember (members : List β) (b : β) : List β :=
  if b ∈ members then members else members ++ [b]

/-- One pair more. -/
def add : List (Group α β) → α × β → List (Group α β)
  | [], (a, b) => [⟨a, [b]⟩]
  | g :: gs, (a, b) =>
    if key g.first = key a then ⟨g.first, insertMember g.members b⟩ :: gs
    else g :: add gs (a, b)

/-- The groups of a list of pairs. -/
def addAll (pairs : List (α × β)) : List (Group α β) := pairs.foldl (add key) []

/-- The group of a key. -/
def lookup (k : κ) (groups : List (Group α β)) : Option (Group α β) :=
  groups.find? fun g => decide (key g.first = k)

variable {key} {pairs : List (α × β)} {groups : List (Group α β)} {k : κ}

theorem mem_insertMember {members : List β} {b b' : β} :
    b' ∈ insertMember members b ↔ b' ∈ members ∨ b' = b := by
  unfold insertMember
  split
  · next h =>
    constructor
    · exact Or.inl
    · rintro (hb | rfl)
      · exact hb
      · exact h
  · simp

theorem nodup_insertMember {members : List β} {b : β} (h : members.Nodup) :
    (insertMember members b).Nodup := by
  unfold insertMember
  split
  · exact h
  · next hb =>
    refine List.nodup_append.mpr ⟨h, by simp, ?_⟩
    intro a ha a' ha' he
    rw [List.mem_singleton] at ha'
    exact hb (ha' ▸ he ▸ ha)

/-! ## One pair more -/

/-- The keys after one pair more. -/
theorem keys_add (groups : List (Group α β)) (a : α) (b : β) :
    (add key groups (a, b)).map (fun g => key g.first) =
      if key a ∈ groups.map (fun g => key g.first) then groups.map fun g => key g.first
      else (groups.map fun g => key g.first) ++ [key a] := by
  induction groups with
  | nil => simp [add]
  | cons g gs ih =>
    by_cases hkey : key g.first = key a
    · simp [add, hkey]
    · rw [add, if_neg hkey, List.map_cons, ih, List.map_cons]
      by_cases hmem : key a ∈ gs.map fun g => key g.first
      · simp [hmem]
      · simp [hmem, Ne.symm hkey]

theorem nodup_add {a : α} {b : β} (h : (groups.map fun g => key g.first).Nodup) :
    ((add key groups (a, b)).map fun g => key g.first).Nodup := by
  rw [keys_add]
  split
  · exact h
  · next hnew =>
    refine List.nodup_append.mpr ⟨h, by simp, ?_⟩
    intro k hk k' hk' he
    rw [List.mem_singleton] at hk'
    exact hnew (hk' ▸ he ▸ hk)

/-- **A group after one pair more.** -/
theorem lookup_add (groups : List (Group α β)) (a : α) (b : β) (k : κ) :
    lookup key k (add key groups (a, b)) =
      if key a = k then
        some (match lookup key k groups with
          | none => ⟨a, [b]⟩
          | some g => ⟨g.first, insertMember g.members b⟩)
      else lookup key k groups := by
  induction groups with
  | nil => by_cases hk : key a = k <;> simp [add, lookup, hk]
  | cons g gs ih =>
    unfold lookup at ih ⊢
    by_cases hkey : key g.first = key a
    · by_cases hk : key a = k
      · simp [add, hkey, hk]
      · simp [add, hkey, hk]
    · by_cases hk : key a = k
      · have hne : key g.first ≠ k := hk ▸ hkey
        rw [add, if_neg hkey, List.find?_cons, List.find?_cons]
        simp only [hne, decide_false]
        rw [ih, if_pos hk]
      · rw [add, if_neg hkey, List.find?_cons, List.find?_cons]
        by_cases hg : key g.first = k
        · simp [hg, hk]
        · simp only [hg, decide_false]
          exact ih

/-! ## All pairs -/

/-- What the groups of a list of pairs say of the list. -/
structure Grouped (key : α → κ) (pairs : List (α × β)) (groups : List (Group α β)) : Prop where
  nodup : (groups.map fun g => key g.first).Nodup
  absent : ∀ k, lookup key k groups = none → ∀ p ∈ pairs, key p.1 ≠ k
  first : ∀ k g, lookup key k groups = some g → ∃ b, (g.first, b) ∈ pairs
  members : ∀ k g, lookup key k groups = some g →
    ∀ b, b ∈ g.members ↔ ∃ a, (a, b) ∈ pairs ∧ key a = k
  distinct : ∀ k g, lookup key k groups = some g → g.members.Nodup

theorem Grouped.add {p : α × β} (h : Grouped key pairs groups) :
    Grouped key (pairs ++ [p]) (add key groups p) := by
  obtain ⟨a, b⟩ := p
  have hother : ∀ k, key a ≠ k → ∀ b', (∃ a', (a', b') ∈ pairs ++ [(a, b)] ∧ key a' = k) ↔
      ∃ a', (a', b') ∈ pairs ∧ key a' = k := by
    intro k hk b'
    constructor
    · rintro ⟨a', hmem, hkey⟩
      rcases List.mem_append.mp hmem with hmem | hmem
      · exact ⟨a', hmem, hkey⟩
      · simp only [List.mem_singleton, Prod.mk.injEq] at hmem
        exact absurd (hmem.1 ▸ hkey) hk
    · rintro ⟨a', hmem, hkey⟩
      exact ⟨a', List.mem_append_left _ hmem, hkey⟩
  refine ⟨nodup_add h.nodup, ?_, ?_, ?_, ?_⟩
  · intro k hnone p hp
    rw [lookup_add] at hnone
    by_cases hk : key a = k
    · rw [if_pos hk] at hnone
      cases hnone
    · rw [if_neg hk] at hnone
      rcases List.mem_append.mp hp with hp | hp
      · exact h.absent k hnone p hp
      · rw [List.mem_singleton.mp hp]
        exact hk
  · intro k g hg
    rw [lookup_add] at hg
    by_cases hk : key a = k
    · rw [if_pos hk, Option.some.injEq] at hg
      cases hl : lookup key k groups with
      | none =>
        rw [hl] at hg
        exact ⟨b, by rw [← hg]; simp⟩
      | some g₀ =>
        rw [hl] at hg
        obtain ⟨b', hb'⟩ := h.first k g₀ hl
        exact ⟨b', by rw [← hg]; exact List.mem_append_left _ hb'⟩
    · rw [if_neg hk] at hg
      obtain ⟨b', hb'⟩ := h.first k g hg
      exact ⟨b', List.mem_append_left _ hb'⟩
  · intro k g hg b'
    rw [lookup_add] at hg
    by_cases hk : key a = k
    · rw [if_pos hk, Option.some.injEq] at hg
      cases hl : lookup key k groups with
      | none =>
        rw [hl] at hg
        rw [← hg, List.mem_singleton]
        constructor
        · rintro rfl
          exact ⟨a, by simp, hk⟩
        · rintro ⟨a', hmem, hkey⟩
          rcases List.mem_append.mp hmem with hmem | hmem
          · exact absurd hkey (h.absent k hl _ hmem)
          · simp only [List.mem_singleton, Prod.mk.injEq] at hmem
            exact hmem.2
      | some g₀ =>
        rw [hl] at hg
        rw [← hg, mem_insertMember, h.members k g₀ hl b']
        constructor
        · rintro (⟨a', hmem, hkey⟩ | rfl)
          · exact ⟨a', List.mem_append_left _ hmem, hkey⟩
          · exact ⟨a, by simp, hk⟩
        · rintro ⟨a', hmem, hkey⟩
          rcases List.mem_append.mp hmem with hmem | hmem
          · exact Or.inl ⟨a', hmem, hkey⟩
          · simp only [List.mem_singleton, Prod.mk.injEq] at hmem
            exact Or.inr hmem.2
    · rw [if_neg hk] at hg
      rw [h.members k g hg b', hother k hk]
  · intro k g hg
    rw [lookup_add] at hg
    by_cases hk : key a = k
    · rw [if_pos hk, Option.some.injEq] at hg
      cases hl : lookup key k groups with
      | none =>
        rw [hl] at hg
        rw [← hg]
        simp
      | some g₀ =>
        rw [hl] at hg
        rw [← hg]
        exact nodup_insertMember (h.distinct k g₀ hl)
    · rw [if_neg hk] at hg
      exact h.distinct k g hg

/-- **The groups of a list of pairs.** -/
theorem grouped_addAll (pairs : List (α × β)) : Grouped key pairs (addAll key pairs) := by
  suffices hrest : ∀ (rest done : List (α × β)) (groups : List (Group α β)),
      Grouped key done groups →
      Grouped key (done ++ rest) (rest.foldl (Group.add key) groups) by
    have hempty : Grouped key ([] : List (α × β)) [] := by
      refine ⟨by simp, ?_, ?_, ?_, ?_⟩ <;> simp [lookup]
    exact hrest pairs [] [] hempty
  intro rest
  induction rest with
  | nil =>
    intro done groups h
    rw [List.append_nil]
    exact h
  | cons p rest ih =>
    intro done groups h
    have hnext := ih (done ++ [p]) (Group.add key groups p) h.add
    rwa [List.append_assoc] at hnext

omit [DecidableEq β] in
/-- A group is what its key is looked up as. -/
theorem Grouped.lookup_of_mem (h : Grouped key pairs groups) {g : Group α β} (hg : g ∈ groups) :
    lookup key (key g.first) groups = some g := by
  have hnodup := h.nodup
  clear h
  induction groups with
  | nil => cases hg
  | cons g₀ gs ih =>
    rw [List.map_cons, List.nodup_cons] at hnodup
    unfold lookup at ih ⊢
    rw [List.find?_cons]
    rcases List.mem_cons.mp hg with rfl | hg
    · simp
    · have hne : key g₀.first ≠ key g.first := fun he =>
        hnodup.1 (he ▸ List.mem_map_of_mem (f := fun g => key g.first) hg)
      simp only [hne, decide_false]
      exact ih hg hnodup.2

omit [DecidableEq β] in
theorem mem_of_lookup {g : Group α β} (h : lookup key k groups = some g) :
    g ∈ groups ∧ key g.first = k :=
  ⟨List.mem_of_find?_eq_some h, by simpa [lookup] using List.find?_some h⟩

end Group

end DumpLedger.Lib
