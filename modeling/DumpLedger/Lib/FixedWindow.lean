import Mathlib

/-!
# Attempts in fixed windows

An attempt opens a window when none is open, and the attempts of a window are let through up to
a limit. A window ends `length` after it began; the next begins with the next attempt.

* `windowRun_startedAt` — windows do not overlap
* `countP_window_le` — at most `limit` are let through in a window
* `countP_interval_le` — so at most `2 * limit` in an interval as long as a window

The times are those of an ordered ring and never go back.
-/

namespace DumpLedger.Lib

variable {τ : Type}

structure Window (τ : Type) where
  startedAt : τ
  attempts : Nat

/-- An attempt: when it was made, in which window, and whether it was let through. -/
structure Attempt (τ : Type) where
  now : τ
  startedAt : τ
  admitted : Bool
  deriving DecidableEq

section Definitions

variable [CommRing τ] [LinearOrder τ]

def Window.Live (length now : τ) (w : Window τ) : Prop := now - w.startedAt < length

instance Window.decidableLive {length now : τ} {w : Window τ} : Decidable (w.Live length now) :=
  inferInstanceAs (Decidable (now - w.startedAt < length))

/-- An attempt goes to the window that is open, or opens one. -/
def windowTake (limit : Nat) (length now : τ) : Option (Window τ) → Attempt τ × Window τ
  | none => (⟨now, now, true⟩, ⟨now, 1⟩)
  | some w =>
    if w.Live length now then
      (⟨now, w.startedAt, decide (w.attempts < limit)⟩, ⟨w.startedAt, w.attempts + 1⟩)
    else (⟨now, now, true⟩, ⟨now, 1⟩)

def windowRun (limit : Nat) (length : τ) : Option (Window τ) → List τ → List (Attempt τ)
  | _, [] => []
  | w, now :: rest =>
    (windowTake limit length now w).1 ::
      windowRun limit length (some (windowTake limit length now w).2) rest

/-- The window that is kept after a run. -/
def windowAfter (limit : Nat) (length : τ) (o : Option (Window τ)) (times : List τ) :
    Option (Window τ) :=
  times.foldl (fun o now => some (windowTake limit length now o).2) o

end Definitions

variable [CommRing τ] [LinearOrder τ] [IsStrictOrderedRing τ]
  {limit : Nat} {length now t : τ} {w : Window τ} {o : Option (Window τ)} {times : List τ}

omit [IsStrictOrderedRing τ] in
theorem windowTake_live (h : w.Live length now) :
    windowTake limit length now (some w) =
      (⟨now, w.startedAt, decide (w.attempts < limit)⟩, ⟨w.startedAt, w.attempts + 1⟩) :=
  if_pos h

omit [IsStrictOrderedRing τ] in
/-- Without an open window the attempt opens one and is let through. -/
theorem windowTake_opens (h : ∀ w ∈ o, ¬ w.Live length now) :
    windowTake limit length now o = (⟨now, now, true⟩, ⟨now, 1⟩) := by
  cases o with
  | none => rfl
  | some w => exact if_neg (h w rfl)

omit [IsStrictOrderedRing τ] in
/-- The window of an attempt is the one that is kept. -/
theorem windowTake_startedAt :
    (windowTake limit length now o).2.startedAt = (windowTake limit length now o).1.startedAt := by
  cases o with
  | none => rfl
  | some w =>
    by_cases h : w.Live length now
    · rw [windowTake_live h]
    · rw [windowTake_opens fun w' hw' => Option.some.inj hw' ▸ h]

omit [IsStrictOrderedRing τ] in
theorem windowTake_now : (windowTake limit length now o).1.now = now := by
  cases o with
  | none => rfl
  | some w =>
    by_cases h : w.Live length now
    · rw [windowTake_live h]
    · rw [windowTake_opens fun w' hw' => Option.some.inj hw' ▸ h]

/-- An attempt lies in its window. -/
theorem windowTake_within (limit : Nat) (hlength : 0 < length) (hstart : ∀ w ∈ o, w.startedAt ≤ now) :
    (windowTake limit length now o).1.startedAt ≤ now ∧
      now < (windowTake limit length now o).1.startedAt + length := by
  by_cases h : ∃ w ∈ o, w.Live length now
  · obtain ⟨w, rfl, hlive⟩ := h
    rw [windowTake_live hlive]
    have hlt : now - w.startedAt < length := hlive
    exact ⟨hstart w rfl, by linarith⟩
  · rw [windowTake_opens (by simpa using h)]
    exact ⟨le_refl now, by linarith⟩

/-- The window stays, or the next begins after its end. -/
theorem windowTake_next :
    (windowTake limit length now (some w)).1.startedAt = w.startedAt ∨
      w.startedAt + length ≤ (windowTake limit length now (some w)).1.startedAt := by
  by_cases h : w.Live length now
  · rw [windowTake_live h]
    exact Or.inl rfl
  · rw [windowTake_opens fun w' hw' => Option.some.inj hw' ▸ h]
    have hge : length ≤ now - w.startedAt := not_lt.mp h
    exact Or.inr (by show w.startedAt + length ≤ now; linarith)

/-! ## A run -/

/-- The clock never goes back, and no window begins in the future. -/
def Forward (o : Option (Window τ)) (times : List τ) : Prop :=
  times.Pairwise (· ≤ ·) ∧ ∀ w ∈ o, ∀ now ∈ times, w.startedAt ≤ now

theorem Forward.next (limit : Nat) (hlength : 0 < length) (h : Forward o (now :: times)) :
    Forward (some (windowTake limit length now o).2) times := by
  obtain ⟨hsorted, hstart⟩ := h
  rw [List.pairwise_cons] at hsorted
  refine ⟨hsorted.2, ?_⟩
  intro w' hw' later hlater
  rw [← Option.some.inj hw', windowTake_startedAt]
  have hwithin := windowTake_within limit hlength
    fun w hw => hstart w hw now (List.mem_cons_self ..)
  exact le_trans hwithin.1 (hsorted.1 later hlater)

/-- Every attempt of a run lies in its window, which is the first one or begins after its end. -/
theorem windowRun_startedAt (hlength : 0 < length) (h : Forward o times) :
    ∀ a ∈ windowRun limit length o times,
      a.startedAt ≤ a.now ∧ a.now < a.startedAt + length ∧
        ∀ w ∈ o, a.startedAt = w.startedAt ∨ w.startedAt + length ≤ a.startedAt := by
  induction times generalizing o with
  | nil => simp [windowRun]
  | cons now rest ih =>
    have hfirst : ∀ w ∈ o, (windowTake limit length now o).1.startedAt = w.startedAt ∨
        w.startedAt + length ≤ (windowTake limit length now o).1.startedAt := by
      intro w hw
      rw [Option.mem_def.mp hw]
      exact windowTake_next
    intro a ha
    obtain rfl | ha := List.mem_cons.mp ha
    · have hwithin := windowTake_within limit hlength
        fun w hw => h.2 w hw now (List.mem_cons_self ..)
      rw [windowTake_now]
      exact ⟨hwithin.1, hwithin.2, hfirst⟩
    · obtain ⟨hle, hlt, hnext⟩ := ih (h.next limit hlength) a ha
      refine ⟨hle, hlt, fun w hw => ?_⟩
      have hn := hnext _ rfl
      rw [windowTake_startedAt] at hn
      -- two windows on: the second is later still
      obtain hsame | hlater := hfirst w hw
      · rw [hsame] at hn
        exact hn
      · refine Or.inr ?_
        obtain heq | hge := hn
        · rw [heq]
          exact hlater
        · linarith

/-- Of two attempts of a run the later is in the same window or in one that begins after it. -/
theorem windowRun_pairwise (limit : Nat) (hlength : 0 < length) (h : Forward o times) :
    (windowRun limit length o times).Pairwise fun a b =>
      b.startedAt = a.startedAt ∨ a.startedAt + length ≤ b.startedAt := by
  induction times generalizing o with
  | nil => exact List.Pairwise.nil
  | cons now rest ih =>
    refine List.Pairwise.cons ?_ (ih (h.next limit hlength))
    intro b hb
    have hnext := (windowRun_startedAt hlength (h.next limit hlength) b hb).2.2 _ rfl
    rw [windowTake_startedAt] at hnext
    exact hnext

/-! ## What is let through -/

/-- The attempts that were let through in the window that began at `t`. -/
def admittedIn (t : τ) (attempts : List (Attempt τ)) : Nat :=
  attempts.countP fun a => a.admitted && decide (a.startedAt = t)

/-- The attempts that were let through from `a` to `b`. -/
def admittedBetween (a b : τ) (attempts : List (Attempt τ)) : Nat :=
  attempts.countP fun x => x.admitted && decide (a ≤ x.now ∧ x.now ≤ b)

omit [CommRing τ] [IsStrictOrderedRing τ] in
theorem admittedIn_cons (a : Attempt τ) (attempts : List (Attempt τ)) :
    admittedIn t (a :: attempts) =
      admittedIn t attempts + if a.admitted = true ∧ a.startedAt = t then 1 else 0 := by
  simp [admittedIn, List.countP_cons]

/-- No attempt of a later run falls in a window that is over. -/
theorem admittedIn_past (hlength : 0 < length) (h : Forward (some w) times)
    (ht : t < w.startedAt) : admittedIn t (windowRun limit length (some w) times) = 0 := by
  refine List.countP_eq_zero.mpr fun a ha => ?_
  obtain ⟨-, -, hnext⟩ := windowRun_startedAt hlength h a ha
  have hne : a.startedAt ≠ t := by
    intro heq
    obtain hsame | hlater := hnext w rfl
    · rw [heq] at hsame
      exact absurd hsame (ne_of_lt ht)
    · rw [heq] at hlater
      linarith
  simp [hne]

/-- What is left of a window's limit bounds what a run lets through in it. -/
theorem admittedIn_rest (hlimit : 0 < limit) (hlength : 0 < length)
    (h : Forward (some w) times) :
    admittedIn t (windowRun limit length (some w) times) ≤
      if t = w.startedAt then limit - w.attempts else limit := by
  induction times generalizing w with
  | nil => exact Nat.zero_le _
  | cons now rest ih =>
    have hrest := ih (h.next limit hlength)
    rw [windowRun, admittedIn_cons]
    by_cases hlive : w.Live length now
    · rw [windowTake_live hlive] at hrest ⊢
      by_cases ht : t = w.startedAt
      · subst ht
        simp only [if_true] at hrest
        by_cases hn : w.attempts < limit
        · simp only [hn, decide_true, and_self, if_true]
          omega
        · simp only [hn, decide_false, Bool.false_eq_true, false_and, if_false, if_true]
          omega
      · simp only [ht, if_false] at hrest
        simp only [ht, if_false, Ne.symm ht, and_false, Nat.add_zero]
        exact hrest
    · have hopens : windowTake limit length now (some w) = (⟨now, now, true⟩, ⟨now, 1⟩) :=
        windowTake_opens fun w' hw' => Option.some.inj hw' ▸ hlive
      have hnext := h.next limit hlength
      have hge : length ≤ now - w.startedAt := not_lt.mp hlive
      rw [hopens] at hrest hnext ⊢
      by_cases ht : t = now
      · subst ht
        have hne : ¬ t = w.startedAt := by
          intro heq
          rw [heq, sub_self] at hge
          linarith
        simp only [if_true] at hrest
        simp only [hne, if_false, and_self, if_true]
        omega
      · simp only [ht, if_false] at hrest
        simp only [Ne.symm ht, and_false, if_false, Nat.add_zero]
        split
        · next heq =>
          refine le_trans (le_of_eq (admittedIn_past hlength hnext ?_)) (Nat.zero_le _)
          show t < now
          rw [heq]
          linarith
        · exact hrest

/-- **At most `limit` attempts are let through in a window.** -/
theorem admittedIn_le (hlimit : 0 < limit) (hlength : 0 < length) (h : Forward o times) :
    admittedIn t (windowRun limit length o times) ≤ limit := by
  cases o with
  | some w =>
    refine le_trans (admittedIn_rest hlimit hlength h) ?_
    split
    · exact Nat.sub_le ..
    · exact le_refl _
  | none =>
    cases times with
    | nil => exact Nat.zero_le _
    | cons now rest =>
      have hrest := admittedIn_rest (t := t) hlimit hlength (h.next limit hlength)
      rw [windowTake_opens (by simp)] at hrest
      rw [windowRun, admittedIn_cons, windowTake_opens (by simp)]
      by_cases ht : t = now
      · subst ht
        simp only [if_true] at hrest
        simp only [and_self, if_true]
        omega
      · simp only [ht, if_false] at hrest
        simp only [Ne.symm ht, and_false, if_false, Nat.add_zero]
        exact hrest

/-- The windows of two attempts are the same or do not overlap. -/
def Apart (length : τ) (x y : Attempt τ) : Prop :=
  x.startedAt = y.startedAt ∨ x.startedAt + length ≤ y.startedAt ∨
    y.startedAt + length ≤ x.startedAt

omit [IsStrictOrderedRing τ] in
theorem apart_of_pairwise {attempts : List (Attempt τ)}
    (h : attempts.Pairwise fun x y =>
      y.startedAt = x.startedAt ∨ x.startedAt + length ≤ y.startedAt) :
    ∀ x ∈ attempts, ∀ y ∈ attempts, Apart length x y := by
  have hsymm : Std.Symm (@Apart τ _ _ length) := by
    constructor
    rintro x y (heq | hle | hle)
    · exact Or.inl heq.symm
    · exact Or.inr (Or.inr hle)
    · exact Or.inr (Or.inl hle)
  intro x hx y hy
  refine List.Pairwise.forall_of_forall (R := Apart length) (fun _ _ => Or.inl rfl) ?_ hx hy
  refine h.imp ?_
  rintro a b (heq | hle)
  · exact Or.inl heq.symm
  · exact Or.inr (Or.inl hle)

/-- An interval as long as a window meets two windows at most. -/
theorem two_windows {attempts : List (Attempt τ)} {a : τ}
    (hpairwise : attempts.Pairwise fun x y =>
      y.startedAt = x.startedAt ∨ x.startedAt + length ≤ y.startedAt)
    (hwithin : ∀ x ∈ attempts, x.startedAt ≤ x.now ∧ x.now < x.startedAt + length)
    (hinterval : ∀ x ∈ attempts, a ≤ x.now ∧ x.now ≤ a + length) :
    ∃ s s', ∀ x ∈ attempts, x.startedAt = s ∨ x.startedAt = s' := by
  cases attempts with
  | nil => exact ⟨0, 0, by simp⟩
  | cons first rest =>
    rw [List.pairwise_cons] at hpairwise
    by_cases hall : ∀ x ∈ rest, x.startedAt = first.startedAt
    · refine ⟨first.startedAt, first.startedAt, ?_⟩
      intro x hx
      obtain rfl | hx := List.mem_cons.mp hx
      · exact Or.inl rfl
      · exact Or.inl (hall x hx)
    · push Not at hall
      obtain ⟨y, hy, hne⟩ := hall
      refine ⟨first.startedAt, y.startedAt, ?_⟩
      intro x hx
      obtain rfl | hx := List.mem_cons.mp hx
      · exact Or.inl rfl
      -- a window between the first and the last one is longer than the interval
      have hfirst := hwithin first (List.mem_cons_self ..)
      have hfa := hinterval first (List.mem_cons_self ..)
      have hxw := hwithin x (List.mem_cons_of_mem _ hx)
      have hxa := hinterval x (List.mem_cons_of_mem _ hx)
      have hyw := hwithin y (List.mem_cons_of_mem _ hy)
      have hya := hinterval y (List.mem_cons_of_mem _ hy)
      have hfy := (hpairwise.1 y hy).resolve_left hne
      obtain hsame | hlater := hpairwise.1 x hx
      · exact Or.inl hsame
      · refine Or.inr ?_
        by_contra hxy
        obtain heq | hle | hle := apart_of_pairwise hpairwise.2 x hx y hy
        · exact hxy heq
        · linarith
        · linarith

theorem countP_le_add {α : Type} {l : List α} {p q r : α → Bool}
    (h : ∀ x ∈ l, p x = true → q x = true ∨ r x = true) : l.countP p ≤ l.countP q + l.countP r := by
  induction l with
  | nil => exact Nat.zero_le _
  | cons x rest ih =>
    have hrest := ih fun y hy => h y (List.mem_cons_of_mem _ hy)
    have hx := h x (List.mem_cons_self ..)
    simp only [List.countP_cons]
    cases hp : p x with
    | false =>
      simp only [Bool.false_eq_true, if_false]
      omega
    | true =>
      obtain hq | hr := hx hp
      · simp only [hq, if_true]
        omega
      · simp only [hr, if_true]
        omega

/-- **At most `2 * limit` attempts are let through in an interval as long as a window.** -/
theorem admittedBetween_le (hlimit : 0 < limit) (hlength : 0 < length) (h : Forward o times)
    (a : τ) : admittedBetween a (a + length) (windowRun limit length o times) ≤ 2 * limit := by
  have hin : ∀ x ∈ (windowRun limit length o times).filter
      (fun x => decide (a ≤ x.now ∧ x.now ≤ a + length)),
      x ∈ windowRun limit length o times ∧ a ≤ x.now ∧ x.now ≤ a + length := by
    simp [List.mem_filter]
  obtain ⟨s, s', htwo⟩ := two_windows
    ((windowRun_pairwise limit hlength h).filter
      fun x : Attempt τ => decide (a ≤ x.now ∧ x.now ≤ a + length))
    (fun x hx => by
      have hw := windowRun_startedAt hlength h x (hin x hx).1
      exact ⟨hw.1, hw.2.1⟩)
    (fun x hx => (hin x hx).2)
  have hcover : admittedBetween a (a + length) (windowRun limit length o times) ≤
      admittedIn s (windowRun limit length o times) +
        admittedIn s' (windowRun limit length o times) := by
    refine countP_le_add fun x hx hp => ?_
    obtain ⟨hadmitted, hbetween⟩ : x.admitted = true ∧ a ≤ x.now ∧ x.now ≤ a + length := by
      simpa using hp
    obtain heq | heq := htwo x (List.mem_filter.mpr ⟨hx, by simpa using hbetween⟩)
    · exact Or.inl (by simp [hadmitted, heq])
    · exact Or.inr (by simp [hadmitted, heq])
  calc admittedBetween a (a + length) (windowRun limit length o times)
      ≤ _ := hcover
    _ ≤ limit + limit := Nat.add_le_add (admittedIn_le hlimit hlength h)
        (admittedIn_le hlimit hlength h)
    _ = 2 * limit := (Nat.two_mul limit).symm

end DumpLedger.Lib
