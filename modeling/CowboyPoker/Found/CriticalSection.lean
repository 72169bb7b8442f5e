import Mathlib.Logic.Function.Basic
import Mathlib.Tactic.Common

/-!
# Critical sections are atomic

Operations of type `ι` work on a state of type `σ` in steps, each under a lock: an operation that writes
is alone in its section, the others leave the state as it is. A step may depend on a choice of type `κ`.

* `Section` — the operations, cut into steps. `Section.Reaches`, `Section.Computes` — what an operation
  does without interruption, up to a position and up to its result.
* `Alone` — an operation that writes is alone. `Committed` — the state is what the operations that have
  ended made of it, apart from the steps of one that writes.
* `Committed.enter`, `Committed.move`, `Committed.leave` — the three rules: a thread enters, moves in its
  section, and leaves it. At its end an operation has done to the committed state what it does without
  interruption. `Committed.update` is the rule for updates outside all sections that commute with the
  steps inside.
-/

namespace CowboyPoker.Found

variable {τ σ ι β ρ κ : Type*}

/-- Operations that run under a lock. -/
structure Section (σ ι β ρ κ : Type*) where
  /-- The operation may change the state. -/
  writes : ι → Prop
  /-- Where an operation starts. -/
  start : ι → β
  /-- One step of an operation: the next state, and the next position or the result. -/
  step : ι → σ → β → κ → σ × (β ⊕ ρ)
  /-- The other operations leave the state as it is. -/
  frame : ∀ i s b k, ¬ writes i → (step i s b k).1 = s

namespace Section

variable (S : Section σ ι β ρ κ)

/-- Without interruption, the operation `i` gets from `a` to the position `b` in the state `s`. -/
inductive Reaches (i : ι) (a : σ) : σ → β → Prop
  | start : Reaches i a a (S.start i)
  | step {s s' : σ} {b b' : β} (k : κ) (h : Reaches i a s b) (hstep : S.step i s b k = (s', .inl b')) :
      Reaches i a s' b'

/-- Without interruption, the operation `i` makes `s` of `a` and returns `r`. -/
def Computes (i : ι) (a s : σ) (r : ρ) : Prop :=
  ∃ s' b k, S.Reaches i a s' b ∧ S.step i s' b k = (s, .inr r)

variable {S} {i : ι} {a s : σ} {b : β}

/-- An operation that does not write is still in the state that it started in. -/
theorem Reaches.eq_of_not_writes (h : S.Reaches i a s b) (hi : ¬ S.writes i) : s = a := by
  induction h with
  | start => rfl
  | @step s s' b b' k _ hstep ih =>
      have hframe := S.frame i s b k hi
      rw [hstep] at hframe
      exact hframe.trans ih

/-- An update that commutes with the steps of an operation. -/
theorem Reaches.map {f : σ → σ} {ok : σ → Prop} (h : S.Reaches i a s b) (ha : ok a)
    (hok : ∀ s s' b b' k, S.step i s b k = (s', .inl b') → ok s → ok s')
    (hcomm : ∀ s s' b b' k, S.step i s b k = (s', .inl b') → ok s →
      S.step i (f s) b k = (f s', .inl b')) : S.Reaches i (f a) (f s) b ∧ ok s := by
  induction h with
  | start => exact ⟨.start, ha⟩
  | step k _ hstep ih => exact ⟨.step k ih.1 (hcomm _ _ _ _ k hstep ih.2), hok _ _ _ _ k hstep ih.2⟩

end Section

variable {S : Section σ ι β ρ κ}

/-- Where the threads are in their sections: an operation that writes is alone. -/
def Alone (S : Section σ ι β ρ κ) (pos : τ → Option (ι × β)) : Prop :=
  ∀ t u i b, pos t = some (i, b) → S.writes i → u ≠ t → pos u = none

/-- The state `s` is the committed state `a`, apart from the steps of the operations that are in their
sections. -/
structure Committed (S : Section σ ι β ρ κ) (a s : σ) (pos : τ → Option (ι × β)) : Prop where
  /-- While no operation that writes is in its section, nothing is uncommitted. -/
  same : (∀ t i b, pos t = some (i, b) → ¬ S.writes i) → s = a
  /-- Every operation in its section has come as far as it comes alone. -/
  reaches : ∀ t i b, pos t = some (i, b) → S.Reaches i a s b

namespace Committed

variable [DecidableEq τ] {a s : σ} {pos : τ → Option (ι × β)} {t : τ} {i : ι} {b : β}

omit [DecidableEq τ] in
/-- While the section of another operation is not empty, an operation that does not write is in the
committed state. -/
theorem eq_of_mem (h : Committed S a s pos) (ht : pos t = some (i, b)) (hi : ¬ S.writes i) : s = a :=
  (h.reaches t i b ht).eq_of_not_writes hi

/-- **A thread enters** a section, and the operations in their sections still do not disturb each
other. -/
theorem enter (h : Committed S a s pos) (ht : pos t = none)
    (halone : Alone S (Function.update pos t (some (i, S.start i)))) :
    Committed S a s (Function.update pos t (some (i, S.start i))) := by
  have hsame : s = a := by
    refine h.same fun u j b hu hj => ?_
    by_cases hut : u = t
    · rw [hut, ht] at hu
      cases hu
    · have hself := halone u t j b (by rw [Function.update_of_ne hut, hu]) hj (Ne.symm hut)
      rw [Function.update_self] at hself
      cases hself
  refine ⟨fun _ => hsame, fun u j b hu => ?_⟩
  by_cases hut : u = t
  · subst hut
    rw [Function.update_self] at hu
    cases hu
    rw [hsame]
    exact .start
  · rw [Function.update_of_ne hut] at hu
    exact h.reaches u j b hu

/-- **A thread moves** in its section. -/
theorem move (h : Committed S a s pos) (halone : Alone S pos) (ht : pos t = some (i, b)) {k : κ}
    {s' : σ} {b' : β} (hstep : S.step i s b k = (s', .inl b')) :
    Committed S a s' (Function.update pos t (some (i, b'))) := by
  have hreaches := (h.reaches t i b ht).step k hstep
  constructor
  · intro hreads
    exact hreaches.eq_of_not_writes (hreads t i b' (Function.update_self ..))
  · intro u j c hu
    by_cases hut : u = t
    · subst hut
      rw [Function.update_self] at hu
      cases hu
      exact hreaches
    · rw [Function.update_of_ne hut] at hu
      have hi : ¬ S.writes i := by
        intro hi
        rw [halone t u i b ht hi hut] at hu
        cases hu
      have hframe := S.frame i s b k hi
      rw [hstep] at hframe
      dsimp only at hframe
      rw [hframe]
      exact h.reaches u j c hu

/-- **A thread leaves** its section: its operation has been carried out on the committed state. -/
theorem leave (h : Committed S a s pos) (halone : Alone S pos) (ht : pos t = some (i, b)) {k : κ}
    {s' : σ} {r : ρ} (hstep : S.step i s b k = (s', .inr r)) :
    S.Computes i a s' r ∧ Committed S s' s' (Function.update pos t none) := by
  refine ⟨⟨s, b, k, h.reaches t i b ht, hstep⟩, fun _ => rfl, fun u j c hu => ?_⟩
  by_cases hut : u = t
  · subst hut
    rw [Function.update_self] at hu
    cases hu
  · rw [Function.update_of_ne hut] at hu
    have hi : ¬ S.writes i := by
      intro hi
      rw [halone t u i b ht hi hut] at hu
      cases hu
    have hframe := S.frame i s b k hi
    rw [hstep] at hframe
    dsimp only at hframe
    rw [hframe, h.eq_of_mem ht hi]
    exact h.eq_of_mem ht hi ▸ h.reaches u j c hu

omit [DecidableEq τ] in
/-- **An update outside all sections** that commutes with the steps inside. -/
theorem update (h : Committed S a s pos) {f : σ → σ} (ok : σ → Prop) (ha : ok a)
    (hok : ∀ i s s' b b' k, S.step i s b k = (s', .inl b') → ok s → ok s')
    (hcomm : ∀ i s s' b b' k, S.step i s b k = (s', .inl b') → ok s →
      S.step i (f s) b k = (f s', .inl b')) : Committed S (f a) (f s) pos where
  same hreads := congrArg f (h.same hreads)
  reaches t i b ht := ((h.reaches t i b ht).map ha (hok i) (hcomm i)).1

end Committed

end CowboyPoker.Found
