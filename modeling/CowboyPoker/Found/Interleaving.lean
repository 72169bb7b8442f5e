import CowboyPoker.Found.Transducer
import Mathlib.Algebra.BigOperators.Group.Finset.Basic
import Mathlib.Logic.Function.Basic

/-!
# Threads over shared state

Threads of type `τ` run one program over shared state of type `σ`. Each has a position of type `π`;
a scheduler picks the thread that moves next and hands it a choice of type `κ` (what it is to call,
how a system call ends, what the clock shows).

* `Program` — what a thread does at a position: the next shared state, its next position and what the
  step shows, or nothing when it cannot move. `interleave` — all interleavings, as a `Transducer`.
* `LocalInv` — the invariants that proofs about threads are made of: a property of the shared state,
  a property of each thread, and a compatibility of any two threads. `LocalInv.step` is the rule of
  Owicki and Gries: the moving thread keeps the first two, and does not interfere with the others.
* `WitnessInv` — "the shared state satisfies `A`, or some thread stands at a position in `T`".
* `sum_of_moved` — how a sum over the threads changes when one of them moves.
-/

namespace CowboyPoker.Found

variable {τ σ π κ ω : Type*}

/-- The shared state and the position of every thread. -/
structure Processes (τ σ π : Type*) where
  /-- What the threads share. -/
  shared : σ
  /-- Where each thread is. -/
  pc : τ → π

/-- What one step of a thread does; `none` when the thread cannot take it. -/
abbrev Program (τ σ π κ ω : Type*) := τ → σ → π → κ → Option (σ × π × ω)

section machine

variable [DecidableEq τ]

/-- All interleavings of the threads. A choice that the thread cannot follow changes nothing. -/
def interleave (A : Program τ σ π κ ω) : Transducer (Processes τ σ π) (τ × κ) (Option ω) where
  step s e :=
    match A e.1 s.shared (s.pc e.1) e.2 with
    | none => (s, none)
    | some (shared, p, o) => (⟨shared, Function.update s.pc e.1 p⟩, some o)

variable {A : Program τ σ π κ ω} {s : Processes τ σ π}

/-- A step that the thread cannot take. -/
theorem interleave_step_of_none {t : τ} {k : κ} (h : A t s.shared (s.pc t) k = none) :
    (interleave A).step s (t, k) = (s, none) := by
  simp only [interleave, h]

/-- A step that the thread takes. -/
theorem interleave_step_of_some {t : τ} {k : κ} {σ' : σ} {p' : π} {o : ω}
    (h : A t s.shared (s.pc t) k = some (σ', p', o)) :
    (interleave A).step s (t, k) = (⟨σ', Function.update s.pc t p'⟩, some o) := by
  simp only [interleave, h]

/-- **The step rule.** A property holds after a step if it held before and every step that the thread
can take establishes it. -/
theorem interleave_step {I : Processes τ σ π → Prop} (hI : I s) (e : τ × κ)
    (hact : ∀ σ' p' o, A e.1 s.shared (s.pc e.1) e.2 = some (σ', p', o) →
      I ⟨σ', Function.update s.pc e.1 p'⟩) : I ((interleave A).step s e).1 := by
  obtain ⟨t, k⟩ := e
  rcases h : A t s.shared (s.pc t) k with _ | ⟨σ', p', o⟩
  · rwa [interleave_step_of_none h]
  · rw [interleave_step_of_some h]
    exact hact σ' p' o h

end machine

/-! ## Local invariants -/

/-- A property of the shared state, one of each thread, and one of any two threads. -/
structure LocalInv (G : σ → Prop) (L : τ → σ → π → Prop) (C : π → π → Prop)
    (s : Processes τ σ π) : Prop where
  /-- The shared state. -/
  shared : G s.shared
  /-- Each thread. -/
  each : ∀ t, L t s.shared (s.pc t)
  /-- Any two threads. -/
  pairs : ∀ t u, t ≠ u → C (s.pc t) (s.pc u)

variable {G : σ → Prop} {L : τ → σ → π → Prop} {C : π → π → Prop} {s : Processes τ σ π}

/-- **The rule of Owicki and Gries.** A step keeps the invariants if the thread that takes it keeps
its own, and every other thread keeps its own in spite of it. -/
theorem LocalInv.update [DecidableEq τ] (h : LocalInv G L C s) {t : τ} {σ' : σ} {p' : π}
    (hshared : G σ') (hself : L t σ' p')
    (hothers : ∀ u, u ≠ t → L u σ' (s.pc u) ∧ C p' (s.pc u) ∧ C (s.pc u) p') :
    LocalInv G L C ⟨σ', Function.update s.pc t p'⟩ where
  shared := hshared
  each := by
    rw [Function.forall_update_iff s.pc fun u q => L u σ' q]
    exact ⟨hself, fun u hu => (hothers u hu).1⟩
  pairs u v huv := by
    by_cases hu : u = t
    · subst hu
      simp only [Function.update_self, Function.update_of_ne (Ne.symm huv)]
      exact (hothers v (Ne.symm huv)).2.1
    · by_cases hv : v = t
      · subst hv
        simp only [Function.update_self, Function.update_of_ne hu]
        exact (hothers u hu).2.2
      · simp only [Function.update_of_ne hu, Function.update_of_ne hv]
        exact h.pairs u v huv

/-! ## Witnesses -/

/-- The shared state satisfies `A`, or some thread stands at a position in `T`. -/
def WitnessInv (A : σ → Prop) (T : π → Prop) (s : Processes τ σ π) : Prop :=
  A s.shared ∨ ∃ t, T (s.pc t)

/-- A step keeps a witness if the thread that takes it hands the witness on. -/
theorem WitnessInv.update [DecidableEq τ] {A : σ → Prop} {T : π → Prop} (h : WitnessInv A T s)
    {t : τ} {σ' : σ} {p' : π} (hstep : A s.shared ∨ T (s.pc t) → A σ' ∨ T p') :
    WitnessInv A T ⟨σ', Function.update s.pc t p'⟩ := by
  have hhand : A σ' ∨ T p' → WitnessInv A T ⟨σ', Function.update s.pc t p'⟩ := by
    rintro (hA | hT)
    · exact .inl hA
    · exact .inr ⟨t, by simpa only [Function.update_self] using hT⟩
  rcases h with hA | ⟨u, hu⟩
  · exact hhand (hstep (.inl hA))
  · by_cases hut : u = t
    · subst hut
      exact hhand (hstep (.inr hu))
    · exact .inr ⟨u, by simpa only [Function.update_of_ne hut] using hu⟩

/-! ## Sums over the threads -/

/-- A sum over the threads changes by the summand of the thread that moves. -/
theorem sum_of_moved [Fintype τ] [DecidableEq τ] (f : π → ℕ) (pc : τ → π) (t : τ) (p' : π) :
    ∑ u, f (Function.update pc t p' u) + f (pc t) = ∑ u, f (pc u) + f p' := by
  have hsplit : ∀ g : τ → π, ∑ u, f (g u) = f (g t) + ∑ u ∈ Finset.univ.erase t, f (g u) :=
    fun g => (Finset.add_sum_erase _ _ (Finset.mem_univ t)).symm
  have hrest : ∑ u ∈ Finset.univ.erase t, f (Function.update pc t p' u) =
      ∑ u ∈ Finset.univ.erase t, f (pc u) :=
    Finset.sum_congr rfl fun u hu => by rw [Function.update_of_ne (Finset.ne_of_mem_erase hu)]
  rw [hsplit, hsplit pc, hrest, Function.update_self]
  omega

end CowboyPoker.Found
