import CowboyPoker.Found.Transducer

/-!
# Forward simulation of transducers

A machine that takes small steps and one that takes large ones, related state by state: if every step
of the first is matched by inputs of the second that show the same, every run of the first is matched by
a run of the second that shows the same (`trace_simulation`).
-/

namespace CowboyPoker.Found

namespace Transducer

variable {σ ε ω σ' ε' ω' : Type*} {M : Transducer σ ε ω} {A : Transducer σ' ε' ω'}
  {R : σ → σ' → Prop}

/-- **Forward simulation.** What an entry shows is a list, so that a step which shows nothing may be
matched by no input at all. -/
theorem trace_simulation {ο : Type*} (shows : Entry σ ε ω → List ο) (shows' : Entry σ' ε' ω' → List ο)
    (hstep : ∀ s a e, R s a → ∃ fs, R (M.step s e).1 (A.exec a fs) ∧
      (A.trace a fs).flatMap shows' = shows (M.entry s e)) {s : σ} {a : σ'} (h : R s a)
    (es : List ε) : ∃ fs, R (M.exec s es) (A.exec a fs) ∧
      (A.trace a fs).flatMap shows' = (M.trace s es).flatMap shows := by
  induction es generalizing s a with
  | nil => exact ⟨[], h, rfl⟩
  | cons e es ih =>
      obtain ⟨fs, hnext, hshows⟩ := hstep s a e h
      obtain ⟨gs, hlast, hrest⟩ := ih hnext
      refine ⟨fs ++ gs, ?_, ?_⟩
      · rw [exec_append]
        exact hlast
      · rw [trace_append, List.flatMap_append, trace_cons, List.flatMap_cons, hshows, hrest]

end Transducer

end CowboyPoker.Found
