import Mathlib.Data.List.Induction
import Mathlib.Order.Basic
import Mathlib.Tactic.Common

/-!
# Deterministic transducers: runs, traces and invariant rules

A `Transducer σ ε ω` reads one input of type `ε` per step, moves between states of type `σ` and
emits an output of type `ω`. Nothing in this file knows what the machine is.

* `exec M s es` — the state after the inputs `es`; `trace M s es` — the list of `Entry`s
  (state before, input, state after, output), one per input.
* `mem_trace_iff`, `trace_eq_append_cons` — an entry of a trace is a step from the state that a
  prefix of the inputs reaches.
* **The invariant rules**: `exec_invariant` (a property every step preserves), `guarded_invariant`
  (a property preserved by the steps that meet a condition, along a trace all of whose entries meet
  it) and `history_invariant` (a relation between the entries so far and the current state).

The three rules are the only inductions over runs in the development: everywhere else a proof
about runs is a proof about one step.
-/

namespace CowboyPoker.Found

variable {σ ε ω : Type*}

/-- A deterministic machine with outputs. -/
structure Transducer (σ ε ω : Type*) where
  /-- One step: the next state and what the step emits. -/
  step : σ → ε → σ × ω

/-- One step of a run, as recorded in a trace. -/
structure Entry (σ ε ω : Type*) where
  /-- The state the step starts from. -/
  before : σ
  /-- The input it consumes. -/
  input : ε
  /-- The state it reaches. -/
  after : σ
  /-- What it emits. -/
  output : ω

namespace Transducer

variable (M : Transducer σ ε ω)

/-- The entry of the step that `M` takes from `s` on `e`. -/
def entry (s : σ) (e : ε) : Entry σ ε ω := ⟨s, e, (M.step s e).1, (M.step s e).2⟩

/-- The state after reading the inputs `es` from `s`. -/
def exec (s : σ) : List ε → σ
  | [] => s
  | e :: es => exec (M.step s e).1 es

/-- The entries of the run on `es` from `s`, oldest first. -/
def trace (s : σ) : List ε → List (Entry σ ε ω)
  | [] => []
  | e :: es => M.entry s e :: trace (M.step s e).1 es

@[simp] theorem exec_nil (s : σ) : M.exec s [] = s := rfl

@[simp] theorem exec_cons (s : σ) (e : ε) (es : List ε) :
    M.exec s (e :: es) = M.exec (M.step s e).1 es := rfl

@[simp] theorem trace_nil (s : σ) : M.trace s [] = [] := rfl

@[simp] theorem trace_cons (s : σ) (e : ε) (es : List ε) :
    M.trace s (e :: es) = M.entry s e :: M.trace (M.step s e).1 es := rfl

@[simp] theorem entry_before (s : σ) (e : ε) : (M.entry s e).before = s := rfl

@[simp] theorem entry_input (s : σ) (e : ε) : (M.entry s e).input = e := rfl

@[simp] theorem entry_after (s : σ) (e : ε) : (M.entry s e).after = (M.step s e).1 := rfl

@[simp] theorem entry_output (s : σ) (e : ε) : (M.entry s e).output = (M.step s e).2 := rfl

/-- Reading one list of inputs after another. -/
theorem exec_append (s : σ) (es fs : List ε) :
    M.exec s (es ++ fs) = M.exec (M.exec s es) fs := by
  induction es generalizing s with
  | nil => rfl
  | cons e es ih => exact ih _

/-- The trace of one list of inputs after another. -/
theorem trace_append (s : σ) (es fs : List ε) :
    M.trace s (es ++ fs) = M.trace s es ++ M.trace (M.exec s es) fs := by
  induction es generalizing s with
  | nil => rfl
  | cons e es ih => simp only [List.cons_append, trace_cons, exec_cons, ih]

/-- A split of a trace at one entry is a split of the inputs at the input of that entry. -/
theorem trace_eq_append_cons {s : σ} {es : List ε} {pre post : List (Entry σ ε ω)}
    {t : Entry σ ε ω} (h : M.trace s es = pre ++ t :: post) :
    ∃ fs e gs, es = fs ++ e :: gs ∧ pre = M.trace s fs ∧ t = M.entry (M.exec s fs) e ∧
      post = M.trace t.after gs := by
  induction es generalizing s pre with
  | nil => simp at h
  | cons e es ih =>
      rcases pre with _ | ⟨u, pre⟩
      · simp only [trace_cons, List.nil_append, List.cons.injEq] at h
        obtain ⟨rfl, rfl⟩ := h
        exact ⟨[], e, es, rfl, rfl, rfl, rfl⟩
      · simp only [trace_cons, List.cons_append, List.cons.injEq] at h
        obtain ⟨fs, e', gs, rfl, rfl, rfl, rfl⟩ := ih h.2
        exact ⟨e :: fs, e', gs, rfl, by rw [trace_cons, h.1], rfl, rfl⟩

/-- The entries of a trace are the steps taken from the states its prefixes reach. -/
theorem mem_trace_iff {s : σ} {es : List ε} {t : Entry σ ε ω} :
    t ∈ M.trace s es ↔ ∃ fs e gs, es = fs ++ e :: gs ∧ t = M.entry (M.exec s fs) e := by
  constructor
  · intro h
    obtain ⟨pre, post, hsplit⟩ := List.append_of_mem h
    obtain ⟨fs, e, gs, hes, -, ht, -⟩ := M.trace_eq_append_cons hsplit
    exact ⟨fs, e, gs, hes, ht⟩
  · rintro ⟨fs, e, gs, rfl, rfl⟩
    simp [trace_append]

/-- An entry of a trace is determined by where it starts and what it reads. -/
theorem eq_entry_of_mem_trace {s : σ} {es : List ε} {t : Entry σ ε ω} (h : t ∈ M.trace s es) :
    t = M.entry t.before t.input := by
  obtain ⟨fs, e, gs, -, rfl⟩ := M.mem_trace_iff.mp h
  rfl

/-- The step that an entry of a trace records. -/
theorem step_of_mem_trace {s : σ} {es : List ε} {t : Entry σ ε ω} (h : t ∈ M.trace s es) :
    M.step t.before t.input = (t.after, t.output) := by
  obtain ⟨fs, e, gs, -, rfl⟩ := M.mem_trace_iff.mp h
  rfl

/-! ## The invariant rules -/

/-- **History rule.** A relation between the entries so far and the state they lead to, kept by
every step that meets the condition `C`, holds at every point of a run whose entries all meet
`C`. -/
theorem history_invariant {C : Entry σ ε ω → Prop} {J : List (Entry σ ε ω) → σ → Prop} {s₀ : σ}
    (h₀ : J [] s₀)
    (hstep : ∀ h s e, J h s → C (M.entry s e) → J (h ++ [M.entry s e]) (M.step s e).1)
    (es : List ε) (hC : ∀ t ∈ M.trace s₀ es, C t) : J (M.trace s₀ es) (M.exec s₀ es) := by
  induction es using List.reverseRecOn with
  | nil => exact h₀
  | append_singleton es e ih =>
      have htrace : M.trace s₀ (es ++ [e]) = M.trace s₀ es ++ [M.entry (M.exec s₀ es) e] := by
        rw [trace_append, trace_cons, trace_nil]
      have hexec : M.exec s₀ (es ++ [e]) = (M.step (M.exec s₀ es) e).1 := by
        rw [exec_append, exec_cons, exec_nil]
      rw [htrace] at hC ⊢
      rw [hexec]
      refine hstep _ _ _ (ih fun t ht => hC t (List.mem_append_left _ ht)) ?_
      exact hC _ (List.mem_append_right _ (List.mem_singleton_self _))

/-- **Guarded rule.** A property kept by the steps that meet `C` holds after a run whose entries
all meet `C`. -/
theorem guarded_invariant {C : Entry σ ε ω → Prop} {I : σ → Prop} {s₀ : σ} (h₀ : I s₀)
    (hstep : ∀ s e, I s → C (M.entry s e) → I (M.step s e).1)
    (es : List ε) (hC : ∀ t ∈ M.trace s₀ es, C t) : I (M.exec s₀ es) :=
  M.history_invariant (C := C) (J := fun _ s => I s) h₀ (fun _ s e hI hCt => hstep s e hI hCt) es hC

/-- **Invariant rule.** A property kept by every step holds of every reachable state. -/
theorem exec_invariant {I : σ → Prop} {s₀ : σ} (h₀ : I s₀) (hstep : ∀ s e, I s → I (M.step s e).1)
    (es : List ε) : I (M.exec s₀ es) :=
  M.guarded_invariant (C := fun _ => True) h₀ (fun s e hI _ => hstep s e hI) es fun _ _ => trivial

/-- The invariant rule at the start of every entry of a trace. -/
theorem trace_invariant {I : σ → Prop} {s₀ : σ} (h₀ : I s₀) (hstep : ∀ s e, I s → I (M.step s e).1)
    {es : List ε} {t : Entry σ ε ω} (ht : t ∈ M.trace s₀ es) : I t.before := by
  obtain ⟨fs, e, gs, -, rfl⟩ := M.mem_trace_iff.mp ht
  exact M.exec_invariant h₀ hstep fs

/-- The guarded rule at the start of every entry of a trace. -/
theorem guarded_trace_invariant {C : Entry σ ε ω → Prop} {I : σ → Prop} {s₀ : σ} (h₀ : I s₀)
    (hstep : ∀ s e, I s → C (M.entry s e) → I (M.step s e).1) {es : List ε}
    (hC : ∀ t ∈ M.trace s₀ es, C t) {t : Entry σ ε ω} (ht : t ∈ M.trace s₀ es) : I t.before := by
  obtain ⟨fs, e, gs, rfl, rfl⟩ := M.mem_trace_iff.mp ht
  apply M.guarded_invariant h₀ hstep fs
  intro u hu
  apply hC u
  rw [trace_append]
  exact List.mem_append_left _ hu

/-- A measure that no step decreases is at no point of a run above its value at the end. -/
theorem after_le_exec_of_mem_trace {α : Type*} [Preorder α] {f : σ → α}
    (hmono : ∀ s e, f s ≤ f (M.step s e).1) {s₀ : σ} {es : List ε} {t : Entry σ ε ω}
    (ht : t ∈ M.trace s₀ es) : f t.after ≤ f (M.exec s₀ es) := by
  obtain ⟨fs, e, gs, rfl, rfl⟩ := M.mem_trace_iff.mp ht
  rw [exec_append, exec_cons]
  exact M.exec_invariant (I := fun s => f (M.entry (M.exec s₀ fs) e).after ≤ f s) le_rfl
    (fun s e' hs => hs.trans (hmono s e')) gs

end Transducer

end CowboyPoker.Found
