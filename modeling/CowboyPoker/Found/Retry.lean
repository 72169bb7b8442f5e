import Mathlib.Data.Nat.Find
import Mathlib.Tactic.Common

/-!
# Attempts that are repeated until one is good

A procedure makes an attempt and, when it does not like the outcome, starts again. The outcomes come from
outside, one for each attempt.

* `Attempt`, `retry` — one attempt, and the repetition with a bound on the number of attempts.
* `Judges` — the outcome alone says how an attempt ends: it is good, it is repeated, or it is neither.
* `Judges.retry_iff` — the repetition ends well exactly when an outcome is good and all before it are
  repeated.
-/

namespace CowboyPoker.Found

/-- How an attempt ends. -/
inductive Attempt (σ ρ : Type)
  /-- The procedure ends with a result. -/
  | done (result : ρ)
  /-- It starts again in another state. -/
  | again (state : σ)

variable {σ ρ ι : Type} {attempt : σ → ι → Attempt σ ρ}

/-- At most `fuel` attempts; `none` when none of them was the last. -/
def retry (attempt : σ → ι → Attempt σ ρ) : ℕ → σ → (ℕ → ι) → Option ρ
  | 0, _, _ => none
  | fuel + 1, s, outcomes =>
      match attempt s (outcomes 0) with
      | .done r => some r
      | .again s => retry attempt fuel s fun n => outcomes (n + 1)

/-- The outcome alone decides how an attempt ends: one that is `good` ends with a result that satisfies
`P`, one that is `repeated` starts again, any other one ends with a result that does not satisfy `P`. -/
structure Judges (attempt : σ → ι → Attempt σ ρ) (P : ρ → Prop) (good repeated : ι → Prop) : Prop where
  of_good : ∀ s i, good i → ∃ r, attempt s i = .done r ∧ P r
  of_repeated : ∀ s i, repeated i → ∃ s', attempt s i = .again s'
  of_neither : ∀ s i, ¬ good i → ¬ repeated i → ∃ r, attempt s i = .done r ∧ ¬ P r

variable {P : ρ → Prop} {good repeated : ι → Prop} {s : σ} {outcomes : ℕ → ι} {fuel n : ℕ}

/-- The first outcome that is not repeated ends the repetition, and well if it is good. -/
theorem Judges.retry_of_first (h : Judges attempt P good repeated) (hgood : good (outcomes n))
    (hbefore : ∀ m < n, repeated (outcomes m)) (hfuel : n < fuel) :
    ∃ r, retry attempt fuel s outcomes = some r ∧ P r := by
  induction n generalizing s outcomes fuel with
  | zero =>
      obtain ⟨fuel, rfl⟩ := Nat.exists_eq_add_of_lt hfuel
      obtain ⟨r, hr, hP⟩ := h.of_good s _ hgood
      exact ⟨r, by rw [Nat.zero_add, retry, hr], hP⟩
  | succ n ih =>
      obtain ⟨fuel, rfl⟩ : ∃ k, fuel = k + 1 := ⟨fuel - 1, by omega⟩
      obtain ⟨s', hs'⟩ := h.of_repeated s _ (hbefore 0 (by omega))
      rw [retry, hs']
      exact ih hgood (fun m hm => hbefore (m + 1) (by omega)) (by omega)

/-- A repetition that ends well has met a good outcome, and only repeated ones before. -/
theorem Judges.exists_first (h : Judges attempt P good repeated) {r : ρ}
    (hr : retry attempt fuel s outcomes = some r) (hP : P r) :
    ∃ n < fuel, good (outcomes n) ∧ ∀ m < n, repeated (outcomes m) := by
  induction fuel generalizing s outcomes with
  | zero => cases hr
  | succ fuel ih =>
      by_cases hgood : good (outcomes 0)
      · exact ⟨0, by omega, hgood, fun m hm => by omega⟩
      · by_cases hagain : repeated (outcomes 0)
        · obtain ⟨s', hs'⟩ := h.of_repeated s _ hagain
          rw [retry, hs'] at hr
          obtain ⟨n, hn, hg, hb⟩ := ih hr
          refine ⟨n + 1, by omega, hg, fun m hm => ?_⟩
          cases m with
          | zero => exact hagain
          | succ m => exact hb m (by omega)
        · obtain ⟨r', hr', hbad⟩ := h.of_neither s _ hgood hagain
          rw [retry, hr'] at hr
          exact absurd (Option.some.inj hr ▸ hP) hbad

variable (s outcomes) in
/-- **The rule of repeated attempts**: with enough attempts the procedure ends well, exactly when some
outcome is good and every outcome before it is repeated. -/
theorem Judges.retry_iff (h : Judges attempt P good repeated) :
    (∃ fuel r, retry attempt fuel s outcomes = some r ∧ P r) ↔
      ∃ n, good (outcomes n) ∧ ∀ m < n, repeated (outcomes m) := by
  constructor
  · rintro ⟨fuel, r, hr, hP⟩
    obtain ⟨n, _, hn⟩ := h.exists_first hr hP
    exact ⟨n, hn⟩
  · rintro ⟨n, hgood, hbefore⟩
    exact ⟨n + 1, h.retry_of_first hgood hbefore (by omega)⟩

/-- Where every outcome that is not good is repeated, one good outcome is all it takes. -/
theorem exists_first_iff {good : ι → Prop} :
    (∃ n, good (outcomes n) ∧ ∀ m < n, ¬ good (outcomes m)) ↔ ∃ n, good (outcomes n) := by
  classical
  constructor
  · exact fun ⟨n, hn, _⟩ => ⟨n, hn⟩
  · exact fun h => ⟨Nat.find h, Nat.find_spec h, fun _ hm => Nat.find_min h hm⟩

end CowboyPoker.Found
