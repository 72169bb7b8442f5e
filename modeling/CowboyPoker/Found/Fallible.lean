import Mathlib.Data.List.Basic

/-!
# Computations that stop with an error

* `Ends P E x` — the computation `x` ends with a value that satisfies `P` or with an error that
  satisfies `E`.
* `Ends.bind`, `Ends.foldlM_prefix`, `Ends.foldlM` — the rules for a sequence and for a loop over a
  list.
-/

namespace CowboyPoker.Found

universe u v

variable {ε : Type u} {α β : Type v} {P : α → Prop} {Q : β → Prop} {E : ε → Prop}

/-- A computation ends with a value that satisfies `P` or with an error that satisfies `E`. -/
def Ends (P : α → Prop) (E : ε → Prop) : Except ε α → Prop
  | .ok a => P a
  | .error e => E e

/-- A weaker statement about both ends. -/
theorem Ends.imp {P' : α → Prop} {E' : ε → Prop} {x : Except ε α} (h : Ends P E x)
    (hP : ∀ a, P a → P' a) (hE : ∀ e, E e → E' e) : Ends P' E' x := by
  cases x with
  | ok a => exact hP a h
  | error e => exact hE e h

/-- A weaker statement about the value. -/
theorem Ends.mono {P' : α → Prop} {x : Except ε α} (h : Ends P E x) (hP : ∀ a, P a → P' a) :
    Ends P' E x := h.imp hP fun _ => id

/-- The rule for a sequence. -/
theorem Ends.bind {x : Except ε α} {f : α → Except ε β} (h : Ends P E x)
    (hf : ∀ a, P a → Ends Q E (f a)) : Ends Q E (x >>= f) := by
  cases x with
  | ok a => exact hf a h
  | error e => exact h

/-- The rule for a loop: `I done` holds once the elements in `done`, a prefix of the list, are dealt
with. -/
theorem Ends.foldlM_prefix {I : List α → β → Prop} {f : β → α → Except ε β} (l : List α)
    (hstep : ∀ done a rest b, done ++ a :: rest = l → I done b → Ends (I (done ++ [a])) E (f b a))
    {b : β} (h : I [] b) : Ends (I l) E (l.foldlM f b) := by
  suffices hsuffix : ∀ rest done b, done ++ rest = l → I done b →
      Ends (I l) E (rest.foldlM f b) from hsuffix l [] b rfl h
  intro rest
  induction rest with
  | nil =>
      intro done b heq hI
      rw [List.append_nil] at heq
      exact heq ▸ hI
  | cons a rest ih =>
      intro done b heq hI
      rw [List.foldlM_cons]
      refine Ends.bind (hstep done a rest b heq hI) fun b' hb' => ih (done ++ [a]) b' ?_ hb'
      rw [List.append_assoc, List.singleton_append, heq]

/-- The same rule for steps that do not depend on what follows. -/
theorem Ends.foldlM {I : List α → β → Prop} {f : β → α → Except ε β} (l : List α)
    (hstep : ∀ done a b, a ∈ l → I done b → Ends (I (done ++ [a])) E (f b a)) {b : β}
    (h : I [] b) : Ends (I l) E (l.foldlM f b) :=
  Ends.foldlM_prefix l (fun done a _ b heq =>
    hstep done a b (heq ▸ List.mem_append_right _ List.mem_cons_self)) h

end CowboyPoker.Found
