import CowboyPoker.ServerCore.WaitCycles

/-!
# Locks that are acquired again

A lock may be acquired again by the thread that holds it. `PushLock` means to let that pass, since it
orders nothing, but it compares the lock only with the one that the thread pushed last.

* `GuardEntry.Reacquires`, `GuardEntry.Harmless`, `FirstOrder` — steps that push a lock which the thread
  holds, what such a step should do, and the order of the other acquisitions.
* `pushLock_again` — what `PushLock` does to a name that is on the stack: it passes when the name is on
  top, and raises `DEADLOCK_DETECTED` when it is not.
* `recursionHarmless_iff` — recursive acquisitions are harmless in a run just when each of them is of a
  lock with the name of the innermost one.
-/

namespace CowboyPoker.ServerCore

open CowboyPoker.Found DeadLockProfiler Relation

/-! ## Acquisitions -/

section entries

variable {τ L ν : Type}

/-- A step of a run of the threads that use the locks. -/
abbrev GuardEntry (τ L ν : Type) : Type :=
  Entry (Processes τ (GuardShared L ν) (GuardThread L)) (τ × GuardChoice L) (Option Unit)

/-- The thread of a step, before it. -/
def GuardEntry.thread (e : GuardEntry τ L ν) : GuardThread L := e.before.pc e.input.1

/-- The step is a call of `PushLock` for the lock `l`. -/
def GuardEntry.Pushes (e : GuardEntry τ L ν) (l : L) : Prop :=
  e.output ≠ none ∧ ∃ mode, e.thread.pc = .push l mode

/-- The step acquires a lock that the thread holds. -/
def GuardEntry.Reacquires (e : GuardEntry τ L ν) (l : L) : Prop := e.Pushes l ∧ Holds e.thread l

/-- The step raises nothing, and leaves the ordering edges as they are. -/
def GuardEntry.Harmless (e : GuardEntry τ L ν) : Prop :=
  e.after.shared.stop = none ∧
    ∀ a b, e.after.shared.profiler.Edge a b ↔ e.before.shared.profiler.Edge a b

/-- The innermost guard of the thread is on a lock with the name of `l`. -/
def GuardEntry.Innermost (name : L → ν) (e : GuardEntry τ L ν) (l : L) : Prop :=
  ∃ guard ∈ e.thread.held.head?, name guard.1 = name l

/-- The order of first acquisitions: a thread that holds `l` acquires `m`, which it does not hold. -/
def FirstOrder (h : List (GuardEntry τ L ν)) (l m : L) : Prop :=
  ∃ e ∈ h, e.Pushes m ∧ ¬ Holds e.thread m ∧ Holds e.thread l

/-- **The law.** When the order of first acquisitions is acyclic, every other acquisition is harmless. -/
def RecursionHarmless (h : List (GuardEntry τ L ν)) : Prop :=
  Acyclic (FirstOrder h) → ∀ e ∈ h, ∀ l, e.Reacquires l → e.Harmless

/-- Every recursive acquisition is of a lock with the name of the innermost one. -/
def RecursionInnermost (name : L → ν) (h : List (GuardEntry τ L ν)) : Prop :=
  ∀ e ∈ h, ∀ l, e.Reacquires l → e.Innermost name l

end entries

/-! ## Pushing a name again -/

section push

variable {ν : Type} [DecidableEq ν] {d : DeadLockProfiler ν}

/-- The name on top of the stack passes, and nothing is recorded. -/
theorem pushLock_top {top : ℕ} {name : ν} (hname : d.nameToId.lookup name = some top)
    (lLockStack : List ℕ) :
    d.pushLock (top :: lLockStack) name = .ok (d, top :: top :: lLockStack) := by
  have hfind : d.findOrIssue name = (top, d) := by
    simp only [findOrIssue, hname]
  unfold pushLock
  simp only [hfind]
  rw [if_neg fun hnew => hnew.1 rfl]
  rfl

/-- **A name that is on the stack, but not on top,** raises `DEADLOCK_DETECTED`: its id reaches the top,
so that the edge back closes a cycle. -/
theorem pushLock_again (h : d.ProfilerInv) {top lockId : ℕ} {lLockStack : List ℕ} {name : ν}
    (hname : d.nameToId.lookup name = some lockId) (htop : top < d.lockCount)
    (hchain : (top :: lLockStack).IsChain fun upper lower => upper = lower ∨ d.Edge lower upper)
    (hmem : lockId ∈ top :: lLockStack) (hne : top ≠ lockId) :
    ∃ printed, d.pushLock (top :: lLockStack) name = .error (.deadlockDetected printed) := by
  have hid : d.idOf name = lockId := by
    simp only [idOf, findOrIssue, hname]
  refine (pushLock_error_iff h ?_ name).mpr ⟨top, rfl, hid ▸ hne, fun hacyclic => ?_⟩
  · intro top' htop'
    obtain rfl := Option.some.inj htop'
    exact htop
  · rw [hid] at hacyclic
    have hthere : ReflTransGen (withEdge d.Edge top lockId) lockId top :=
      ReflTransGen.mono (fun a b hab => .inl hab) _ _ (reach_top hchain hmem)
    exact hacyclic lockId (TransGen.tail' hthere (.inr ⟨rfl, rfl⟩))

end push

/-! ## Recursive acquisitions -/

section recursion

variable {τ L ν : Type} [DecidableEq L] [DecidableEq ν] {name : L → ν} {d : DeadLockProfiler ν}

omit [DecidableEq L] in
/-- What `PushLock` does for a lock that the thread holds: it changes nothing when the innermost guard is
on a lock of that name, and raises `DEADLOCK_DETECTED` when it is not. -/
theorem pushLock_held (hd : d.ProfilerInv) {held : List (L × LockMode)} {lLockStack : List ℕ} {l : L}
    {mode : LockMode} (h : NestingInv name d ⟨held, lLockStack, .push l mode⟩)
    (hholds : ∃ mode, (l, mode) ∈ held) :
    (∃ guard ∈ held.head?, name guard.1 = name l) ∧
        (∃ top, d.pushLock lLockStack (name l) = .ok (d, top :: lLockStack)) ∨
      (¬ ∃ guard ∈ held.head?, name guard.1 = name l) ∧
        ∃ printed, d.pushLock lLockStack (name l) = .error (.deadlockDetected printed) := by
  obtain ⟨mode', hmem⟩ := hholds
  have hids : List.Forall₂ (fun lockId l => d.nameToId.lookup (name l) = some lockId) lLockStack
      (held.map Prod.fst) := h.ids
  obtain ⟨lockId, hlockId, hname⟩ := exists_lockId_of_mem hids hmem
  have hissued := h.top_lt hd
  have hnested := h.nested
  cases held with
  | nil => cases hmem
  | cons guard held =>
      cases hids with
      | @cons top _ lLockStack _ htop hrest =>
          have hhead : (∃ guard' ∈ (guard :: held).head?, name guard'.1 = name l) ↔
              name guard.1 = name l := by
            refine ⟨?_, fun heq => ⟨guard, rfl, heq⟩⟩
            rintro ⟨_, heq, hsame⟩
            exact Option.some.inj heq ▸ hsame
          rw [hhead]
          by_cases hsame : name guard.1 = name l
          · exact .inl ⟨hsame, top, pushLock_top (hsame ▸ htop) _⟩
          · refine .inr ⟨hsame, pushLock_again hd hname (hissued top rfl) hnested hlockId ?_⟩
            rintro rfl
            exact hsame (hd.injective _ _ _ htop hname)

/-- A thread at `PushLock` moves by calling it, and the program has not ended before. -/
theorem guardAct_push {ids : LThreadIds τ} {t : τ} {s s' : GuardShared L ν} {p p' : GuardThread L}
    {k : GuardChoice L} {o : Unit} {l : L} {mode : LockMode} (hpc : p.pc = .push l mode)
    (hact : guardAct ids name t s p k = some (s', p', o)) :
    s.stop = none ∧
      ((∃ d lLockStack, s.profiler.pushLock p.lLockStack (name l) = .ok (d, lLockStack) ∧
          s' = { s with profiler := d }) ∨
        ∃ stop, s.profiler.pushLock p.lLockStack (name l) = .error stop ∧
          s' = { s with stop := some stop }) := by
  obtain ⟨held, lLockStack, pc⟩ := p
  obtain rfl : pc = .push l mode := hpc
  rcases hstop : s.stop with _ | stop
  · rcases hcrash : s.crash with _ | cause
    · cases k with
      | next now =>
          simp only [guardAct, hstop, hcrash] at hact
          split at hact <;> rename_i hpush <;> cases hact
          · exact ⟨rfl, .inl ⟨_, _, hpush, rfl⟩⟩
          · exact ⟨rfl, .inr ⟨_, hpush, rfl⟩⟩
      | lock l mode => simp only [guardAct, hstop, hcrash, reduceCtorEq] at hact
      | unlock => simp only [guardAct, hstop, hcrash, reduceCtorEq] at hact
    · simp only [guardAct, hstop, hcrash, reduceCtorEq] at hact
  · simp only [guardAct, hstop, reduceCtorEq] at hact

variable [DecidableEq τ] {ids : LThreadIds τ}

/-- A recursive acquisition is harmless just when the innermost lock has the same name. -/
theorem harmless_iff_innermost {s : Processes τ (GuardShared L ν) (GuardThread L)}
    (h : GuardInv name s) {i : τ × GuardChoice L} {l : L}
    (hagain : GuardEntry.Reacquires ((guardThreads ids name).entry s i) l) :
    GuardEntry.Harmless ((guardThreads ids name).entry s i) ↔
      GuardEntry.Innermost name ((guardThreads ids name).entry s i) l := by
  obtain ⟨t, k⟩ := i
  obtain ⟨⟨hout, mode, hpc⟩, hholds⟩ := hagain
  -- the thread moves, so that the program has not ended
  rcases hact : guardAct ids name t s.shared (s.pc t) k with _ | ⟨s', p', o⟩
  · exact absurd (congrArg Prod.snd (interleave_step_of_none hact)) hout
  have hafter : ((guardThreads ids name).entry s (t, k)).after.shared = s' := by
    rw [Transducer.entry_after, guardThreads, interleave_step_of_some hact]
  obtain ⟨hstop, hpushed⟩ := guardAct_push hpc hact
  have hnest : NestingInv name s.shared.profiler ⟨(s.pc t).held, (s.pc t).lLockStack, .push l mode⟩ := by
    have heach := h.each t
    have hpc' : (s.pc t).pc = .push l mode := hpc
    rwa [← hpc']
  unfold GuardEntry.Harmless GuardEntry.Innermost
  rw [hafter, Transducer.entry_before]
  rcases pushLock_held h.shared hnest hholds with ⟨hinner, top, hok⟩ | ⟨hinner, printed, herror⟩
  · refine iff_of_true ?_ hinner
    rcases hpushed with ⟨d, lLockStack, hpush, rfl⟩ | ⟨stop, hpush, -⟩
    · obtain ⟨rfl, -⟩ := Prod.mk.inj (Except.ok.inj (hok.symm.trans hpush))
      exact ⟨hstop, fun _ _ => Iff.rfl⟩
    · cases hok.symm.trans hpush
  · refine iff_of_false ?_ hinner
    rcases hpushed with ⟨d, lLockStack, hpush, -⟩ | ⟨stop, -, rfl⟩
    · cases herror.symm.trans hpush
    · rintro ⟨hnone, -⟩
      cases hnone

/-- **When recursive acquisitions are harmless.** In every run: just when, the order of first acquisitions
being acyclic, the innermost guard of a thread that acquires a lock again is on a lock of its name. -/
theorem recursionHarmless_iff (ids : LThreadIds τ) (name : L → ν) (events : List (τ × GuardChoice L)) :
    RecursionHarmless ((guardThreads ids name).trace (guardInit τ L ν) events) ↔
      (Acyclic (FirstOrder ((guardThreads ids name).trace (guardInit τ L ν) events)) →
        RecursionInnermost name ((guardThreads ids name).trace (guardInit τ L ν) events)) := by
  refine imp_congr Iff.rfl (forall₂_congr fun e he => forall₂_congr fun l hagain => ?_)
  obtain ⟨before, i, after, -, rfl⟩ := (Transducer.mem_trace_iff _).mp he
  exact harmless_iff_innermost (guardInv_run ids name before) hagain

end recursion

/-! ## A lock, another one, and the first again -/

open GuardChoice in
/-- A thread writes to one lock, then to another, and then to the first again. -/
def nestedRun : List (Bool × GuardChoice Bool) :=
  [(false, lock false .write)] ++ List.replicate 5 (false, next 0) ++
    [(false, lock true .write)] ++ List.replicate 5 (false, next 0) ++
    [(false, lock false .write)] ++ List.replicate 1 (false, next 0)

/-- The steps of `nestedRun`, the locks being of two classes. -/
def nestedTrace : List (GuardEntry Bool Bool Bool) :=
  (guardThreads twoThreadIds id).trace (guardInit Bool Bool Bool) nestedRun

/-- The only first acquisition under a lock is that of the second lock. -/
theorem firstOrder_nestedTrace {l m : Bool} (h : FirstOrder nestedTrace l m) :
    l = false ∧ m = true := by
  have hall : ∀ e ∈ nestedTrace, ∀ l m : Bool,
      (e.thread.pc = .push m .read ∨ e.thread.pc = .push m .write) →
        m ∉ e.thread.held.map Prod.fst → l ∈ e.thread.held.map Prod.fst → l = false ∧ m = true := by
    decide +kernel
  obtain ⟨e, he, ⟨-, mode, hpc⟩, hnew, mode', hold⟩ := h
  refine hall e he l m ?_ (fun hmem => ?_) (List.mem_map_of_mem hold)
  · cases mode with
    | read => exact .inl hpc
    | write => exact .inr hpc
  · obtain ⟨guard, hguard, rfl⟩ := List.mem_map.mp hmem
    exact hnew ⟨guard.2, hguard⟩

/-- The first acquisitions of `nestedRun` are in one order, and its last step raises
`DEADLOCK_DETECTED`. -/
theorem not_recursionHarmless_nested : ¬ RecursionHarmless nestedTrace := by
  have hacyclic : Acyclic (FirstOrder nestedTrace) := by
    intro l hcycle
    obtain ⟨m, hfirst, -⟩ := TransGen.head'_iff.mp hcycle
    obtain ⟨k, -, hlast⟩ := TransGen.tail'_iff.mp hcycle
    have hfalse := (firstOrder_nestedTrace hfirst).1
    rw [(firstOrder_nestedTrace hlast).2] at hfalse
    cases hfalse
  have hraises : ∃ e ∈ nestedTrace, e.output ≠ none ∧ e.thread.pc = .push false .write ∧
      (false, LockMode.write) ∈ e.thread.held ∧ e.after.shared.stop.isSome = true := by
    decide +kernel
  intro hlaw
  obtain ⟨e, he, hout, hpc, hheld, hstop⟩ := hraises
  have hharmless := hlaw hacyclic e he false ⟨⟨hout, .write, hpc⟩, .write, hheld⟩
  rw [hharmless.1] at hstop
  cases hstop

end CowboyPoker.ServerCore
