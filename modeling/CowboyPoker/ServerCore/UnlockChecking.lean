import CowboyPoker.Found.Numbering
import CowboyPoker.ServerCore.ProfilerRuns

/-!
# What `PopLock` checks

The threads of a program push and pop names, any names in any order. `PopLock` is to pass just for the
name that the thread pushed last and has not popped. It looks the name up with `operator[]`, which gives
a name that was never pushed the id `0` of the name that was pushed first.

* `namedThreads` — the threads, interleaved, with the names that were ever pushed as a history variable.
* `pushLock_ok`, `popLock_cases` — what the two calls do to the maps of the names and to the stack.
* `unlockChecking_iff` — the checks are exact in a run, and the ids are a numbering of the pushed names,
  just when no thread pops a name that was never pushed while the id `0` is on top of its stack.
-/

namespace CowboyPoker.ServerCore

open CowboyPoker.Found DeadLockProfiler

/-! ## Threads that pop anything -/

/-- What the threads share; `pushed` are the names that were pushed, last first. -/
structure NamedShared (ν : Type) extends ProfilerShared ν where
  pushed : List ν := []

/-- What the scheduler lets a thread do. -/
inductive NameCall (ν : Type)
  /-- It calls `PushLock(name)`. -/
  | push (name : ν)
  /-- It calls `PopLock(name)`. -/
  | pop (name : ν)

section machine

variable {τ ν : Type} [DecidableEq ν]

/-- What a thread does; nothing once the program has stopped. -/
def nameAct : Program τ (NamedShared ν) (ProfilerThread ν) (NameCall ν) Unit := fun _ s p k =>
  match s.stop, k with
  | none, .push name =>
      match s.profiler.pushLock p.lLockStack name with
      | .ok (profiler, lLockStack) =>
          some ({ s with profiler, pushed := name :: s.pushed }, ⟨lLockStack, name :: p.names⟩, ())
      | .error stop => some ({ s with stop := some stop }, p, ())
  | none, .pop name =>
      match s.profiler.popLock p.lLockStack name with
      | .ok (profiler, lLockStack) => some ({ s with profiler }, ⟨lLockStack, p.names.tail⟩, ())
      | .error stop => some ({ s with stop := some stop }, p, ())
  | some _, _ => none

/-- The threads, interleaved. -/
def namedThreads (τ ν : Type) [DecidableEq τ] [DecidableEq ν] :
    Transducer (Processes τ (NamedShared ν) (ProfilerThread ν)) (τ × NameCall ν) (Option Unit) :=
  interleave nameAct

end machine

/-- A new profiler, and threads that have pushed nothing. -/
def namedInit (τ ν : Type) : Processes τ (NamedShared ν) (ProfilerThread ν) where
  shared := {}
  pc _ := {}

section entries

variable {τ ν : Type} [DecidableEq ν]

/-- A step of a run. -/
abbrev NamedEntry (τ ν : Type) : Type :=
  Entry (Processes τ (NamedShared ν) (ProfilerThread ν)) (τ × NameCall ν) (Option Unit)

/-- The thread of a step, before it. -/
def NamedEntry.thread (e : NamedEntry τ ν) : ProfilerThread ν := e.before.pc e.input.1

/-- The step is a call of `PopLock(name)`. -/
def NamedEntry.Pops (e : NamedEntry τ ν) (name : ν) : Prop := e.output ≠ none ∧ e.input.2 = .pop name

/-- `PopLock` passes for the name that the thread pushed last and has not popped, and raises
`MULTIPLE_UNLOCK` or `INVALID_UNLOCK` for every other name. -/
def NamedEntry.PopsExactly (e : NamedEntry τ ν) : Prop :=
  ∀ name, e.Pops name →
    (e.thread.names.head? = some name → e.after.shared.stop = none) ∧
      (e.thread.names.head? ≠ some name →
        e.after.shared.stop = some .multipleUnlock ∨ e.after.shared.stop = some .invalidUnlock)

/-- While the program has not stopped, `_nameToId` and `_idToName` number the pushed names. -/
def IdsExact (s : NamedShared ν) : Prop :=
  s.stop = none → Numbering s.profiler.nameToId s.profiler.idToName {name | name ∈ s.pushed}

/-- **The law.** -/
def UnlockChecking (h : List (NamedEntry τ ν)) : Prop :=
  ∀ e ∈ h, e.PopsExactly ∧ IdsExact e.before.shared ∧ IdsExact e.after.shared

/-- The step pops a name that was never pushed, while the thread has the id `0` on top. -/
def NamedEntry.Slips (e : NamedEntry τ ν) : Prop :=
  ∃ name, e.Pops name ∧ name ∉ e.before.shared.pushed ∧ e.thread.lLockStack.head? = some 0

end entries

/-! ## The two calls -/

section calls

variable {ν : Type} [DecidableEq ν] {d d' : DeadLockProfiler ν} {names : Set ν}

/-- Finding or issuing an id numbers one name more, and the name has the id. -/
theorem findOrIssue_numbering (h : Numbering d.nameToId d.idToName names) (name : ν) :
    Numbering (d.findOrIssue name).2.nameToId (d.findOrIssue name).2.idToName (insert name names) ∧
      (d.findOrIssue name).2.nameToId.lookup name = some (d.idOf name) ∧
      ∀ name' lockId, d.nameToId.lookup name' = some lockId →
        (d.findOrIssue name).2.nameToId.lookup name' = some lockId := by
  unfold idOf findOrIssue
  split
  · rename_i hnone
    have hnew : name ∉ names := fun hmem => by
      obtain ⟨lockId, hsome⟩ := (h.keys name).mpr hmem
      rw [hsome] at hnone
      cases hnone
    exact ⟨h.insert hnew, AList.lookup_insert _, fun name' lockId => h.lookup_insert hnew⟩
  · rename_i lockId hsome
    rw [Set.insert_eq_of_mem ((h.keys name).mp ⟨lockId, hsome⟩)]
    exact ⟨h, hsome, fun _ _ => id⟩

/-- A call of `PushLock` that returns has found or issued the id, and pushed it. -/
theorem pushLock_ok {lLockStack lLockStack' : List ℕ} {name : ν}
    (hpush : d.pushLock lLockStack name = .ok (d', lLockStack')) :
    d'.nameToId = (d.findOrIssue name).2.nameToId ∧ d'.idToName = (d.findOrIssue name).2.idToName ∧
      lLockStack' = d.idOf name :: lLockStack := by
  unfold pushLock at hpush
  unfold idOf
  rcases hfind : d.findOrIssue name with ⟨lockId, d₁⟩
  rw [hfind] at hpush
  cases lLockStack with
  | nil =>
      cases hpush
      exact ⟨rfl, rfl, rfl⟩
  | cons prevId rest =>
      simp only at hpush
      split at hpush
      · rcases hcheck : (d₁.insertHistory prevId lockId).checkCycle with stop | ⟨⟩
        · rw [hcheck] at hpush
          cases hpush
        · rw [hcheck] at hpush
          cases hpush
          exact ⟨rfl, rfl, rfl⟩
      · cases hpush
        exact ⟨rfl, rfl, rfl⟩

/-- **What `PopLock` does** to a thread whose stack has the ids of its names: the name that was pushed
last passes, and nothing else changes; a name that was never pushed passes while the id `0` is on top;
every other name is refused. -/
theorem popLock_cases (h : Numbering d.nameToId d.idToName names) {p : ProfilerThread ν}
    (hmatch : Matches d p) (name : ν) :
    (name ∈ names ∧ p.names.head? = some name) ∧
        d.popLock p.lLockStack name = .ok (d, p.lLockStack.tail) ∨
      p.names.head? ≠ some name ∧
        ((name ∉ names ∧ p.lLockStack.head? = some 0 ∧
            ∃ d', d.popLock p.lLockStack name = .ok (d', p.lLockStack.tail)) ∨
          ¬ (name ∉ names ∧ p.lLockStack.head? = some 0) ∧
            (d.popLock p.lLockStack name = .error .multipleUnlock ∨
              d.popLock p.lLockStack name = .error .invalidUnlock)) := by
  obtain ⟨lLockStack, pushed⟩ := p
  cases hmatch with
  | nil => exact .inr ⟨nofun, .inr ⟨nofun, .inl rfl⟩⟩
  | @cons top last lLockStack pushed hlast hrest =>
      simp only [List.head?_cons, List.tail_cons, Option.some.injEq, ne_eq]
      by_cases hmem : name ∈ names
      · obtain ⟨lockId, hlookup⟩ := (h.keys name).mpr hmem
        by_cases hsame : last = name
        · subst hsame
          exact .inl ⟨⟨hmem, rfl⟩, popLock_top hlast _⟩
        · have hne : top ≠ lockId := by
            rintro rfl
            exact hsame (h.injective hlast hlookup)
          refine .inr ⟨hsame, .inr ⟨fun hslip => hslip.1 hmem, .inr ?_⟩⟩
          simp only [popLock, hlookup, if_pos hne]
      · have hlookup := h.lookup_eq_none hmem
        have hsame : last ≠ name := by
          rintro rfl
          exact hmem ((h.keys last).mp ⟨top, hlast⟩)
        refine .inr ⟨hsame, ?_⟩
        simp only [popLock, hlookup]
        by_cases htop : top = 0
        · exact .inl ⟨hmem, htop, _, if_neg fun hne => hne htop⟩
        · exact .inr ⟨fun hslip => htop hslip.2, .inr (if_pos htop)⟩

/-- A name that is popped. -/
theorem Matches.pop {p : ProfilerThread ν} (h : Matches d p) :
    Matches d ⟨p.lLockStack.tail, p.names.tail⟩ := by
  obtain ⟨lLockStack, names⟩ := p
  cases h with
  | nil => exact .nil
  | cons _ hrest => exact hrest

end calls

/-! ## Runs -/

section runs

variable {τ ν : Type} [DecidableEq ν]

/-- The invariant: the ids number the pushed names, and every stack has the ids of its thread's names. -/
structure NamedInv (s : Processes τ (NamedShared ν) (ProfilerThread ν)) : Prop where
  ids : IdsExact s.shared
  each : s.shared.stop = none → ∀ t, Matches s.shared.profiler (s.pc t)

theorem namedInv_init : NamedInv (namedInit τ ν) := by
  have hempty : {name : ν | name ∈ (namedInit τ ν).shared.pushed} = ∅ :=
    Set.eq_empty_of_forall_notMem fun _ => List.not_mem_nil
  refine ⟨fun _ => ?_, fun _ _ => .nil⟩
  rw [hempty]
  exact .empty

/-- What a step of a thread is: the call stops the program, or it returns. -/
inductive NameStep (s : NamedShared ν) (p : ProfilerThread ν) :
    NameCall ν → NamedShared ν → ProfilerThread ν → Prop
  /-- `PushLock` returned. -/
  | pushed {name profiler lLockStack}
      (h : s.profiler.pushLock p.lLockStack name = .ok (profiler, lLockStack)) :
      NameStep s p (.push name) { s with profiler, pushed := name :: s.pushed }
        ⟨lLockStack, name :: p.names⟩
  /-- `PushLock` stopped the program. -/
  | notPushed {name stop} (h : s.profiler.pushLock p.lLockStack name = .error stop) :
      NameStep s p (.push name) { s with stop := some stop } p
  /-- `PopLock` returned. -/
  | popped {name profiler lLockStack}
      (h : s.profiler.popLock p.lLockStack name = .ok (profiler, lLockStack)) :
      NameStep s p (.pop name) { s with profiler } ⟨lLockStack, p.names.tail⟩
  /-- `PopLock` stopped the program. -/
  | notPopped {name stop} (h : s.profiler.popLock p.lLockStack name = .error stop) :
      NameStep s p (.pop name) { s with stop := some stop } p

/-- **The inversion of a step.** A thread that moves finds a program that has not stopped. -/
theorem nameStep {s s' : NamedShared ν} {p p' : ProfilerThread ν} {t : τ} {k : NameCall ν} {o : Unit}
    (hact : nameAct t s p k = some (s', p', o)) : s.stop = none ∧ NameStep s p k s' p' := by
  have hstop : s.stop = none := by
    rcases hstop : s.stop with _ | stop
    · rfl
    · simp only [nameAct, hstop, reduceCtorEq] at hact
  refine ⟨hstop, ?_⟩
  cases k with
  | push name =>
      simp only [nameAct, hstop] at hact
      split at hact <;> rename_i hpush <;> cases hact
      · exact hstop ▸ .pushed hpush
      · exact .notPushed hpush
  | pop name =>
      simp only [nameAct, hstop] at hact
      split at hact <;> rename_i hpop <;> cases hact
      · exact hstop ▸ .popped hpop
      · exact .notPopped hpop

variable [DecidableEq τ] {s : Processes τ (NamedShared ν) (ProfilerThread ν)}

/-- `PopLock` is exact in a step just when the step does not slip. -/
theorem popsExactly_iff (h : NamedInv s) (i : τ × NameCall ν) :
    NamedEntry.PopsExactly ((namedThreads τ ν).entry s i) ↔
      ¬ NamedEntry.Slips ((namedThreads τ ν).entry s i) := by
  obtain ⟨t, k⟩ := i
  rcases hact : nameAct t s.shared (s.pc t) k with _ | ⟨s', p', o⟩
  · have hnone : ((namedThreads τ ν).entry s (t, k)).output = none :=
      congrArg Prod.snd (interleave_step_of_none hact)
    exact iff_of_true (fun name hpops => absurd hnone hpops.1) fun ⟨name, hpops, _⟩ => hpops.1 hnone
  have hstep := interleave_step_of_some hact
  have hafter : ((namedThreads τ ν).entry s (t, k)).after.shared = s' := by
    rw [Transducer.entry_after, namedThreads, hstep]
  have hmoved : ((namedThreads τ ν).entry s (t, k)).output ≠ none := by
    rw [Transducer.entry_output, namedThreads, hstep]
    exact Option.some_ne_none _
  obtain ⟨hstop, hcase⟩ := nameStep hact
  cases k with
  | push name' =>
      exact iff_of_true (fun name hpops => nomatch hpops.2) fun ⟨name, hpops, _⟩ => nomatch hpops.2
  | pop name' =>
      have hthis : ∀ name, NamedEntry.Pops ((namedThreads τ ν).entry s (t, .pop name')) name →
          name' = name := fun name hpops => NameCall.pop.inj hpops.2
      unfold NamedEntry.PopsExactly
      rw [hafter]
      rcases popLock_cases (h.ids hstop) (h.each hstop t) name' with
        ⟨⟨hmem, hhead⟩, hok⟩ | ⟨hhead, ⟨hnew, htop, d', hok⟩ | ⟨hno, herror⟩⟩
      · -- the name that was pushed last
        refine iff_of_true (fun name hpops => ?_) ?_
        · obtain rfl := hthis name hpops
          refine ⟨fun _ => ?_, fun hne => absurd hhead hne⟩
          cases hcase with
          | popped _ => exact hstop
          | notPopped hpop => cases hok.symm.trans hpop
        · rintro ⟨name, hpops, hnew, -⟩
          obtain rfl := hthis name hpops
          exact hnew hmem
      · -- a name that was never pushed passes
        refine iff_of_false (fun hlaw => ?_) (not_not.mpr ⟨name', ⟨hmoved, rfl⟩, hnew, htop⟩)
        have hraises := (hlaw name' ⟨hmoved, rfl⟩).2 hhead
        cases hcase with
        | popped _ =>
            rcases hraises with hraises | hraises <;> cases hstop.symm.trans hraises
        | notPopped hpop => cases hok.symm.trans hpop
      · -- every other name is refused
        refine iff_of_true (fun name hpops => ?_) ?_
        · obtain rfl := hthis name hpops
          refine ⟨fun heq => absurd heq hhead, fun _ => ?_⟩
          cases hcase with
          | popped hpop =>
              rcases herror with herror | herror <;> cases herror.symm.trans hpop
          | notPopped hpop =>
              refine herror.imp (fun herror => ?_) fun herror => ?_
              · exact congrArg some (Except.error.inj (hpop.symm.trans herror))
              · exact congrArg some (Except.error.inj (hpop.symm.trans herror))
        · rintro ⟨name, hpops, hnew, htop⟩
          obtain rfl := hthis name hpops
          exact hno ⟨hnew, htop⟩

/-- A step that does not slip keeps the invariant. -/
theorem namedInv_step (h : NamedInv s) (i : τ × NameCall ν)
    (hno : ¬ NamedEntry.Slips ((namedThreads τ ν).entry s i)) :
    NamedInv ((namedThreads τ ν).step s i).1 := by
  obtain ⟨t, k⟩ := i
  rcases hact : nameAct t s.shared (s.pc t) k with _ | ⟨s', p', o⟩
  · rwa [namedThreads, interleave_step_of_none hact]
  have hstep := interleave_step_of_some hact
  obtain ⟨hstop, hcase⟩ := nameStep hact
  have hids := h.ids hstop
  have heach := h.each hstop
  have hmoved : ((namedThreads τ ν).entry s (t, k)).output ≠ none := by
    rw [Transducer.entry_output, namedThreads, hstep]
    exact Option.some_ne_none _
  rw [namedThreads, hstep]
  cases hcase with
  | @pushed name profiler lLockStack hpush =>
      obtain ⟨hnameToId, hidToName, rfl⟩ := pushLock_ok hpush
      obtain ⟨hnumbering, hname, hkeep⟩ := findOrIssue_numbering hids name
      rw [← hnameToId, ← hidToName] at hnumbering
      rw [← hnameToId] at hname hkeep
      have hset : {name' | name' ∈ name :: s.shared.pushed} =
          insert name {name | name ∈ s.shared.pushed} := by
        ext name'
        exact List.mem_cons
      refine ⟨fun _ => hset ▸ hnumbering, fun _ => ?_⟩
      have hkept : ∀ u, Matches profiler (s.pc u) := fun u => (heach u).imp fun _ _ => hkeep _ _
      rw [Function.forall_update_iff s.pc fun _ q => Matches profiler q]
      exact ⟨.cons hname (hkept t), fun u _ => hkept u⟩
  | notPushed hpush => exact ⟨nofun, nofun⟩
  | @popped name profiler lLockStack hpop =>
      rcases popLock_cases hids (heach t) name with
        ⟨-, hok⟩ | ⟨-, ⟨hnew, htop, -⟩ | ⟨-, herror⟩⟩
      · obtain ⟨rfl, rfl⟩ := Prod.mk.inj (Except.ok.inj (hok.symm.trans hpop))
        refine ⟨fun _ => hids, fun _ => ?_⟩
        rw [Function.forall_update_iff s.pc fun _ q => Matches s.shared.profiler q]
        exact ⟨(heach t).pop, fun u _ => heach u⟩
      · exact absurd ⟨name, ⟨hmoved, rfl⟩, hnew, htop⟩ hno
      · rcases herror with herror | herror <;> cases herror.symm.trans hpop
  | notPopped hpop => exact ⟨nofun, nofun⟩

/-- **When unlock checking is exact.** In every run: just when no thread pops a name that was never
pushed while the id `0` is on top of its stack. -/
theorem unlockChecking_iff (events : List (τ × NameCall ν)) :
    UnlockChecking ((namedThreads τ ν).trace (namedInit τ ν) events) ↔
      ∀ e ∈ (namedThreads τ ν).trace (namedInit τ ν) events, ¬ NamedEntry.Slips e := by
  constructor
  · intro hlaw e he
    have hinv : NamedInv e.before :=
      (namedThreads τ ν).guarded_trace_invariant (C := NamedEntry.PopsExactly) namedInv_init
        (fun s i h hexact => namedInv_step h i ((popsExactly_iff h i).mp hexact))
        (fun u hu => (hlaw u hu).1) he
    obtain ⟨before, i, after, -, rfl⟩ := (Transducer.mem_trace_iff _).mp he
    exact (popsExactly_iff hinv i).mp (hlaw _ he).1
  · intro hno e he
    have hinv : NamedInv e.before :=
      (namedThreads τ ν).guarded_trace_invariant (C := fun e => ¬ NamedEntry.Slips e) namedInv_init
        (fun s i h hno => namedInv_step h i hno) hno he
    obtain ⟨before, i, after, -, rfl⟩ := (Transducer.mem_trace_iff _).mp he
    exact ⟨(popsExactly_iff hinv i).mpr (hno _ he), hinv.ids, (namedInv_step hinv i (hno _ he)).ids⟩

end runs

/-! ## A name that was never pushed -/

/-- A thread pushes one name, and pops another. -/
def strayTrace : List (NamedEntry Unit Bool) :=
  (namedThreads Unit Bool).trace (namedInit Unit Bool) [((), .push true), ((), .pop false)]

/-- The second call passes. -/
theorem not_unlockChecking_stray : ¬ UnlockChecking strayTrace := by
  have hpasses : ∃ e ∈ strayTrace, e.output ≠ none ∧ e.input.2 = .pop false ∧
      e.thread.names.head? = some true ∧ e.after.shared.stop = none := by
    refine ⟨_, List.mem_cons_of_mem _ List.mem_cons_self, Option.some_ne_none _, rfl, rfl, rfl⟩
  intro hlaw
  obtain ⟨e, he, hout, hpop, hhead, hstop⟩ := hpasses
  have hne : e.thread.names.head? ≠ some false := by
    rw [hhead]
    exact nofun
  rcases ((hlaw e he).1 false ⟨hout, hpop⟩).2 hne with hraises | hraises <;>
    cases hstop.symm.trans hraises

end CowboyPoker.ServerCore
