import CowboyPoker.Found.Interleaving
import CowboyPoker.ServerCore.DeadLockProfiler

/-!
# What the profiler detects

The threads of a program push and pop names, each popping the name that it pushed last. Every call runs
under `_lock`, so that a call is one step.

* `ProfilerInv` — the ids are issued once, and the graph is acyclic.
* `pushLock_spec` — `PushLock` raises `DEADLOCK_DETECTED` just when the new edge closes a cycle, and
  otherwise keeps the invariant.
* `profiler_exact` — the same for every call of every run.
-/

namespace CowboyPoker.ServerCore

open CowboyPoker.Found

namespace DeadLockProfiler

variable {ν : Type} [DecidableEq ν]

/-- The invariant of the profiler between two calls. -/
structure ProfilerInv (d : DeadLockProfiler ν) : Prop where
  issued : ∀ name lockId, d.nameToId.lookup name = some lockId → lockId < d.lockCount
  injective : ∀ name name' lockId, d.nameToId.lookup name = some lockId →
    d.nameToId.lookup name' = some lockId → name = name'
  wellNumbered : d.WellNumbered
  acyclic : Acyclic d.Edge

/-- What every call keeps. -/
structure Grows (d d' : DeadLockProfiler ν) : Prop where
  lookup : ∀ name lockId, d.nameToId.lookup name = some lockId →
    d'.nameToId.lookup name = some lockId
  edge : ∀ a b, d.Edge a b → d'.Edge a b

variable {d d' : DeadLockProfiler ν}

theorem Grows.refl (d : DeadLockProfiler ν) : Grows d d := ⟨fun _ _ => id, fun _ _ => id⟩

/-- What finding or issuing an id does: the graph stays, and the name has its id. -/
theorem findOrIssue_spec (h : d.ProfilerInv) (name : ν) :
    (d.findOrIssue name).2.ProfilerInv ∧ Grows d (d.findOrIssue name).2 ∧
      (d.findOrIssue name).2.lockHistory = d.lockHistory ∧
      (d.findOrIssue name).2.nameToId.lookup name = some (d.findOrIssue name).1 := by
  unfold findOrIssue
  split
  · rename_i hnone
    have hcount : ({ d with
        nameToId := d.nameToId.insert name d.lockCount
        idToName := d.idToName.insert d.lockCount name } : DeadLockProfiler ν).lockCount =
        d.lockCount + 1 := by
      simp only [lockCount, AList.entries_insert_of_notMem (AList.lookup_eq_none.mp hnone),
        List.length_cons]
    have hself : (d.nameToId.insert name d.lockCount).lookup name = some d.lockCount :=
      AList.lookup_insert _
    refine ⟨⟨fun name' lockId hlookup => ?_, fun name₁ name₂ lockId h₁ h₂ => ?_,
      ⟨fun a b hab => ?_, fun a b hab => ?_, h.wellNumbered.irrefl⟩, h.acyclic⟩,
      ⟨fun name' lockId hlookup => ?_, fun _ _ => id⟩, rfl, hself⟩
    · rw [hcount]
      rcases lookup_insert_eq_some_iff.mp hlookup with ⟨-, rfl⟩ | ⟨-, hold⟩
      · exact Nat.lt_succ_self _
      · exact (h.issued _ _ hold).trans (Nat.lt_succ_self _)
    · rcases lookup_insert_eq_some_iff.mp h₁ with ⟨rfl, rfl⟩ | ⟨-, hold₁⟩ <;>
        rcases lookup_insert_eq_some_iff.mp h₂ with ⟨rfl, hid⟩ | ⟨-, hold₂⟩
      · rfl
      · exact absurd (h.issued _ _ hold₂) (lt_irrefl _)
      · exact absurd (h.issued _ _ (hid ▸ hold₁)) (lt_irrefl _)
      · exact h.injective _ _ _ hold₁ hold₂
    · rw [hcount]
      exact (h.wellNumbered.source a b hab).trans (Nat.lt_succ_self _)
    · rw [hcount]
      exact (h.wellNumbered.target a b hab).trans (Nat.lt_succ_self _)
    · refine lookup_insert_eq_some_iff.mpr (.inr ⟨?_, hlookup⟩)
      rintro rfl
      rw [hnone] at hlookup
      cases hlookup
  · rename_i lockId hsome
    exact ⟨h, Grows.refl d, rfl, hsome⟩

omit [DecidableEq ν] in
/-- An id is in the history of another just when there is an edge. -/
theorem mem_history {a b : ℕ} : b ∈ d.history a ↔ d.Edge a b := by
  unfold history Edge
  cases d.lockHistory.lookup a with
  | none => exact iff_of_false List.not_mem_nil fun ⟨_, hnone, _⟩ => nomatch hnone
  | some history =>
      refine ⟨fun hmem => ⟨history, rfl, hmem⟩, ?_⟩
      rintro ⟨_, heq, hmem⟩
      exact Option.some.inj heq ▸ hmem

omit [DecidableEq ν] in
/-- The graph with one edge more. -/
theorem edge_insertHistory (d : DeadLockProfiler ν) (prevId lockId : ℕ) :
    (d.insertHistory prevId lockId).Edge = withEdge d.Edge prevId lockId := by
  funext a b
  have hlookup : ∀ history, (d.insertHistory prevId lockId).lockHistory.lookup a = some history ↔ _ :=
    fun history => lookup_insert_eq_some_iff
  refine propext ⟨?_, ?_⟩
  · rintro ⟨history, hhistory, hmem⟩
    rcases (hlookup history).mp hhistory with ⟨rfl, rfl⟩ | ⟨-, hold⟩
    · rcases (List.mem_orderedInsert _).mp hmem with rfl | hmem
      · exact .inr ⟨rfl, rfl⟩
      · exact .inl (mem_history.mp hmem)
    · exact .inl ⟨history, hold, hmem⟩
  · rintro (hold | ⟨rfl, rfl⟩)
    · by_cases ha : a = prevId
      · subst ha
        exact ⟨_, (hlookup _).mpr (.inl ⟨rfl, rfl⟩),
          (List.mem_orderedInsert _).mpr (.inr (mem_history.mpr hold))⟩
      · obtain ⟨history, hhistory, hmem⟩ := hold
        exact ⟨history, (hlookup _).mpr (.inr ⟨ha, hhistory⟩), hmem⟩
    · exact ⟨_, (hlookup _).mpr (.inl ⟨rfl, rfl⟩), (List.mem_orderedInsert _).mpr (.inl rfl)⟩

/-- The id that `PushLock(name)` pushes. -/
def idOf (d : DeadLockProfiler ν) (name : ν) : ℕ := (d.findOrIssue name).1

/-- `PushLock(name)` on a stack closes a cycle. -/
def ClosesCycle (d : DeadLockProfiler ν) (lLockStack : List ℕ) (name : ν) : Prop :=
  ∃ top ∈ lLockStack.head?, top ≠ d.idOf name ∧ ¬ Acyclic (withEdge d.Edge top (d.idOf name))

/-- What `PushLock(name)` does when it returns. -/
structure Pushed (d : DeadLockProfiler ν) (lLockStack : List ℕ) (name : ν)
    (d' : DeadLockProfiler ν) (lLockStack' : List ℕ) : Prop where
  inv : d'.ProfilerInv
  grows : Grows d d'
  lookup : d'.nameToId.lookup name = some (d.idOf name)
  stack : lLockStack' = d.idOf name :: lLockStack
  edge : ∀ top ∈ lLockStack.head?, top ≠ d.idOf name → d'.Edge top (d.idOf name)

/-- A graph with a new edge that closes no cycle. -/
theorem ProfilerInv.insertHistory (h : d.ProfilerInv) {prevId lockId : ℕ}
    (hprev : prevId < d.lockCount) (hlock : lockId < d.lockCount) (hne : prevId ≠ lockId) :
    (d.insertHistory prevId lockId).WellNumbered ∧
      (Acyclic (withEdge d.Edge prevId lockId) → (d.insertHistory prevId lockId).ProfilerInv) := by
  have hedge := edge_insertHistory d prevId lockId
  have hnumbered : (d.insertHistory prevId lockId).WellNumbered := by
    refine ⟨fun a b hab => ?_, fun a b hab => ?_, fun a b hab => ?_⟩ <;> rw [hedge] at hab <;>
      rcases hab with hab | ⟨rfl, rfl⟩
    · exact h.wellNumbered.source a b hab
    · exact hprev
    · exact h.wellNumbered.target a b hab
    · exact hlock
    · exact h.wellNumbered.irrefl a b hab
    · exact hne
  exact ⟨hnumbered, fun hacyclic => ⟨h.issued, h.injective, hnumbered, hedge ▸ hacyclic⟩⟩

/-- **The specification of `PushLock`.** -/
theorem pushLock_spec (h : d.ProfilerInv) {lLockStack : List ℕ}
    (hstack : ∀ top ∈ lLockStack.head?, top < d.lockCount) (name : ν) :
    Ends (fun r => d.Pushed lLockStack name r.1 r.2)
      (fun stop => (∃ printed, stop = .deadlockDetected printed) ∧ d.ClosesCycle lLockStack name)
      (d.pushLock lLockStack name) := by
  obtain ⟨hinv, hgrows, hhistory, hlookup⟩ := findOrIssue_spec h name
  have hedge : (d.findOrIssue name).2.Edge = d.Edge := by
    unfold Edge
    rw [hhistory]
  have hcount : d.lockCount ≤ (d.findOrIssue name).2.lockCount := by
    unfold findOrIssue
    split
    · rename_i hnone
      simp only [lockCount, AList.entries_insert_of_notMem (AList.lookup_eq_none.mp hnone),
        List.length_cons, Nat.le_succ]
    · exact le_refl _
  unfold ClosesCycle pushLock
  simp only [idOf]
  rcases hfind : d.findOrIssue name with ⟨lockId, d₁⟩
  have hid : d.idOf name = lockId := congrArg Prod.fst hfind
  rw [hfind] at hinv hgrows hlookup hedge hcount
  simp only at hinv hgrows hlookup hedge hcount ⊢
  have hlock := hinv.issued name lockId hlookup
  cases lLockStack with
  | nil => exact ⟨hinv, hgrows, hid ▸ hlookup, hid ▸ rfl, by simp⟩
  | cons prevId rest =>
      have hprev : prevId < d₁.lockCount := (hstack prevId rfl).trans_le hcount
      by_cases hnew : lockId ≠ prevId ∧ lockId ∉ d₁.history prevId
      · simp only [if_pos hnew]
        obtain ⟨hnumbered, hkeep⟩ := hinv.insertHistory hprev hlock (Ne.symm hnew.1)
        have hwith := edge_insertHistory d₁ prevId lockId
        rw [hedge] at hwith
        refine Ends.bind (P := fun _ => Acyclic (withEdge d.Edge prevId lockId)) ?_ ?_
        · refine (checkCycle_spec hnumbered).imp (fun _ hacyclic => hwith ▸ hacyclic) ?_
          rintro stop ⟨hprinted, hcyclic⟩
          exact ⟨hprinted, prevId, rfl, Ne.symm hnew.1, hwith ▸ hcyclic⟩
        · intro _ hacyclic
          refine ⟨hkeep (hedge ▸ hacyclic), ⟨hgrows.lookup, fun a b hab => ?_⟩, hid ▸ hlookup,
            hid ▸ rfl, fun top htop hne => ?_⟩
          · rw [hwith]
            exact .inl hab
          · obtain rfl := Option.some.inj htop
            rw [hwith]
            exact .inr ⟨rfl, hid⟩
      · simp only [if_neg hnew]
        refine ⟨hinv, hgrows, hid ▸ hlookup, hid ▸ rfl, fun top htop hne => ?_⟩
        obtain rfl := Option.some.inj htop
        rw [hid] at hne ⊢
        exact mem_history.mp (not_not.mp fun hmem => hnew ⟨Ne.symm hne, hmem⟩)

/-- `PushLock` stops the program just when it closes a cycle. -/
theorem pushLock_error_iff (h : d.ProfilerInv) {lLockStack : List ℕ}
    (hstack : ∀ top ∈ lLockStack.head?, top < d.lockCount) (name : ν) :
    (∃ printed, d.pushLock lLockStack name = .error (.deadlockDetected printed)) ↔
      d.ClosesCycle lLockStack name := by
  have hspec := pushLock_spec h hstack name
  rcases hpush : d.pushLock lLockStack name with stop | ⟨d', lLockStack'⟩
  · rw [hpush] at hspec
    obtain ⟨⟨printed, rfl⟩, hcloses⟩ := hspec
    exact iff_of_true ⟨printed, rfl⟩ hcloses
  · rw [hpush] at hspec
    refine iff_of_false (fun ⟨_, herror⟩ => nomatch herror) ?_
    rintro ⟨top, htop, hne, hcyclic⟩
    refine hcyclic (hspec.inv.acyclic.mono fun a b hab => ?_)
    rcases hab with hab | ⟨rfl, rfl⟩
    · exact hspec.grows.edge a b hab
    · exact hspec.edge _ htop hne

/-- `PopLock` of the name that is on top. -/
theorem popLock_top {name : ν} {top : ℕ} (hname : d.nameToId.lookup name = some top)
    (rest : List ℕ) : d.popLock (top :: rest) name = .ok (d, rest) := by
  simp only [popLock, hname, ne_eq, not_true_eq_false, if_false]

end DeadLockProfiler

/-! ## Threads -/

open DeadLockProfiler

/-- What the threads share. -/
structure ProfilerShared (ν : Type) where
  profiler : DeadLockProfiler ν := {}
  /-- How the program stopped. -/
  stop : Option (ProfilerStop ν) := none

/-- A thread: its `LLockStack`, and the names that its guards will pop, both last first. -/
structure ProfilerThread (ν : Type) where
  lLockStack : List ℕ := []
  names : List ν := []

/-- What the scheduler lets a thread do. -/
inductive ProfilerCall (ν : Type)
  /-- It calls `PushLock(name)`. -/
  | push (name : ν)
  /-- It calls `PopLock` with the name that it pushed last. -/
  | pop

/-- What a thread does; nothing once the program has stopped. -/
def profilerAct {τ ν : Type} [DecidableEq ν] :
    Program τ (ProfilerShared ν) (ProfilerThread ν) (ProfilerCall ν) Unit := fun _ s p k =>
  match s.stop, k, p.names with
  | none, .push name, names =>
      match s.profiler.pushLock p.lLockStack name with
      | .ok (profiler, lLockStack) => some ({ s with profiler }, ⟨lLockStack, name :: names⟩, ())
      | .error stop => some ({ s with stop := some stop }, p, ())
  | none, .pop, name :: names =>
      match s.profiler.popLock p.lLockStack name with
      | .ok (profiler, lLockStack) => some ({ s with profiler }, ⟨lLockStack, names⟩, ())
      | .error stop => some ({ s with stop := some stop }, p, ())
  | _, _, _ => none

section runs

variable {τ ν : Type} [DecidableEq τ] [DecidableEq ν]

/-- The threads that use the profiler, interleaved. -/
def profilerThreads (τ ν : Type) [DecidableEq τ] [DecidableEq ν] :
    Transducer (Processes τ (ProfilerShared ν) (ProfilerThread ν)) (τ × ProfilerCall ν)
      (Option Unit) :=
  interleave profilerAct

/-- A new profiler, and threads without locks. -/
def profilerInit (τ ν : Type) : Processes τ (ProfilerShared ν) (ProfilerThread ν) where
  shared := {}
  pc _ := {}

/-- The stack of a thread has the ids of the names that it will pop. -/
def Matches (d : DeadLockProfiler ν) (p : ProfilerThread ν) : Prop :=
  List.Forall₂ (fun lockId name => d.nameToId.lookup name = some lockId) p.lLockStack p.names

/-- What the threads share is sound: the program has not stopped, or with a cycle. -/
structure SharedInv (s : ProfilerShared ν) : Prop where
  profiler : s.profiler.ProfilerInv
  stop : s.stop = none ∨ ∃ printed, s.stop = some (.deadlockDetected printed)

/-- The invariant of the profiler and of the stacks of all threads. -/
abbrev ThreadsInv : Processes τ (ProfilerShared ν) (ProfilerThread ν) → Prop :=
  LocalInv SharedInv (fun _ s p => Matches s.profiler p) fun _ _ => True

omit [DecidableEq τ] in
theorem Matches.grows {d d' : DeadLockProfiler ν} {p : ProfilerThread ν} (h : Matches d p)
    (hgrows : Grows d d') : Matches d' p :=
  h.imp fun _ _ hname => hgrows.lookup _ _ hname

/-- The top of a stack was issued. -/
theorem Matches.top_lt {d : DeadLockProfiler ν} (hd : d.ProfilerInv) {p : ProfilerThread ν}
    (h : Matches d p) : ∀ top ∈ p.lLockStack.head?, top < d.lockCount := by
  obtain ⟨lLockStack, names⟩ := p
  intro top htop
  cases h with
  | nil => cases htop
  | cons hname _ => exact Option.some.inj htop ▸ hd.issued _ _ hname

/-- An entry of a run in which a thread that holds `a` innermost has acquired `b`. -/
def Acquired (e : Entry (Processes τ (ProfilerShared ν) (ProfilerThread ν)) (τ × ProfilerCall ν)
    (Option Unit)) (a b : ℕ) : Prop :=
  ∃ name, e.input.2 = .push name ∧ e.output ≠ none ∧ e.after.shared.stop = none ∧
    (e.before.pc e.input.1).lLockStack.head? = some a ∧
    e.after.shared.profiler.nameToId.lookup name = some b ∧ a ≠ b

omit [DecidableEq τ] in
/-- What a step of a thread does: it keeps the graph sound, and records what it has acquired. -/
theorem profilerAct_step {s : Processes τ (ProfilerShared ν) (ProfilerThread ν)} (h : ThreadsInv s)
    {t : τ} {k : ProfilerCall ν} {s' : ProfilerShared ν} {p' : ProfilerThread ν} {o : Unit}
    (hact : profilerAct t s.shared (s.pc t) k = some (s', p', o)) :
    SharedInv s' ∧ Matches s'.profiler p' ∧ Grows s.shared.profiler s'.profiler ∧
      ∀ name a b, k = .push name → s'.stop = none → (s.pc t).lLockStack.head? = some a →
        s'.profiler.nameToId.lookup name = some b → a ≠ b → s'.profiler.Edge a b := by
  have hinv := h.shared.profiler
  have hmatch := h.each t
  rcases hstop : s.shared.stop with _ | stop
  swap
  · simp only [profilerAct, hstop] at hact
    cases hact
  cases k with
  | push name =>
      simp only [profilerAct, hstop] at hact
      have hspec := pushLock_spec hinv (hmatch.top_lt hinv) name
      rcases hpush : s.shared.profiler.pushLock (s.pc t).lLockStack name with stop | ⟨d, lLockStack⟩
      · rw [hpush] at hact hspec
        cases hact
        obtain ⟨⟨printed, rfl⟩, -⟩ := hspec
        exact ⟨⟨hinv, .inr ⟨printed, rfl⟩⟩, hmatch, Grows.refl _, nofun⟩
      · rw [hpush] at hact hspec
        cases hact
        obtain ⟨hinv', hgrows, hlookup, rfl, hedge⟩ := hspec
        refine ⟨⟨hinv', .inl rfl⟩, .cons hlookup (hmatch.grows hgrows), hgrows, ?_⟩
        intro name' a b hk _ hhead hb hne
        cases hk
        obtain rfl := Option.some.inj (hlookup.symm.trans hb)
        exact hedge a hhead hne
  | pop =>
      generalize s.pc t = p at hact hmatch ⊢
      obtain ⟨lLockStack, names⟩ := p
      cases hmatch with
      | nil =>
          simp only [profilerAct, hstop] at hact
          cases hact
      | cons hname hrest =>
          simp only [profilerAct, hstop, popLock_top hname] at hact
          cases hact
          exact ⟨⟨hinv, .inl rfl⟩, hrest, Grows.refl _, nofun⟩

omit [DecidableEq τ] in
/-- A new profiler has issued nothing and has no edge. -/
theorem profilerInv_empty : ({} : DeadLockProfiler ν).ProfilerInv := by
  have hedge : ∀ a b, ¬ ({} : DeadLockProfiler ν).Edge a b := by
    rintro a b ⟨history, hnone, -⟩
    cases hnone
  refine ⟨nofun, nofun, ⟨fun a b hab => absurd hab (hedge a b), fun a b hab => absurd hab (hedge a b),
    fun a b hab => absurd hab (hedge a b)⟩, fun a hcycle => ?_⟩
  obtain ⟨b, hab, -⟩ := Relation.TransGen.head'_iff.mp hcycle
  exact hedge a b hab

/-- The invariant at every point of a run, with the edges that were acquired so far. -/
theorem threadsInv_run (events : List (τ × ProfilerCall ν)) :
    ThreadsInv ((profilerThreads τ ν).exec (profilerInit τ ν) events) ∧
      ∀ e ∈ (profilerThreads τ ν).trace (profilerInit τ ν) events, ∀ a b, Acquired e a b →
        ((profilerThreads τ ν).exec (profilerInit τ ν) events).shared.profiler.Edge a b := by
  refine (profilerThreads τ ν).history_invariant (C := fun _ => True)
    (J := fun history s => ThreadsInv s ∧ ∀ e ∈ history, ∀ a b, Acquired e a b →
      s.shared.profiler.Edge a b) ?_ ?_ events fun _ _ => trivial
  · exact ⟨⟨⟨profilerInv_empty, .inl rfl⟩, fun _ => .nil, fun _ _ _ => trivial⟩, nofun⟩
  · rintro history s ⟨t, k⟩ ⟨h, hhistory⟩ -
    rcases hact : profilerAct t s.shared (s.pc t) k with _ | ⟨s', p', o⟩
    · rw [Transducer.entry, profilerThreads, interleave_step_of_none hact]
      refine ⟨h, fun e he a b hab => ?_⟩
      rcases List.mem_append.mp he with he | he
      · exact hhistory e he a b hab
      · obtain rfl := List.mem_singleton.mp he
        obtain ⟨name, -, hout, -⟩ := hab
        exact absurd rfl hout
    · obtain ⟨hshared, hmatch, hgrows, hedge⟩ := profilerAct_step h hact
      rw [Transducer.entry, profilerThreads, interleave_step_of_some hact]
      refine ⟨LocalInv.update h hshared hmatch fun u _ =>
        ⟨(h.each u).grows hgrows, trivial, trivial⟩, fun e he a b hab => ?_⟩
      rcases List.mem_append.mp he with he | he
      · exact hgrows.edge a b (hhistory e he a b hab)
      · obtain rfl := List.mem_singleton.mp he
        obtain ⟨name, hk, -, hstop, hhead, hb, hne⟩ := hab
        exact hedge name a b hk hstop hhead hb hne

end runs

end CowboyPoker.ServerCore
