import CowboyPoker.ServerCore.ConnectOnce

/-!
# Every disconnected session is released

`Disconnect` leaves the release to the completion of `DisconnectEx`, and ignores what
`RegisterDisconnect` returns: when `DisconnectEx` fails at once there is no completion, and `_connected`
is `false` already, so nobody tries again.

* `ReleaseLaw` — a session whose `_connected` went from `true` to `false`, and whose operations have all
  completed, has run `OnDisconnected` and is out of `_sessions`.
* `LosesRelease` — a step in which `DisconnectEx` fails at once, or `Dispatch` drops its completion.
* `releaseInv` — without such a step `_disconnectEvent` keeps its owner. `ReleasePending` — and the right
  to release the session is somewhere until it was used.
* `release_law` — the law, in every run without such a step.
-/

namespace CowboyPoker.ServerCore

open CowboyPoker.Found

variable {τ β : Type} [DecidableEq τ]

/-! ## The law -/

/-- A step in which `_connected` of a session goes from `true` to `false`. -/
def TakesEffect (i : ℕ)
    (e : Entry (Processes τ (TcpShared τ β) (TcpPc β)) (τ × TcpChoice β) (Option Unit)) : Prop :=
  (e.before.shared.sessions i).connected = true ∧ (e.after.shared.sessions i).connected = false

/-- No thread is in a member of the session, and none of its operations is outstanding. -/
structure Settled (i : ℕ) (s : Processes τ (TcpShared τ β) (TcpPc β)) : Prop where
  threads : ∀ t caller q, s.pc t ≠ .session i caller q
  connects : s.shared.connects i = 0
  recvs : (s.shared.sessions i).recvs = 0
  sends : (s.shared.sessions i).sends = []
  disconnects : (s.shared.sessions i).disconnects = 0

/-- After a run, every session that was disconnected and has settled is released. -/
def ReleaseLaw (c : ServiceConfig) (events : List (τ × TcpChoice β)) : Prop :=
  ∀ i, (∃ e ∈ (tcpThreads τ β c).trace (tcpInit τ β) events, TakesEffect i e) →
    Settled i ((tcpThreads τ β c).exec (tcpInit τ β) events) →
      (((tcpThreads τ β c).exec (tcpInit τ β) events).shared.sessions i).onDisconnectedRuns = 1 ∧
        (((tcpThreads τ β c).exec (tcpInit τ β) events).shared.sessions i).inSessions = false

/-- A step in which `DisconnectEx` fails at once, or a thread dequeues its completion with the error
that `Dispatch` takes for the end of a wait. -/
def LosesRelease
    (e : Entry (Processes τ (TcpShared τ β) (TcpPc β)) (τ × TcpChoice β) (Option Unit)) : Prop :=
  (∃ i caller caller' r, e.before.pc e.input.1 = .session i caller (.disconnect caller' .disconnectEx) ∧
    e.input.2 = .next r ∧ r.error ≠ none) ∨
  ∃ i numOfBytes, e.before.pc e.input.1 = .outside ∧
    e.input.2 = .dequeue (.disconnectEx i) numOfBytes (some waitTimeout)

/-! ## The owner of `_disconnectEvent` -/

/-- The right is in one place, and an outstanding `DisconnectEx` has its owner. -/
structure OwnedEvents (v : SessionView τ β) : Prop extends Life v where
  owner : v.session.disconnects ≠ 0 → v.session.disconnectOwner = true

/-- No thread is in the error branch, and one at `DisconnectEx` has set the owner. -/
structure OwnedAt (q : SessionPc β) (v : SessionView τ β) : Prop extends LifeAt q v where
  lost : ¬ q.Lost
  owner : (∃ caller, q = .disconnect caller .disconnectEx) → v.session.disconnectOwner = true

omit [DecidableEq τ] in
/-- What a thread knows of the life, away from the two positions about `DisconnectEx`. -/
theorem OwnedAt.of_lifeAt {q : SessionPc β} {v : SessionView τ β} (h : LifeAt q v) (hlost : ¬ q.Lost)
    (hne : ∀ caller, q ≠ .disconnect caller .disconnectEx) : OwnedAt q v :=
  ⟨h, hlost, fun ⟨caller, heq⟩ => absurd heq (hne caller)⟩

omit [DecidableEq τ] in
/-- Outside of the members nothing is to be known. -/
theorem ownedAt_outside (v : SessionView τ β) : OwnedAt .outside v :=
  .of_lifeAt ((lifeInv τ β).each_outside v) id (by simp)

omit [DecidableEq τ] in
/-- `ProcessConnect` begins with an event that has its owner while it is outstanding. -/
theorem ownedAt_store {v : SessionView τ β} (h : OwnedEvents v) :
    OwnedAt (.processConnect .store) v :=
  .of_lifeAt ((lifeInv τ β).each_store v h.toLife) id (by simp)

/-- `_disconnectEvent` keeps its owner. -/
def releaseInv (τ β : Type) : SessionInv τ β where
  shared := OwnedEvents
  each := OwnedAt
  pairs := LifeApart
  each_outside := ownedAt_outside
  each_store _ := ownedAt_store
  pairs_outside := lifeApart_outside
  pairs_store := lifeApart_store

section owner

variable {v : SessionView τ β} {q q' : SessionPc β} {x : SessionShared τ β} {r : CallResult} {t : τ}

omit [DecidableEq τ] in
/-- What is to be shown besides of a step that keeps the right to release in one place. -/
theorem releaseInv_keeps (hlife : (lifeInv τ β).Keeps v q x q')
    (hshared : x.disconnects ≠ 0 → x.disconnectOwner = true) (hlost : ¬ q'.Lost)
    (hself : (∃ caller, q' = .disconnect caller .disconnectEx) → x.disconnectOwner = true)
    (hkept : ¬ q.HoldsRelease → v.session.disconnectOwner = true → x.disconnectOwner = true) :
    (releaseInv τ β).Keeps v q x q' where
  shared := ⟨hlife.shared, hshared⟩
  self := ⟨hlife.self, hlost, hself⟩
  others u hapart hu := by
    obtain ⟨hat, hpair⟩ := hlife.others u hapart hu.toLifeAt
    refine ⟨⟨hat, hu.lost, fun hex => ?_⟩, hpair⟩
    have hhold : u.HoldsRelease := by
      obtain ⟨caller, rfl⟩ := hex
      exact trivial
    exact hkept (fun hq => hapart.holds ⟨hq, hhold⟩) (hu.owner hex)

omit [DecidableEq τ] in
/-- A position with no part in the life of the session is not before `DisconnectEx`. -/
theorem SessionPc.Idle.ne_disconnectEx (h : q.Idle) (caller : DisconnectCaller) :
    q ≠ .disconnect caller .disconnectEx := by
  rintro rfl
  exact h.holds trivial

/-- **A step in a member** in which `DisconnectEx` does not fail. -/
theorem owned_keeps (hnext : nextStep t v.session r q = some (x, q')) (hv : OwnedEvents v)
    (hq : OwnedAt q v) (honce : v.stored + q.stores ≤ 1)
    (hfails : (∃ caller, q = .disconnect caller .disconnectEx) → r.error = none) :
    (releaseInv τ β).Keeps v q x q' := by
  have hstep := nextStep_life hnext
  have hlife := hstep.keeps hv.toLife hq.toLifeAt honce
  cases hstep with
  | quiet hsame hp hp' =>
      refine releaseInv_keeps hlife (fun h => ?_) hp'.lost
        (fun ⟨caller, heq⟩ => absurd heq (hp'.ne_disconnectEx caller))
        fun _ h => hsame.disconnectOwner.trans h
      exact hsame.disconnectOwner.trans (hv.owner (hsame.disconnects ▸ h))
  | store | add | run | release =>
      exact releaseInv_keeps hlife hv.owner id (by simp) fun _ h => h
  | take => exact releaseInv_keeps hlife hv.owner id (by simp) fun _ h => h
  | own => exact releaseInv_keeps hlife (fun _ => rfl) id (fun _ => rfl) fun _ _ => rfl
  | @post caller =>
      have hidle := idle_return (β := β) caller
      exact releaseInv_keeps hlife (fun _ => hq.owner ⟨caller, rfl⟩) hidle.lost
        (fun ⟨caller', heq⟩ => absurd heq (hidle.ne_disconnectEx caller')) fun _ h => h
  | @lose caller hfailed => exact absurd (hfails ⟨caller, rfl⟩) hfailed
  | abandon => exact absurd trivial hq.lost
  | finish =>
      obtain ⟨-, hnone, -⟩ := hq.holds trivial
      exact releaseInv_keeps hlife (fun h => absurd hnone h) id (by simp)
        fun h => absurd trivial h

omit [DecidableEq τ] in
/-- **A step into a member.** -/
theorem owned_enter_keeps {k : SessionChoice β} (hk : k ≠ .connected)
    (henter : enterStep v.session k = some (x, q')) (hv : OwnedEvents v) :
    (releaseInv τ β).Keeps v .outside x q' := by
  have hstep := enterStep_life hk henter
  have hlife := hstep.keeps hv.toLife
  cases hstep with
  | quiet hsame hp' hk' =>
      refine releaseInv_keeps hlife (fun h => ?_) hp'.lost
        (fun ⟨caller, heq⟩ => absurd heq (hp'.ne_disconnectEx caller))
        fun _ h => hsame.disconnectOwner.trans h
      exact hsame.disconnectOwner.trans (hv.owner (hsame.disconnects ▸ h))
  | disconnected hk' hpos =>
      exact releaseInv_keeps hlife (fun _ => hv.owner hpos) id (by simp) fun _ h => h

end owner

/-! ## The right to release -/

/-- Where the right to release a session is, while no thread has it: in a connected session, in an
outstanding `DisconnectEx`, or used up. A session that was not stored has none. -/
def ReleaseAt (i : ℕ) (s : TcpShared τ β) : Prop :=
  s.times (.stored i) = 0 ∨ (s.sessions i).connected = true ∨ (s.sessions i).disconnects ≠ 0 ∨
    ((s.sessions i).onDisconnectedRuns = 1 ∧ (s.sessions i).inSessions = false ∧
      (s.crashed = true ∨ s.times (.added i) = 1))

/-- A thread has the right to release a session. -/
def TcpPc.Releasing (i : ℕ) (p : TcpPc β) : Prop :=
  ∃ caller q, p = .session i caller q ∧ q.HoldsRelease

/-- The right to release a session is somewhere. -/
abbrev ReleasePending (i : ℕ) : Processes τ (TcpShared τ β) (TcpPc β) → Prop :=
  WitnessInv (ReleaseAt i) (TcpPc.Releasing i)

section pending

variable {c : ServiceConfig} {t : τ} {s : Processes τ (TcpShared τ β) (TcpPc β)}
  {s' : TcpShared τ β} {p' : TcpPc β} {k : TcpChoice β} {i : ℕ}

omit [DecidableEq τ] in
/-- Where the right is, it stays while the session is left alone. -/
theorem ReleaseAt.keep {s : TcpShared τ β} (h : ReleaseAt i s)
    (hsame : (s'.sessions i).connected = (s.sessions i).connected ∧
      (s'.sessions i).disconnects = (s.sessions i).disconnects ∧
      (s'.sessions i).onDisconnectedRuns = (s.sessions i).onDisconnectedRuns ∧
      (s'.sessions i).inSessions = (s.sessions i).inSessions)
    (hstored : s'.times (.stored i) = s.times (.stored i))
    (hadded : s'.times (.added i) = s.times (.added i)) (hcrashed : s.crashed = false) :
    ReleaseAt i s' := by
  obtain ⟨hconnected, hdisconnects, hruns, hin⟩ := hsame
  rcases h with h | h | h | ⟨hrun, hout, hadd⟩
  · exact .inl (hstored.trans h)
  · exact .inr (.inl (hconnected.trans h))
  · exact .inr (.inr (.inl (hdisconnects.trans_ne h)))
  · refine .inr (.inr (.inr ⟨hruns.trans hrun, hin.trans hout, .inr ?_⟩))
    exact hadded.trans (hadd.resolve_left fun htrue =>
      absurd (hcrashed.symm.trans htrue) Bool.false_ne_true)

/-- **A step hands the right on**, if it is none that loses it. -/
theorem ReleasePending.move (hinv : (releaseInv τ β).OfStack s) (h : ReleasePending i s)
    (hcrashed : s.shared.crashed = false) (hmove : StackMove t s.shared (s.pc t) k s' p')
    (hlose : ∀ caller caller' r, s.pc t = .session i caller (.disconnect caller' .disconnectEx) →
      k = .next r → r.error = none)
    (htimeout : ∀ numOfBytes, k ≠ .dequeue (.disconnectEx i) numOfBytes (some waitTimeout)) :
    ReleasePending i ⟨s', Function.update s.pc t p'⟩ := by
  refine hmove.witness h id (fun hview hat => ?_)
    (fun caller q r x q' hpq hk hnext hs' hbefore => ?_)
    (fun k' x q hk henter hview hat => ?_) fun k' x q hout hk henter hview hdrops hat => ?_
  · have hsession : s'.sessions i = s.shared.sessions i := congrArg SessionView.session hview
    refine hat.keep ?_ (congrArg SessionView.stored hview) (congrArg SessionView.added hview) hcrashed
    rw [hsession]
    exact ⟨rfl, rfl, rfl, rfl⟩
  · obtain ⟨hself, -⟩ := view_member s.shared t i q x
    have hx : s'.sessions i = x := hs' ▸ congrArg SessionView.session hself
    have hstored : s'.times (.stored i) = s.shared.times (.stored i) + q.stores :=
      hs' ▸ congrArg SessionView.stored hself
    have hadded : s'.times (.added i) = s.shared.times (.added i) + q.adds :=
      hs' ▸ congrArg SessionView.added hself
    have heach := hinv.each t i caller q hpq
    cases nextStep_life hnext with
    | quiet hsame hidle hidle' =>
        refine .inl ((hbefore.resolve_right hidle.holds).keep ?_ ?_ ?_ hcrashed)
        · rw [hx]
          exact ⟨hsame.connected, hsame.disconnects, hsame.onDisconnectedRuns, hsame.inSessions⟩
        · rw [hstored, hidle.stores, Nat.add_zero]
        · rw [hadded, hidle.adds, Nat.add_zero]
    | store => exact .inl (.inr (.inl (by rw [hx])))
    | add =>
        obtain ⟨hone, hnone⟩ := heach.adding rfl
        refine .inl ?_
        rcases hbefore.resolve_right id with h | h | h | ⟨-, -, hadd⟩
        · exact absurd (hone.symm.trans h) Nat.one_ne_zero
        · exact .inr (.inl (by rw [hx]; exact h))
        · exact .inr (.inr (.inl (by rw [hx]; exact h)))
        · rcases hadd with htrue | hadd
          · exact absurd (hcrashed.symm.trans htrue) Bool.false_ne_true
          · exact absurd (hnone.symm.trans hadd) Nat.zero_ne_one
    | take | own | finish | run => exact .inr trivial
    | post => exact .inl (.inr (.inr (.inl (by rw [hx]; exact Nat.succ_ne_zero _))))
    | @lose caller' hfailed => exact absurd (hlose caller caller' r hpq hk) hfailed
    | abandon => exact absurd trivial heach.lost
    | release =>
        obtain ⟨-, -, hruns, -⟩ := heach.holds trivial
        refine .inl (.inr (.inr (.inr ⟨by rw [hx]; exact hruns, by rw [hx], ?_⟩)))
        cases hin : (s.shared.sessions i).inSessions with
        | true => exact .inr (hadded.trans ((hinv.shared i).inSessions hin))
        | false =>
            refine .inl ?_
            simp [hs', TcpShared.setSession, TcpShared.around, hin]
  · have hx : s'.sessions i = x := congrArg SessionView.session hview
    cases enterStep_life (enters_ne_connected hk) henter with
    | quiet hsame =>
        refine .inl (hat.keep ?_ (congrArg SessionView.stored hview)
          (congrArg SessionView.added hview) hcrashed)
        rw [hx]
        exact ⟨hsame.connected, hsame.disconnects, hsame.onDisconnectedRuns, hsame.inSessions⟩
    | disconnected => exact .inr trivial
  · have hx : s'.sessions i = x := congrArg SessionView.session hview
    cases enterStep_life (enters_ne_connected hk) henter with
    | quiet hsame =>
        refine hat.keep ?_ (congrArg SessionView.stored hview) (congrArg SessionView.added hview)
          hcrashed
        rw [hx]
        exact ⟨hsame.connected, hsame.disconnects, hsame.onDisconnectedRuns, hsame.inSessions⟩
    | disconnected hk' hpos =>
        -- the completion goes no further only for one of the two causes
        subst hk'
        obtain ⟨op, numOfBytes, errCode, rfl, hcause⟩ := hdrops
        cases op <;> cases hk
        rcases hcause with htime | howner
        · exact absurd (by rw [htime]) (htimeout numOfBytes)
        · have hown := (hinv.shared i).owner hpos
          exact absurd (hown.symm.trans howner) Bool.noConfusion

end pending

/-! ## Runs -/

section runs

variable {c : ServiceConfig} {t : τ} {s : Processes τ (TcpShared τ β) (TcpPc β)}
  {s' : TcpShared τ β} {p' : TcpPc β} {k : TcpChoice β} {i : ℕ}

/-- A step in which `DisconnectEx` does not fail keeps the owner of `_disconnectEvent`. -/
theorem releaseInv_move (h : (releaseInv τ β).OfStack s)
    (hmove : StackMove t s.shared (s.pc t) k s' p') (honce : ConnectsOnce s')
    (hlose : ∀ i caller caller' r, s.pc t = .session i caller (.disconnect caller' .disconnectEx) →
      k = .next r → r.error = none) :
    (releaseInv τ β).OfStack ⟨s', Function.update s.pc t p'⟩ := by
  refine h.update hmove (fun i caller q r x q' hp hk hnext => ?_) fun i k' x q hk henter => ?_
  · refine owned_keeps hnext (h.shared i) (h.each t i caller q hp) (hmove.stores_le hp honce) ?_
    rintro ⟨caller', rfl⟩
    exact hlose i caller caller' r hp hk
  · exact owned_enter_keeps (enters_ne_connected hk) henter (h.shared i)

omit [DecidableEq τ] in
/-- The invariant holds at the start. -/
theorem releaseInv_init : (releaseInv τ β).OfStack (tcpInit τ β) :=
  ⟨fun i => ⟨(late_init i).toLife, fun h => absurd rfl h⟩, fun _ _ _ _ h => (by cases h),
    fun _ _ _ _ _ _ _ _ h => (by cases h)⟩

/-- The right to release every session is somewhere, in every run that stores none twice and loses no
right. -/
theorem releasePending_run (c : ServiceConfig) (events : List (τ × TcpChoice β))
    (honce : ConnectsOnce ((tcpThreads τ β c).exec (tcpInit τ β) events).shared)
    (hlose : ∀ e ∈ (tcpThreads τ β c).trace (tcpInit τ β) events, ¬ LosesRelease e) :
    (releaseInv τ β).OfStack ((tcpThreads τ β c).exec (tcpInit τ β) events) ∧
      ∀ i, ReleasePending i ((tcpThreads τ β c).exec (tcpInit τ β) events) := by
  refine (tcpThreads τ β c).guarded_invariant
    (I := fun s : Processes τ (TcpShared τ β) (TcpPc β) =>
      (releaseInv τ β).OfStack s ∧ ∀ i, ReleasePending i s)
    (C := fun e => ConnectsOnce e.after.shared ∧ ¬ LosesRelease e)
    ⟨releaseInv_init, fun i => .inl (.inl rfl)⟩ (fun s e h hC => ?_) events
    fun e he => ⟨fun i => (times_le_exec c he i).trans (honce i), hlose e he⟩
  obtain ⟨hinv, hpending⟩ := h
  obtain ⟨hafter, hkept⟩ := hC
  rcases hact : tcpAct c e.1 s.shared (s.pc e.1) e.2 with _ | ⟨s', p', o⟩
  · rw [tcpThreads, interleave_step_of_none hact]
    exact ⟨hinv, hpending⟩
  · rw [Transducer.entry_after, tcpThreads, interleave_step_of_some hact] at hafter
    rw [tcpThreads, interleave_step_of_some hact]
    obtain ⟨hcrashed, hmove⟩ := tcpAct_move hact
    have hfails : ∀ i caller caller' r,
        s.pc e.1 = .session i caller (.disconnect caller' .disconnectEx) →
        e.2 = .next r → r.error = none := by
      intro i caller caller' r hp hk
      by_contra hne
      exact hkept (.inl ⟨i, caller, caller', r, hp, hk, hne⟩)
    refine ⟨releaseInv_move hinv hmove hafter hfails, fun i => (hpending i).move hinv hcrashed hmove
      (hfails i) fun numOfBytes hk => ?_⟩
    have hout : s.pc e.1 = .outside := by
      rcases (tcpAct_eq_some hact).2 with ⟨hp, -⟩ | ⟨r, hr, -⟩
      · exact hp
      · cases hk.symm.trans hr
    exact hkept (.inr ⟨i, numOfBytes, hout, hk⟩)

/-- A session that was stored and is disconnected stays so, when none is stored twice. -/
theorem disconnected_move (hmove : StackMove t s.shared (s.pc t) k s' p') (honce : ConnectsOnce s')
    (hstored : 0 < s.shared.times (.stored i)) (hconnected : (s.shared.sessions i).connected = false) :
    (s'.sessions i).connected = false := by
  generalize hp : s.pc t = p at hmove
  have hle := fun caller q (hat : p = .session i caller q) => hmove.stores_le hat honce
  cases hmove with
  | @member j caller q r x q' hp' _ hnext =>
      by_cases hij : i = j
      · subst hij
        have hx : ((s.shared.around t i q).setSession i x).sessions i = x := Function.update_self ..
        have hstores := hle caller q hp'
        rw [hx]
        cases nextStep_life hnext with
        | quiet hsame => exact hsame.connected.trans hconnected
        | store =>
            have hone : s.shared.times (.stored i) + 1 ≤ 1 := hstores
            omega
        | take => rfl
        | _ => exact hconnected
      · have hview := (view_member s.shared t j q x).2 i hij
        exact (congrArg (fun v => v.session.connected) hview).trans hconnected
  | @enter j k' x q _ _ hk hstep _ hsessions | @dropped j k' x q _ _ hk hstep _ hsessions =>
      rw [hsessions]
      by_cases hij : i = j
      · subst hij
        rw [Function.update_self]
        cases enterStep_life (enters_ne_connected hk) hstep with
        | quiet hsame => exact hsame.connected.trans hconnected
        | disconnected => exact hconnected
      · rw [Function.update_of_ne hij]
        exact hconnected
  | other _ _ hsessions _ =>
      rw [hsessions]
      exact hconnected

/-- The sessions live as they should after the entries `h`, and if `Disconnect` has taken effect on the
session `i`, it was stored and is disconnected. -/
def StaysDisconnected (i : ℕ)
    (h : List (Entry (Processes τ (TcpShared τ β) (TcpPc β)) (τ × TcpChoice β) (Option Unit)))
    (s : Processes τ (TcpShared τ β) (TcpPc β)) : Prop :=
  (lifeInv τ β).OfStack s ∧ ((∃ e ∈ h, TakesEffect i e) →
    0 < s.shared.times (.stored i) ∧ (s.shared.sessions i).connected = false)

/-- **The step lemma.** -/
theorem staysDisconnected_step {c : ServiceConfig}
    {h : List (Entry (Processes τ (TcpShared τ β) (TcpPc β)) (τ × TcpChoice β) (Option Unit))}
    {s : Processes τ (TcpShared τ β) (TcpPc β)} {e : τ × TcpChoice β} (hinv : StaysDisconnected i h s)
    (hafter : ConnectsOnce ((tcpThreads τ β c).entry s e).after.shared) :
    StaysDisconnected i (h ++ [(tcpThreads τ β c).entry s e]) ((tcpThreads τ β c).step s e).1 := by
  obtain ⟨hlife, hdone⟩ := hinv
  rcases hact : tcpAct c e.1 s.shared (s.pc e.1) e.2 with _ | ⟨s', p', o⟩
  · have hstep : (tcpThreads τ β c).step s e = (s, none) := interleave_step_of_none hact
    refine ⟨by rwa [hstep], fun ⟨u, hu, htakes⟩ => ?_⟩
    rw [hstep]
    rcases List.mem_append.mp hu with hu | hu
    · exact hdone ⟨u, hu, htakes⟩
    · cases List.mem_singleton.mp hu
      obtain ⟨htrue, hfalse⟩ := htakes
      rw [Transducer.entry_after, hstep] at hfalse
      exact absurd (hfalse.symm.trans htrue) Bool.false_ne_true
  · have hstep : (tcpThreads τ β c).step s e = (⟨s', Function.update s.pc e.1 p'⟩, some o) :=
      interleave_step_of_some hact
    rw [Transducer.entry_after, hstep] at hafter
    obtain ⟨-, hmove⟩ := tcpAct_move hact
    refine ⟨by rw [hstep]; exact lifeInv_move hlife hmove hafter, fun ⟨u, hu, htakes⟩ => ?_⟩
    rw [hstep]
    have hle := hmove.times_le (.stored i) (.inl ⟨i, rfl⟩)
    rcases List.mem_append.mp hu with hu | hu
    · obtain ⟨hstored, hconnected⟩ := hdone ⟨u, hu, htakes⟩
      exact ⟨hstored.trans_le hle, disconnected_move hmove hafter hstored hconnected⟩
    · cases List.mem_singleton.mp hu
      obtain ⟨htrue, hfalse⟩ := htakes
      rw [Transducer.entry_after, hstep] at hfalse
      have htotal : (s.shared.sessions i).disconnects + (s.shared.sessions i).onDisconnectedRuns +
          (s.shared.sessions i).connected.toNat ≤ s.shared.times (.stored i) :=
        (hlife.shared i).total
      rw [Transducer.entry_before] at htrue
      rw [htrue, Bool.toNat_true] at htotal
      exact ⟨(Nat.succ_le_iff.mp ((Nat.le_add_left 1 _).trans htotal)).trans_le hle, hfalse⟩

/-- What `Disconnect` has done to a session holds to the end of the run. -/
theorem disconnected_run (c : ServiceConfig) (events : List (τ × TcpChoice β))
    (honce : ConnectsOnce ((tcpThreads τ β c).exec (tcpInit τ β) events).shared)
    (htaken : ∃ e ∈ (tcpThreads τ β c).trace (tcpInit τ β) events, TakesEffect i e) :
    0 < ((tcpThreads τ β c).exec (tcpInit τ β) events).shared.times (.stored i) ∧
      (((tcpThreads τ β c).exec (tcpInit τ β) events).shared.sessions i).connected = false := by
  have hinv : StaysDisconnected i ((tcpThreads τ β c).trace (tcpInit τ β) events)
      ((tcpThreads τ β c).exec (tcpInit τ β) events) :=
    (tcpThreads τ β c).history_invariant (C := fun e => ConnectsOnce e.after.shared)
      (J := StaysDisconnected i) ⟨lifeInv_init, fun ⟨_, he, _⟩ => absurd he List.not_mem_nil⟩
      (fun _ _ _ hinv hafter => staysDisconnected_step hinv hafter) events
      fun e he j => (times_le_exec c he j).trans (honce j)
  exact hinv.2 htaken

/-- **Every disconnected session is released**, in every run in which no `DisconnectEx` fails at once
and none of their completions is taken for the end of a wait. -/
theorem release_law (c : ServiceConfig) (events : List (τ × TcpChoice β))
    (hbind : BindsOnce ((tcpThreads τ β c).trace (tcpInit τ β) events))
    (hlose : ∀ e ∈ (tcpThreads τ β c).trace (tcpInit τ β) events, ¬ LosesRelease e) :
    ReleaseLaw c events := by
  intro i htaken hsettled
  have honce := connects_once c events hbind
  obtain ⟨hstored, hconnected⟩ := disconnected_run c events honce htaken
  obtain ⟨-, hpending⟩ := releasePending_run c events honce hlose
  rcases hpending i with hat | ⟨t, caller, q, hat, -⟩
  · rcases hat with h | h | h | ⟨hruns, hout, -⟩
    · exact absurd h hstored.ne'
    · exact absurd (hconnected.symm.trans h) Bool.false_ne_true
    · exact absurd hsettled.disconnects h
    · exact ⟨hruns, hout⟩
  · exact absurd hat (hsettled.threads t caller q)

open TcpChoice in
/-- A server accepts a session, whose peer then closes. -/
def peerCloses : List (TcpChoice ℕ) :=
  [start, next .ok, next .ok, next .ok, next (.failed wsaIoPending), next .ok,
    dequeue (.acceptEx 0) 0 none, next .ok, next .ok, next .ok, next .ok, next .ok, next .ok,
    next .ok, next .ok, next (.failed wsaIoPending), next .ok, next (.failed wsaIoPending),
    dequeue (.wsaRecv 0) 0 none, next .ok, next .ok]

open TcpChoice in
/-- `DisconnectEx` is pending, and completes. -/
def releasedRun : List (Unit × TcpChoice ℕ) :=
  (peerCloses ++ next .ok :: [next .ok, next (.failed wsaIoPending),
    dequeue (.disconnectEx 0) 0 none, next .ok, next .ok, next .ok]).map fun k => ((), k)

open TcpChoice in
/-- `DisconnectEx` fails at once with `WSAENOTCONN`. -/
def neverReleasedRun : List (Unit × TcpChoice ℕ) :=
  (peerCloses ++ next .ok :: [next .ok, next (.failed 10057), next .ok]).map fun k => ((), k)

/-- The law in a run with a release. -/
theorem release_law_releasedRun :
    ReleaseLaw ⟨.server, 1, true⟩ releasedRun ∧
      (((tcpThreads Unit ℕ ⟨.server, 1, true⟩).exec (tcpInit Unit ℕ)
        releasedRun).shared.sessions 0).onDisconnectedRuns = 1 := by
  have hinputs : ∀ k ∈ releasedRun, (∀ r, k.2 = .next r → r.error = none) ∧
      ∀ i numOfBytes, k.2 ≠ .dequeue (.disconnectEx i) numOfBytes (some waitTimeout) := by
    simp [releasedRun, peerCloses, CallResult.error]
  refine ⟨release_law _ _ (server_bindsOnce _ rfl _) fun e he hloses => ?_, by decide +kernel⟩
  obtain ⟨fs, k, gs, hes, rfl⟩ := Transducer.mem_trace_iff _ |>.mp he
  obtain ⟨hfails, htimeout⟩ := hinputs k (hes ▸ List.mem_append_right _ List.mem_cons_self)
  rcases hloses with ⟨i, caller, caller', r, -, hr, herror⟩ | ⟨i, numOfBytes, -, hk⟩
  · exact herror (hfails r hr)
  · exact htimeout i numOfBytes hk

/-- The session is in `_sessions` for good, and `OnDisconnected` has not run. -/
theorem not_releaseLaw_neverReleasedRun : ¬ ReleaseLaw ⟨.server, 1, true⟩ neverReleasedRun := by
  intro hlaw
  have hruns : (((tcpThreads Unit ℕ ⟨.server, 1, true⟩).exec (tcpInit Unit ℕ)
      neverReleasedRun).shared.sessions 0).onDisconnectedRuns = 0 := by decide +kernel
  have hout : ((tcpThreads Unit ℕ ⟨.server, 1, true⟩).exec (tcpInit Unit ℕ)
      neverReleasedRun).pc () = .outside := by decide +kernel
  have htaken : ∃ e ∈ (tcpThreads Unit ℕ ⟨.server, 1, true⟩).trace (tcpInit Unit ℕ) neverReleasedRun,
      TakesEffect 0 e := by
    refine ⟨_, (Transducer.mem_trace_iff _).mpr ⟨peerCloses.map fun k => ((), k), ((), .next .ok),
      [.next .ok, .next (.failed 10057), .next .ok].map fun k => ((), k), rfl, rfl⟩, ?_⟩
    exact ⟨by decide +kernel, by decide +kernel⟩
  have hsettled : Settled 0 ((tcpThreads Unit ℕ ⟨.server, 1, true⟩).exec (tcpInit Unit ℕ)
      neverReleasedRun) :=
    ⟨fun t caller q hp => (by cases hout.symm.trans hp), by decide +kernel, by decide +kernel,
      by decide +kernel, by decide +kernel⟩
  obtain ⟨hone, -⟩ := hlaw 0 htaken hsettled
  exact absurd (hruns.symm.trans hone) Nat.zero_ne_one

end runs

end CowboyPoker.ServerCore
