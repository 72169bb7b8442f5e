import CowboyPoker.ServerCore.SessionLife

/-!
# Who releases a session

The exchange of `_connected` that takes effect gives one thread the right to release the session; the
right goes through `DisconnectEx` and its completion to `ReleaseSession`.

* `ConnectsOnce` — no session is stored twice. `lifeInv` — the right is in one place then, so
  `OnDisconnected` runs at most once.
* `LearnsLate` — threads learn of a session from `OnConnected` onwards. `lateInv` — who has the right
  finds the session in `_sessions` then.
-/

namespace CowboyPoker.ServerCore

open CowboyPoker.Found

variable {τ β : Type}

/-! ## The right to release a session -/

/-- What a session has behind it: it was stored at most once, and of the exchange that takes effect,
the outstanding `DisconnectEx` and `OnDisconnected` there is one at a time. -/
structure Life (v : SessionView τ β) : Prop where
  stored : v.stored ≤ 1
  added : v.added ≤ v.stored
  inSessions : v.session.inSessions = true → v.added = 1
  total : v.session.disconnects + v.session.onDisconnectedRuns + v.session.connected.toNat ≤ v.stored

/-- What a thread at a position knows. -/
structure LifeAt (q : SessionPc β) (v : SessionView τ β) : Prop where
  adding : q = .processConnect .addSession → v.stored = 1 ∧ v.added = 0
  holds : q.HoldsRelease → v.session.connected = false ∧ v.session.disconnects = 0 ∧
    v.session.onDisconnectedRuns = q.ran ∧ v.stored = 1

/-- Two threads are neither both at `AddSession` nor both to release the session. -/
structure LifeApart (q q' : SessionPc β) : Prop where
  adding : ¬ (q = .processConnect .addSession ∧ q' = .processConnect .addSession)
  holds : ¬ (q.HoldsRelease ∧ q'.HoldsRelease)

/-- The order of the two threads does not matter. -/
theorem LifeApart.symm {q q' : SessionPc β} (h : LifeApart q q') : LifeApart q' q :=
  ⟨fun hboth => h.adding hboth.symm, fun hboth => h.holds hboth.symm⟩

/-- A thread that neither adds nor releases the session is apart from every other. -/
theorem LifeApart.of_left {q q' : SessionPc β} (hadding : q ≠ .processConnect .addSession)
    (hholds : ¬ q.HoldsRelease) : LifeApart q q' :=
  ⟨fun hboth => hadding hboth.1, fun hboth => hholds hboth.1⟩

/-- A thread outside disturbs nobody. -/
theorem lifeApart_outside (q : SessionPc β) : LifeApart .outside q ∧ LifeApart q .outside := by
  have h : LifeApart .outside q := .of_left (by simp) id
  exact ⟨h, h.symm⟩

/-- A thread that connects disturbs nobody. -/
theorem lifeApart_store (q : SessionPc β) :
    LifeApart (.processConnect .store) q ∧ LifeApart q (.processConnect .store) := by
  have h : LifeApart (.processConnect .store) q := .of_left (by simp) id
  exact ⟨h, h.symm⟩

/-- The right to release a session is in one place. -/
def lifeInv (τ β : Type) : SessionInv τ β where
  shared := Life
  each := LifeAt
  pairs := LifeApart
  each_outside _ := ⟨fun h => (by cases h), fun h => h.elim⟩
  each_store _ _ := ⟨fun h => (by cases h), fun h => h.elim⟩
  pairs_outside := lifeApart_outside
  pairs_store := lifeApart_store

section life

variable {v : SessionView τ β} {q q' : SessionPc β} {x : SessionShared τ β} {r : CallResult}

/-- A position with no part in the life of the session stores nothing. -/
theorem SessionPc.Idle.stores (h : q.Idle) : q.stores = 0 := by
  cases q with
  | processConnect q =>
      cases q with
      | store => exact absurd trivial h.starting
      | _ => rfl
  | _ => rfl

/-- A position with no part in the life of the session adds nothing. -/
theorem SessionPc.Idle.adds (h : q.Idle) : q.adds = 0 := by
  cases q with
  | processConnect q =>
      cases q with
      | addSession => exact absurd trivial h.starting
      | _ => rfl
  | _ => rfl

/-- A position with no part in the life of the session is not before `AddSession`. -/
theorem SessionPc.Idle.ne_addSession (h : q.Idle) : q ≠ .processConnect .addSession := by
  rintro rfl
  exact h.starting trivial

/-- A position without a part in the life of the session knows nothing. -/
theorem LifeAt.of_not (hadding : q ≠ .processConnect .addSession) (hholds : ¬ q.HoldsRelease) :
    LifeAt q v :=
  ⟨fun h => absurd h hadding, fun h => absurd h hholds⟩

/-- What is to be shown of a step: the two clauses of the other threads, one by one. -/
theorem lifeInv_keeps (hshared : Life (v.after q x)) (hself : LifeAt q' (v.after q x))
    (hadding : q ≠ .processConnect .addSession → v.stored = 1 → v.added = 0 →
      q' ≠ .processConnect .addSession ∧ q.stores = 0 ∧ q.adds = 0)
    (hholds : ¬ q.HoldsRelease → v.session.connected = false → v.session.disconnects = 0 →
      v.stored = 1 → ¬ q'.HoldsRelease ∧ x.connected = false ∧ x.disconnects = 0 ∧
        x.onDisconnectedRuns = v.session.onDisconnectedRuns ∧ q.stores = 0) :
    (lifeInv τ β).Keeps v q x q' where
  shared := hshared
  self := hself
  others u hapart hu := by
    have hat : LifeAt u (v.after q x) := by
      refine ⟨fun hadd => ?_, fun hhold => ?_⟩
      · obtain ⟨hstored, hadded⟩ := hu.adding hadd
        obtain ⟨-, hstores, hadds⟩ := hadding (fun hq => hapart.adding ⟨hq, hadd⟩) hstored hadded
        exact ⟨by simp only [SessionView.after, hstored, hstores],
          by simp only [SessionView.after, hadded, hadds]⟩
      · obtain ⟨hconnected, hdisconnects, hruns, hstored⟩ := hu.holds hhold
        obtain ⟨-, hconnected', hdisconnects', hruns', hstores⟩ :=
          hholds (fun hq => hapart.holds ⟨hq, hhold⟩) hconnected hdisconnects hstored
        exact ⟨hconnected', hdisconnects', hruns'.trans hruns,
          by simp only [SessionView.after, hstored, hstores]⟩
    have hpair : LifeApart q' u := by
      refine ⟨fun hboth => ?_, fun hboth => ?_⟩
      · obtain ⟨hstored, hadded⟩ := hu.adding hboth.2
        exact (hadding (fun hq => hapart.adding ⟨hq, hboth.2⟩) hstored hadded).1 hboth.1
      · obtain ⟨hconnected, hdisconnects, -, hstored⟩ := hu.holds hboth.2
        exact (hholds (fun hq => hapart.holds ⟨hq, hboth.2⟩) hconnected hdisconnects hstored).1
          hboth.1
    exact ⟨hat, hpair, hpair.symm⟩

/-- A step that leaves the life of the session alone. -/
theorem lifeInv_quiet (hv : Life v) (hsame : SameLife v.session x) (hp : q.Idle) (hp' : q'.Idle) :
    (lifeInv τ β).Keeps v q x q' := by
  refine lifeInv_keeps ⟨?_, ?_, ?_, ?_⟩ (.of_not hp'.ne_addSession hp'.holds)
    (fun _ _ _ => ⟨hp'.ne_addSession, hp.stores, hp.adds⟩)
    fun _ hconnected hdisconnects _ => ⟨hp'.holds, hsame.connected.trans hconnected,
      hsame.disconnects.trans hdisconnects, hsame.onDisconnectedRuns, hp.stores⟩
  · simpa only [SessionView.after, hp.stores, Nat.add_zero] using hv.stored
  · simpa only [SessionView.after, hp.stores, hp.adds, Nat.add_zero] using hv.added
  · simpa only [SessionView.after, hp.adds, hsame.inSessions, Nat.add_zero] using hv.inSessions
  · simpa only [SessionView.after, hp.stores, hsame.disconnects, hsame.onDisconnectedRuns,
      hsame.connected, Nat.add_zero] using hv.total

/-- **A step in a member.** -/
theorem LifeStep.keeps (h : LifeStep v.session r q x q') (hv : Life v) (hq : LifeAt q v)
    (honce : v.stored + q.stores ≤ 1) : (lifeInv τ β).Keeps v q x q' := by
  have htotal := hv.total
  have hadded := hv.added
  cases h with
  | quiet hsame hp hp' => exact lifeInv_quiet hv hsame hp hp'
  | store =>
      have hstored : v.stored = 0 := Nat.le_zero.mp (Nat.le_of_succ_le_succ honce)
      rw [hstored] at htotal hadded
      obtain ⟨hdisconnects, hruns⟩ : v.session.disconnects = 0 ∧
          v.session.onDisconnectedRuns = 0 := by omega
      have hnone : v.added = 0 := Nat.le_zero.mp hadded
      have hone : v.stored ≠ 1 := by omega
      refine lifeInv_keeps ⟨honce, ?_, hv.inSessions, ?_⟩ ⟨fun _ => ⟨?_, hnone⟩, fun h => h.elim⟩
        (fun _ h => absurd h hone) fun _ _ _ h => absurd h hone
      · exact hv.added.trans (Nat.le_add_right _ _)
      · simp only [SessionView.after, hdisconnects, hruns, hstored, SessionPc.stores,
          Bool.toNat_true, le_refl]
      · simp only [SessionView.after, hstored, SessionPc.stores]
  | add =>
      obtain ⟨hstored, hnone⟩ := hq.adding rfl
      refine lifeInv_keeps ⟨hv.stored, ?_, fun _ => ?_, htotal⟩ (.of_not (by simp) id)
        (fun h => absurd rfl h) fun _ hconnected hdisconnects _ =>
          ⟨id, hconnected, hdisconnects, rfl, rfl⟩
      · simp only [SessionView.after, hstored, hnone, SessionPc.stores, SessionPc.adds, le_refl]
      · simp only [SessionView.after, hnone, SessionPc.adds]
  | take hconnected =>
      have hle := hv.stored
      rw [hconnected, Bool.toNat_true] at htotal
      obtain ⟨hdisconnects, hruns, hstored⟩ : v.session.disconnects = 0 ∧
          v.session.onDisconnectedRuns = 0 ∧ v.stored = 1 := by omega
      refine lifeInv_keeps ⟨hle, hadded, hv.inSessions, ?_⟩
        ⟨fun h => (by cases h), fun _ => ⟨rfl, hdisconnects, hruns, hstored⟩⟩
        (fun _ _ _ => ⟨by simp, rfl, rfl⟩)
        fun _ hfalse => absurd (hfalse.symm.trans hconnected) Bool.false_ne_true
      simp only [SessionView.after, hdisconnects, hruns, Bool.toNat_false]
      exact Nat.zero_le _
  | own =>
      exact lifeInv_keeps ⟨hv.stored, hadded, hv.inSessions, htotal⟩
        ⟨fun h => (by cases h), fun _ => hq.holds trivial⟩ (fun _ _ _ => ⟨by simp, rfl, rfl⟩)
        fun h => absurd trivial h
  | @post caller =>
      obtain ⟨hconnected, hdisconnects, hruns, hstored⟩ := hq.holds trivial
      have hidle := idle_return (β := β) caller
      refine lifeInv_keeps ⟨hv.stored, hadded, hv.inSessions, ?_⟩
        (.of_not hidle.ne_addSession hidle.holds) (fun _ _ _ => ⟨hidle.ne_addSession, rfl, rfl⟩)
        fun h => absurd trivial h
      simp only [SessionView.after, hconnected, hdisconnects, hruns, hstored, SessionPc.ran,
        SessionPc.stores, Bool.toNat_false, le_refl]
  | lose =>
      exact lifeInv_keeps ⟨hv.stored, hadded, hv.inSessions, htotal⟩ (.of_not (by simp) id)
        (fun _ _ _ => ⟨by simp, rfl, rfl⟩) fun h => absurd trivial h
  | @abandon caller =>
      have hidle := idle_return (β := β) caller
      exact lifeInv_keeps ⟨hv.stored, hadded, hv.inSessions, htotal⟩
        (.of_not hidle.ne_addSession hidle.holds) (fun _ _ _ => ⟨hidle.ne_addSession, rfl, rfl⟩)
        fun _ hconnected hdisconnects _ => ⟨hidle.holds, hconnected, hdisconnects, rfl, rfl⟩
  | finish =>
      exact lifeInv_keeps ⟨hv.stored, hadded, hv.inSessions, htotal⟩
        ⟨fun h => (by cases h), fun _ => hq.holds trivial⟩ (fun _ _ _ => ⟨by simp, rfl, rfl⟩)
        fun h => absurd trivial h
  | run =>
      obtain ⟨hconnected, hdisconnects, hruns, hstored⟩ := hq.holds trivial
      refine lifeInv_keeps ⟨hv.stored, hadded, hv.inSessions, ?_⟩
        ⟨fun h => (by cases h), fun _ => ⟨hconnected, hdisconnects, ?_, hstored⟩⟩
        (fun _ _ _ => ⟨by simp, rfl, rfl⟩) fun h => absurd trivial h
      · simp only [SessionView.after, hconnected, hdisconnects, hruns, hstored, SessionPc.ran,
          SessionPc.stores, Bool.toNat_false, le_refl]
      · simp only [SessionView.after, hruns, SessionPc.ran]
  | release =>
      exact lifeInv_keeps ⟨hv.stored, hadded, fun h => absurd h Bool.false_ne_true, htotal⟩
        (.of_not (by simp) id) (fun _ _ _ => ⟨by simp, rfl, rfl⟩) fun h => absurd trivial h

/-- **A step into a member.** -/
theorem EnterStep.keeps {k : SessionChoice β} (h : EnterStep v.session k x q') (hv : Life v) :
    (lifeInv τ β).Keeps v .outside x q' := by
  have htotal := hv.total
  have hle := hv.stored
  cases h with
  | quiet hsame hp' => exact lifeInv_quiet hv hsame ⟨id, id, id⟩ hp'
  | disconnected hk hpos =>
      obtain ⟨hone, hruns, hconnected, hstored⟩ : v.session.disconnects = 1 ∧
          v.session.onDisconnectedRuns = 0 ∧ v.session.connected.toNat = 0 ∧ v.stored = 1 := by
        omega
      have hfalse : v.session.connected = false := Bool.toNat_eq_zero.mp hconnected
      refine lifeInv_keeps ⟨hle, hv.added, hv.inSessions, ?_⟩
        ⟨fun h => (by cases h), fun _ => ⟨hfalse, ?_, hruns, hstored⟩⟩
        (fun _ _ _ => ⟨by simp, rfl, rfl⟩) fun _ _ h => absurd h hpos
      · simp only [SessionView.after, hone, hruns, hconnected, Nat.sub_self]
        exact Nat.zero_le _
      · simp only [SessionView.after, hone]

end life

/-! ## Threads that learn of a session late -/

/-- An operation is posted only for a session that was added, and what can still be disconnected, or is
being disconnected, is in `_sessions`. -/
structure Late (v : SessionView τ β) : Prop extends Life v where
  posted : v.session.recvs ≠ 0 ∨ v.session.sends ≠ [] ∨ v.session.disconnects ≠ 0 → v.added = 1
  registered : v.session.disconnects ≠ 0 ∨ (v.session.connected = true ∧ v.added = 1) →
    v.session.inSessions = true
  crashed : v.session.crashed = false

/-- A thread in another member than `ProcessConnect` has learned of the session, and who has the right
to release it finds it in `_sessions`. -/
structure LateAt (q : SessionPc β) (v : SessionView τ β) : Prop extends LifeAt q v where
  learned : ¬ q.Starting → q ≠ .outside → v.added = 1
  registered : q.HoldsRelease → v.session.inSessions = true

/-- `ReleaseSession` finds the session. -/
def lateInv (τ β : Type) : SessionInv τ β where
  shared := Late
  each := LateAt
  pairs := LifeApart
  each_outside v := ⟨(lifeInv τ β).each_outside v, fun _ h => absurd rfl h, fun h => h.elim⟩
  each_store v h := ⟨(lifeInv τ β).each_store v h.toLife, fun h => absurd trivial h, fun h => h.elim⟩
  pairs_outside := lifeApart_outside
  pairs_store := lifeApart_store

section late

variable {v : SessionView τ β} {q q' : SessionPc β} {x : SessionShared τ β} {r : CallResult}

/-- What is to be shown besides of a step that keeps the right to release in one place. -/
theorem lateInv_keeps (hlife : (lifeInv τ β).Keeps v q x q') (hshared : Late (v.after q x))
    (hlearned : ¬ q'.Starting → q' ≠ .outside → (v.after q x).added = 1)
    (hregistered : q'.HoldsRelease → x.inSessions = true)
    (hkept : ¬ q.HoldsRelease → v.session.inSessions = true → x.inSessions = true) :
    (lateInv τ β).Keeps v q x q' where
  shared := hshared
  self := ⟨hlife.self, hlearned, hregistered⟩
  others u hapart hu := by
    obtain ⟨hat, hpair⟩ := hlife.others u hapart hu.toLifeAt
    refine ⟨⟨hat, fun hstarting hout => ?_, fun hhold => ?_⟩, hpair⟩
    · have hadded := hu.learned hstarting hout
      have hle : (v.after q x).added ≤ 1 := hlife.shared.added.trans hlife.shared.stored
      exact le_antisymm hle (hadded ▸ Nat.le_add_right _ _)
    · exact hkept (fun hq => hapart.holds ⟨hq, hhold⟩) (hu.registered hhold)

variable [DecidableEq τ] {t : τ}

/-- **A step in a member.** -/
theorem late_keeps (hnext : nextStep t v.session r q = some (x, q')) (hv : Late v)
    (hq : LateAt q v) (honce : v.stored + q.stores ≤ 1) : (lateInv τ β).Keeps v q x q' := by
  have hstep := nextStep_life hnext
  have hlife := hstep.keeps hv.toLife hq.toLifeAt honce
  have hle : (v.after q x).added ≤ 1 := hlife.shared.added.trans hlife.shared.stored
  have hout : q ≠ .outside := by
    rintro rfl
    cases hnext
  -- behind the end of `AddSession` everything is learned
  have hall : ¬ q.Starting → (v.after q x).added = 1 := fun hstarting =>
    le_antisymm hle (hq.learned hstarting hout ▸ Nat.le_add_right _ _)
  cases hstep with
  | quiet hsame hp hp' =>
      have hadded := hall hp.starting
      refine lateInv_keeps hlife ⟨hlife.shared, fun _ => hadded, fun h => ?_, ?_⟩ (fun _ _ => hadded)
        (fun h => absurd h hp'.holds) fun _ h => hsame.inSessions.trans h
      · have hin : v.session.inSessions = true := by
          refine hv.registered (h.imp ?_ fun hboth => ⟨?_, hq.learned hp.starting hout⟩)
          · exact fun hpos => hsame.disconnects ▸ hpos
          · exact hsame.connected.symm.trans hboth.1
        exact hsame.inSessions.trans hin
      · exact hsame.crashed.trans hv.crashed
  | store =>
      have hnone : v.added = 0 := by
        have hstored : v.stored = 0 := Nat.le_zero.mp (Nat.le_of_succ_le_succ honce)
        exact Nat.le_zero.mp (hstored ▸ hv.added)
      refine lateInv_keeps hlife ⟨hlife.shared, hv.posted, fun h => ?_, hv.crashed⟩
        (fun h => absurd trivial h) (fun h => h.elim) fun _ h => h
      refine hv.registered (h.imp_right fun hboth => ?_)
      exact absurd (hnone.symm.trans hboth.2) Nat.zero_ne_one
  | add =>
      obtain ⟨-, hnone⟩ := hq.adding rfl
      have hadded : v.added + 1 = 1 := by rw [hnone]
      exact lateInv_keeps hlife ⟨hlife.shared, fun _ => hadded, fun _ => rfl, hv.crashed⟩
        (fun _ _ => hadded) (fun h => h.elim) fun _ _ => rfl
  | take hconnected =>
      have hadded := hall id
      have hin : v.session.inSessions = true := hv.registered (.inr ⟨hconnected, hq.learned id hout⟩)
      exact lateInv_keeps hlife ⟨hlife.shared, fun _ => hadded, fun _ => hin, hv.crashed⟩
        (fun _ _ => hadded) (fun _ => hin) fun _ h => h
  | own | post | lose | finish | run =>
      have hadded := hall id
      have hin := hq.registered trivial
      exact lateInv_keeps hlife ⟨hlife.shared, fun _ => hadded, fun _ => hin, hv.crashed⟩
        (fun _ _ => hadded) (fun _ => hin) fun _ h => h
  | @abandon caller =>
      have hadded := hall id
      have hidle := idle_return (β := β) caller
      exact lateInv_keeps hlife ⟨hlife.shared, fun _ => hadded, hv.registered, hv.crashed⟩
        (fun _ _ => hadded) (fun h => absurd h hidle.holds) fun _ h => h
  | release =>
      obtain ⟨hconnected, hdisconnects, -⟩ := hq.holds trivial
      have hin := hq.registered trivial
      refine lateInv_keeps hlife ⟨hlife.shared, fun _ => hall id, fun h => ?_, ?_⟩
        (fun _ h => absurd rfl h) (fun h => h.elim) fun h => absurd trivial h
      · rcases h with hpos | ⟨htrue, -⟩
        · exact absurd hdisconnects hpos
        · exact absurd (hconnected.symm.trans htrue) Bool.false_ne_true
      · simp only [SessionView.after, hin, Bool.not_true]

omit [DecidableEq τ] in
/-- **A step into a member**, of a session that was added, or for a completion. -/
theorem late_enter_keeps {k : SessionChoice β} (hk : k ≠ .connected)
    (henter : enterStep v.session k = some (x, q')) (hv : Late v)
    (hlearns : (k = .disconnect ∨ ∃ sendBuffer, k = .send sendBuffer) → v.added = 1) :
    (lateInv τ β).Keeps v .outside x q' := by
  have hstep := enterStep_life hk henter
  have hlife := hstep.keeps hv.toLife
  -- what was posted was posted for a session that was added
  have hadded : v.added = 1 := by
    cases k with
    | send sendBuffer => exact hlearns (.inr ⟨sendBuffer, rfl⟩)
    | disconnect => exact hlearns (.inl rfl)
    | connected => exact absurd rfl hk
    | received numOfBytes =>
        obtain ⟨hpos, -⟩ := Option.ite_none_left_eq_some.mp henter
        exact hv.posted (.inl hpos)
    | sent numOfBytes =>
        simp only [enterStep] at henter
        split at henter
        · cases henter
        · rename_i hsends
          exact hv.posted (.inr (.inl (by rw [hsends]; exact List.cons_ne_nil _ _)))
    | disconnected =>
        obtain ⟨hpos, -⟩ := Option.ite_none_left_eq_some.mp henter
        exact hv.posted (.inr (.inr hpos))
    | next r => cases henter
  cases hstep with
  | quiet hsame hp' hk' =>
      refine lateInv_keeps hlife ⟨hlife.shared, fun _ => hadded, fun h => ?_, ?_⟩ (fun _ _ => hadded)
        (fun h => absurd h hp'.holds) fun _ h => hsame.inSessions.trans h
      · refine hsame.inSessions.trans (hv.registered (h.imp ?_ fun hboth => ⟨?_, hadded⟩))
        · exact fun hpos => hsame.disconnects ▸ hpos
        · exact hsame.connected.symm.trans hboth.1
      · exact hsame.crashed.trans hv.crashed
  | disconnected hk' hpos =>
      have hin := hv.registered (.inl hpos)
      exact lateInv_keeps hlife ⟨hlife.shared, fun _ => hadded, fun _ => hin, hv.crashed⟩
        (fun _ _ => hadded) (fun _ => hin) fun _ h => h

end late

/-! ## Runs -/

/-- No session is stored twice. -/
def ConnectsOnce (s : TcpShared τ β) : Prop := ∀ i, s.times (.stored i) ≤ 1

/-- A thread learns of a session from `OnConnected` onwards: when the choice is to call `Send` or
`Disconnect`, the session was added. -/
def LearnsLate (s : TcpShared τ β) (k : TcpChoice β) : Prop :=
  ∀ i, (k = .disconnect i ∨ ∃ sendBuffer, k = .send i sendBuffer) → 0 < s.times (.added i)

section runs

variable [DecidableEq τ] {c : ServiceConfig} {t : τ} {s : Processes τ (TcpShared τ β) (TcpPc β)}
  {s' : TcpShared τ β} {p' : TcpPc β} {k : TcpChoice β}

/-- A step stores a session that a thread is about to store. -/
theorem StackMove.times_le {s : TcpShared τ β} {p : TcpPc β} (h : StackMove t s p k s' p')
    (event : ConnectionEvent) (hevent : (∃ i, event = .stored i) ∨ ∃ i, event = .added i) :
    s.times event ≤ s'.times event := by
  have hkept : StackKept s s' → s.times event ≤ s'.times event := by
    intro hkept
    rcases hevent with ⟨i, rfl⟩ | ⟨i, rfl⟩
    · exact (hkept.stored i).ge
    · exact (hkept.added i).ge
  cases h with
  | @member i caller q r x q' hp hk hnext =>
      rcases hevent with ⟨j, rfl⟩ | ⟨j, rfl⟩
      · exact (Nat.le_add_right _ _).trans (times_around s t i q j).1.ge
      · exact (Nat.le_add_right _ _).trans (times_around s t i q j).2.ge
  | enter _ _ _ hk _ => exact hkept hk
  | dropped _ _ _ hk _ _ => exact hkept hk
  | other _ hk _ _ => exact hkept hk

/-- What a thread is about to store was not stored before. -/
theorem StackMove.stores_le {s : TcpShared τ β} {p : TcpPc β} (h : StackMove t s p k s' p') {i : ℕ}
    {caller : SessionCaller} {q : SessionPc β} (hp : p = .session i caller q) (honce : ConnectsOnce s') :
    s.times (.stored i) + q.stores ≤ 1 := by
  cases h with
  | @member j caller' q' r x _ hp' _ _ =>
      cases hp.symm.trans hp'
      have htimes := (times_around s t i q i).1
      rw [if_pos rfl] at htimes
      exact htimes.symm.le.trans (honce i)
  | enter hout _ _ _ _ => cases hout.symm.trans hp
  | dropped hout _ _ _ _ _ => cases hout.symm.trans hp
  | other hno _ _ _ => exact absurd hp (hno i caller q)

omit [DecidableEq τ] in
/-- No choice of the stack connects a session behind its back. -/
theorem enters_ne_connected {i : ℕ} {k' : SessionChoice β} (h : k.enters = some (i, k')) :
    k' ≠ .connected := by
  rintro rfl
  cases k with
  | dequeue op numOfBytes errCode => cases op <;> cases h
  | _ => cases h

/-- A step that stores no session twice keeps the right to release in one place. -/
theorem lifeInv_move (h : (lifeInv τ β).OfStack s) (hmove : StackMove t s.shared (s.pc t) k s' p')
    (honce : ConnectsOnce s') : (lifeInv τ β).OfStack ⟨s', Function.update s.pc t p'⟩ := by
  refine h.update hmove (fun i caller q r x q' hp _ hnext => ?_) fun i k' x q hk henter => ?_
  · exact (nextStep_life hnext).keeps (h.shared i) (h.each t i caller q hp) (hmove.stores_le hp honce)
  · exact (enterStep_life (enters_ne_connected hk) henter).keeps (h.shared i)

/-- So does one by which no thread learns of a session early, and `ReleaseSession` finds it. -/
theorem lateInv_move (h : (lateInv τ β).OfStack s) (hmove : StackMove t s.shared (s.pc t) k s' p')
    (honce : ConnectsOnce s') (hlearns : LearnsLate s.shared k) :
    (lateInv τ β).OfStack ⟨s', Function.update s.pc t p'⟩ := by
  refine h.update hmove (fun i caller q r x q' hp _ hnext => ?_) fun i k' x q hk henter => ?_
  · exact late_keeps hnext (h.shared i) (h.each t i caller q hp) (hmove.stores_le hp honce)
  · refine late_enter_keeps (enters_ne_connected hk) henter (h.shared i) fun hlearn => ?_
    have hle : (s.shared.view i).added ≤ 1 := (h.shared i).added.trans (h.shared i).stored
    refine le_antisymm hle (hlearns i ?_)
    cases k with
    | send j sendBuffer =>
        cases hk
        exact .inr ⟨sendBuffer, rfl⟩
    | disconnect j =>
        cases hk
        exact .inl rfl
    | dequeue op numOfBytes errCode =>
        cases op <;> cases hk <;> simp at hlearn
    | start => cases hk
    | connect j => cases hk
    | next r => cases hk

/-- A thread is about to add the session. -/
def TcpPc.Adding (i : ℕ) (p : TcpPc β) : Prop :=
  ∃ caller, p = .session i caller (.processConnect .addSession)

/-- A session that was stored was added, or a thread is about to add it. -/
theorem adding_move {i : ℕ} (h : (lifeInv τ β).OfStack s)
    (hadding : WitnessInv (fun s : TcpShared τ β => s.times (.stored i) ≤ s.times (.added i))
      (TcpPc.Adding i) s)
    (hmove : StackMove t s.shared (s.pc t) k s' p') :
    WitnessInv (fun s : TcpShared τ β => s.times (.stored i) ≤ s.times (.added i))
      (TcpPc.Adding i) ⟨s', Function.update s.pc t p'⟩ := by
  refine hadding.update fun hbefore => ?_
  have hkept : StackKept s.shared s' → (∀ caller q, s.pc t ≠ .session i caller q) →
      s'.times (.stored i) ≤ s'.times (.added i) := by
    intro hkept hp
    rcases hbefore with hle | ⟨caller, hat⟩
    · rwa [hkept.stored, hkept.added]
    · exact absurd hat (hp caller _)
  generalize hp : s.pc t = p at hmove
  cases hmove with
  | @member j caller q r x q' hp' _ hnext =>
      obtain ⟨hstored, hadded⟩ := times_around s.shared t j q i
      by_cases hi : i = j
      · subst hi
        rw [if_pos rfl] at hstored hadded
        have hpq : s.pc t = .session i caller q := hp.trans hp'
        by_cases hstore : q = .processConnect .store
        · subst hstore
          cases hnext
          exact .inr ⟨caller, rfl⟩
        · refine .inl ?_
          have hnone : q.stores = 0 := by
            cases q with
            | processConnect q => cases q <;> first | rfl | exact absurd rfl hstore
            | _ => rfl
          rw [hnone] at hstored
          refine hstored.le.trans (le_trans ?_ hadded.ge)
          rcases hbefore with hle | ⟨caller', hat⟩
          · exact hle.trans (Nat.le_add_right _ _)
          · obtain ⟨-, rfl, rfl⟩ := (TcpPc.session.injEq ..).mp (hpq.symm.trans hat)
            obtain ⟨hone, -⟩ := (h.each t i caller _ hpq).adding rfl
            exact hone.le.trans (Nat.le_add_left 1 _)
      · rw [if_neg hi] at hstored hadded
        refine .inl (hstored.le.trans (le_trans ?_ hadded.ge))
        rcases hbefore with hle | ⟨caller', hat⟩
        · exact hle
        · cases (hp.trans hp').symm.trans hat
          exact absurd rfl hi
  | enter hout _ _ hk _ =>
      exact .inl (hkept hk fun caller q hat => by cases (hp.trans hout).symm.trans hat)
  | dropped hout _ _ hk _ _ =>
      exact .inl (hkept hk fun caller q hat => by cases (hp.trans hout).symm.trans hat)
  | other hno hk _ _ =>
      exact .inl (hkept hk fun caller q hat => hno i caller q (hp.symm.trans hat))

omit [DecidableEq τ] in
/-- Nothing has happened to any session yet. -/
theorem late_init (i : ℕ) : Late ((tcpInit τ β).shared.view i) where
  stored := Nat.zero_le 1
  added := le_rfl
  inSessions h := absurd h Bool.false_ne_true
  total := le_rfl
  posted h := by
    rcases h with h | h | h <;> exact absurd rfl h
  registered h := by
    rcases h with h | ⟨h, -⟩
    · exact absurd rfl h
    · exact absurd h Bool.false_ne_true
  crashed := rfl

omit [DecidableEq τ] in
/-- The invariant of what happens late holds at the start. -/
theorem lateInv_init : (lateInv τ β).OfStack (tcpInit τ β) :=
  ⟨late_init, fun _ _ _ _ h => (by cases h),
    fun _ _ _ _ _ _ _ _ h => (by cases h)⟩

omit [DecidableEq τ] in
/-- The invariant of the lives holds at the start. -/
theorem lifeInv_init : (lifeInv τ β).OfStack (tcpInit τ β) :=
  ⟨fun i => (late_init i).toLife, fun _ _ _ _ h => (by cases h),
    fun _ _ _ _ _ _ _ _ h => (by cases h)⟩

/-- A session that was stored is so from then on. -/
theorem times_le_exec (c : ServiceConfig) {events : List (τ × TcpChoice β)}
    {e : Entry (Processes τ (TcpShared τ β) (TcpPc β)) (τ × TcpChoice β) (Option Unit)}
    (he : e ∈ (tcpThreads τ β c).trace (tcpInit τ β) events) (i : ℕ) :
    e.after.shared.times (.stored i) ≤
      ((tcpThreads τ β c).exec (tcpInit τ β) events).shared.times (.stored i) := by
  refine (tcpThreads τ β c).after_le_exec_of_mem_trace
    (f := fun s => s.shared.times (.stored i)) (fun s e => ?_) he
  refine interleave_step
    (I := fun s' : Processes τ (TcpShared τ β) (TcpPc β) =>
      s.shared.times (.stored i) ≤ s'.shared.times (.stored i)) le_rfl e fun s' p' o hact => ?_
  exact (tcpAct_move hact).2.times_le _ (.inl ⟨i, rfl⟩)

end runs

end CowboyPoker.ServerCore
