import CowboyPoker.ServerCore.SendPipeline

/-!
# Whether a queued buffer is sent

A buffer on the queue waits for the owner of the token: it drains the queue itself, or its completion
does. `ProcessSend` tests the queue before it frees the token, under the lock that guards both. The
error path of `RegisterSend` frees the token without a look at the queue.

* `Strands` — a step that frees the token in front of a queue that nobody will look at again.
* `LockInv` — the lock of the session excludes, and under it a queue that was found empty stays so.
* `SendInv` — while connected, a queue that is not empty has the token taken or a `Send` on its way to
  take it, and a taken token has a thread or an outstanding `WSASend`.
* `no_stranded_send` — without a step that strands, no buffer is left waiting.
-/

namespace CowboyPoker.ServerCore

open CowboyPoker.Found

variable {τ β : Type}

/-! ## Positions -/

/-- How often a thread has acquired the lock of the session. -/
def lockDepth : SessionPc β → ℕ
  | .send (.push _) => 1
  | .send .exchange => 1
  | .send (.unlock _) => 1
  | .registerSend nested .drain => nested.toNat + 1
  | .registerSend nested .unlock => nested.toNat + 1
  | .registerSend nested _ => nested.toNat
  | .processSend .checkQueue => 1
  | .processSend .clearRegistered => 1
  | .processSend .unlock => 1
  | .disconnect (.registerSend nested) _ => nested.toNat
  | _ => 0

/-- Behind the loop in `RegisterSend` that empties the queue. -/
def RegisterSendPc.AfterDrain : RegisterSendPc β → Prop
  | check => False
  | init => False
  | lock => False
  | drain => False
  | _ => True

/-- A thread holds the lock and has found the queue empty. -/
def Drained : SessionPc β → Prop
  | .registerSend nested p => nested = true ∧ p.AfterDrain
  | .processSend p => p = .clearRegistered
  | .disconnect caller _ => caller = .registerSend true
  | _ => False

/-- A thread has called `Send` and not yet tried to take the token. -/
def BeforeExchange : SessionPc β → Prop
  | .send (.unlock _) => False
  | .send _ => True
  | _ => False

/-- A thread in `Send` has seen the session connected. -/
def Sending : SessionPc β → Prop
  | .send (.lock _) => True
  | .send (.push _) => True
  | .send .exchange => True
  | _ => False

/-- A step that is taken and strands: on a connected session the error path of `RegisterSend`, called by
`Send`, frees the token while the queue is not empty and nobody is on the way to take it. -/
def Strands (e : Entry (Processes τ (SessionShared τ β) (SessionPc β)) (τ × SessionChoice β)
    (Option Unit)) : Prop :=
  e.output ≠ none ∧ e.before.pc e.input.1 = .registerSend false .clearRegistered ∧
    e.before.shared.connected = true ∧ e.before.shared.sendQueue ≠ [] ∧
      ∀ u, ¬ BeforeExchange (e.before.pc u)

/-- Where the queue has been drained the thread holds the lock. -/
theorem Drained.lockDepth_pos {p : SessionPc β} (h : Drained p) : 0 < lockDepth p := by
  cases p with
  | registerSend nested p =>
      obtain ⟨rfl, hp⟩ := h
      cases p <;> first | exact Nat.zero_lt_one | exact Nat.zero_lt_two
  | processSend p =>
      cases h
      exact Nat.zero_lt_one
  | disconnect caller p =>
      cases h
      exact Nat.zero_lt_one
  | outside => cases h
  | send p => cases h
  | processDisconnect p => cases h
  | processConnect p => cases h
  | registerRecv p => cases h
  | processRecv p => cases h

/-- Away from the send path a thread holds the lock of the queue nowhere. -/
theorem lockDepth_of_outlying {p : SessionPc β} (h : p.Outlying) : lockDepth p = 0 := by
  cases p with
  | send p => exact h.elim
  | registerSend nested p => exact h.elim
  | processSend p => exact h.elim
  | disconnect caller p =>
      have hcaller : caller = .leave ∨ caller = .registerRecv := h
      rcases hcaller with rfl | rfl <;> rfl
  | _ => rfl

/-- Away from the send path no queue has just been drained. -/
theorem not_drained_of_outlying {p : SessionPc β} (h : p.Outlying) : ¬ Drained p := by
  intro hdrained
  have hpos := hdrained.lockDepth_pos
  rw [lockDepth_of_outlying h] at hpos
  exact absurd hpos (lt_irrefl 0)

/-! ## The lock -/

namespace SessionLock

variable [DecidableEq τ] {l l' : SessionLock τ} {t u : τ}

/-- Whoever holds the lock has acquired it. -/
def WellFormed (l : SessionLock τ) : Prop := ∀ u depth, l = some (u, depth) → 0 < depth

omit [DecidableEq τ] in
/-- The free lock is well formed. -/
theorem wellFormed_none : WellFormed (none : SessionLock τ) := fun _ _ h => nomatch h

/-- The lock has one holder. -/
theorem holder_unique (ht : 0 < l.heldBy t) (hu : 0 < l.heldBy u) : t = u := by
  cases l with
  | none => exact absurd ht (lt_irrefl 0)
  | some p =>
      obtain ⟨v, depth⟩ := p
      simp only [heldBy] at ht hu
      by_cases hvt : v = t
      · by_cases hvu : v = u
        · exact hvt.symm.trans hvu
        · rw [if_neg hvu] at hu
          exact absurd hu (lt_irrefl 0)
      · rw [if_neg hvt] at ht
        exact absurd ht (lt_irrefl 0)

/-- An acquisition adds one to what the thread holds and nothing to what others hold. -/
theorem acquire_spec (hl : l.WellFormed) (h : l.acquire t = some l') :
    l'.WellFormed ∧ l'.heldBy t = l.heldBy t + 1 ∧ ∀ u, u ≠ t → l'.heldBy u = l.heldBy u := by
  cases l with
  | none =>
      cases h
      refine ⟨fun _ _ heq => ?_, if_pos rfl, fun u hu => if_neg (Ne.symm hu)⟩
      cases heq
      exact Nat.zero_lt_one
  | some p =>
      obtain ⟨v, depth⟩ := p
      obtain ⟨rfl, h⟩ := Option.ite_none_right_eq_some.mp h
      cases h
      refine ⟨fun _ _ heq => ?_, ?_, fun u hu => ?_⟩
      · cases heq
        exact Nat.succ_pos _
      · simp only [heldBy, if_true]
      · simp only [heldBy, if_neg (Ne.symm hu)]

/-- A release takes one off what the holder holds and nothing off what others hold. -/
theorem release_spec (hl : l.WellFormed) (h : 0 < l.heldBy t) :
    l.release.WellFormed ∧ l.release.heldBy t + 1 = l.heldBy t ∧
      ∀ u, u ≠ t → l.release.heldBy u = l.heldBy u := by
  cases l with
  | none => exact absurd h (lt_irrefl 0)
  | some p =>
      obtain ⟨v, depth⟩ := p
      have hv : v = t := by
        by_contra hne
        rw [heldBy, if_neg hne] at h
        exact absurd h (lt_irrefl 0)
      subst hv
      match depth, hl v _ rfl with
      | 1, _ =>
          refine ⟨wellFormed_none, ?_, fun u hu => ?_⟩
          · simp only [release, heldBy, if_true]
          · simp only [release, heldBy, if_neg (Ne.symm hu)]
      | depth + 2, _ =>
          refine ⟨fun _ _ heq => ?_, ?_, fun u hu => ?_⟩
          · cases heq
            exact Nat.succ_pos _
          · simp only [release, heldBy, if_true]
          · simp only [release, heldBy, if_neg (Ne.symm hu)]

end SessionLock

/-- What a step of `t` at depth `depth` can have done to the lock. -/
inductive LockStep [DecidableEq τ] (t : τ) (l : SessionLock τ) :
    ℕ → SessionLock τ → ℕ → Prop
  /-- Nothing. -/
  | same (depth : ℕ) : LockStep t l depth l depth
  /-- It was acquired. -/
  | acquired {l' depth} (h : l.acquire t = some l') : LockStep t l depth l' (depth + 1)
  /-- It was released. -/
  | released (depth : ℕ) : LockStep t l (depth + 1) l.release depth

section inversion

variable {t : τ} {s s' : SessionShared τ β} {p p' : SessionPc β} {r : CallResult}

/-- `Disconnect` on a drained queue keeps it drained. -/
theorem drained_disconnect {caller : DisconnectCaller} {p : DisconnectPc}
    (h : disconnectStep s caller r p = some (s', p'))
    (hp : Drained (.disconnect caller p : SessionPc β) → s.sendQueue = []) (hp' : Drained p') :
    s'.sendQueue = [] := by
  have hreturn : Drained (caller.return : SessionPc β) → caller = .registerSend true := by
    intro hdrained
    cases caller with
    | registerSend nested => rw [hdrained.1]
    | leave => cases hdrained
    | processSend => cases hdrained
    | registerRecv => cases hdrained
  cases p with
  | exchange =>
      cases h
      split at hp'
      · exact hp hp'
      · exact hp (hreturn hp')
  | init =>
      cases h
      exact hp hp'
  | disconnectEx =>
      simp only [disconnectStep] at h
      split at h <;> cases h
      · exact hp (hreturn hp')
      · exact hp hp'
  | clearOwner =>
      cases h
      exact hp (hreturn hp')

variable [DecidableEq τ]

/-- A step outside of the send path. -/
theorem SendPathKept.lockStep (h : SendPathKept s s' ∧ p'.Outlying) (hp : p.Outlying) :
    LockStep t s.lock (lockDepth p) s'.lock (lockDepth p') := by
  rw [lockDepth_of_outlying hp, lockDepth_of_outlying h.2, h.1.lock]
  exact .same 0

/-- A thread that enters a member takes no lock with it. -/
theorem lockStep_enter {k : SessionChoice β} (h : enterStep s k = some (s', p')) :
    LockStep t s.lock 0 s'.lock (lockDepth p') := by
  cases k with
  | send sendBuffer =>
      cases h
      exact .same 0
  | sent numOfBytes =>
      simp only [enterStep] at h
      split at h <;> cases h
      exact .same 0
  | _ => exact SendPathKept.lockStep (p := .outside) (enterStep_outlying (by simp) (by simp) h) trivial

/-- What `Send` does to the lock of the queue. -/
theorem lockStep_send {p : SendPc β} (h : sendStep t s p = some (s', p')) :
    LockStep t s.lock (lockDepth (.send p)) s'.lock (lockDepth p') := by
  cases p with
  | check sendBuffer =>
      cases h
      cases s.connected <;> exact .same 0
  | lock sendBuffer =>
      obtain ⟨lock, hlock, h⟩ := Option.map_eq_some_iff.mp h
      cases h
      exact .acquired hlock
  | push sendBuffer =>
      cases h
      exact .same 1
  | exchange =>
      cases h
      exact .same 1
  | unlock registerSend =>
      cases h
      cases registerSend <;> exact .released 0

/-- What `RegisterSend` does to the lock of the queue, both alone and inside `ProcessSend`. -/
theorem lockStep_registerSend {nested : Bool} {p : RegisterSendPc β}
    (h : registerSendStep t s nested r p = some (s', p')) :
    LockStep t s.lock (lockDepth (.registerSend nested p)) s'.lock (lockDepth p') := by
  have hafter : lockDepth (afterRegisterSend nested : SessionPc β) = nested.toNat := by
    cases nested <;> rfl
  cases p with
  | check =>
      cases h
      cases s.connected with
      | false => exact hafter ▸ .same _
      | true => exact .same _
  | lock =>
      obtain ⟨lock, hlock, h⟩ := Option.map_eq_some_iff.mp h
      cases h
      exact .acquired hlock
  | drain =>
      simp only [registerSendStep] at h
      split at h <;> cases h <;> exact .same _
  | unlock =>
      cases h
      exact .released _
  | wsaSend wsaBufs =>
      simp only [registerSendStep] at h
      split at h <;> cases h
      · exact hafter ▸ .same _
      · exact .same _
  | handleError errorCode =>
      cases h
      unfold handleError
      split <;> exact .same _
  | clearRegistered =>
      cases h
      exact hafter ▸ .same _
  | init => cases h; exact .same _
  | fill => cases h; exact .same _
  | clearOwner => cases h; exact .same _
  | clearBuffers => cases h; exact .same _

/-- What `ProcessSend` does to the lock of the queue. -/
theorem lockStep_processSend {p : ProcessSendPc} (h : processSendStep t s p = some (s', p')) :
    LockStep t s.lock (lockDepth (.processSend p : SessionPc β)) s'.lock (lockDepth p') := by
  cases p with
  | check numOfBytes =>
      cases h
      split <;> exact .same 0
  | lock =>
      obtain ⟨lock, hlock, h⟩ := Option.map_eq_some_iff.mp h
      cases h
      exact .acquired hlock
  | checkQueue =>
      cases h
      split <;> exact .same 1
  | unlock =>
      cases h
      exact .released 0
  | clearOwner numOfBytes => cases h; exact .same 0
  | clearBuffers numOfBytes => cases h; exact .same 0
  | onSend => cases h; exact .same 0
  | clearRegistered => cases h; exact .same 1

/-- `Disconnect` leaves the lock of the queue to those who called it. -/
theorem lockStep_disconnect {caller : DisconnectCaller} {p : DisconnectPc}
    (h : disconnectStep s caller r p = some (s', p')) :
    LockStep t s.lock (lockDepth (.disconnect caller p : SessionPc β)) s'.lock (lockDepth p') := by
  have hdepth : ∀ q, lockDepth (.disconnect caller p : SessionPc β) =
      lockDepth (.disconnect caller q : SessionPc β) := by
    intro q
    cases caller <;> rfl
  have hreturn : lockDepth (.disconnect caller p : SessionPc β) =
      lockDepth (caller.return : SessionPc β) := by
    cases caller <;> rfl
  cases p with
  | exchange =>
      cases h
      cases s.connected with
      | false => exact hreturn ▸ .same _
      | true => exact hdepth .init ▸ .same _
  | init =>
      cases h
      exact hdepth .disconnectEx ▸ .same _
  | disconnectEx =>
      simp only [disconnectStep] at h
      split at h <;> cases h
      · exact hreturn ▸ .same _
      · exact hdepth .clearOwner ▸ .same _
  | clearOwner =>
      cases h
      exact hreturn ▸ .same _

/-- What a step does to the lock. -/
theorem lockStep {k : SessionChoice β} {o : Unit} (h : sessionAct t s p k = some (s', p', o)) :
    LockStep t s.lock (lockDepth p) s'.lock (lockDepth p') := by
  rcases sessionAct_eq_some h with ⟨rfl, henter⟩ | ⟨r, -, hnext⟩
  · exact lockStep_enter henter
  · cases p with
    | send p => exact lockStep_send hnext
    | registerSend nested p => exact lockStep_registerSend hnext
    | processSend p => exact lockStep_processSend hnext
    | disconnect caller p => exact lockStep_disconnect hnext
    | _ => exact SendPathKept.lockStep (nextStep_outlying hnext trivial) trivial

/-- `RegisterSend` keeps a drained queue drained until it lets go of the lock. -/
theorem drained_registerSend {nested : Bool} {p : RegisterSendPc β}
    (h : registerSendStep t s nested r p = some (s', p'))
    (hp : Drained (.registerSend nested p) → s.sendQueue = []) (hp' : Drained p') :
    s'.sendQueue = [] := by
  have hafter : ¬ Drained (afterRegisterSend nested : SessionPc β) := by
    cases nested
    · exact id
    · exact ProcessSendPc.noConfusion
  cases p with
  | check =>
      cases h
      split at hp'
      · exact absurd hp'.2 id
      · exact absurd hp' hafter
  | init =>
      cases h
      exact absurd hp'.2 id
  | lock =>
      obtain ⟨lock, -, h⟩ := Option.map_eq_some_iff.mp h
      cases h
      exact absurd hp'.2 id
  | drain =>
      simp only [registerSendStep] at h
      split at h
      · cases h
        assumption
      · cases h
        exact absurd hp'.2 id
  | wsaSend wsaBufs =>
      simp only [registerSendStep] at h
      split at h <;> cases h
      · exact absurd hp' hafter
      · exact hp ⟨hp'.1, trivial⟩
  | handleError errorCode =>
      cases h
      refine hp ⟨?_, trivial⟩
      unfold handleError at hp'
      split at hp'
      · exact (DisconnectCaller.registerSend.inj hp')
      · exact hp'.1
  | clearRegistered =>
      cases h
      exact absurd hp' hafter
  | unlock => cases h; exact hp ⟨hp'.1, trivial⟩
  | fill => cases h; exact hp ⟨hp'.1, trivial⟩
  | clearOwner => cases h; exact hp ⟨hp'.1, trivial⟩
  | clearBuffers => cases h; exact hp ⟨hp'.1, trivial⟩

/-- A thread that goes on behind an empty queue leaves it empty, and one that gets there has seen it
empty. -/
theorem drained_step {k : SessionChoice β} {o : Unit} (h : sessionAct t s p k = some (s', p', o))
    (hp : Drained p → s.sendQueue = []) (hp' : Drained p') : s'.sendQueue = [] := by
  rcases sessionAct_eq_some h with ⟨rfl, henter⟩ | ⟨r, -, hnext⟩
  · cases k with
    | send sendBuffer => cases henter; exact absurd hp' id
    | sent numOfBytes =>
        simp only [enterStep] at henter
        split at henter <;> cases henter
        exact ProcessSendPc.noConfusion hp'
    | _ =>
        exact absurd hp' (not_drained_of_outlying
          (enterStep_outlying (by simp) (by simp) henter).2)
  · cases p with
    | send p =>
        cases p with
        | check sendBuffer =>
            cases hnext
            split at hp' <;> exact absurd hp' id
        | lock sendBuffer =>
            obtain ⟨lock, -, hnext⟩ := Option.map_eq_some_iff.mp hnext
            cases hnext
            exact absurd hp' id
        | push sendBuffer => cases hnext; exact absurd hp' id
        | exchange => cases hnext; exact absurd hp' id
        | unlock registerSend =>
            cases hnext
            split at hp'
            · exact absurd hp'.2 id
            · exact absurd hp' id
    | registerSend nested p => exact drained_registerSend hnext hp hp'
    | processSend p =>
        cases p with
        | check numOfBytes =>
            cases hnext
            split at hp'
            · exact DisconnectCaller.noConfusion hp'
            · exact ProcessSendPc.noConfusion hp'
        | lock =>
            obtain ⟨lock, -, hnext⟩ := Option.map_eq_some_iff.mp hnext
            cases hnext
            exact ProcessSendPc.noConfusion hp'
        | checkQueue =>
            cases hnext
            split at hp'
            · assumption
            · exact absurd hp'.2 id
        | clearOwner numOfBytes => cases hnext; exact ProcessSendPc.noConfusion hp'
        | clearBuffers numOfBytes => cases hnext; exact ProcessSendPc.noConfusion hp'
        | onSend => cases hnext; exact ProcessSendPc.noConfusion hp'
        | clearRegistered => cases hnext; exact ProcessSendPc.noConfusion hp'
        | unlock => cases hnext; exact absurd hp' id
    | disconnect caller p => exact drained_disconnect hnext hp hp'
    | _ => exact absurd hp' (not_drained_of_outlying (nextStep_outlying hnext trivial).2)

/-- What a step does to the connection: it dequeues the completion that connects, or neither connects
nor lets a thread pass the test of `IsConnected()`. -/
inductive ConnectStep {τ β : Type} (s : SessionShared τ β) (p : SessionPc β) :
    SessionShared τ β → SessionPc β → Prop
  /-- The completion was dequeued. -/
  | dequeued (hpending : s.connectPending = true) : ConnectStep s p
      { s with connectPending := false } (.processConnect .store)
  /-- The session was connected. -/
  | stored (hp : p = .processConnect .store) : ConnectStep s p
      { s with connected := true } (.processConnect .addSession)
  /-- Anything else. -/
  | rest {s₁ p₁} (hpending : s₁.connectPending = s.connectPending)
      (hconnected : s₁.connected = true → s.connected = true)
      (hstore : p₁ ≠ .processConnect .store)
      (hsending : Sending p₁ → Sending p ∨ s.connected = true) : ConnectStep s p s₁ p₁

omit [DecidableEq τ] in
/-- A step to a position outside `Send` and `ProcessConnect`. -/
theorem ConnectStep.plain (hpending : s'.connectPending = s.connectPending)
    (hconnected : s'.connected = true → s.connected = true) (hstore : p' ≠ .processConnect .store)
    (hsending : ¬ Sending p') : ConnectStep s p s' p' :=
  .rest hpending hconnected hstore fun h => absurd h hsending

/-- `Send` leaves the connection and what is sent on it as `ConnectStep` says. -/
theorem connectStep_send {p : SendPc β} (h : sendStep t s p = some (s', p')) :
    ConnectStep s (.send p) s' p' := by
  cases p with
  | check sendBuffer =>
      cases h
      cases hconnected : s.connected with
      | false => exact .plain rfl (absurd · (by rw [hconnected]; exact Bool.noConfusion)) (by simp) id
      | true => exact .rest rfl id (by simp) fun _ => .inr hconnected
  | lock sendBuffer =>
      obtain ⟨lock, -, h⟩ := Option.map_eq_some_iff.mp h
      cases h
      exact .rest rfl id (by simp) fun _ => .inl trivial
  | push sendBuffer =>
      cases h
      exact .rest rfl id (by simp) fun _ => .inl trivial
  | exchange =>
      cases h
      exact .plain rfl id (by simp) id
  | unlock registerSend =>
      cases h
      cases registerSend <;> exact .plain rfl id (by simp) id

omit [DecidableEq τ] in
/-- A step outside of `Send` and `ProcessConnect`. -/
theorem SessionQuiet.connectStep (h : SessionQuiet s p s' p') (hp : ¬ p.InSend) :
    ConnectStep s p s' p' := by
  refine .rest h.connectPending h.connected ?_ fun hsending => ?_
  · rintro rfl
    exact h.connecting trivial
  · cases p' with
    | send q => exact absurd (h.send trivial) hp
    | _ => exact absurd hsending id

omit [DecidableEq τ] in
/-- A step that enters a member does to the connection what `ConnectStep` says. -/
theorem connectStep_enter {k : SessionChoice β} (h : enterStep s k = some (s', p')) :
    ConnectStep s .outside s' p' := by
  cases k with
  | send sendBuffer => cases h; exact .plain rfl id (by simp) id
  | disconnect => cases h; exact .plain rfl id (by simp) id
  | connected =>
      obtain ⟨hpending, h⟩ := Option.ite_none_right_eq_some.mp h
      cases h
      exact .dequeued hpending
  | received numOfBytes =>
      obtain ⟨-, h⟩ := Option.ite_none_left_eq_some.mp h
      cases h
      exact .plain rfl id (by simp) id
  | sent numOfBytes =>
      simp only [enterStep] at h
      split at h <;> cases h
      exact .plain rfl id (by simp) id
  | disconnected =>
      obtain ⟨-, h⟩ := Option.ite_none_left_eq_some.mp h
      cases h
      exact .plain rfl id (by simp) id
  | next r => cases h

/-- Every step does to the connection what `ConnectStep` says. -/
theorem connectStep {k : SessionChoice β} {o : Unit} (h : sessionAct t s p k = some (s', p', o)) :
    ConnectStep s p s' p' := by
  rcases sessionAct_eq_some h with ⟨rfl, henter⟩ | ⟨r, -, hnext⟩
  · exact connectStep_enter henter
  · cases p with
    | send p => exact connectStep_send hnext
    | processConnect p =>
        cases p with
        | store => cases hnext; exact .stored rfl
        | addSession => cases hnext; exact .plain rfl id (by simp) id
        | onConnected => cases hnext; exact .plain rfl id (by simp) id
    | _ => exact (nextStep_quiet id hnext).connectStep id

end inversion

/-! ## The lock and the connection -/

/-- Nothing has happened on the session yet. -/
structure Early (s : SessionShared τ β) : Prop where
  connected : s.connected = false
  sendQueue : s.sendQueue = []
  sendRegistered : s.sendRegistered = false

/-- What everybody knows of the lock and the connection. -/
structure LockShared (s : SessionShared τ β) : Prop where
  wellFormed : s.lock.WellFormed
  early : s.connectPending = true → Early s

/-- What a thread knows of the lock and the connection. -/
structure LockEach [DecidableEq τ] (t : τ) (s : SessionShared τ β) (p : SessionPc β) : Prop where
  /-- It has acquired the lock as often as its position says. -/
  held : s.lock.heldBy t = lockDepth p
  /-- Behind an empty queue, the queue is empty. -/
  drained : Drained p → s.sendQueue = []
  /-- The thread that connects the session finds it untouched. -/
  connecting : p = .processConnect .store → s.connectPending = false ∧ Early s
  /-- A thread that has seen the session connected comes after the one that connects it. -/
  sending : Sending p → s.connectPending = false

/-- One thread connects the session, before any other sends. -/
def LockPair (p q : SessionPc β) : Prop :=
  p = .processConnect .store → q ≠ .processConnect .store ∧ ¬ Sending q

/-- The invariant of the lock and the connection. -/
abbrev LockInv [DecidableEq τ] : Processes τ (SessionShared τ β) (SessionPc β) → Prop :=
  LocalInv LockShared LockEach LockPair

section step

variable [DecidableEq τ] {s : Processes τ (SessionShared τ β) (SessionPc β)} {t : τ}
  {k : SessionChoice β} {s' : SessionShared τ β} {p' : SessionPc β} {o : Unit}

/-- The lock of the queue stays well formed and is held by each thread as deep as its position says.
-/
theorem lockInv_held (h : LockInv s) (hact : sessionAct t s.shared (s.pc t) k = some (s', p', o)) :
    s'.lock.WellFormed ∧ s'.lock.heldBy t = lockDepth p' ∧
      ∀ u, u ≠ t → s'.lock.heldBy u = lockDepth (s.pc u) := by
  have hheld := (h.each t).held
  have hothers : ∀ u, s.shared.lock.heldBy u = lockDepth (s.pc u) := fun u => (h.each u).held
  have hstep := lockStep hact
  generalize hd : lockDepth (s.pc t) = depth at hstep hheld
  generalize hd' : lockDepth p' = depth' at hstep ⊢
  generalize hl : s'.lock = l' at hstep ⊢
  cases hstep with
  | same => exact ⟨h.shared.wellFormed, hheld, fun u _ => hothers u⟩
  | acquired hacquire =>
      obtain ⟨hwf, hself, hrest⟩ := SessionLock.acquire_spec h.shared.wellFormed hacquire
      exact ⟨hwf, by rw [hself, hheld], fun u hu => (hrest u hu).trans (hothers u)⟩
  | released =>
      have hpos : 0 < s.shared.lock.heldBy t := hheld ▸ Nat.succ_pos _
      obtain ⟨hwf, hself, hrest⟩ := SessionLock.release_spec h.shared.wellFormed hpos
      refine ⟨hwf, ?_, fun u hu => (hrest u hu).trans (hothers u)⟩
      rw [hheld] at hself
      exact Nat.succ.inj hself

/-- A step does not fill a queue that another thread has found empty. -/
theorem lockInv_drained (h : LockInv s)
    (hact : sessionAct t s.shared (s.pc t) k = some (s', p', o)) {u : τ} (hu : u ≠ t)
    (hdrained : Drained (s.pc u)) : s'.sendQueue = [] := by
  have hempty := (h.each u).drained hdrained
  have hstep := pipelineStep hact
  generalize hp : s.pc t = p at hstep
  cases hstep with
  | quiet hsame => rw [hsame.sendQueue, hempty]
  | dropped hsame => rw [hsame.sendQueue, hempty]
  | began hsame => rw [hsame.sendQueue, hempty]
  | pushed sendBuffer hpush =>
      -- both threads would hold the lock
      have hholds : 0 < s.shared.lock.heldBy t := by
        rw [(h.each t).held, hp, hpush]
        exact Nat.zero_lt_one
      have hheld : 0 < s.shared.lock.heldBy u := by
        rw [(h.each u).held]
        exact hdrained.lockDepth_pos
      exact absurd (SessionLock.holder_unique hheld hholds) hu
  | drained sendBuffer sendQueue hqueue =>
      rw [hempty] at hqueue
      cases hqueue
  | taken => exact hempty
  | filled => exact hempty
  | posted => exact hempty
  | refused => exact hempty
  | completed => exact hempty
  | cleared => exact hempty
  | released => exact hempty

/-- Nobody sends before the session is connected. -/
theorem early_step (hact : sessionAct t s.shared (s.pc t) k = some (s', p', o))
    (hearly : Early s.shared) (hsending : ¬ Sending (s.pc t))
    (hstore : s.pc t ≠ .processConnect .store) : Early s' := by
  have hconnected : s'.connected = false := by
    rw [← Bool.not_eq_true]
    intro hs'
    cases connectStep hact with
    | dequeued => exact absurd (hearly.connected.symm.trans hs') Bool.noConfusion
    | stored hp => exact hstore hp
    | rest _ hconnected => exact absurd (hearly.connected.symm.trans (hconnected hs')) Bool.noConfusion
  have hqueue : s'.sendQueue = [] ∧ s'.sendRegistered = false := by
    have hstep := pipelineStep hact
    have hregistered := hearly.sendRegistered
    have hempty := hearly.sendQueue
    generalize hp : s.pc t = p at hstep
    cases hstep with
    | quiet hsame => exact ⟨hsame.sendQueue.trans hempty, hsame.sendRegistered.trans hregistered⟩
    | dropped hsame => exact ⟨hsame.sendQueue.trans hempty, hsame.sendRegistered.trans hregistered⟩
    | began hsame => exact ⟨hsame.sendQueue.trans hempty, hsame.sendRegistered.trans hregistered⟩
    | pushed sendBuffer hpush =>
        rw [hp, hpush] at hsending
        exact absurd trivial hsending
    | taken hfree hexchange =>
        rw [hp, hexchange] at hsending
        exact absurd trivial hsending
    | drained sendBuffer sendQueue hqueue =>
        rw [hempty] at hqueue
        cases hqueue
    | filled => exact ⟨hempty, hregistered⟩
    | posted => exact ⟨hempty, hregistered⟩
    | refused => exact ⟨hempty, hregistered⟩
    | completed => exact ⟨hempty, hregistered⟩
    | cleared => exact ⟨hempty, hregistered⟩
    | released => exact ⟨hempty, rfl⟩
  exact ⟨hconnected, hqueue.1, hqueue.2⟩

/-- **The step lemma of the lock and the connection.** -/
theorem LockInv.update (h : LockInv s)
    (hact : sessionAct t s.shared (s.pc t) k = some (s', p', o)) :
    LockInv ⟨s', Function.update s.pc t p'⟩ := by
  obtain ⟨hwf, hself, hheld⟩ := lockInv_held h hact
  have hdrained : Drained p' → s'.sendQueue = [] := drained_step hact (h.each t).drained
  have hothers : ∀ u, u ≠ t → Drained (s.pc u) → s'.sendQueue = [] :=
    fun u hu => lockInv_drained h hact hu
  have hstep := connectStep hact
  generalize hp : s.pc t = p at hstep
  cases hstep with
  | dequeued hpending =>
      have hearly := h.shared.early hpending
      -- nobody connects or sends while the completion is there
      have hnone : ∀ u, s.pc u ≠ .processConnect .store ∧ ¬ Sending (s.pc u) := by
        refine fun u => ⟨fun hu => ?_, fun hu => ?_⟩
        · rw [((h.each u).connecting hu).1] at hpending
          cases hpending
        · rw [(h.each u).sending hu] at hpending
          cases hpending
      refine LocalInv.update h ⟨hwf, nofun⟩
        ⟨hself, hdrained, fun _ => ⟨rfl, hearly.1, hearly.2, hearly.3⟩, nofun⟩ ?_
      refine fun u hu => ⟨⟨hheld u hu, hothers u hu, ?_, ?_⟩, fun _ => hnone u, ?_⟩
      · exact fun hstore => absurd hstore (hnone u).1
      · exact fun hsending => absurd hsending (hnone u).2
      · exact fun hstore => absurd hstore (hnone u).1
  | stored hstore =>
      have hpending := ((h.each t).connecting (hp.trans hstore)).1
      have hnot : ∀ {pending : Bool}, pending = true → pending = false → False := by
        intro pending htrue hfalse
        exact Bool.noConfusion (htrue.symm.trans hfalse)
      refine LocalInv.update h ⟨hwf, fun htrue => (hnot htrue hpending).elim⟩
        ⟨hself, hdrained, nofun, nofun⟩ ?_
      refine fun u hu => ⟨⟨hheld u hu, hothers u hu, ?_, fun _ => hpending⟩, nofun, ?_⟩
      · exact fun hu' => absurd hu' (h.pairs t u (Ne.symm hu) (hp.trans hstore)).1
      · exact fun hu' => absurd hu' (h.pairs t u (Ne.symm hu) (hp.trans hstore)).1
  | rest hpending hconnected hstore hsending =>
      -- while the session is untouched, this thread neither connects nor sends
      have hearly : Early s.shared → ¬ Sending (s.pc t) → s.pc t ≠ .processConnect .store →
          Early s' := early_step hact
      refine LocalInv.update h ⟨hwf, fun htrue => ?_⟩ ⟨hself, hdrained, fun hp' => absurd hp' hstore,
        fun hp' => ?_⟩ fun u hu => ⟨⟨hheld u hu, hothers u hu, fun hu' => ?_, fun hu' => ?_⟩, ?_, ?_⟩
      · rw [hpending] at htrue
        refine hearly (h.shared.early htrue) (fun hsend => ?_) (fun hconn => ?_)
        · rw [(h.each t).sending hsend] at htrue
          cases htrue
        · rw [((h.each t).connecting hconn).1] at htrue
          cases htrue
      · rw [hpending]
        rcases hsending hp' with hsend | hconn
        · exact (h.each t).sending (hp ▸ hsend)
        · by_contra htrue
          rw [(h.shared.early (Bool.not_eq_false _ ▸ htrue)).connected] at hconn
          cases hconn
      · obtain ⟨hfalse, hu''⟩ := (h.each u).connecting hu'
        obtain ⟨hne, hnot⟩ := h.pairs u t hu hu'
        exact ⟨hpending.trans hfalse, hearly hu'' hnot hne⟩
      · exact hpending.trans ((h.each u).sending hu')
      · exact fun hp' => absurd hp' hstore
      · intro hu'
        obtain ⟨-, hnot⟩ := h.pairs u t hu hu'
        refine ⟨hstore, fun hp' => ?_⟩
        rcases hsending hp' with hsend | hconn
        · exact hnot (hp ▸ hsend)
        · rw [((h.each u).connecting hu').2.connected] at hconn
          cases hconn

/-! ## Who will look at the queue -/

/-- While connected, a queue that is not empty has the token taken, or a `Send` on its way to take
it. -/
def QueueWatched : Processes τ (SessionShared τ β) (SessionPc β) → Prop :=
  WitnessInv (fun s => s.connected = false ∨ s.sendQueue = [] ∨ s.sendRegistered = true)
    BeforeExchange

/-- While connected, a taken token has a thread or an outstanding `WSASend`. -/
def TokenOwned : Processes τ (SessionShared τ β) (SessionPc β) → Prop :=
  WitnessInv (fun s => s.connected = false ∨ s.sendRegistered = false ∨ s.sends ≠ [])
    (fun p => (tokenStage p).isSome)

/-- What a step keeps of the connection: afterwards the session is not connected, or it was before, or
it is connected now and untouched. -/
theorem connected_cases (h : LockInv s)
    (hact : sessionAct t s.shared (s.pc t) k = some (s', p', o)) :
    s'.connected = false ∨ s.shared.connected = true ∨
      (s'.sendQueue = [] ∧ s'.sendRegistered = false) := by
  have hstep := connectStep hact
  generalize hp : s.pc t = p at hstep
  cases hstep with
  | dequeued hpending => exact .inl (h.shared.early hpending).connected
  | stored hstore =>
      have hearly := ((h.each t).connecting (hp.trans hstore)).2
      exact .inr (.inr ⟨hearly.sendQueue, hearly.sendRegistered⟩)
  | rest _ hconnected =>
      cases hs' : s'.connected with
      | false => exact .inl rfl
      | true => exact .inr (.inl (hconnected hs'))

/-- A `Send` on its way to take the token gets on, or the token is taken. -/
theorem beforeExchange_step (hact : sessionAct t s.shared (s.pc t) k = some (s', p', o))
    (hconnected : s.shared.connected = true) (hp : BeforeExchange (s.pc t)) :
    BeforeExchange p' ∨ s'.sendRegistered = true := by
  generalize s.pc t = p at hact hp
  rcases sessionAct_eq_some hact with ⟨rfl, -⟩ | ⟨r, -, hnext⟩
  · cases hp
  cases p with
  | send p =>
      cases p with
      | check sendBuffer =>
          cases hnext
          rw [if_pos hconnected]
          exact .inl trivial
      | lock sendBuffer =>
          obtain ⟨lock, -, hnext⟩ := Option.map_eq_some_iff.mp hnext
          cases hnext
          exact .inl trivial
      | push sendBuffer =>
          cases hnext
          exact .inl trivial
      | exchange =>
          cases hnext
          exact .inr rfl
      | unlock registerSend => cases hp
  | _ => cases hp

/-- A step of a thread that is not on its way to take the token keeps the queue watched, unless it
frees the token by the error path of a `RegisterSend` that `Send` has called. -/
theorem queue_step (h : LockInv s)
    (hact : sessionAct t s.shared (s.pc t) k = some (s', p', o))
    (hp : ¬ BeforeExchange (s.pc t))
    (hclear : s.pc t = .registerSend false .clearRegistered → s.shared.sendQueue = [])
    (hbefore : s.shared.sendQueue = [] ∨ s.shared.sendRegistered = true) :
    s'.connected = false ∨ s'.sendQueue = [] ∨ s'.sendRegistered = true := by
  have hstep := pipelineStep hact
  have hdrained := (h.each t).drained
  generalize s.pc t = p at hstep hp hclear hdrained
  cases hstep with
  | quiet hsame => exact .inr (hbefore.imp hsame.sendQueue.trans hsame.sendRegistered.trans)
  | dropped _ _ hconnected => exact .inl hconnected
  | pushed sendBuffer hpush =>
      rw [hpush] at hp
      exact absurd trivial hp
  | taken => exact .inr (.inr rfl)
  | began hsame => exact .inr (hbefore.imp hsame.sendQueue.trans hsame.sendRegistered.trans)
  | drained sendBuffer sendQueue hqueue =>
      rcases hbefore with hempty | hregistered
      · rw [hempty] at hqueue
        cases hqueue
      · exact .inr (.inr hregistered)
  | filled => exact .inr hbefore
  | posted => exact .inr hbefore
  | refused => exact .inr hbefore
  | completed => exact .inr hbefore
  | cleared => exact .inr hbefore
  | released hpos =>
      refine .inr (.inl ?_)
      rcases hpos with ⟨nested, rfl⟩ | rfl
      · cases nested with
        | false => exact hclear rfl
        | true => exact hdrained ⟨rfl, trivial⟩
      · exact hdrained rfl

/-- **The step lemma of the queue.** It fails for a step that strands. -/
theorem QueueWatched.update (h : LockInv s) (hqueue : QueueWatched s)
    (hstrands : ¬ Strands ⟨s, (t, k), ⟨s', Function.update s.pc t p'⟩, some o⟩)
    (hact : sessionAct t s.shared (s.pc t) k = some (s', p', o)) :
    QueueWatched ⟨s', Function.update s.pc t p'⟩ := by
  rcases connected_cases h hact with hoff | hon | ⟨hempty, -⟩
  · exact .inl (.inl hoff)
  · by_cases hclear : s.pc t = .registerSend false .clearRegistered → s.shared.sendQueue = []
    · refine WitnessInv.update hqueue fun hbefore => ?_
      by_cases hp : BeforeExchange (s.pc t)
      · exact (beforeExchange_step hact hon hp).symm.imp (fun htaken => .inr (.inr htaken)) id
      · refine .inl (queue_step h hact hp hclear ?_)
        rcases hbefore with (hoff | hbefore) | hbefore
        · exact absurd (hoff.symm.trans hon) Bool.noConfusion
        · exact hbefore
        · exact absurd hbefore hp
    · -- the step frees the token in front of a queue, but it does not strand
      obtain ⟨hp, hne⟩ := Classical.not_imp.mp hclear
      have hwatch : ∃ u, BeforeExchange (s.pc u) := by
        by_contra hnone
        exact hstrands ⟨Option.some_ne_none o, hp, hon, hne, not_exists.mp hnone⟩
      obtain ⟨u, hu⟩ := hwatch
      have hut : u ≠ t := by
        rintro rfl
        rw [hp] at hu
        exact hu
      exact .inr ⟨u, by simpa only [Function.update_of_ne hut] using hu⟩
  · exact .inl (.inr (.inl hempty))

/-- **The step lemma of the token.** -/
theorem TokenOwned.update (h : LockInv s) (htoken : TokenOwned s)
    (hact : sessionAct t s.shared (s.pc t) k = some (s', p', o)) :
    TokenOwned ⟨s', Function.update s.pc t p'⟩ := by
  refine WitnessInv.update htoken fun hbefore => ?_
  rcases connected_cases h hact with hoff | hon | ⟨-, hfree⟩
  · exact .inl (.inl hoff)
  · have hbefore : s.shared.sendRegistered = false ∨ s.shared.sends ≠ [] ∨
        (tokenStage (s.pc t)).isSome := by
      rcases hbefore with (hoff | hfree | hsends) | hstage
      · exact absurd (hoff.symm.trans hon) Bool.noConfusion
      · exact .inl hfree
      · exact .inr (.inl hsends)
      · exact .inr (.inr hstage)
    have hgot : ∀ {stage}, tokenStage p' = some stage →
        (s'.connected = false ∨ s'.sendRegistered = false ∨ s'.sends ≠ []) ∨
          (tokenStage p').isSome := fun hp' => .inr (hp' ▸ rfl)
    have hstep := pipelineStep hact
    generalize s.pc t = p at hstep hbefore
    cases hstep with
    | quiet hsame hstage =>
        rcases hbefore with hfree | hsends | hp
        · exact .inl (.inr (.inl (hsame.sendRegistered.trans hfree)))
        · exact .inl (.inr (.inr (hsame.sends ▸ hsends)))
        · exact .inr (hstage ▸ hp)
    | dropped _ _ hconnected => exact .inl (.inl hconnected)
    | pushed sendBuffer hpush =>
        rcases hbefore with hfree | hsends | hp
        · exact .inl (.inr (.inl hfree))
        · exact .inl (.inr (.inr hsends))
        · rw [hpush] at hp
          cases hp
    | taken _ _ hp' => exact hgot hp'
    | began _ _ hp' => exact hgot hp'
    | drained _ _ _ _ hp' => exact hgot hp'
    | filled _ hp' => exact hgot hp'
    | posted wsaBufs =>
        exact .inl (.inr (.inr (List.append_ne_nil_of_right_ne_nil _ (List.cons_ne_nil _ _))))
    | refused _ _ hp' => exact hgot hp'
    | completed _ _ _ _ hp' => exact hgot hp'
    | cleared _ hp' => exact hgot hp'
    | released => exact .inl (.inr (.inl rfl))
  · exact .inl (.inr (.inl hfree))

end step

/-- What holds in every run without a step that strands. -/
structure SendInv [DecidableEq τ] (s : Processes τ (SessionShared τ β) (SessionPc β)) : Prop where
  lock : LockInv s
  queue : QueueWatched s
  token : TokenOwned s

/-- The invariant of the send path holds after every run without a stranding step. -/
theorem sendInv_run [DecidableEq τ] (events : List (τ × SessionChoice β))
    (hstrands : ∀ e ∈ (sessionThreads τ β).trace (sessionInit τ β) events, ¬ Strands e) :
    SendInv ((sessionThreads τ β).exec (sessionInit τ β) events) := by
  refine (sessionThreads τ β).guarded_invariant ?_ ?_ events hstrands
  · refine ⟨⟨⟨SessionLock.wellFormed_none, fun _ => ⟨rfl, rfl, rfl⟩⟩, fun t => ?_, nofun⟩,
      .inl (.inl rfl), .inl (.inl rfl)⟩
    exact ⟨rfl, fun hdrained => hdrained.elim, nofun, fun hsending => hsending.elim⟩
  · rintro s ⟨t, k⟩ h hstrands
    rcases hact : sessionAct t s.shared (s.pc t) k with _ | ⟨s', p', o⟩
    · rwa [sessionThreads, interleave_step_of_none hact]
    · have hentry : (sessionThreads τ β).entry s (t, k) =
          ⟨s, (t, k), ⟨s', Function.update s.pc t p'⟩, some o⟩ := by
        rw [Transducer.entry, sessionThreads, interleave_step_of_some hact]
      rw [hentry] at hstrands
      rw [sessionThreads, interleave_step_of_some hact]
      exact ⟨h.lock.update hact, h.queue.update h.lock hstrands hact, h.token.update h.lock hact⟩

/-- In a run without a step that strands, no buffer is left waiting: whenever no thread is in a member
of the connected session, a queue that is not empty has a `WSASend` outstanding. -/
theorem no_stranded_send [DecidableEq τ] (events : List (τ × SessionChoice β))
    (hstrands : ∀ e ∈ (sessionThreads τ β).trace (sessionInit τ β) events, ¬ Strands e) :
    let s := (sessionThreads τ β).exec (sessionInit τ β) events
    (∀ t, s.pc t = .outside) → s.shared.connected = true → s.shared.sendQueue ≠ [] →
      s.shared.sends ≠ [] := by
  intro s houtside hconnected hqueue
  have h : SendInv s := sendInv_run events hstrands
  have hregistered : s.shared.sendRegistered = true := by
    rcases h.queue with (hoff | hempty | htaken) | ⟨t, ht⟩
    · exact absurd (hoff.symm.trans hconnected) Bool.noConfusion
    · exact absurd hempty hqueue
    · exact htaken
    · rw [houtside t] at ht
      exact ht.elim
  rcases h.token with (hoff | hfree | hsends) | ⟨t, ht⟩
  · exact absurd (hoff.symm.trans hconnected) Bool.noConfusion
  · exact absurd (hfree.symm.trans hregistered) Bool.noConfusion
  · exact hsends
  · rw [houtside t] at ht
    cases ht

open SessionChoice in
/-- The first thread connects and hands the buffer 1 to `WSASend`; the second one sends the buffer
2. -/
def queuedRun : List (Bool × SessionChoice ℕ) :=
  [(false, connected)] ++ List.replicate 6 (false, next .ok) ++ [(false, send 1)] ++
    List.replicate 13 (false, next .ok) ++ [(true, send 2)] ++ List.replicate 5 (true, next .ok)

/-- A run with a queued packet whose steps all meet the condition. -/
theorem no_stranded_send_queuedRun :
    (∀ e ∈ (sessionThreads Bool ℕ).trace (sessionInit Bool ℕ) queuedRun, ¬ Strands e) ∧
      ((sessionThreads Bool ℕ).exec (sessionInit Bool ℕ) queuedRun).shared.sends ≠ [] := by
  have hnone : ∀ e ∈ (sessionThreads Bool ℕ).trace (sessionInit Bool ℕ) queuedRun,
      e.before.pc e.input.1 ≠ .registerSend false .clearRegistered := by
    decide +kernel
  have hstrands : ∀ e ∈ (sessionThreads Bool ℕ).trace (sessionInit Bool ℕ) queuedRun,
      ¬ Strands e := fun e he hstrand => hnone e he hstrand.2.1
  exact ⟨hstrands, no_stranded_send queuedRun hstrands (by decide +kernel) (by decide +kernel)
    (by decide +kernel)⟩

open SessionChoice in
/-- The first thread connects, and its `WSASend` of the buffer 1 fails with `WSAENOBUFS`; before it
frees the token, the second one sends the buffer 2. -/
def strandedRun : List (Bool × SessionChoice ℕ) :=
  [(false, connected)] ++ List.replicate 6 (false, next .ok) ++ [(false, send 1)] ++
    List.replicate 12 (false, next .ok) ++ [(false, next (.failed 10055))] ++
    [(true, send 2)] ++ List.replicate 5 (true, next .ok) ++
    List.replicate 4 (false, next .ok)

/-- A packet is queued behind a send that failed: every thread has returned, the session is
connected, nothing is outstanding, and the packet is still there. -/
theorem stranded_send :
    let s := (sessionThreads Bool ℕ).exec (sessionInit Bool ℕ) strandedRun
    (∀ t, s.pc t = .outside) ∧ s.shared.connected = true ∧ s.shared.sendQueue = [2] ∧
      s.shared.sends = [] := by
  decide +kernel

end CowboyPoker.ServerCore
