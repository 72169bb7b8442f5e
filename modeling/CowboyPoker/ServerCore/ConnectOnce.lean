import CowboyPoker.ServerCore.Connections
import CowboyPoker.ServerCore.ReleaseRight

/-!
# Every session is connected once

A session that the listener accepts was made for one `AcceptEx`. A session that a client connects has
bound its socket before, and `bind` refuses a socket that is bound already.

* `PathMove` — what a step does on the two ways to `ProcessConnect`.
* `server_connects_once` — a server stores no session twice, whatever happens.
* `BindsOnce`, `client_connects_once` — neither does a client, if `bind` succeeds at most once for each
  socket. `connects_once` — both.
-/

namespace CowboyPoker.ServerCore

open CowboyPoker.Found

variable {τ β : Type}

/-! ## The ways to `ProcessConnect` -/

/-- On the way to `_connected.store(true)`. -/
def TcpPc.OnPath : TcpPc β → Prop
  | .connect _ _ .init => True
  | .connect _ _ .connectEx => True
  | .registerAccept _ _ (.acceptEx _) => True
  | .processAccept _ _ => True
  | .session _ _ (.processConnect .store) => True
  | _ => False

/-- What a step elsewhere leaves as it is. -/
structure PathKept (s s' : TcpShared τ β) : Prop where
  stored : ∀ i, s'.times (.stored i) = s.times (.stored i)
  connects : s'.connects = s.connects
  accepting : s'.accepting = s.accepting
  acceptSession : s'.acceptSession = s.acceptSession
  created : s.created ≤ s'.created

/-- What a step does on the ways to `ProcessConnect`. -/
inductive PathMove (s : TcpShared τ β) (k : TcpChoice β) :
    TcpPc β → TcpShared τ β → TcpPc β → Prop
  /-- `bind` succeeds. -/
  | bind {i caller} (hk : k = .next .ok) :
      PathMove s k (.connect i caller .bind) s (.connect i caller .init)
  /-- `_connectEvent` gets its owner. -/
  | init {i caller s'} (hkept : PathKept s s') :
      PathMove s k (.connect i caller .init) s' (.connect i caller .connectEx)
  /-- `ConnectEx` will have a completion. -/
  | connectEx {i caller} : PathMove s k (.connect i caller .connectEx)
      { s with connects := Function.update s.connects i (s.connects i + 1) } caller.return
  /-- The completion of a `ConnectEx` is dequeued. -/
  | connected {i s' p'} (hconnects : s.connects i ≠ 0)
      (hs' : PathKept { s with connects := Function.update s.connects i (s.connects i - 1) } s')
      (hp' : p' = .outside ∨ p' = .session i .leave (.processConnect .store)) :
      PathMove s k .outside s' p'
  /-- `CreateSession` in `RegisterAccept`. -/
  | createSession {e caller} : PathMove s k (.registerAccept e caller .createSession)
      { s with
        created := s.created + 1
        acceptSession := Function.update s.acceptSession e (some s.created) }
      (.registerAccept e caller (.acceptEx s.created))
  /-- `AcceptEx` will have a completion. -/
  | acceptEx {e caller i} : PathMove s k (.registerAccept e caller (.acceptEx i))
      { s with accepting := Function.update s.accepting e (some i) } caller.return
  /-- The completion of an `AcceptEx` is dequeued. -/
  | accepted {e i s' p'} (haccepting : s.accepting e = some i)
      (hs' : PathKept { s with accepting := Function.update s.accepting e none } s')
      (hp' : p' = .outside ∨ p' = .processAccept e .readSession) : PathMove s k .outside s' p'
  /-- `ProcessAccept` goes on. -/
  | processAccept {e q q'} : PathMove s k (.processAccept e q) s (.processAccept e q')
  /-- `ProcessAccept` calls `ProcessConnect`. -/
  | getpeername {e i} : PathMove s k (.processAccept e (.getpeername i)) s
      (.session i (.processAccept e) (.processConnect .store))
  /-- `_connected.store(true)`. -/
  | store {i caller s'} (hstored : ∀ j, s'.times (.stored j) =
      s.times (.stored j) + if j = i then 1 else 0) (hconnects : s'.connects = s.connects)
      (haccepting : s'.accepting = s.accepting) (hsession : s'.acceptSession = s.acceptSession)
      (hcreated : s'.created = s.created) :
      PathMove s k (.session i caller (.processConnect .store)) s'
        (.session i caller (.processConnect .addSession))
  /-- A step that leads off both ways, or is not on them. -/
  | other {p s' p'} (hkept : PathKept s s') (hp' : ¬ p'.OnPath) : PathMove s k p s' p'

section path

variable {c : ServiceConfig} {t : τ} {s s' : TcpShared τ β} {p p' : TcpPc β} {r : CallResult}
  {k : TcpChoice β}

/-- The ways are kept where nothing happens. -/
theorem PathKept.refl (s : TcpShared τ β) : PathKept s s :=
  ⟨fun _ => rfl, rfl, rfl, rfl, le_rfl⟩

/-- A step that changes nothing on the ways. -/
theorem PathMove.stay (hp' : ¬ p'.OnPath) : PathMove s k p s p' := .other (.refl s) hp'

/-- What `RegisterAccept` does on the ways. -/
theorem registerAcceptStep_path {e : ℕ} {caller : RegisterAcceptCaller} {q : RegisterAcceptPc}
    (h : registerAcceptStep s e caller r q = some (s', p')) :
    PathMove s k (.registerAccept e caller q) s' p' := by
  cases q with
  | createSession =>
      simp only [registerAcceptStep, TcpShared.createSession] at h
      by_cases hr : r = .ok
      · rw [if_pos hr] at h
        cases h
        exact .createSession
      · rw [if_neg hr] at h
        cases h
        exact .other ⟨fun _ => rfl, rfl, rfl, rfl, le_rfl⟩ id
  | acceptEx i =>
      simp only [registerAcceptStep] at h
      split at h <;> cases h
      · exact .acceptEx
      · exact .stay id

/-- What `ProcessAccept` does on the ways. -/
theorem processAcceptStep_path {e : ℕ} {q : ProcessAcceptPc}
    (h : processAcceptStep s e r q = some (s', p')) :
    PathMove s k (.processAccept e q) s' p' := by
  cases q with
  | readSession =>
      simp only [processAcceptStep] at h
      split at h <;> cases h
      · exact .other ⟨fun _ => rfl, rfl, rfl, rfl, le_rfl⟩ id
      · exact .processAccept
  | setUpdateAcceptSocket i =>
      cases h
      split
      · exact .processAccept
      · exact .stay id
  | getpeername i =>
      cases h
      split
      · exact .getpeername
      · exact .stay id

/-- `StartAccept` leads to `RegisterAccept`, and to no session. -/
theorem startAcceptStep_path {q : StartAcceptPc} (h : startAcceptStep c s r q = some (s', p')) :
    PathMove s k (.startAccept q) s' p' := by
  cases q with
  | listen =>
      cases h
      split <;> exact .stay id
  | loop i =>
      simp only [startAcceptStep] at h
      split at h <;> cases h
      · exact .other ⟨fun _ => rfl, rfl, rfl, rfl, le_rfl⟩ id
      · exact .stay id

/-- `ClientService::Start` creates sessions and leads to their `Connect`. -/
theorem clientStartStep_path {i : ℤ} (h : clientStartStep c s r i = some (s', p')) :
    PathMove s k (.clientStart i) s' p' := by
  simp only [clientStartStep, TcpShared.createSession] at h
  by_cases hi : i < c.maxSessionCount
  · rw [if_pos hi] at h
    by_cases hr : r = .ok
    · rw [if_pos hr] at h
      cases h
      exact .other ⟨fun _ => rfl, rfl, rfl, rfl, Nat.le_succ _⟩ id
    · rw [if_neg hr] at h
      cases h
      exact .other ⟨fun _ => rfl, rfl, rfl, rfl, le_rfl⟩ id
  · rw [if_neg hi] at h
    cases h
    exact .stay id

/-- What `RegisterConnect` does on the ways. -/
theorem registerConnectStep_path {i : ℕ} {caller : ConnectCaller} {q : RegisterConnectPc}
    (h : registerConnectStep c s i caller r q = some (s', p')) :
    PathMove s (.next r) (.connect i caller q) s' p' := by
  cases q with
  | check | checkServiceType =>
      cases h
      split <;> exact .stay id
  | bind =>
      cases h
      split
      · rename_i hr
        exact .bind (by rw [hr])
      · exact .stay id
  | init =>
      cases h
      exact .init ⟨fun _ => rfl, rfl, rfl, rfl, le_rfl⟩
  | connectEx =>
      simp only [registerConnectStep] at h
      split at h <;> cases h
      · exact .connectEx
      · exact .stay id
  | clearOwner =>
      cases h
      exact .other ⟨fun _ => rfl, rfl, rfl, rfl, le_rfl⟩ id

/-- Only the store of `_connected` is on the ways among the positions in a session. -/
theorem notOnPath_ofSession {i : ℕ} {caller : SessionCaller} {q : SessionPc β}
    (hq : q ≠ .processConnect .store) : ¬ (TcpPc.ofSession i caller q).OnPath := by
  cases q with
  | outside => cases caller <;> exact id
  | processConnect q =>
      cases q with
      | store => exact absurd rfl hq
      | _ => exact id
  | _ => exact id

/-- A step of a session that stores nothing keeps the ways. -/
theorem pathKept_around (s : TcpShared τ β) (t : τ) (i : ℕ) {q : SessionPc β} (hq : q.stores = 0)
    (x : SessionShared τ β) : PathKept s ((s.around t i q).setSession i x) := by
  have hstored : ∀ j, (s.around t i q).times (.stored j) = s.times (.stored j) := by
    intro j
    rw [(times_around s t i q j).1, hq, ite_self, Nat.add_zero]
  have haround : (s.around t i q).connects = s.connects ∧
      (s.around t i q).accepting = s.accepting ∧
      (s.around t i q).acceptSession = s.acceptSession ∧
      (s.around t i q).created = s.created := by
    cases q with
    | processConnect q => cases q <;> exact ⟨rfl, rfl, rfl, rfl⟩
    | processDisconnect q =>
        cases q with
        | releaseSession =>
            simp only [TcpShared.around]
            split <;> exact ⟨rfl, rfl, rfl, rfl⟩
        | _ => exact ⟨rfl, rfl, rfl, rfl⟩
    | _ => exact ⟨rfl, rfl, rfl, rfl⟩
  obtain ⟨hconnects, haccepting, hsession, hcreated⟩ := haround
  exact ⟨hstored, hconnects, haccepting, hsession, hcreated.ge⟩

variable [DecidableEq τ]

/-- What a step of a session does on the ways. -/
theorem sessionStep_path {i : ℕ} {caller : SessionCaller} {q : SessionPc β}
    (h : sessionStep t s i caller r q = some (s', p')) :
    PathMove s k (.session i caller q) s' p' := by
  obtain ⟨⟨x, q'⟩, hnext, heq⟩ := Option.map_eq_some_iff.mp h
  cases heq
  by_cases hstore : q = .processConnect .store
  · subst hstore
    cases hnext
    exact .store (fun j => (times_around s t i _ j).1) rfl rfl rfl rfl
  · have hnone : q.stores = 0 := by
      cases q with
      | processConnect q => cases q <;> first | rfl | exact absurd rfl hstore
      | _ => rfl
    have hq' : q' ≠ .processConnect .store := by
      intro heq
      have hidle : ¬ q'.Idle := by
        rw [heq]
        exact fun hidle => hidle.starting trivial
      cases nextStep_life hnext with
      | quiet _ _ hp' => exact hidle hp'
      | @post caller' => exact hidle (idle_return caller')
      | @abandon caller' => exact hidle (idle_return caller')
      | _ => cases heq
    exact .other (pathKept_around s t i hnone x) (notOnPath_ofSession hq')

/-- What a step inside a member does on the ways. -/
theorem tcpNext_path (h : tcpNext c t s r p = some (s', p')) :
    PathMove s (.next r) p s' p' := by
  cases p with
  | outside => cases h
  | clientStart i => exact clientStartStep_path h
  | startAccept q => exact startAcceptStep_path h
  | registerAccept e caller q => exact registerAcceptStep_path h
  | processAccept e q => exact processAcceptStep_path h
  | connect i caller q => exact registerConnectStep_path h
  | session i caller q => exact sessionStep_path h

omit [DecidableEq τ] in
/-- What the dequeued completion of an operation does on the ways, whether the thread goes on with
it or returns to `Dispatch`. -/
theorem completeStep_path {op : TcpOperation} {numOfBytes : ℕ} {success : Bool}
    (h : completeStep t s numOfBytes success op = some (s', p')) :
    PathMove s k .outside s' p' ∧ PathMove s k .outside s' .outside := by
  have hkept : ∀ {s₁ : TcpShared τ β} {i : ℕ},
      PathKept s₁ (if success then s₁.succeed t i else s₁) := by
    intro s₁ i
    cases success with
    | false => exact .refl s₁
    | true => exact ⟨(stackKept_succeed s₁ t i).stored, rfl, rfl, rfl, le_rfl⟩
  cases op with
  | connectEx i =>
      obtain ⟨hconnects, heq⟩ := Option.ite_none_left_eq_some.mp h
      cases heq
      exact ⟨.connected hconnects hkept (.inr rfl), .connected hconnects hkept (.inl rfl)⟩
  | acceptEx e =>
      simp only [completeStep] at h
      split at h
      · cases h
      · rename_i i haccepting
        cases h
        exact ⟨.accepted haccepting hkept (.inr rfl), .accepted haccepting hkept (.inl rfl)⟩
  | wsaRecv i | wsaSend i | disconnectEx i =>
      obtain ⟨⟨x, q⟩, henter, heq⟩ := Option.map_eq_some_iff.mp h
      cases heq
      have hpath : ¬ (TcpPc.session i .leave q : TcpPc β).OnPath := by
        cases q with
        | processConnect q =>
            have hquiet := enterStep_quiet (by simp) (by simp) henter
            exact absurd trivial hquiet.connecting
        | _ => exact id
      exact ⟨.other ⟨fun _ => rfl, rfl, rfl, rfl, le_rfl⟩ hpath,
        .other ⟨fun _ => rfl, rfl, rfl, rfl, le_rfl⟩ id⟩

omit [DecidableEq τ] in
/-- What a crash does to the ways. -/
theorem PathMove.crash (h : PathMove s k .outside s' .outside) :
    PathMove s k .outside { s' with crashed := true } .outside := by
  cases h with
  | connected hconnects hs' hp' =>
      exact .connected hconnects ⟨hs'.stored, hs'.connects, hs'.accepting, hs'.acceptSession,
        hs'.created⟩ hp'
  | accepted haccepting hs' hp' =>
      exact .accepted haccepting ⟨hs'.stored, hs'.connects, hs'.accepting, hs'.acceptSession,
        hs'.created⟩ hp'
  | other hkept hp' =>
      exact .other ⟨hkept.stored, hkept.connects, hkept.accepting, hkept.acceptSession,
        hkept.created⟩ hp'

omit [DecidableEq τ] in
/-- What a step that enters a member does on the ways. -/
theorem tcpEnter_path (h : tcpEnter c t s k = some (s', p')) :
    PathMove s k .outside s' p' := by
  cases k with
  | start =>
      cases h
      split
      · split <;> exact .stay id
      · exact .stay id
  | connect i | send i sendBuffer | disconnect i =>
      obtain ⟨-, heq⟩ := Option.ite_none_right_eq_some.mp h
      cases heq
      exact .stay id
  | dequeue op numOfBytes errCode =>
      obtain ⟨s₁, p₁, hcomplete, hends⟩ := dispatchStep_eq_some h
      obtain ⟨hmove, hdropped⟩ := completeStep_path (k := .dequeue op numOfBytes errCode) hcomplete
      rcases hends with ⟨-, rfl, rfl⟩ | ⟨-, -, rfl, rfl⟩ | ⟨-, rfl, rfl⟩
      · exact hdropped
      · exact hmove
      · exact hdropped.crash
  | next r => cases h

/-- **The inversion of a step of the stack**, as the ways to `ProcessConnect` see it. -/
theorem tcpAct_path {o : Unit} (h : tcpAct c t s p k = some (s', p', o)) :
    s.crashed = false ∧ PathMove s k p s' p' := by
  obtain ⟨hcrashed, hstep⟩ := tcpAct_eq_some h
  rcases hstep with ⟨rfl, henter⟩ | ⟨r, rfl, hnext⟩
  · exact ⟨hcrashed, tcpEnter_path henter⟩
  · exact ⟨hcrashed, tcpNext_path hnext⟩

end path

/-! ## Servers -/

/-- No session waits for an `AcceptEx` that was stored before. -/
structure ServerShared (s : TcpShared τ β) : Prop where
  once : ConnectsOnce s
  made : ∀ i, s.times (.stored i) ≠ 0 → i < s.created
  accepting : ∀ e i, s.accepting e = some i → s.times (.stored i) = 0

/-- What a thread in the listener knows of the session of its event. -/
def ServerEach (s : TcpShared τ β) : TcpPc β → Prop
  | .registerAccept _ _ (.acceptEx i) => s.times (.stored i) = 0
  | .processAccept e _ => ∀ i, s.acceptSession e = some i → s.times (.stored i) = 0
  | .session i caller (.processConnect .store) =>
      ∃ e, caller = .processAccept e ∧ s.acceptSession e = some i ∧ s.times (.stored i) = 0
  | _ => True

section server

variable {c : ServiceConfig} {t : τ} {s s' : TcpShared τ β} {p p' q : TcpPc β} {k : TcpChoice β}

/-- A thread off the ways knows nothing. -/
theorem ServerEach.of_not (hp : ¬ p.OnPath) : ServerEach s p := by
  cases p with
  | registerAccept e caller q =>
      cases q with
      | createSession => exact trivial
      | acceptEx i => exact absurd trivial hp
  | processAccept e q => exact absurd trivial hp
  | session i caller q =>
      cases q with
      | processConnect q =>
          cases q with
          | store => exact absurd trivial hp
          | _ => exact trivial
      | _ => exact trivial
  | _ => exact trivial

/-- What a thread knows of its session, it knows after a step that stores no such session and leaves
its event alone. -/
theorem ServerEach.stable (h : ServerEach s q)
    (hstored : ∀ i, ¬ (∃ e, q.holds = some e ∧ s.acceptSession e = some i) ∨
      s'.times (.stored i) = s.times (.stored i))
    (hsession : ∀ e, q.holds = some e → s'.acceptSession e = s.acceptSession e)
    (hknown : ∀ e caller i, q = .registerAccept e caller (.acceptEx i) →
      s.acceptSession e = some i) : ServerEach s' q := by
  have hkeep : ∀ {e i}, q.holds = some e → s.acceptSession e = some i →
      s.times (.stored i) = 0 → s'.times (.stored i) = 0 := by
    intro e i he hi hzero
    rcases hstored i with hnone | heq
    · exact absurd ⟨e, he, hi⟩ hnone
    · exact heq.trans hzero
  cases q with
  | registerAccept e caller q =>
      cases q with
      | createSession => exact trivial
      | acceptEx i => exact hkeep (e := e) rfl (hknown e caller i rfl) h
  | processAccept e q =>
      intro i hi
      rw [hsession e rfl] at hi
      exact hkeep rfl hi (h i hi)
  | session i caller q =>
      cases q with
      | processConnect q =>
          cases q with
          | store =>
              obtain ⟨e, rfl, hi, hzero⟩ := h
              exact ⟨e, rfl, (hsession e rfl).trans hi, hkeep rfl hi hzero⟩
          | _ => exact trivial
      | _ => exact trivial
  | _ => exact trivial

/-- A step that stores nothing: the sessions that wait are those that waited, and one more. -/
theorem ServerShared.keep (h : ServerShared s) (hstored : ∀ i, s'.times (.stored i) = s.times (.stored i))
    (hcreated : s.created ≤ s'.created)
    (haccepting : ∀ e i, s'.accepting e = some i →
      s.accepting e = some i ∨ s.times (.stored i) = 0) : ServerShared s' where
  once i := (hstored i).le.trans (h.once i)
  made i hi := (h.made i ((hstored i).symm.trans_ne hi)).trans_le hcreated
  accepting e i hi := by
    rw [hstored]
    rcases haccepting e i hi with hold | hzero
    · exact h.accepting e i hold
    · exact hzero

variable [DecidableEq τ] {s : Processes τ (TcpShared τ β) (TcpPc β)}

/-- What a server knows, beside the invariants of the stack. -/
abbrev ServerInv : Processes τ (TcpShared τ β) (TcpPc β) → Prop :=
  LocalInv ServerShared (fun _ => ServerEach) fun _ _ => True

/-- A step that stores nothing. -/
theorem ServerInv.quiet (hstack : StackInv c s) (h : ServerInv s)
    (hstored : ∀ i, s'.times (.stored i) = s.shared.times (.stored i))
    (hcreated : s.shared.created ≤ s'.created)
    (haccepting : ∀ e i, s'.accepting e = some i →
      s.shared.accepting e = some i ∨ s.shared.times (.stored i) = 0)
    (hsession : ∀ e, (s.pc t).holds ≠ some e → s'.acceptSession e = s.shared.acceptSession e)
    (hself : ServerEach s' p') : ServerInv ⟨s', Function.update s.pc t p'⟩ := by
  refine LocalInv.update h (h.shared.keep hstored hcreated haccepting) hself fun u hu =>
    ⟨?_, trivial, trivial⟩
  refine (h.each u).stable (fun i => .inr (hstored i)) (fun e he => hsession e fun hte => ?_)
    fun e caller i hp => ?_
  · exact hstack.pairs t u (Ne.symm hu) e hte he
  · have hknown := (hstack.each u).known
    rw [hp] at hknown
    exact hknown.1

/-- `_connected.store(true)`, by the thread that works on the one event of the session. -/
theorem ServerInv.store (hstack : StackInv c s) (h : ServerInv s) {e i : ℕ}
    (hp : s.pc t = .session i (.processAccept e) (.processConnect .store))
    (hstored : ∀ j, s'.times (.stored j) = s.shared.times (.stored j) + if j = i then 1 else 0)
    (haccepting : s'.accepting = s.shared.accepting)
    (hsession : s'.acceptSession = s.shared.acceptSession)
    (hcreated : s'.created = s.shared.created) :
    ServerInv ⟨s', Function.update s.pc t
      (.session i (.processAccept e) (.processConnect .addSession))⟩ := by
  have heach := h.each t
  rw [hp] at heach
  obtain ⟨_, hcaller, he, hzero⟩ := heach
  cases hcaller
  have hholds : (s.pc t).holds = some e := by
    rw [hp]
    rfl
  have hunique := fun e' => ((hstack.shared.acceptSession e i he).2 e')
  refine LocalInv.update h ⟨fun j => ?_, fun j hj => ?_, fun e' j hj => ?_⟩ trivial fun u hu =>
    ⟨(h.each u).stable (fun j => ?_) (fun e' _ => by rw [hsession]) fun e' caller' j hq => ?_,
      trivial, trivial⟩
  · rw [hstored]
    by_cases hj : j = i
    · rw [if_pos hj, hj, hzero]
    · rw [if_neg hj]
      exact h.shared.once j
  · rw [hcreated]
    rw [hstored] at hj
    by_cases hji : j = i
    · exact hji ▸ (hstack.shared.acceptSession e i he).1
    · rw [if_neg hji] at hj
      exact h.shared.made j hj
  · rw [haccepting] at hj
    rw [hstored, h.shared.accepting e' j hj, if_neg ?_]
    rintro rfl
    -- the event of `e'` would be the one that the thread works on
    obtain rfl := hunique e' (hstack.shared.accepting e' j hj).2.2.1
    cases ((hstack.each t).holds e' hholds).2.2.symm.trans hj
  · by_cases hji : j = i
    · refine .inl ?_
      rintro ⟨e', hholds', hsession'⟩
      obtain rfl := hunique e' (hji ▸ hsession')
      exact hstack.pairs t u (Ne.symm hu) e' hholds hholds'
    · refine .inr ?_
      rw [hstored, if_neg hji]
      rfl
  · have hknown' := (hstack.each u).known
    rw [hq] at hknown'
    exact hknown'.1

/-- **The step lemma.** -/
theorem ServerInv.update (hserver : c.serviceType = .server) (hstack : StackInv c s) (h : ServerInv s)
    (hmove : PathMove s.shared k (s.pc t) s' p') : ServerInv ⟨s', Function.update s.pc t p'⟩ := by
  have hknown := (hstack.each t).known
  have heach := h.each t
  generalize hp : s.pc t = p at hmove
  cases hmove with
  | bind | init =>
      rw [hp] at hknown
      cases hserver.symm.trans (hknown trivial)
  | connectEx =>
      rw [hp] at hknown
      cases hserver.symm.trans (hknown trivial)
  | connected hconnects _ _ => exact absurd (hstack.shared.connects hserver _) hconnects
  | @createSession e caller =>
      refine h.quiet (t := t) hstack (fun _ => rfl) (Nat.le_succ _) (fun _ _ => .inl) (fun e' he' => ?_)
        ?_
      · refine Function.update_of_ne ?_ _ _
        rintro rfl
        exact he' (by rw [hp]; rfl)
      · by_contra hne
        exact lt_irrefl _ (h.shared.made s.shared.created hne)
  | @acceptEx e caller i =>
      rw [hp] at heach
      refine h.quiet (t := t) hstack (fun _ => rfl) le_rfl (fun e' i' hi' => ?_) (fun _ _ => rfl)
        (.of_not ?_)
      · rcases update_eq_some hi' with ⟨rfl, rfl⟩ | ⟨-, hold⟩
        · exact .inr heach
        · exact .inl hold
      · cases caller <;> exact id
  | @accepted e i _ _ haccepting hs' hp' =>
      obtain ⟨-, -, hsession, -⟩ := hstack.shared.accepting e i haccepting
      refine h.quiet (t := t) hstack hs'.stored hs'.created (fun e' i' hi' => ?_)
        (fun e' _ => by rw [hs'.acceptSession]) ?_
      · rw [hs'.accepting] at hi'
        by_cases he : e' = e
        · subst he
          simp only [Function.update_self] at hi'
          cases hi'
        · simp only [Function.update_of_ne he] at hi'
          exact .inl hi'
      · rcases hp' with rfl | rfl
        · exact trivial
        · intro i' hi'
          rw [hs'.acceptSession] at hi'
          cases hsession.symm.trans hi'
          exact (hs'.stored i).trans (h.shared.accepting e i haccepting)
  | @processAccept e q q' =>
      rw [hp] at heach
      exact h.quiet (t := t) hstack (fun _ => rfl) le_rfl (fun _ _ => .inl) (fun _ _ => rfl) heach
  | @getpeername e i =>
      rw [hp] at heach hknown
      obtain ⟨j, hsession, hreads, -⟩ := hknown
      obtain rfl : i = j := hreads
      exact h.quiet (t := t) hstack (fun _ => rfl) le_rfl (fun _ _ => .inl) (fun _ _ => rfl)
        ⟨e, rfl, hsession, heach i hsession⟩
  | store hstored _ haccepting hsession hcreated =>
      rw [hp] at heach
      obtain ⟨e, rfl, -⟩ := heach
      exact h.store hstack hp hstored haccepting hsession hcreated
  | other hkept hp' =>
      exact h.quiet (t := t) hstack hkept.stored hkept.created
        (fun e i hi => .inl (by rw [← hkept.accepting]; exact hi))
        (fun e _ => by rw [hkept.acceptSession]) (.of_not hp')

/-- No step of a server dispatches the failed completion of a `ConnectEx`. -/
theorem StackInv.server_step (hstack : StackInv c s) (hserver : c.serviceType = .server) {o : Unit}
    (hact : tcpAct c t s.shared (s.pc t) k = some (s', p', o)) :
    StackStep c t s.shared (s.pc t) s' p' := by
  obtain ⟨-, hstep⟩ := tcpAct_eq_some hact
  have hself := hstack.each t
  rcases hstep with ⟨hp, henter⟩ | ⟨r, -, hnext⟩
  · rw [hp] at hself ⊢
    refine tcpEnter_step hstack.shared hself (fun i _ _ _ _ hpos => ?_) henter
    exact absurd (hstack.shared.connects hserver i) hpos.ne'
  · exact tcpNext_step hstack.shared hself hnext

/-- The invariants of the stack hold in every run of a server. -/
theorem serverInv_run (c : ServiceConfig) (hserver : c.serviceType = .server)
    (events : List (τ × TcpChoice β)) :
    StackInv c ((tcpThreads τ β c).exec (tcpInit τ β) events) ∧
      ServerInv ((tcpThreads τ β c).exec (tcpInit τ β) events) := by
  refine (tcpThreads τ β c).exec_invariant
    (I := fun s : Processes τ (TcpShared τ β) (TcpPc β) => StackInv c s ∧ ServerInv s)
    ⟨?_, ?_⟩ (fun s e h => ?_) events
  · exact stackInv_run c [] fun e he => absurd he List.not_mem_nil
  · exact ⟨⟨fun _ => Nat.zero_le 1, fun _ h => absurd rfl h, fun _ _ h => by cases h⟩,
      fun _ => trivial, fun _ _ _ => trivial⟩
  · refine interleave_step (I := fun s : Processes τ (TcpShared τ β) (TcpPc β) =>
      StackInv c s ∧ ServerInv s) h e fun s' p' o hact => ?_
    obtain ⟨hstack, hinv⟩ := h
    exact ⟨hstack.update (hstack.server_step hserver hact),
      hinv.update hserver hstack (tcpAct_path hact).2⟩

/-- **A server connects every session once.** -/
theorem server_connects_once (c : ServiceConfig) (hserver : c.serviceType = .server)
    (events : List (τ × TcpChoice β)) :
    ConnectsOnce ((tcpThreads τ β c).exec (tcpInit τ β) events).shared :=
  (serverInv_run c hserver events).2.shared.once

end server

/-! ## Clients -/

/-- In the listener, or on the way back to it. -/
def TcpPc.Serves : TcpPc β → Prop
  | .startAccept _ => True
  | .registerAccept _ _ _ => True
  | .processAccept _ _ => True
  | .session _ (.processAccept _) _ => True
  | _ => False

/-- Between `bind` and `_connected.store(true)` of a session, but for the wait for `ConnectEx`. -/
def TcpPc.Nears (i : ℕ) : TcpPc β → Prop
  | .connect j _ .init => j = i
  | .connect j _ .connectEx => j = i
  | .session j _ (.processConnect .store) => j = i
  | _ => False

/-- A step in which `bind` succeeds for the socket of a session. -/
def Binds (i : ℕ)
    (e : Entry (Processes τ (TcpShared τ β) (TcpPc β)) (τ × TcpChoice β) (Option Unit)) : Bool :=
  match e.before.pc e.input.1, e.input.2 with
  | .connect session _ .bind, .next .ok => !e.before.shared.crashed && session == i
  | _, _ => false

/-- `bind` succeeds at most once for each socket: it refuses one that is bound already. -/
def BindsOnce
    (h : List (Entry (Processes τ (TcpShared τ β) (TcpPc β)) (τ × TcpChoice β) (Option Unit))) :
    Prop :=
  ∀ i, h.countP (Binds i) ≤ 1

/-- What a session has gone through is at most what `bind` has succeeded for; `b` counts that. -/
structure ClientShared (b : ℕ → ℕ) (s : TcpShared τ β) : Prop where
  count : ∀ i, s.times (.stored i) + s.connects i ≤ b i
  accepting : ∀ e, s.accepting e = none

/-- A thread between `bind` and `_connected.store(true)` is the only trace of its session. -/
structure ClientEach (b : ℕ → ℕ) (s : TcpShared τ β) (p : TcpPc β) : Prop where
  serves : ¬ p.Serves
  near : ∀ i, p.Nears i → b i = 1 ∧ s.times (.stored i) + s.connects i = 0

/-- The invariants of a client. -/
abbrev ClientInv (b : ℕ → ℕ) : Processes τ (TcpShared τ β) (TcpPc β) → Prop :=
  LocalInv (ClientShared b) (fun _ => ClientEach b) fun p q => ∀ i, ¬ (p.Nears i ∧ q.Nears i)

section client

variable {c : ServiceConfig} {t : τ} {s s' : TcpShared τ β} {p p' q : TcpPc β} {k : TcpChoice β}
  {b b' : ℕ → ℕ}

/-- A thread off the ways is near no session. -/
theorem TcpPc.not_nears (hp : ¬ p.OnPath) (i : ℕ) : ¬ p.Nears i := by
  cases p with
  | connect j caller q => cases q <;> first | exact id | exact absurd trivial hp
  | session j caller q =>
      cases q with
      | processConnect q => cases q <;> first | exact id | exact absurd trivial hp
      | _ => exact id
  | _ => exact id

/-- A session entered from outside serves no listener. -/
theorem serves_ofSession {i : ℕ} {q : SessionPc β} :
    ¬ (TcpPc.ofSession i .leave q).Serves := by
  cases q <;> exact id

/-- A thread of a client does not enter the listener. -/
theorem tcpEnter_not_serves (hclient : c.serviceType = .client)
    (haccepting : ∀ e, s.accepting e = none) (h : tcpEnter c t s k = some (s', p')) : ¬ p'.Serves := by
  cases k with
  | start =>
      cases h
      split
      · rw [hclient]
        exact id
      · exact id
  | connect i | send i sendBuffer | disconnect i =>
      obtain ⟨-, heq⟩ := Option.ite_none_right_eq_some.mp h
      cases heq
      exact id
  | dequeue op numOfBytes errCode =>
      obtain ⟨s₁, p₁, hcomplete, hends⟩ := dispatchStep_eq_some h
      have hp₁ : ¬ p₁.Serves := by
        cases op with
        | connectEx i =>
            obtain ⟨-, heq⟩ := Option.ite_none_left_eq_some.mp hcomplete
            cases heq
            exact id
        | acceptEx e =>
            simp only [completeStep, haccepting e] at hcomplete
            cases hcomplete
        | wsaRecv i | wsaSend i | disconnectEx i =>
            obtain ⟨⟨x, q⟩, -, heq⟩ := Option.map_eq_some_iff.mp hcomplete
            cases heq
            exact id
      rcases hends with ⟨-, -, rfl⟩ | ⟨-, -, -, rfl⟩ | ⟨-, -, rfl⟩
      · exact id
      · exact hp₁
      · exact id
  | next r => cases h

variable [DecidableEq τ]

/-- A thread that is not in the listener does not get there. -/
theorem tcpNext_not_serves {r : CallResult} (hp : ¬ p.Serves) (h : tcpNext c t s r p = some (s', p')) :
    ¬ p'.Serves := by
  cases p with
  | outside => cases h
  | clientStart i =>
      simp only [tcpNext, clientStartStep] at h
      split at h
      · split at h <;> cases h <;> exact id
      · cases h
        exact id
  | startAccept q => exact absurd trivial hp
  | registerAccept e caller q => exact absurd trivial hp
  | processAccept e q => exact absurd trivial hp
  | connect i caller q =>
      cases q with
      | check | checkServiceType | bind =>
          cases h
          split <;> exact id
      | init | clearOwner =>
          cases h
          exact id
      | connectEx =>
          simp only [tcpNext, registerConnectStep] at h
          split at h <;> cases h
          · cases caller <;> exact id
          · exact id
  | session i caller q =>
      cases caller with
      | leave =>
          obtain ⟨⟨x, q'⟩, -, heq⟩ := Option.map_eq_some_iff.mp h
          cases heq
          exact serves_ofSession
      | processAccept e => exact absurd trivial hp

/-- No thread of a client gets into the listener. -/
theorem client_not_serves (hclient : c.serviceType = .client) (haccepting : ∀ e, s.accepting e = none)
    (hp : ¬ p.Serves) {o : Unit} (h : tcpAct c t s p k = some (s', p', o)) : ¬ p'.Serves := by
  obtain ⟨-, hstep⟩ := tcpAct_eq_some h
  rcases hstep with ⟨rfl, henter⟩ | ⟨r, rfl, hnext⟩
  · exact tcpEnter_not_serves hclient haccepting henter
  · exact tcpNext_not_serves hp hnext

variable {s : Processes τ (TcpShared τ β) (TcpPc β)}

omit [DecidableEq τ] in
/-- More calls of `bind` may have been successful. -/
theorem ClientInv.mono (h : ClientInv b s) (hb : ∀ i, b i ≤ b' i) (hle : ∀ i, b' i ≤ 1) :
    ClientInv b' s where
  shared := ⟨fun i => (h.shared.count i).trans (hb i), h.shared.accepting⟩
  each t := ⟨(h.each t).serves, fun i hi =>
    ⟨le_antisymm (hle i) (((h.each t).near i hi).1.symm.le.trans (hb i)), ((h.each t).near i hi).2⟩⟩
  pairs := h.pairs

/-- A step after which the session that the thread is near, if any, has it as its only trace. -/
theorem ClientInv.change (h : ClientInv b s)
    (hcount : ∀ i, s'.times (.stored i) + s'.connects i ≤ b i)
    (haccepting : ∀ e, s'.accepting e = none) (hserves : ¬ p'.Serves)
    (hself : ∀ i, p'.Nears i → b i = 1 ∧ s'.times (.stored i) + s'.connects i = 0)
    (hothers : ∀ u, u ≠ t → ∀ i, (s.pc u).Nears i →
      s'.times (.stored i) + s'.connects i = 0 ∧ ¬ p'.Nears i) :
    ClientInv b ⟨s', Function.update s.pc t p'⟩ := by
  refine LocalInv.update h ⟨hcount, haccepting⟩ ⟨hserves, hself⟩ fun u hu =>
    ⟨⟨(h.each u).serves, fun i hi => ⟨((h.each u).near i hi).1, (hothers u hu i hi).1⟩⟩,
      fun i hboth => (hothers u hu i hboth.2).2 hboth.1,
      fun i hboth => (hothers u hu i hboth.1).2 hboth.2⟩

/-- A step that changes nothing of what is counted. -/
theorem ClientInv.kept (h : ClientInv b s) (hkept : PathKept s.shared s') (hserves : ¬ p'.Serves)
    (hnear : ∀ i, p'.Nears i → (s.pc t).Nears i) : ClientInv b ⟨s', Function.update s.pc t p'⟩ := by
  have hsum : ∀ i, s'.times (.stored i) + s'.connects i =
      s.shared.times (.stored i) + s.shared.connects i := by
    intro i
    rw [hkept.stored, hkept.connects]
  refine h.change (fun i => (hsum i).le.trans (h.shared.count i)) (fun e => ?_) hserves
    (fun i hi => ?_) fun u hu i hi => ?_
  · rw [hkept.accepting]
    exact h.shared.accepting e
  · obtain ⟨hone, hzero⟩ := (h.each t).near i (hnear i hi)
    exact ⟨hone, (hsum i).trans hzero⟩
  · exact ⟨(hsum i).trans ((h.each u).near i hi).2,
      fun hp' => h.pairs t u (Ne.symm hu) i ⟨hnear i hp', hi⟩⟩

/-- The session that the thread is near gets the one trace that it may leave. -/
theorem ClientInv.spend (h : ClientInv b s) {i : ℕ} (hnear : (s.pc t).Nears i)
    (hsum : ∀ j, s'.times (.stored j) + s'.connects j =
      s.shared.times (.stored j) + s.shared.connects j + if j = i then 1 else 0)
    (haccepting : s'.accepting = s.shared.accepting) (hserves : ¬ p'.Serves)
    (hfree : ∀ j, ¬ p'.Nears j) : ClientInv b ⟨s', Function.update s.pc t p'⟩ := by
  obtain ⟨hone, hzero⟩ := (h.each t).near i hnear
  refine h.change (fun j => ?_) (fun e => ?_) hserves (fun j hj => absurd hj (hfree j))
    fun u hu j hj => ⟨?_, hfree j⟩
  · rw [hsum]
    by_cases hj : j = i
    · subst hj
      rw [if_pos rfl, hzero]
      exact hone.symm.le
    · rw [if_neg hj]
      exact h.shared.count j
  · rw [haccepting]
    exact h.shared.accepting e
  · have hji : j ≠ i := by
      rintro rfl
      exact h.pairs t u (Ne.symm hu) j ⟨hnear, hj⟩
    rw [hsum, if_neg hji]
    exact ((h.each u).near j hj).2

/-- The completion of a `ConnectEx` is dequeued: the thread may be near the session afterwards. -/
theorem ClientInv.connected (h : ClientInv b s) (hb : ∀ i, b i ≤ 1) (hserves : ¬ p'.Serves) {i : ℕ}
    (hconnects : s.shared.connects i ≠ 0)
    (hs' : PathKept { s.shared with
      connects := Function.update s.shared.connects i (s.shared.connects i - 1) } s')
    (hp' : p' = .outside ∨ p' = .session i .leave (.processConnect .store)) :
    ClientInv b ⟨s', Function.update s.pc t p'⟩ := by
  have hcount := h.shared.count i
  have hone : b i = 1 := by
    have := hb i
    omega
  have hsum : ∀ j, s'.times (.stored j) + s'.connects j =
      if j = i then 0 else s.shared.times (.stored j) + s.shared.connects j := by
    intro j
    rw [hs'.stored, hs'.connects]
    by_cases hj : j = i
    · subst hj
      have hnone : s.shared.times (.stored j) + (s.shared.connects j - 1) = 0 := by omega
      simp only [if_true, Function.update_self]
      exact hnone
    · simp only [if_neg hj, Function.update_of_ne hj]
      rfl
  have hnear : ∀ j, p'.Nears j → j = i := by
    intro j hj
    rcases hp' with rfl | rfl
    · exact hj.elim
    · exact Eq.symm hj
  refine h.change (fun j => ?_) (fun e => ?_) hserves (fun j hj => ?_) fun u hu j hj => ?_
  · rw [hsum]
    split
    · exact Nat.zero_le _
    · exact h.shared.count j
  · rw [hs'.accepting]
    exact h.shared.accepting e
  · obtain rfl := hnear j hj
    exact ⟨hone, by rw [hsum, if_pos rfl]⟩
  · have hzero := ((h.each u).near j hj).2
    have hji : j ≠ i := by
      rintro rfl
      omega
    exact ⟨by rw [hsum, if_neg hji]; exact hzero, fun hp' => hji (hnear j hp')⟩

/-- **The step lemma.** -/
theorem ClientInv.update (hmove : PathMove s.shared k (s.pc t) s' p') (h : ClientInv b s)
    (hb : ∀ i, b i ≤ 1) (hserves : ¬ p'.Serves)
    (hbinds : ∀ i caller, s.pc t = .connect i caller .bind → k = .next .ok →
      b i = 1 ∧ s.shared.times (.stored i) + s.shared.connects i = 0 ∧
        ∀ u, ¬ (s.pc u).Nears i) :
    ClientInv b ⟨s', Function.update s.pc t p'⟩ := by
  generalize hp : s.pc t = p at hmove
  have hserves' := (h.each t).serves
  rw [hp] at hserves'
  cases hmove with
  | @bind i caller hk =>
      obtain ⟨hone, hzero, hnobody⟩ := hbinds i caller hp hk
      refine h.change h.shared.count h.shared.accepting hserves (fun j hj => ?_)
        fun u hu j hj => ⟨((h.each u).near j hj).2, fun hji => ?_⟩
      · obtain rfl : i = j := hj
        exact ⟨hone, hzero⟩
      · obtain rfl : i = j := hji
        exact hnobody u hj
  | init hkept =>
      refine h.kept hkept hserves fun j hj => ?_
      rw [hp]
      exact hj
  | @connectEx i caller =>
      refine h.spend (i := i) (by rw [hp]; rfl) (fun j => ?_) rfl hserves fun j => ?_
      · by_cases hj : j = i
        · subst hj
          simp only [Function.update_self, if_true]
          exact (Nat.add_assoc _ _ _).symm
        · simp only [Function.update_of_ne hj, if_neg hj]
          rfl
      · cases caller <;> exact id
  | connected hconnects hs' hp' => exact h.connected hb hserves hconnects hs' hp'
  | createSession => exact absurd trivial hserves'
  | acceptEx => exact absurd trivial hserves'
  | accepted haccepting _ _ =>
      rw [h.shared.accepting] at haccepting
      cases haccepting
  | processAccept => exact absurd trivial hserves'
  | getpeername => exact absurd trivial hserves'
  | @store i caller _ hstored hconnects haccepting _ _ =>
      refine h.spend (i := i) (by rw [hp]; rfl) (fun j => ?_) haccepting hserves fun _ => id
      rw [hstored, hconnects]
      omega
  | other hkept hp' => exact h.kept hkept hserves fun j hj => absurd hj (TcpPc.not_nears hp' j)

/-- **A client keeps its invariant** along a run, as `bind` succeeds once for each socket. -/
theorem clientInv_exec (c : ServiceConfig) (hclient : c.serviceType = .client)
    (events : List (τ × TcpChoice β))
    (hbind : BindsOnce ((tcpThreads τ β c).trace (tcpInit τ β) events)) :
    ClientInv (fun i => ((tcpThreads τ β c).trace (tcpInit τ β) events).countP (Binds i))
      ((tcpThreads τ β c).exec (tcpInit τ β) events) := by
  refine (tcpThreads τ β c).history_invariant (C := fun _ => True)
    (J := fun h s => BindsOnce h → ClientInv (fun i => h.countP (Binds i)) s) ?_ ?_ events
    (fun _ _ => trivial) hbind
  · exact fun _ => ⟨⟨fun _ => le_rfl, fun _ => rfl⟩, fun _ => ⟨id, fun _ hi => hi.elim⟩,
      fun _ _ _ _ hboth => hboth.1⟩
  · intro h s e hJ _ honce
    have hstep : ∀ i, (h ++ [(tcpThreads τ β c).entry s e]).countP (Binds i) =
        h.countP (Binds i) + if Binds i ((tcpThreads τ β c).entry s e) then 1 else 0 := by
      intro i
      rw [List.countP_append, List.countP_singleton]
    have hmono : ∀ i, h.countP (Binds i) ≤
        (h ++ [(tcpThreads τ β c).entry s e]).countP (Binds i) := by
      intro i
      rw [hstep]
      exact Nat.le_add_right _ _
    have hs := hJ fun i => (hmono i).trans (honce i)
    have hs' := hs.mono hmono honce
    rcases hact : tcpAct c e.1 s.shared (s.pc e.1) e.2 with _ | ⟨s', p', o⟩
    · rwa [tcpThreads, interleave_step_of_none hact]
    · rw [tcpThreads, interleave_step_of_some hact]
      obtain ⟨hcrashed, hmove⟩ := tcpAct_path hact
      refine hs'.update hmove honce
        (client_not_serves hclient hs.shared.accepting (hs.each e.1).serves hact)
        fun i caller hp hk => ?_
      -- before this step `bind` had not been successful
      have hbinds : Binds i ((tcpThreads τ β c).entry s e) = true := by
        simp [Binds, Transducer.entry, hp, hk, hcrashed]
      have hone := honce i
      rw [hstep, if_pos hbinds] at hone
      have hzero : h.countP (Binds i) = 0 := by omega
      have hcount := hs.shared.count i
      rw [hzero] at hcount
      refine ⟨?_, Nat.le_zero.mp hcount, fun u hu => ?_⟩
      · rw [← tcpThreads, hstep, if_pos hbinds, hzero]
      · exact absurd (hzero.symm.trans ((hs.each u).near i hu).1) Nat.zero_ne_one

/-- **A client connects every session once.** -/
theorem client_connects_once (c : ServiceConfig) (hclient : c.serviceType = .client)
    (events : List (τ × TcpChoice β))
    (hbind : BindsOnce ((tcpThreads τ β c).trace (tcpInit τ β) events)) :
    ConnectsOnce ((tcpThreads τ β c).exec (tcpInit τ β) events).shared := by
  have hinv := clientInv_exec c hclient events hbind
  exact fun i => (Nat.le_add_right _ _).trans ((hinv.shared.count i).trans (hbind i))

/-- **Every session is connected once**, in every run of a server or a client. -/
theorem connects_once (c : ServiceConfig) (events : List (τ × TcpChoice β))
    (hbind : BindsOnce ((tcpThreads τ β c).trace (tcpInit τ β) events)) :
    ConnectsOnce ((tcpThreads τ β c).exec (tcpInit τ β) events).shared := by
  cases htype : c.serviceType with
  | server => exact server_connects_once c htype events
  | client => exact client_connects_once c htype events hbind

/-- A server does not get as far as `bind`. -/
theorem server_bindsOnce (c : ServiceConfig) (hserver : c.serviceType = .server)
    (events : List (τ × TcpChoice β)) :
    BindsOnce ((tcpThreads τ β c).trace (tcpInit τ β) events) := by
  intro i
  refine (List.countP_eq_zero.mpr fun e he hbinds => ?_).trans_le (Nat.zero_le 1)
  obtain ⟨fs, k, gs, -, rfl⟩ := (tcpThreads τ β c).mem_trace_iff.mp he
  have hknown := ((serverInv_run c hserver fs).1.each k.1).known
  unfold Binds at hbinds
  split at hbinds
  · rename_i hp _
    rw [Transducer.entry_before, Transducer.entry_input] at hp
    rw [hp] at hknown
    cases hserver.symm.trans (hknown trivial)
  · cases hbinds

end client

end CowboyPoker.ServerCore
