import CowboyPoker.ServerCore.ConnectOnce
import CowboyPoker.ServerCore.SessionRegistry

/-!
# How many sessions a server has

`maxSessionCount` is documented as the greatest number of concurrent sessions. `StartAccept` makes so
many `AcceptEvent`s, and each is registered again as soon as it has accepted a session: nothing compares
the number of sessions with it.

* `Live` — a session is in `_sessions`, or accepted and on the way there. `HasRoom` — fewer than `m` are.
* `AcceptsBeyond` — a step in which an `AcceptEx` completes successfully while there is no room.
* `live_of_step` — a session becomes live only when its `AcceptEx` completes successfully.
* `session_cap` — the number of sessions, in every run of a server without such a step.
-/

namespace CowboyPoker.ServerCore

open CowboyPoker.Found

variable {τ β : Type}

/-! ## Live sessions -/

/-- A thread is on the way to `AddSession` with a session that was accepted. -/
def TcpPc.Accepting (s : TcpShared τ β) (i : ℕ) : TcpPc β → Prop
  | .processAccept e _ => s.acceptSession e = some i ∧ s.socketConnected i = true
  | .session j _ (.processConnect .store) => j = i
  | .session j _ (.processConnect .addSession) => j = i
  | _ => False

/-- A session is in `_sessions`, or accepted and on the way there. -/
def Live (i : ℕ) (s : Processes τ (TcpShared τ β) (TcpPc β)) : Prop :=
  (s.shared.sessions i).inSessions = true ∨ ∃ t, (s.pc t).Accepting s.shared i

/-- Fewer than `m` sessions are live. -/
def HasRoom (m : ℤ) (s : Processes τ (TcpShared τ β) (TcpPc β)) : Prop :=
  ∀ F : Finset ℕ, (∀ i ∈ F, Live i s) → (F.card : ℤ) < m

/-- A step in which an `AcceptEx` completes successfully while there is no room for its session. -/
def AcceptsBeyond (m : ℤ)
    (e : Entry (Processes τ (TcpShared τ β) (TcpPc β)) (τ × TcpChoice β) (Option Unit)) : Prop :=
  (∃ acceptEvent numOfBytes, e.before.pc e.input.1 = .outside ∧
    e.before.shared.accepting acceptEvent ≠ none ∧
    e.input.2 = .dequeue (.acceptEx acceptEvent) numOfBytes none) ∧ ¬ HasRoom m e.before

section accepting

variable {c : ServiceConfig} {t : τ} {s s' : TcpShared τ β} {p p' : TcpPc β} {k : TcpChoice β} {i : ℕ}

/-- A thread accepts no session at a position off the two ways. -/
theorem TcpPc.Accepting.of_session {j : ℕ} {caller : SessionCaller} {q : SessionPc β}
    (h : (TcpPc.ofSession j caller q).Accepting s i) :
    j = i ∧ (q = .processConnect .store ∨ q = .processConnect .addSession) := by
  cases q with
  | outside => cases caller <;> exact h.elim
  | processConnect q =>
      cases q with
      | store => exact ⟨h, .inl rfl⟩
      | addSession => exact ⟨h, .inr rfl⟩
      | onConnected => exact h.elim
  | _ => exact h.elim

theorem not_accepting_return (caller : RegisterAcceptCaller) :
    ¬ (caller.return : TcpPc β).Accepting s i := by
  cases caller <;> exact id

variable [DecidableEq τ]

omit [DecidableEq τ] in
/-- A thread that enters accepts a session only if its `AcceptEx` completes successfully. -/
theorem tcpEnter_accepting (hs : StackShared c s) (hserver : c.serviceType = .server)
    (h : tcpEnter c t s k = some (s', p')) (hp' : p'.Accepting s' i) :
    ∃ e numOfBytes, k = .dequeue (.acceptEx e) numOfBytes none ∧ s.accepting e = some i := by
  cases k with
  | start =>
      cases h
      split at hp'
      · split at hp' <;> exact hp'.elim
      · exact hp'.elim
  | connect j | send j sendBuffer | disconnect j =>
      obtain ⟨-, heq⟩ := Option.ite_none_right_eq_some.mp h
      cases heq
      exact hp'.elim
  | dequeue op numOfBytes errCode =>
      obtain ⟨s₁, p₁, hcomplete, hends⟩ := dispatchStep_eq_some h
      -- only where `Dispatch` goes on is there a position that accepts
      obtain ⟨rfl, rfl⟩ : s' = s₁ ∧ p' = p₁ := by
        rcases hends with ⟨-, -, rfl⟩ | ⟨-, -, hs₁, hp₁⟩ | ⟨-, -, rfl⟩
        · exact hp'.elim
        · exact ⟨hs₁, hp₁⟩
        · exact hp'.elim
      cases op with
      | connectEx j =>
          obtain ⟨hconnects, -⟩ := Option.ite_none_left_eq_some.mp hcomplete
          exact absurd (hs.connects hserver j) hconnects
      | acceptEx e =>
          simp only [completeStep] at hcomplete
          split at hcomplete
          · cases hcomplete
          · rename_i j haccepting
            obtain ⟨-, -, hsession, hsocket⟩ := hs.accepting e j haccepting
            cases errCode with
            | none =>
                cases hcomplete
                obtain ⟨hi, -⟩ := hp'
                cases hsession.symm.trans hi
                exact ⟨e, numOfBytes, rfl, haccepting⟩
            | some code =>
                cases hcomplete
                obtain ⟨hi, hconnected⟩ := hp'
                cases hsession.symm.trans hi
                exact absurd (hsocket.symm.trans hconnected) Bool.false_ne_true
      | wsaRecv j | wsaSend j | disconnectEx j =>
          obtain ⟨⟨x, q⟩, henter, heq⟩ := Option.map_eq_some_iff.mp hcomplete
          cases heq
          have hquiet := (enterStep_quiet (by simp) (by simp) henter).connecting
          have hq : (TcpPc.ofSession j .leave q).Accepting (s.setSession j x) i := by
            cases q <;> exact hp'
          obtain ⟨-, rfl | rfl⟩ := TcpPc.Accepting.of_session hq
          · exact absurd trivial hquiet
          · exact absurd trivial hquiet
  | next r => cases h

/-- A thread inside that accepts a session did so before its step. -/
theorem tcpNext_accepting {r : CallResult} (hknown : StackLocal c t s p)
    (h : tcpNext c t s r p = some (s', p')) (hp' : p'.Accepting s' i) : p.Accepting s i := by
  cases p with
  | outside => cases h
  | clientStart j =>
      simp only [tcpNext, clientStartStep] at h
      split at h
      · split at h <;> cases h <;> exact hp'.elim
      · cases h
        exact hp'.elim
  | startAccept q =>
      cases q with
      | listen =>
          cases h
          split at hp' <;> exact hp'.elim
      | loop j =>
          simp only [tcpNext, startAcceptStep] at h
          split at h <;> cases h <;> exact hp'.elim
  | registerAccept e caller q =>
      cases q with
      | createSession =>
          simp only [tcpNext, registerAcceptStep] at h
          split at h <;> cases h <;> exact hp'.elim
      | acceptEx j =>
          simp only [tcpNext, registerAcceptStep] at h
          split at h <;> cases h
          · exact absurd hp' (not_accepting_return caller)
          · exact hp'.elim
  | processAccept e q =>
      cases q with
      | readSession =>
          simp only [tcpNext, processAcceptStep] at h
          split at h <;> cases h
          · exact hp'.elim
          · exact hp'
      | setUpdateAcceptSocket j =>
          cases h
          split at hp'
          · exact hp'
          · exact hp'.elim
      | getpeername j =>
          cases h
          split at hp'
          · rename_i hconnected
            obtain ⟨j', hsession, hreads, -⟩ := hknown
            obtain rfl : j = j' := hreads
            obtain rfl : j = i := hp'
            exact ⟨hsession, hconnected.2⟩
          · exact hp'.elim
  | connect j caller q =>
      cases q with
      | check | checkServiceType | bind =>
          cases h
          split at hp' <;> exact hp'.elim
      | init | clearOwner =>
          cases h
          exact hp'.elim
      | connectEx =>
          simp only [tcpNext, registerConnectStep] at h
          split at h <;> cases h
          · cases caller <;> exact hp'.elim
          · exact hp'.elim
  | session j caller q =>
      obtain ⟨⟨x, q'⟩, hnext, heq⟩ := Option.map_eq_some_iff.mp h
      cases heq
      obtain ⟨rfl, hq'⟩ := hp'.of_session
      have hstarting : ¬ q'.Idle := by
        rcases hq' with rfl | rfl <;> exact fun hidle => hidle.starting trivial
      cases nextStep_life hnext with
      | quiet _ _ hidle => exact absurd hidle hstarting
      | store => exact rfl
      | @post caller' => exact absurd (idle_return caller') hstarting
      | @abandon caller' => exact absurd (idle_return caller') hstarting
      | _ => rcases hq' with heq | heq <;> cases heq

end accepting

/-! ## Runs -/

section runs

variable [DecidableEq τ] {c : ServiceConfig} {t : τ} {s : Processes τ (TcpShared τ β) (TcpPc β)}
  {s' : TcpShared τ β} {p' : TcpPc β} {k : TcpChoice β} {i : ℕ}

/-- Another thread accepts no more sessions than before a step. -/
theorem StackStep.accepting_stable (hstack : StackInv c s)
    (hstep : StackStep c t s.shared (s.pc t) s' p') {u : τ} (hu : u ≠ t)
    (h : (s.pc u).Accepting s' i) : (s.pc u).Accepting s.shared i := by
  have heach := hstack.each u
  have hapart := hstack.pairs t u (Ne.symm hu)
  generalize s.pc u = q at h heach hapart
  cases q with
  | processAccept e q =>
      obtain ⟨hsession, hsocket⟩ := h
      obtain ⟨hserver, hlt, hidle⟩ := heach.holds e rfl
      have hkept := hstep.rely.acceptSession e hlt fun hp => hapart e hp rfl
      have hsession' := hkept.symm.trans hsession
      refine ⟨hsession', ?_⟩
      rw [← hstep.rely.socket_eq hstack.shared hserver hidle hsession']
      exact hsocket
  | session j caller q =>
      cases q with
      | processConnect q => cases q <;> exact h
      | _ => exact h
  | _ => exact h

/-- **A session becomes live** only in a step in which its `AcceptEx` completes successfully. -/
theorem live_of_step (hserver : c.serviceType = .server) (hstack : StackInv c s) {o : Unit}
    (hact : tcpAct c t s.shared (s.pc t) k = some (s', p', o))
    (h : Live i ⟨s', Function.update s.pc t p'⟩) :
    Live i s ∨ s.pc t = .outside ∧
      ∃ e numOfBytes, k = .dequeue (.acceptEx e) numOfBytes none ∧ s.shared.accepting e = some i := by
  rcases h with hin | ⟨u, hu⟩
  · refine .inl ?_
    obtain ⟨hcrashed, hstep⟩ := tcpAct_eq_some hact
    cases hlocked : (s.pc t).locked with
    | none =>
        obtain ⟨-, hsame, -⟩ := (tcpAct_move hact).2.unlocked hlocked
        exact .inl ((hsame i).symm.trans hin)
    | some q =>
        unfold TcpPc.locked at hlocked
        split at hlocked
        · rename_i j caller hp
          by_cases hij : j = i
          · exact .inr ⟨t, by rw [hp]; exact hij⟩
          · rcases hstep with ⟨hout, -⟩ | ⟨r, rfl, -⟩
            · cases hout.symm.trans hp
            · rw [hp, tcpAct_addSession _ hcrashed] at hact
              cases hact
              refine .inl ?_
              simpa [TcpShared.withCount, TcpShared.insertSession, TcpShared.setSession,
                TcpShared.record, Ne.symm hij] using hin
        · rename_i j caller hp
          rcases hstep with ⟨hout, -⟩ | ⟨r, rfl, -⟩
          · cases hout.symm.trans hp
          · obtain ⟨n, hrelease⟩ := tcpAct_releaseSession (c := c) (t := t) s.shared hcrashed j caller r
            rw [hp, hrelease] at hact
            cases hact
            refine .inl ?_
            by_cases hij : i = j
            · subst hij
              simp [TcpShared.withCount, TcpShared.eraseSession, TcpShared.setSession] at hin
            · simpa [TcpShared.withCount, TcpShared.eraseSession, TcpShared.setSession, hij] using hin
        · cases hlocked
  · change (Function.update s.pc t p' u).Accepting s' i at hu
    by_cases hut : u = t
    · subst hut
      rw [Function.update_self] at hu
      obtain ⟨-, hstep⟩ := tcpAct_eq_some hact
      rcases hstep with ⟨hout, henter⟩ | ⟨r, -, hnext⟩
      · exact .inr ⟨hout, tcpEnter_accepting hstack.shared hserver henter hu⟩
      · exact .inl (.inr ⟨u, tcpNext_accepting (hstack.each u).known hnext hu⟩)
    · rw [Function.update_of_ne hut] at hu
      exact .inl (.inr ⟨u, (hstack.server_step hserver hact).accepting_stable hstack hut hu⟩)

/-- The counter is the size of `_sessions`. -/
theorem sized_step (hlife : (lifeInv τ β).OfStack s) (h : Sized s.shared s.shared.sessionCount) {o : Unit}
    (hact : tcpAct c t s.shared (s.pc t) k = some (s', p', o)) : Sized s' s'.sessionCount := by
  obtain ⟨hcrashed, hstep⟩ := tcpAct_eq_some hact
  cases hlocked : (s.pc t).locked with
  | none =>
      obtain ⟨hcount, hsame, -⟩ := (tcpAct_move hact).2.unlocked hlocked
      exact h.of_eq hsame hcount.symm
  | some q =>
      unfold TcpPc.locked at hlocked
      split at hlocked
      · rename_i j caller hp
        rcases hstep with ⟨hout, -⟩ | ⟨r, rfl, -⟩
        · cases hout.symm.trans hp
        · rw [hp, tcpAct_addSession _ hcrashed] at hact
          cases hact
          have hnew : (s.shared.sessions j).inSessions = false := by
            refine Bool.eq_false_iff.mpr fun hin => ?_
            obtain ⟨-, hnone⟩ := (hlife.each t j caller _ hp).adding rfl
            exact absurd (hnone.symm.trans ((hlife.shared j).inSessions hin)) Nat.zero_ne_one
          exact (h.inserted hnew).of_eq (fun _ => rfl) rfl
      · rename_i j caller hp
        rcases hstep with ⟨hout, -⟩ | ⟨r, rfl, hnext⟩
        · cases hout.symm.trans hp
        · rw [hp] at hnext
          cases hnext
          cases hin : (s.shared.sessions j).inSessions with
          | true =>
              refine (h.erased hin).of_eq (fun i => ?_) ?_
              · simp only [TcpShared.around, hin, if_true, TcpShared.setSession,
                  TcpShared.eraseSession]
              · simp only [TcpShared.around, hin, if_true, TcpShared.setSession]
          | false =>
              refine h.of_eq (fun i => ?_) ?_
              · simp only [TcpShared.around, hin, Bool.false_eq_true, if_false, TcpShared.setSession]
                by_cases hij : i = j
                · subst hij
                  simp only [Function.update_self, hin]
                · simp only [Function.update_of_ne hij]
              · simp only [TcpShared.around, hin, Bool.false_eq_true, if_false, TcpShared.setSession]
      · cases hlocked

omit [DecidableEq τ] in
theorem sized_init : Sized (tcpInit τ β).shared 0 :=
  ⟨∅, fun i => iff_of_false (Finset.notMem_empty i) Bool.false_ne_true, rfl⟩

/-- The counter is the size of `_sessions` in every run of a server. -/
theorem sized_run (c : ServiceConfig) (hserver : c.serviceType = .server)
    (events : List (τ × TcpChoice β)) :
    Sized ((tcpThreads τ β c).exec (tcpInit τ β) events).shared
      ((tcpThreads τ β c).exec (tcpInit τ β) events).shared.sessionCount := by
  have honce := server_connects_once c hserver events
  have hinv := (tcpThreads τ β c).guarded_invariant
    (I := fun s : Processes τ (TcpShared τ β) (TcpPc β) =>
      (lifeInv τ β).OfStack s ∧ Sized s.shared s.shared.sessionCount)
    (C := fun e => ConnectsOnce e.after.shared) ⟨lifeInv_init, sized_init⟩ (fun s e h hC => ?_) events
    fun e he i => (times_le_exec c he i).trans (honce i)
  · exact hinv.2
  · obtain ⟨hlife, hsized⟩ := h
    rcases hact : tcpAct c e.1 s.shared (s.pc e.1) e.2 with _ | ⟨s', p', o⟩
    · rw [tcpThreads, interleave_step_of_none hact]
      exact ⟨hlife, hsized⟩
    · rw [Transducer.entry_after, tcpThreads, interleave_step_of_some hact] at hC
      rw [tcpThreads, interleave_step_of_some hact]
      exact ⟨lifeInv_move hlife (tcpAct_move hact).2 hC, sized_step hlife hsized hact⟩

/-- No more than `m` sessions are live. -/
def LiveBound (m : ℤ) (s : Processes τ (TcpShared τ β) (TcpPc β)) : Prop :=
  ∀ F : Finset ℕ, (∀ i ∈ F, Live i s) → (F.card : ℤ) ≤ m

/-- **The step lemma.** -/
theorem LiveBound.step {m : ℤ} (h : LiveBound m s) (hserver : c.serviceType = .server)
    (hstack : StackInv c s) {o : Unit}
    (hact : tcpAct c t s.shared (s.pc t) k = some (s', p', o))
    (hroom : ∀ e numOfBytes, s.pc t = .outside → s.shared.accepting e ≠ none →
      k = .dequeue (.acceptEx e) numOfBytes none → HasRoom m s) :
    LiveBound m ⟨s', Function.update s.pc t p'⟩ := by
  intro F hF
  have hlive := fun i hi => live_of_step hserver hstack hact (hF i hi)
  by_cases hall : ∀ i ∈ F, Live i s
  · exact h F hall
  · -- one of them is new, so there was room; and no other one is
    push Not at hall
    obtain ⟨i, hi, hnew⟩ := hall
    obtain ⟨hout, e, numOfBytes, rfl, he⟩ := (hlive i hi).resolve_left hnew
    have hrest : ∀ j ∈ F.erase i, Live j s := by
      intro j hj
      rcases hlive j (Finset.mem_of_mem_erase hj) with hold | ⟨-, e', n', hk, he'⟩
      · exact hold
      · cases hk
        cases he.symm.trans he'
        exact absurd rfl (Finset.ne_of_mem_erase hj)
    have hlt := hroom e numOfBytes hout (by rw [he]; exact Option.some_ne_none i) rfl (F.erase i) hrest
    have hcard := Finset.card_erase_add_one hi
    omega

/-- **The cap.** A server has at most `maxSessionCount` sessions, in every run in which an `AcceptEx`
completes successfully only while fewer are live. -/
theorem session_cap (c : ServiceConfig) (hserver : c.serviceType = .server)
    (hmax : 0 ≤ c.maxSessionCount) (events : List (τ × TcpChoice β))
    (hroom : ∀ e ∈ (tcpThreads τ β c).trace (tcpInit τ β) events,
      ¬ AcceptsBeyond c.maxSessionCount e) :
    ((tcpThreads τ β c).exec (tcpInit τ β) events).shared.getCurrentSessionCount ≤
      c.maxSessionCount := by
  have hbound : LiveBound c.maxSessionCount ((tcpThreads τ β c).exec (tcpInit τ β) events) := by
    refine ((tcpThreads τ β c).guarded_invariant
      (I := fun s : Processes τ (TcpShared τ β) (TcpPc β) =>
        StackInv c s ∧ LiveBound c.maxSessionCount s)
      (C := fun e => ¬ AcceptsBeyond c.maxSessionCount e)
      ⟨(serverInv_run c hserver []).1, fun F hF => ?_⟩ (fun s e h hC => ?_) events hroom).2
    · rcases F.eq_empty_or_nonempty with rfl | ⟨i, hi⟩
      · exact hmax
      · rcases hF i hi with hin | ⟨t, ht⟩
        · exact absurd hin Bool.false_ne_true
        · exact ht.elim
    · obtain ⟨hstack, hbound⟩ := h
      rcases hact : tcpAct c e.1 s.shared (s.pc e.1) e.2 with _ | ⟨s', p', o⟩
      · rw [tcpThreads, interleave_step_of_none hact]
        exact ⟨hstack, hbound⟩
      · rw [tcpThreads, interleave_step_of_some hact]
        refine ⟨hstack.update (hstack.server_step hserver hact),
          hbound.step hserver hstack hact fun e' numOfBytes hout haccepting hk => ?_⟩
        by_contra hfull
        exact hC ⟨⟨e', numOfBytes, hout, haccepting, hk⟩, hfull⟩
  obtain ⟨F, hF, hcard⟩ := sized_run c hserver events
  rw [TcpShared.getCurrentSessionCount, ← hcard]
  exact hbound F fun i hi => .inl ((hF i).mp hi)

omit [DecidableEq τ] in
/-- While all threads are outside and `_sessions` is empty, no session is live. -/
theorem HasRoom.of_empty {m : ℤ} (hm : 0 < m) (hout : ∀ t, s.pc t = .outside)
    (hsized : Sized s.shared 0) : HasRoom m s := by
  obtain ⟨G, hG, hcard⟩ := hsized
  have hnone : ∀ i, ¬ Live i s := by
    rintro i (hin | ⟨t, ht⟩)
    · have hempty : G = ∅ := Finset.card_eq_zero.mp (Int.natCast_eq_zero.mp hcard)
      exact absurd ((hG i).mpr hin) (hempty ▸ Finset.notMem_empty i)
    · rw [hout t] at ht
      exact ht.elim
  intro F hF
  rcases F.eq_empty_or_nonempty with rfl | ⟨i, hi⟩
  · exact hm
  · exact absurd (hF i hi) (hnone i)

open TcpChoice in
/-- A server for one session accepts one, and registers its `AcceptEvent` again. -/
def oneAccepted : List (TcpChoice ℕ) :=
  [start, next .ok, next .ok, next .ok, next (.failed wsaIoPending), next .ok,
    dequeue (.acceptEx 0) 0 none, next .ok, next .ok, next .ok, next .ok, next .ok, next .ok,
    next .ok, next .ok, next (.failed wsaIoPending), next .ok, next (.failed wsaIoPending)]

open TcpChoice in
/-- The session is closed and released, before a second one is accepted. -/
def oneByOneRun : List (Unit × TcpChoice ℕ) :=
  (oneAccepted ++ dequeue (.wsaRecv 0) 0 none :: [next .ok, next .ok, next .ok, next .ok,
    next (.failed wsaIoPending), dequeue (.disconnectEx 0) 0 none, next .ok, next .ok, next .ok,
    dequeue (.acceptEx 0) 0 none, next .ok, next .ok, next .ok, next .ok, next .ok]).map
    fun k => ((), k)

open TcpChoice in
/-- A second session is accepted while the first one is connected. -/
def twoAcceptedRun : List (Unit × TcpChoice ℕ) :=
  (oneAccepted ++ dequeue (.acceptEx 0) 0 none :: [next .ok, next .ok, next .ok, next .ok,
    next .ok]).map fun k => ((), k)

/-- A successful completion of an `AcceptEx`. -/
def TcpChoice.accepts : TcpChoice β → Bool
  | .dequeue (.acceptEx _) _ none => true
  | _ => false

theorem session_cap_oneByOneRun :
    ((tcpThreads Unit ℕ ⟨.server, 1, true⟩).exec (tcpInit Unit ℕ)
        oneByOneRun).shared.getCurrentSessionCount ≤ 1 ∧
      ((tcpThreads Unit ℕ ⟨.server, 1, true⟩).exec (tcpInit Unit ℕ)
        oneByOneRun).shared.created = 2 := by
  have hwhere : ∀ n < 34, (oneByOneRun[n]?.any fun k => k.2.accepts) = true →
      n = 6 ∨ n = 28 := by decide
  refine ⟨session_cap _ rfl Int.one_nonneg _ fun e he hbeyond => ?_, by decide +kernel⟩
  obtain ⟨fs, k, gs, hes, rfl⟩ := Transducer.mem_trace_iff _ |>.mp he
  obtain ⟨⟨acceptEvent, numOfBytes, -, -, hk⟩, hfull⟩ := hbeyond
  change k.2 = _ at hk
  have hget : oneByOneRun[fs.length]? = some k := by
    rw [hes, List.getElem?_append_right le_rfl, Nat.sub_self, List.getElem?_cons_zero]
  have htake : oneByOneRun.take fs.length = fs := by rw [hes, List.take_left' rfl]
  -- both times all threads are outside, and `_sessions` is empty
  have hroom : ∀ n, ((tcpThreads Unit ℕ ⟨.server, 1, true⟩).exec (tcpInit Unit ℕ)
      (oneByOneRun.take n)).pc () = .outside →
      ((tcpThreads Unit ℕ ⟨.server, 1, true⟩).exec (tcpInit Unit ℕ)
        (oneByOneRun.take n)).shared.sessionCount = 0 → fs.length = n → False := by
    rintro n hout hcount rfl
    refine hfull (.of_empty Int.one_pos (fun _ => ?_) ?_)
    · exact htake ▸ hout
    · have hsized := sized_run (β := ℕ) ⟨.server, 1, true⟩ rfl (oneByOneRun.take fs.length)
      rw [hcount] at hsized
      exact htake ▸ hsized
  rcases hwhere fs.length (List.getElem?_eq_some_iff.mp hget).1 (by rw [hget, Option.any_some, hk]; rfl)
    with h | h
  · exact hroom 6 (by decide +kernel) (by decide +kernel) h
  · exact hroom 28 (by decide +kernel) (by decide +kernel) h

/-- The server has two sessions. -/
theorem not_session_cap_twoAcceptedRun :
    ¬ ((tcpThreads Unit ℕ ⟨.server, 1, true⟩).exec (tcpInit Unit ℕ)
      twoAcceptedRun).shared.getCurrentSessionCount ≤ 1 := by
  decide +kernel

end runs

end CowboyPoker.ServerCore
