import CowboyPoker.ServerCore.ConnectOnce

/-!
# A connected session hears its peer

`ProcessConnect` registers the first receive, and each `ProcessRecv` the next one or a disconnect. When
`WSARecv` fails at once, `RegisterRecv` leaves the rest to `HandleError`, which disconnects for two codes
and logs the others: then the session is connected, and nothing will tell it what its peer does.

* `ReceiveLaw` — a connected session with no thread in its members has one `WSARecv` outstanding.
* `LosesReceive` — a step in which `WSARecv` fails with another code, or `Dispatch` drops its completion.
* `SessionPc.Receiving` — a thread is to register the receive; `receiveInv` — it is the only one, and
  there is no outstanding `WSARecv` meanwhile. `SessionPc.Rearms` — it will, or disconnect.
* `receive_law` — the law, in every run without such a step.
-/

namespace CowboyPoker.ServerCore

open CowboyPoker.Found

variable {τ β : Type} [DecidableEq τ]

/-! ## The law -/

/-- After a run, every connected session that no thread is in has one `WSARecv` outstanding. -/
def ReceiveLaw (c : ServiceConfig) (events : List (τ × TcpChoice β)) : Prop :=
  ∀ i, (∀ t caller q,
      ((tcpThreads τ β c).exec (tcpInit τ β) events).pc t ≠ .session i caller q) →
    (((tcpThreads τ β c).exec (tcpInit τ β) events).shared.sessions i).connected = false ∨
      (((tcpThreads τ β c).exec (tcpInit τ β) events).shared.sessions i).recvs = 1

/-- The codes for which `HandleError` disconnects. -/
def IsFatal (errorCode : ℕ) : Prop := errorCode = wsaEConnReset ∨ errorCode = wsaEConnAborted

/-- A step in which `WSARecv` fails at once with a code that `HandleError` logs, or a thread dequeues its
completion with the error that `Dispatch` takes for the end of a wait. -/
def LosesReceive
    (e : Entry (Processes τ (TcpShared τ β) (TcpPc β)) (τ × TcpChoice β) (Option Unit)) : Prop :=
  (∃ i caller r errorCode, e.before.pc e.input.1 = .session i caller (.registerRecv .wsaRecv) ∧
    e.input.2 = .next r ∧ r.error = some errorCode ∧ ¬ IsFatal errorCode) ∨
  ∃ i numOfBytes, e.before.pc e.input.1 = .outside ∧
    e.input.2 = .dequeue (.wsaRecv i) numOfBytes (some waitTimeout)

/-! ## One session -/

/-- At a position that is to register the receive, or in the error branch behind it. -/
def SessionPc.Receiving : SessionPc β → Prop
  | .processConnect .addSession => True
  | .processConnect .onConnected => True
  | .registerRecv _ => True
  | .processRecv _ => True
  | .disconnect .registerRecv _ => True
  | _ => False

/-- At a position that leads to `WSARecv`, or to the exchange of `_connected`. -/
def SessionPc.Rearms : SessionPc β → Prop
  | .processConnect .addSession => True
  | .processConnect .onConnected => True
  | .registerRecv (.handleError errorCode) => IsFatal errorCode
  | .registerRecv .clearOwner => False
  | .registerRecv _ => True
  | .processRecv _ => True
  | .disconnect _ .exchange => True
  | _ => False

/-- Nothing changes of what the receive path works on. -/
structure SameReceive (s s' : SessionShared τ β) : Prop where
  connected : s'.connected = s.connected
  recvs : s'.recvs = s.recvs
  recvOwner : s'.recvOwner = s.recvOwner

/-- A position that has no part in receiving. -/
structure SessionPc.Aside (p : SessionPc β) : Prop where
  receiving : ¬ p.Receiving
  rearms : ¬ p.Rearms

/-- What the next step in a member of a session does to its receive. -/
inductive ReceiveStep (s : SessionShared τ β) (r : CallResult) :
    SessionPc β → SessionShared τ β → SessionPc β → Prop
  /-- Nothing. -/
  | quiet {p s' p'} (hsame : SameReceive s s') (hp : p.Aside) (hp' : ¬ p'.Receiving) :
      ReceiveStep s r p s' p'
  /-- `_connected.store(true)`. -/
  | store : ReceiveStep s r (.processConnect .store) { s with connected := true }
      (.processConnect .addSession)
  /-- `_connected.exchange(false)`. -/
  | exchange {caller p'} (hp' : p'.Receiving → caller = .registerRecv)
      (hne : p' ≠ .registerRecv .wsaRecv) :
      ReceiveStep s r (.disconnect caller .exchange) { s with connected := false } p'
  /-- On the way to `WSARecv`, or to a disconnect. -/
  | work {p s' p'} (hrecvs : s'.recvs = s.recvs) (hp : p.Receiving) (hp' : p'.Rearms)
      (hstores : p.stores = 0) (howner : p' = .registerRecv .wsaRecv → s'.recvOwner = true) :
      ReceiveStep s r p s' p'
  /-- `RegisterRecv` finds the session disconnected. -/
  | skip (hconnected : s.connected = false) : ReceiveStep s r (.registerRecv .check) s .outside
  /-- `WSARecv` will have a completion. -/
  | post : ReceiveStep s r (.registerRecv .wsaRecv) { s with recvs := s.recvs + 1 } .outside
  /-- `WSARecv` fails at once with a code that will be logged. -/
  | lose (errorCode : ℕ) (herror : r.error = some errorCode) (hcode : ¬ IsFatal errorCode) :
      ReceiveStep s r (.registerRecv .wsaRecv) s (.registerRecv (.handleError errorCode))
  /-- In the error branch. -/
  | giveUp {p s' p'} (hconnected : s'.connected = s.connected) (hrecvs : s'.recvs = s.recvs)
      (hp : p.Receiving) (hrearms : ¬ p.Rearms) (hne : p' ≠ .registerRecv .wsaRecv) :
      ReceiveStep s r p s' p'

/-- What a step that enters a member does to the receive of the session. -/
inductive ReceiveEnter (s : SessionShared τ β) (k : SessionChoice β) :
    SessionShared τ β → SessionPc β → Prop
  /-- Nothing. -/
  | quiet {s' p'} (hsame : SameReceive s s') (hp' : ¬ p'.Receiving) : ReceiveEnter s k s' p'
  /-- The completion of `WSARecv` is dequeued. -/
  | received (numOfBytes : ℕ) (hk : k = .received numOfBytes) (hpos : s.recvs ≠ 0) :
      ReceiveEnter s k { s with recvs := s.recvs - 1 } (.processRecv (.clearOwner numOfBytes))

section session

variable {t : τ} {s s' : SessionShared τ β} {p p' : SessionPc β} {r : CallResult}

omit [DecidableEq τ] in
/-- The receive path is kept where nothing happens. -/
theorem SameReceive.refl (s : SessionShared τ β) : SameReceive s s := ⟨rfl, rfl, rfl⟩

omit [DecidableEq τ] in
/-- A step outside of the receive path. -/
theorem ReceiveStep.elsewhere (hconnected : s'.connected = s.connected) (hrecvs : s'.recvs = s.recvs)
    (howner : s'.recvOwner = s.recvOwner) (hp : p.Aside) (hp' : ¬ p'.Receiving) :
    ReceiveStep s r p s' p' :=
  .quiet ⟨hconnected, hrecvs, howner⟩ hp hp'

/-- The way back from `RegisterSend` is not on the receive path. -/
theorem not_receiving_afterRegisterSend (nested : Bool) :
    ¬ (afterRegisterSend nested : SessionPc β).Receiving := by
  cases nested <;> exact id

/-- Only the `RegisterDisconnect` that `RegisterRecv` called returns to the receive path. -/
theorem receiving_return {caller : DisconnectCaller}
    (h : (caller.return : SessionPc β).Receiving) : caller = .registerRecv := by
  cases caller with
  | registerRecv => rfl
  | _ => exact h.elim

/-- `Send` leaves the receive alone. -/
theorem sendStep_receive {q : SendPc β} (h : sendStep t s q = some (s', p')) :
    ReceiveStep s r (.send q) s' p' := by
  have hp : (SessionPc.send q).Aside := ⟨id, id⟩
  cases q with
  | check sendBuffer =>
      cases h
      refine .elsewhere rfl rfl rfl hp ?_
      split <;> exact id
  | lock sendBuffer =>
      obtain ⟨lock, -, heq⟩ := Option.map_eq_some_iff.mp h
      cases heq
      exact .elsewhere rfl rfl rfl hp id
  | push | exchange =>
      cases h
      exact .elsewhere rfl rfl rfl hp id
  | unlock registerSend =>
      cases h
      refine .elsewhere rfl rfl rfl hp ?_
      split <;> exact id

/-- `RegisterSend` leaves the receive alone. -/
theorem registerSendStep_receive {nested : Bool} {q : RegisterSendPc β}
    (h : registerSendStep t s nested r q = some (s', p')) :
    ReceiveStep s r (.registerSend nested q) s' p' := by
  have hp : (SessionPc.registerSend nested q).Aside := ⟨id, id⟩
  cases q with
  | check =>
      cases h
      refine .elsewhere rfl rfl rfl hp ?_
      split
      · exact id
      · exact not_receiving_afterRegisterSend nested
  | lock =>
      obtain ⟨lock, -, heq⟩ := Option.map_eq_some_iff.mp h
      cases heq
      exact .elsewhere rfl rfl rfl hp id
  | drain =>
      simp only [registerSendStep] at h
      split at h <;> cases h <;> exact .elsewhere rfl rfl rfl hp id
  | wsaSend wsaBufs =>
      simp only [registerSendStep] at h
      split at h <;> cases h
      · exact .elsewhere rfl rfl rfl hp (not_receiving_afterRegisterSend nested)
      · exact .elsewhere rfl rfl rfl hp id
  | handleError errorCode =>
      cases h
      refine .elsewhere rfl rfl rfl hp ?_
      unfold handleError
      split <;> exact id
  | clearRegistered =>
      cases h
      exact .elsewhere rfl rfl rfl hp (not_receiving_afterRegisterSend nested)
  | init | unlock | fill | clearOwner | clearBuffers =>
      cases h
      exact .elsewhere rfl rfl rfl hp id

/-- `ProcessSend` leaves the receive alone. -/
theorem processSendStep_receive {q : ProcessSendPc} (h : processSendStep t s q = some (s', p')) :
    ReceiveStep s r (.processSend q) s' p' := by
  have hp : (SessionPc.processSend q : SessionPc β).Aside := ⟨id, id⟩
  cases q with
  | check numOfBytes =>
      cases h
      refine .elsewhere rfl rfl rfl hp ?_
      split <;> exact id
  | lock =>
      obtain ⟨lock, -, heq⟩ := Option.map_eq_some_iff.mp h
      cases heq
      exact .elsewhere rfl rfl rfl hp id
  | checkQueue =>
      cases h
      refine .elsewhere rfl rfl rfl hp ?_
      split <;> exact id
  | clearOwner | clearBuffers | onSend | clearRegistered | unlock =>
      cases h
      exact .elsewhere rfl rfl rfl hp id

omit [DecidableEq τ] in
/-- Behind the exchange a disconnect is in the error branch of `RegisterRecv`, or has no part in
receiving. -/
theorem disconnect_receive {caller : DisconnectCaller} {q : DisconnectPc} (hq : q ≠ .exchange)
    (hconnected : s'.connected = s.connected) (hrecvs : s'.recvs = s.recvs)
    (howner : s'.recvOwner = s.recvOwner) (hp' : p'.Receiving → caller = .registerRecv)
    (hne : p' ≠ .registerRecv .wsaRecv) : ReceiveStep s r (.disconnect caller q) s' p' := by
  have hrearms : ¬ (SessionPc.disconnect caller q : SessionPc β).Rearms := by
    cases q with
    | exchange => exact absurd rfl hq
    | _ => exact id
  by_cases hcaller : caller = .registerRecv
  · subst hcaller
    exact .giveUp hconnected hrecvs trivial hrearms hne
  · refine .quiet ⟨hconnected, hrecvs, howner⟩ ⟨fun h => hcaller ?_, hrearms⟩ fun h => hcaller (hp' h)
    cases caller with
    | registerRecv => rfl
    | _ => exact h.elim

omit [DecidableEq τ] in
/-- What `Disconnect` and `RegisterDisconnect` do to the receive. -/
theorem disconnectStep_receive {caller : DisconnectCaller} {q : DisconnectPc}
    (h : disconnectStep s caller r q = some (s', p')) :
    ReceiveStep s r (.disconnect caller q) s' p' := by
  have hreturn : (caller.return : SessionPc β) ≠ .registerRecv .wsaRecv := by
    cases caller <;> simp [DisconnectCaller.return]
  have hinside : ∀ q', (SessionPc.disconnect caller q' : SessionPc β).Receiving →
      caller = .registerRecv := by
    intro q' h
    cases caller with
    | registerRecv => rfl
    | _ => exact h.elim
  cases q with
  | exchange =>
      cases h
      split
      · exact .exchange (hinside .init) (by simp)
      · exact .exchange receiving_return hreturn
  | init =>
      cases h
      exact disconnect_receive (by simp) rfl rfl rfl (hinside _) (by simp)
  | disconnectEx =>
      simp only [disconnectStep] at h
      split at h <;> cases h
      · exact disconnect_receive (by simp) rfl rfl rfl receiving_return hreturn
      · exact disconnect_receive (by simp) rfl rfl rfl (hinside _) (by simp)
  | clearOwner =>
      cases h
      exact disconnect_receive (by simp) rfl rfl rfl receiving_return hreturn

omit [DecidableEq τ] in
/-- `ProcessDisconnect` leaves the receive alone. -/
theorem processDisconnectStep_receive {q : ProcessDisconnectPc}
    (h : processDisconnectStep s q = some (s', p')) :
    ReceiveStep s r (.processDisconnect q) s' p' := by
  cases q <;> cases h <;> exact .elsewhere rfl rfl rfl ⟨id, id⟩ id

omit [DecidableEq τ] in
/-- `ProcessConnect` connects the session and calls `RegisterRecv`. -/
theorem processConnectStep_receive {q : ProcessConnectPc}
    (h : processConnectStep s q = some (s', p')) : ReceiveStep s r (.processConnect q) s' p' := by
  cases q <;> cases h
  · exact .store
  · exact .work rfl trivial trivial rfl (by simp)
  · exact .work rfl trivial trivial rfl (by simp)

omit [DecidableEq τ] in
/-- What `RegisterRecv` does to the receive. -/
theorem registerRecvStep_receive {q : RegisterRecvPc} (h : registerRecvStep s r q = some (s', p')) :
    ReceiveStep s r (.registerRecv q) s' p' := by
  cases q with
  | check =>
      cases h
      by_cases hconnected : s.connected
      · rw [if_pos hconnected]
        exact .work rfl trivial trivial rfl (by simp)
      · rw [if_neg hconnected]
        exact .skip (Bool.eq_false_iff.mpr hconnected)
  | init =>
      cases h
      exact .work rfl trivial trivial rfl fun _ => rfl
  | wsaRecv =>
      simp only [registerRecvStep] at h
      split at h
      · cases h
        exact .post
      · rename_i errorCode herror
        cases h
        by_cases hcode : IsFatal errorCode
        · exact .work rfl trivial hcode rfl (by simp)
        · exact .lose errorCode herror hcode
  | handleError errorCode =>
      cases h
      unfold handleError
      split
      · exact .work rfl trivial trivial rfl (by simp)
      · rename_i hcode
        exact .giveUp rfl rfl trivial hcode (by simp [DisconnectCaller.return])
  | clearOwner =>
      cases h
      exact .giveUp rfl rfl trivial id (by simp)

omit [DecidableEq τ] in
/-- `ProcessRecv` leads to `RegisterRecv` or to a disconnect. -/
theorem processRecvStep_receive {q : ProcessRecvPc} (h : processRecvStep s r q = some (s', p')) :
    ReceiveStep s r (.processRecv q) s' p' := by
  cases q with
  | clearOwner numOfBytes =>
      cases h
      exact .work rfl trivial trivial rfl (by simp)
  | check numOfBytes =>
      cases h
      split <;> exact .work rfl trivial trivial rfl (by simp)
  | onRecv =>
      cases h
      split <;> exact .work rfl trivial trivial rfl (by simp)

/-- **The inversion of a step in a member.** -/
theorem nextStep_receive (h : nextStep t s r p = some (s', p')) : ReceiveStep s r p s' p' := by
  cases p with
  | outside => cases h
  | send q => exact sendStep_receive h
  | registerSend nested q => exact registerSendStep_receive h
  | processSend q => exact processSendStep_receive h
  | disconnect caller q => exact disconnectStep_receive h
  | processDisconnect q => exact processDisconnectStep_receive h
  | processConnect q => exact processConnectStep_receive h
  | registerRecv q => exact registerRecvStep_receive h
  | processRecv q => exact processRecvStep_receive h

omit [DecidableEq τ] in
/-- **The inversion of a step into a member** other than `ProcessConnect`. -/
theorem enterStep_receive {k : SessionChoice β} (hk : k ≠ .connected)
    (h : enterStep s k = some (s', p')) : ReceiveEnter s k s' p' := by
  cases k with
  | send sendBuffer =>
      cases h
      exact .quiet (.refl s) id
  | disconnect =>
      cases h
      exact .quiet (.refl s) id
  | connected => exact absurd rfl hk
  | received numOfBytes =>
      obtain ⟨hpos, heq⟩ := Option.ite_none_left_eq_some.mp h
      cases heq
      exact .received numOfBytes rfl hpos
  | sent numOfBytes =>
      simp only [enterStep] at h
      split at h <;> cases h
      exact .quiet ⟨rfl, rfl, rfl⟩ id
  | disconnected =>
      obtain ⟨-, heq⟩ := Option.ite_none_left_eq_some.mp h
      cases heq
      exact .quiet ⟨rfl, rfl, rfl⟩ id
  | next r => cases h

end session

/-! ## Who registers the receive -/

/-- There is at most one `WSARecv`, and it has its owner. -/
structure Heard (v : SessionView τ β) : Prop where
  recvs : v.session.recvs ≤ v.stored
  owner : v.session.recvs ≠ 0 → v.session.recvOwner = true

/-- A thread that is to register the receive finds none, and sets the owner first. -/
structure HeardAt (q : SessionPc β) (v : SessionView τ β) : Prop where
  idle : q.Receiving → v.session.recvs = 0 ∧ v.stored ≠ 0
  owner : q = .registerRecv .wsaRecv → v.session.recvOwner = true

/-- One thread at a time is to register the receive. -/
def receiveInv (τ β : Type) : SessionInv τ β where
  shared := Heard
  each := HeardAt
  pairs q q' := ¬ (q.Receiving ∧ q'.Receiving)
  each_outside _ := ⟨fun h => h.elim, fun h => (by cases h)⟩
  each_store _ _ := ⟨fun h => h.elim, fun h => (by cases h)⟩
  pairs_outside _ := ⟨fun h => h.1, fun h => h.2⟩
  pairs_store _ := ⟨fun h => h.1, fun h => h.2⟩

section keeps

variable {t : τ} {v : SessionView τ β} {q q' : SessionPc β} {x : SessionShared τ β} {r : CallResult}

omit [DecidableEq τ] in
/-- A position with no part in receiving knows nothing. -/
theorem HeardAt.of_not (h : ¬ q.Receiving) : HeardAt q v :=
  ⟨fun hq => absurd hq h, fun heq => absurd (by rw [heq]; exact trivial) h⟩

omit [DecidableEq τ] in
/-- What is to be shown of a step: the other threads need it only where the one that moves is not to
register the receive itself. -/
theorem receiveInv_keeps (hshared : Heard (v.after q x)) (hself : HeardAt q' (v.after q x))
    (hothers : ¬ q.Receiving → v.session.recvs = 0 → v.stored ≠ 0 →
      ¬ q'.Receiving ∧ x.recvs = 0 ∧ (v.session.recvOwner = true → x.recvOwner = true)) :
    (receiveInv τ β).Keeps v q x q' where
  shared := hshared
  self := hself
  others u hapart hu := by
    by_cases hreceiving : u.Receiving
    · obtain ⟨hrecvs, hstored⟩ := hu.idle hreceiving
      obtain ⟨hq', hrecvs', howner⟩ := hothers (fun hq => hapart ⟨hq, hreceiving⟩) hrecvs hstored
      have hat : HeardAt u (v.after q x) :=
        ⟨fun _ => ⟨hrecvs', fun h => hstored (Nat.eq_zero_of_add_eq_zero_right h)⟩,
          fun heq => howner (hu.owner heq)⟩
      exact ⟨hat, fun hboth => hq' hboth.1, fun hboth => hq' hboth.2⟩
    · exact ⟨.of_not hreceiving, fun hboth => hreceiving hboth.2, fun hboth => hreceiving hboth.1⟩

omit [DecidableEq τ] in
/-- **A step in a member.** -/
theorem ReceiveStep.keeps (h : ReceiveStep v.session r q x q') (hv : Heard v) (hq : HeardAt q v)
    (honce : v.stored + q.stores ≤ 1) : (receiveInv τ β).Keeps v q x q' := by
  have hmore : v.stored ≤ v.stored + q.stores := Nat.le_add_right _ _
  cases h with
  | quiet hsame hp hp' =>
      refine receiveInv_keeps ⟨?_, fun h => ?_⟩ (.of_not hp') fun _ hnone _ =>
        ⟨hp', hsame.recvs.trans hnone, fun h => hsame.recvOwner.trans h⟩
      · exact hsame.recvs.trans_le (hv.recvs.trans hmore)
      · exact hsame.recvOwner.trans (hv.owner (hsame.recvs ▸ h))
  | store =>
      have hstored : v.stored = 0 := Nat.le_zero.mp (Nat.le_of_succ_le_succ honce)
      have hnone : v.session.recvs = 0 := Nat.le_zero.mp (hstored ▸ hv.recvs)
      exact receiveInv_keeps ⟨hv.recvs.trans hmore, hv.owner⟩
        ⟨fun _ => ⟨hnone, Nat.succ_ne_zero _⟩, fun h => (by cases h)⟩
        fun _ _ hne => absurd hstored hne
  | @exchange caller _ hp' hne =>
      have hinside : q'.Receiving → (SessionPc.disconnect caller .exchange : SessionPc β).Receiving := by
        intro h
        rw [hp' h]
        exact trivial
      exact receiveInv_keeps ⟨hv.recvs, hv.owner⟩
        ⟨fun h => hq.idle (hinside h), fun h => absurd h hne⟩
        fun hnot hnone _ => ⟨fun h => hnot (hinside h), hnone, id⟩
  | work hrecvs hp hp' hstores howner =>
      obtain ⟨hnone, hstored⟩ := hq.idle hp
      have hzero : x.recvs = 0 := hrecvs.trans hnone
      refine receiveInv_keeps ⟨?_, fun h => absurd hzero h⟩ ⟨fun _ => ⟨hzero, ?_⟩, howner⟩
        fun hnot => absurd hp hnot
      · exact hzero.trans_le (Nat.zero_le _)
      · exact fun h => hstored (Nat.eq_zero_of_add_eq_zero_right h)
  | skip hconnected =>
      exact receiveInv_keeps ⟨hv.recvs, hv.owner⟩ (.of_not id) fun h => absurd trivial h
  | post =>
      obtain ⟨hnone, hstored⟩ := hq.idle trivial
      refine receiveInv_keeps ⟨?_, fun _ => hq.owner rfl⟩ (.of_not id) fun h => absurd trivial h
      simp only [SessionView.after, hnone]
      exact Nat.pos_of_ne_zero hstored
  | lose errorCode herror hcode =>
      exact receiveInv_keeps ⟨hv.recvs, hv.owner⟩ ⟨fun _ => hq.idle trivial, fun h => (by cases h)⟩
        fun h => absurd trivial h
  | giveUp hconnected hrecvs hp hrearms hne =>
      obtain ⟨hnone, hstored⟩ := hq.idle hp
      have hzero : x.recvs = 0 := hrecvs.trans hnone
      refine receiveInv_keeps ⟨?_, fun h => absurd hzero h⟩
        ⟨fun _ => ⟨hzero, ?_⟩, fun h => absurd h hne⟩ fun hnot => absurd hp hnot
      · exact hzero.trans_le (Nat.zero_le _)
      · exact fun h => hstored (Nat.eq_zero_of_add_eq_zero_right h)

omit [DecidableEq τ] in
/-- **A step into a member.** -/
theorem ReceiveEnter.keeps {k : SessionChoice β} (h : ReceiveEnter v.session k x q') (hv : Heard v)
    (honce : v.stored ≤ 1) : (receiveInv τ β).Keeps v .outside x q' := by
  cases h with
  | quiet hsame hp' =>
      refine receiveInv_keeps ⟨hsame.recvs.trans_le hv.recvs, fun h => ?_⟩ (.of_not hp')
        fun _ hnone _ => ⟨hp', hsame.recvs.trans hnone, fun h => hsame.recvOwner.trans h⟩
      exact hsame.recvOwner.trans (hv.owner (hsame.recvs ▸ h))
  | received numOfBytes hk hpos =>
      have hle := hv.recvs
      have hzero : v.session.recvs - 1 = 0 := by omega
      have hstored : v.stored ≠ 0 := by omega
      exact receiveInv_keeps ⟨hzero.trans_le (Nat.zero_le _), fun h => absurd hzero h⟩
        ⟨fun _ => ⟨hzero, hstored⟩, fun h => (by cases h)⟩ fun _ hnone => absurd hnone hpos

end keeps

/-! ## The receive is on its way -/

/-- The session is not connected, or has a `WSARecv` outstanding. -/
def HearsAt (i : ℕ) (s : TcpShared τ β) : Prop :=
  (s.sessions i).connected = false ∨ (s.sessions i).recvs ≠ 0

/-- A thread will register the receive or disconnect. -/
def TcpPc.Rearming (i : ℕ) (p : TcpPc β) : Prop := ∃ caller q, p = .session i caller q ∧ q.Rearms

/-- A connected session has a `WSARecv`, or will have one. -/
abbrev ReceivePending (i : ℕ) : Processes τ (TcpShared τ β) (TcpPc β) → Prop :=
  WitnessInv (HearsAt i) (TcpPc.Rearming i)

section pending

variable {c : ServiceConfig} {t : τ} {s : Processes τ (TcpShared τ β) (TcpPc β)}
  {s' : TcpShared τ β} {p' : TcpPc β} {k : TcpChoice β} {i : ℕ}

omit [DecidableEq τ] in
/-- A step that keeps what the receive path works on keeps the session hearing. -/
theorem HearsAt.keep {s : TcpShared τ β} (h : HearsAt i s)
    (hsame : SameReceive (s.sessions i) (s'.sessions i)) : HearsAt i s' :=
  h.imp (fun h => hsame.connected.trans h) fun h => hsame.recvs.trans_ne h

/-- **A step hands the receive on**, if it is none that loses it. -/
theorem ReceivePending.move (hinv : (receiveInv τ β).OfStack s) (h : ReceivePending i s)
    (hmove : StackMove t s.shared (s.pc t) k s' p')
    (hlose : ∀ caller r errorCode, s.pc t = .session i caller (.registerRecv .wsaRecv) →
      k = .next r → r.error = some errorCode → IsFatal errorCode)
    (htimeout : ∀ numOfBytes, k ≠ .dequeue (.wsaRecv i) numOfBytes (some waitTimeout)) :
    ReceivePending i ⟨s', Function.update s.pc t p'⟩ := by
  refine hmove.witness h id (fun hview hat => ?_)
    (fun caller q r x q' hpq hk hnext hs' hbefore => ?_)
    (fun k' x q hk henter hview hat => ?_) fun k' x q hout hk henter hview hdrops hat => ?_
  · have hsession : s'.sessions i = s.shared.sessions i := congrArg SessionView.session hview
    exact hat.keep (hsession ▸ .refl _)
  · have hx : s'.sessions i = x :=
      hs' ▸ congrArg SessionView.session (view_member s.shared t i q x).1
    cases nextStep_receive hnext with
    | quiet hsame hp hp' => exact .inl ((hbefore.resolve_right hp.rearms).keep (hx ▸ hsame))
    | store | work => exact .inr (by first | exact trivial | assumption)
    | exchange => exact .inl (.inl (by rw [hx]))
    | skip hconnected => exact .inl (.inl (by rw [hx]; exact hconnected))
    | post => exact .inl (.inr (by rw [hx]; exact Nat.succ_ne_zero _))
    | lose errorCode herror hcode => exact absurd (hlose caller r errorCode hpq hk herror) hcode
    | giveUp hconnected hrecvs hp hrearms hne =>
        refine .inl ((hbefore.resolve_right hrearms).imp (fun h => ?_) fun h => ?_)
        · rw [hx]
          exact hconnected.trans h
        · rw [hx]
          exact hrecvs.trans_ne h
  · have hx : s'.sessions i = x := congrArg SessionView.session hview
    cases enterStep_receive (enters_ne_connected hk) henter with
    | quiet hsame => exact .inl (hat.keep (hx ▸ hsame))
    | received => exact .inr trivial
  · have hx : s'.sessions i = x := congrArg SessionView.session hview
    cases enterStep_receive (enters_ne_connected hk) henter with
    | quiet hsame => exact hat.keep (hx ▸ hsame)
    | received numOfBytes hk' hpos =>
        -- the completion goes no further only for one of the two causes
        subst hk'
        obtain ⟨op, n, errCode, rfl, hcause⟩ := hdrops
        cases op <;> cases hk
        rcases hcause with htime | howner
        · exact absurd (by rw [htime]) (htimeout numOfBytes)
        · have hown := (hinv.shared i).owner hpos
          exact absurd (hown.symm.trans howner) Bool.noConfusion

end pending

/-! ## Runs -/

section runs

variable {c : ServiceConfig} {t : τ} {s : Processes τ (TcpShared τ β) (TcpPc β)}
  {s' : TcpShared τ β} {p' : TcpPc β} {k : TcpChoice β} {i : ℕ}

/-- A step that stores no session twice keeps one thread at a time. -/
theorem receiveInv_move (h : (receiveInv τ β).OfStack s)
    (hmove : StackMove t s.shared (s.pc t) k s' p') (honce : ConnectsOnce s') :
    (receiveInv τ β).OfStack ⟨s', Function.update s.pc t p'⟩ := by
  refine h.update hmove (fun i caller q r x q' hp _ hnext => ?_) fun i k' x q hk henter => ?_
  · exact (nextStep_receive hnext).keeps (h.shared i) (h.each t i caller q hp)
      (hmove.stores_le hp honce)
  · have hstored : (s.shared.view i).stored ≤ 1 :=
      (hmove.times_le (.stored i) (.inl ⟨i, rfl⟩)).trans (honce i)
    exact (enterStep_receive (enters_ne_connected hk) henter).keeps (h.shared i) hstored

omit [DecidableEq τ] in
/-- The invariant holds at the start. -/
theorem receiveInv_init : (receiveInv τ β).OfStack (tcpInit τ β) :=
  ⟨fun _ => ⟨Nat.zero_le _, fun h => absurd rfl h⟩, fun _ _ _ _ h => (by cases h),
    fun _ _ _ _ _ _ _ _ h => (by cases h)⟩

/-- The receive of every session is on its way, in every run that stores none twice and loses none. -/
theorem receivePending_run (c : ServiceConfig) (events : List (τ × TcpChoice β))
    (honce : ConnectsOnce ((tcpThreads τ β c).exec (tcpInit τ β) events).shared)
    (hlose : ∀ e ∈ (tcpThreads τ β c).trace (tcpInit τ β) events, ¬ LosesReceive e) :
    (receiveInv τ β).OfStack ((tcpThreads τ β c).exec (tcpInit τ β) events) ∧
      ∀ i, ReceivePending i ((tcpThreads τ β c).exec (tcpInit τ β) events) := by
  refine (tcpThreads τ β c).guarded_invariant
    (I := fun s : Processes τ (TcpShared τ β) (TcpPc β) =>
      (receiveInv τ β).OfStack s ∧ ∀ i, ReceivePending i s)
    (C := fun e => ConnectsOnce e.after.shared ∧ ¬ LosesReceive e)
    ⟨receiveInv_init, fun i => .inl (.inl rfl)⟩ (fun s e h hC => ?_) events
    fun e he => ⟨fun i => (times_le_exec c he i).trans (honce i), hlose e he⟩
  obtain ⟨hinv, hpending⟩ := h
  obtain ⟨hafter, hkept⟩ := hC
  rcases hact : tcpAct c e.1 s.shared (s.pc e.1) e.2 with _ | ⟨s', p', o⟩
  · rw [tcpThreads, interleave_step_of_none hact]
    exact ⟨hinv, hpending⟩
  · rw [Transducer.entry_after, tcpThreads, interleave_step_of_some hact] at hafter
    rw [tcpThreads, interleave_step_of_some hact]
    obtain ⟨-, hmove⟩ := tcpAct_move hact
    refine ⟨receiveInv_move hinv hmove hafter, fun i => (hpending i).move hinv hmove
      (fun caller r errorCode hp hk herror => ?_) fun numOfBytes hk => ?_⟩
    · by_contra hcode
      exact hkept (.inl ⟨i, caller, r, errorCode, hp, hk, herror, hcode⟩)
    · have hout : s.pc e.1 = .outside := by
        rcases (tcpAct_eq_some hact).2 with ⟨hp, -⟩ | ⟨r, hr, -⟩
        · exact hp
        · cases hk.symm.trans hr
      exact hkept (.inr ⟨i, numOfBytes, hout, hk⟩)

/-- **No connected session is deaf**, in every run in which `WSARecv` fails at once only with codes for
which `HandleError` disconnects, and none of its completions is taken for the end of a wait. -/
theorem receive_law (c : ServiceConfig) (events : List (τ × TcpChoice β))
    (hbind : BindsOnce ((tcpThreads τ β c).trace (tcpInit τ β) events))
    (hlose : ∀ e ∈ (tcpThreads τ β c).trace (tcpInit τ β) events, ¬ LosesReceive e) :
    ReceiveLaw c events := by
  intro i hquiet
  have honce := connects_once c events hbind
  obtain ⟨hinv, hpending⟩ := receivePending_run c events honce hlose
  rcases hpending i with hat | ⟨t, caller, q, hat, -⟩
  · refine hat.imp_right fun hpos => le_antisymm ?_ (Nat.pos_of_ne_zero hpos)
    exact (hinv.shared i).recvs.trans (honce i)
  · exact absurd hat (hquiet t caller q)

open TcpChoice in
/-- A server accepts a session, receives five bytes, and registers the next receive. -/
def receivedRun : List (Unit × TcpChoice ℕ) :=
  [start, next .ok, next .ok, next .ok, next (.failed wsaIoPending), next .ok,
    dequeue (.acceptEx 0) 0 none, next .ok, next .ok, next .ok, next .ok, next .ok, next .ok,
    next .ok, next .ok, next (.failed wsaIoPending), next .ok, next (.failed wsaIoPending),
    dequeue (.wsaRecv 0) 5 none, next .ok, next .ok, next .ok, next .ok, next .ok,
    next (.failed wsaIoPending)].map fun k => ((), k)

/-- A run in which the session receives and stays connected. -/
theorem receive_law_receivedRun :
    ReceiveLaw ⟨.server, 1, true⟩ receivedRun ∧
      (((tcpThreads Unit ℕ ⟨.server, 1, true⟩).exec (tcpInit Unit ℕ)
        receivedRun).shared.sessions 0).connected = true := by
  have hinputs : ∀ k ∈ receivedRun, (∀ r, k.2 = .next r → r.error = none) ∧
      ∀ i numOfBytes, k.2 ≠ .dequeue (.wsaRecv i) numOfBytes (some waitTimeout) := by
    simp [receivedRun, CallResult.error]
  refine ⟨receive_law _ _ (server_bindsOnce _ rfl _) fun e he hloses => ?_, by decide +kernel⟩
  obtain ⟨fs, k, gs, hes, rfl⟩ := Transducer.mem_trace_iff _ |>.mp he
  obtain ⟨hfails, htimeout⟩ := hinputs k (hes ▸ List.mem_append_right _ List.mem_cons_self)
  rcases hloses with ⟨i, caller, r, errorCode, -, hr, herror, -⟩ | ⟨i, numOfBytes, -, hk⟩
  · exact Option.some_ne_none errorCode (herror.symm.trans (hfails r hr))
  · exact htimeout i numOfBytes hk

open TcpChoice in
/-- The server that a client connects to refuses the connection, so that `WSARecv` fails at once with
`WSAENOTCONN`. -/
def deafRun : List (Unit × TcpChoice ℕ) :=
  [start, next .ok, next .ok, next .ok, next .ok, next .ok, next (.failed wsaIoPending), next .ok,
    dequeue (.connectEx 0) 0 (some 1225), next .ok, next .ok, next .ok, next .ok, next .ok,
    next (.failed 10057), next .ok, next .ok].map fun k => ((), k)

/-- The session is connected without a receive, and no thread is in it. -/
theorem not_receiveLaw_deafRun : ¬ ReceiveLaw ⟨.client, 1, true⟩ deafRun := by
  intro hlaw
  have hout : ((tcpThreads Unit ℕ ⟨.client, 1, true⟩).exec (tcpInit Unit ℕ)
      deafRun).pc () = .outside := by decide +kernel
  have hconnected : (((tcpThreads Unit ℕ ⟨.client, 1, true⟩).exec (tcpInit Unit ℕ)
      deafRun).shared.sessions 0).connected = true := by decide +kernel
  have hrecvs : (((tcpThreads Unit ℕ ⟨.client, 1, true⟩).exec (tcpInit Unit ℕ)
      deafRun).shared.sessions 0).recvs = 0 := by decide +kernel
  rcases hlaw 0 (fun t caller q hp => by cases hout.symm.trans hp) with hfalse | hone
  · exact absurd (hfalse.symm.trans hconnected) Bool.false_ne_true
  · exact absurd (hrecvs.symm.trans hone) Nat.zero_ne_one

end runs

end CowboyPoker.ServerCore
