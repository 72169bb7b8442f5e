import CowboyPoker.ServerCore.DeafSessions
import CowboyPoker.ServerCore.PacketSession
import CowboyPoker.ServerCore.SendPipeline

/-!
# Two peers

Two packet sessions that are connected to each other, each with any number of threads in its members.
What `WSASend` takes arrives at the other side as a stream of bytes, in pieces of any size; it may stop
at any point.

* `PeerShared`, `peerAct` — a session with its receive buffer, the bytes on their way to it and the
  packets that it was handed. `peers` — both sessions, interleaved.
* `PeerCase` — what a step of a thread can do.
* `ReceiveToken` — one thread at a time receives, and no `WSARecv` is outstanding meanwhile.
* `Flow` — what was taken on one side is, in order, what was handed over on the other side, what is in
  its buffer, and what is on its way.
* `peers_deliver` — the packets that one side is handed are those that the other side sent.
-/

namespace CowboyPoker.ServerCore

open CowboyPoker.Found

variable {τ : Type}

/-! ## The machine -/

/-- What the threads of one side share. The buffers of a `PacketSession` hold the bytes up to their
`WriteSize`. -/
structure PeerShared (τ : Type) where
  /-- The session, but for its receive buffer. -/
  session : SessionShared τ Bytes := {}
  /-- `_recvBuffer`. -/
  recvBuffer : RecvBuffer := .init Session.bufferSize
  /-- What the receive that was dequeued last has stored behind `_writePos`. -/
  arrived : Bytes := []
  /-- What the other side has sent and no receive has stored. -/
  inbound : Bytes := []
  /-- The packets that `OnRecvPacket` was called with, oldest first. -/
  packets : List Bytes := []
  /-- `OnWrite` or `OnRead` has refused. -/
  refused : Bool := false
  /-- The lists of buffers that `WSASend` took without an error, oldest first. -/
  taken : List (List Bytes) := []

/-- The list of buffers that a step passes to `WSASend` without an error. -/
def takenBy (p : SessionPc Bytes) (k : SessionChoice Bytes) : List (List Bytes) :=
  match p, k with
  | .registerSend _ (.wsaSend wsaBufs), .next r => if r.error = none then [wsaBufs] else []
  | _, _ => []

/-- How `OnWrite`, `OnRecv` and `OnRead` end. -/
def Session.outcome (x : Session) : CallResult := if x.connected then .ok else .failed 0

variable [DecidableEq τ]

/-- What a thread does. A receive of `numOfBytes` bytes stores the next bytes on their way, not more than
there is room for; it may also end without any. There is no step behind a loop that does not end.
Source: `ServerCore/Session.cpp`, `Session`, `PacketSession` -/
def peerAct : Program τ (PeerShared τ) (SessionPc Bytes) (SessionChoice Bytes) Unit :=
  fun t s p k =>
    match p, k with
    | .outside, .received numOfBytes =>
        if numOfBytes ≤ s.inbound.length ∧ numOfBytes ≤ s.recvBuffer.freeSize then
          (sessionAct t s.session .outside (.received numOfBytes)).map fun (session, p', o) =>
            ({ s with
                session
                arrived := s.inbound.take numOfBytes
                inbound := s.inbound.drop numOfBytes }, p', o)
        else none
    | .processRecv .onRecv, .next _ =>
        match Session.processRecv ⟨s.recvBuffer, true⟩ s.arrived with
        | (_, none) => none
        | (x, some packets) =>
            (sessionAct t s.session (.processRecv .onRecv) (.next x.outcome)).map
              fun (session, p', o) =>
                ({ s with
                    session
                    recvBuffer := x.recvBuffer
                    arrived := []
                    packets := s.packets ++ packets
                    refused := s.refused || !x.connected }, p', o)
    | p, k =>
        (sessionAct t s.session p k).map fun (session, p', o) =>
          ({ s with session, taken := s.taken ++ takenBy p k }, p', o)

/-- Both sides. -/
abbrev Peers (τ : Type) := Bool → Processes τ (PeerShared τ) (SessionPc Bytes)

/-- More bytes are on their way to a side. -/
def receive (s : Processes τ (PeerShared τ) (SessionPc Bytes)) (bytes : Bytes) :
    Processes τ (PeerShared τ) (SessionPc Bytes) :=
  { s with shared := { s.shared with inbound := s.shared.inbound ++ bytes } }

/-- The two sides, interleaved: a side, a thread of it, and what it does. -/
def peers (τ : Type) [DecidableEq τ] :
    Transducer (Peers τ) (Bool × τ × SessionChoice Bytes) (Option Unit) where
  step s := fun (b, t, k) =>
    match peerAct t (s b).shared ((s b).pc t) k with
    | none => (s, none)
    | some (shared, p, o) =>
        (Function.update
          (Function.update s (!b) (receive (s !b) (takenBy ((s b).pc t) k).flatten.flatten)) b
          ⟨shared, Function.update (s b).pc t p⟩, some o)

/-- Two sessions whose connections are being established. -/
def peersInit (τ : Type) : Peers τ := fun _ => ⟨{}, fun _ => .outside⟩

/-! ## What a step can do -/

/-- What a step of a thread can do. -/
inductive PeerCase (t : τ) (s : PeerShared τ) (p : SessionPc Bytes) (k : SessionChoice Bytes) :
    PeerShared τ → SessionPc Bytes → Prop
  /-- A receive is dequeued. -/
  | arrives {session : SessionShared τ Bytes} {p' : SessionPc Bytes} (numOfBytes : ℕ)
      (hp : p = .outside) (hk : k = .received numOfBytes) (hle : numOfBytes ≤ s.inbound.length)
      (hroom : numOfBytes ≤ s.recvBuffer.freeSize)
      (hact : sessionAct t s.session p (.received numOfBytes) = some (session, p', ())) :
      PeerCase t s p k { s with
        session
        arrived := s.inbound.take numOfBytes
        inbound := s.inbound.drop numOfBytes } p'
  /-- `ProcessRecv` works on what has arrived. -/
  | processed {session : SessionShared τ Bytes} {p' : SessionPc Bytes} {x : Session}
      {packets : List Bytes} (hp : p = .processRecv .onRecv)
      (hprocess : Session.processRecv ⟨s.recvBuffer, true⟩ s.arrived = (x, some packets))
      (hact : sessionAct t s.session p (.next x.outcome) = some (session, p', ())) :
      PeerCase t s p k { s with
        session
        recvBuffer := x.recvBuffer
        arrived := []
        packets := s.packets ++ packets
        refused := s.refused || !x.connected } p'
  /-- Anything else. -/
  | other {session : SessionShared τ Bytes} {p' : SessionPc Bytes}
      (hk : ∀ numOfBytes, p = .outside → k ≠ .received numOfBytes) (hp : p ≠ .processRecv .onRecv)
      (hact : sessionAct t s.session p k = some (session, p', ())) :
      PeerCase t s p k { s with session, taken := s.taken ++ takenBy p k } p'

section cases

variable {t : τ} {s s' : PeerShared τ} {p p' : SessionPc Bytes} {k : SessionChoice Bytes}

/-- **The inversion of a step.** -/
theorem peerCase {o : Unit} (h : peerAct t s p k = some (s', p', o)) : PeerCase t s p k s' p' := by
  unfold peerAct at h
  split at h
  · rename_i numOfBytes
    obtain ⟨⟨hle, hroom⟩, h⟩ := Option.ite_none_right_eq_some.mp h
    obtain ⟨⟨session, p₁, o₁⟩, hact, heq⟩ := Option.map_eq_some_iff.mp h
    cases heq
    exact .arrives numOfBytes rfl rfl hle hroom hact
  · split at h
    · cases h
    · rename_i hprocess
      obtain ⟨⟨session, p₁, o₁⟩, hact, heq⟩ := Option.map_eq_some_iff.mp h
      cases heq
      exact .processed rfl hprocess hact
  · rename_i hreceived honRecv
    obtain ⟨⟨session, p₁, o₁⟩, hact, heq⟩ := Option.map_eq_some_iff.mp h
    cases heq
    refine .other (fun n hp hk => hreceived n hp hk) (fun hp => ?_) hact
    rcases sessionAct_eq_some hact with ⟨hout, -⟩ | ⟨r, hr, -⟩
    · rw [hp] at hout
      cases hout
    · exact honRecv r hp hr

/-- To the session it is one of its steps. -/
theorem PeerCase.act (h : PeerCase t s p k s' p') :
    ∃ k', sessionAct t s.session p k' = some (s'.session, p', ()) := by
  cases h with
  | arrives numOfBytes hp hk hle hroom hact => exact ⟨_, hact⟩
  | processed hp hprocess hact => exact ⟨_, hact⟩
  | other hk hp hact => exact ⟨_, hact⟩

end cases

/-! ## Who receives -/

/-- In `ProcessConnect` or on the way to `WSARecv`. -/
def SessionPc.OnReceivePath (p : SessionPc Bytes) : Prop :=
  p = .processConnect .store ∨ p.Receiving

/-- In `ProcessRecv`. -/
def SessionPc.InProcessRecv : SessionPc Bytes → Prop
  | .processRecv _ => True
  | _ => False

/-- Either the session is not connected yet, or one thread is on the receive path, or there is at most
one `WSARecv`. -/
abbrev ReceiveToken : Processes τ (SessionShared τ Bytes) (SessionPc Bytes) → Prop :=
  LocalInv (fun s => s.recvs ≤ 1 ∧ (s.connectPending = true → s.recvs = 0))
    (fun _ s p => p.OnReceivePath → s.recvs = 0 ∧ s.connectPending = false)
    (fun p q => ¬ (p.OnReceivePath ∧ q.OnReceivePath))

section token

variable {t : τ} {s s' : SessionShared τ Bytes} {p p' : SessionPc Bytes} {r : CallResult}

/-- `ProcessRecv` is on the receive path. -/
theorem SessionPc.InProcessRecv.onReceivePath (h : p.InProcessRecv) : p.OnReceivePath := by
  cases p with
  | processRecv q => exact .inr trivial
  | _ => exact h.elim

/-- No step leads back to the start of `ProcessConnect`, and none changes whether a connection is
pending. -/
theorem nextStep_connectPending (h : nextStep t s r p = some (s', p')) :
    p' ≠ .processConnect .store ∧ s'.connectPending = s.connectPending := by
  by_cases hp : p.Connecting
  · cases p with
    | processConnect q =>
        cases q <;> cases h <;> exact ⟨by simp, rfl⟩
    | _ => exact hp.elim
  · have hquiet := nextStep_quiet hp h
    refine ⟨fun hstore => hquiet.connecting ?_, hquiet.connectPending⟩
    rw [hstore]
    trivial

variable {s : Processes τ (SessionShared τ Bytes) (SessionPc Bytes)} {s' : SessionShared τ Bytes}

/-- A step of a thread that stays off the receive path. -/
theorem ReceiveToken.off (h : ReceiveToken s) (hrecvs : s'.recvs = s.shared.recvs)
    (hpending : s'.connectPending = s.shared.connectPending) (hp' : ¬ p'.OnReceivePath) :
    ReceiveToken ⟨s', Function.update s.pc t p'⟩ := by
  refine LocalInv.update h ?_ (fun hpath => absurd hpath hp') fun u _ => ⟨?_, ?_, ?_⟩
  · rw [hrecvs, hpending]
    exact h.shared
  · rw [hrecvs, hpending]
    exact h.each u
  · exact fun hboth => hp' hboth.1
  · exact fun hboth => hp' hboth.2

/-- A step of the thread on the receive path. -/
theorem ReceiveToken.on (h : ReceiveToken s) (hp : (s.pc t).OnReceivePath) (hrecvs : s'.recvs ≤ 1)
    (hpending : s'.connectPending = s.shared.connectPending)
    (hp' : p'.OnReceivePath → s'.recvs = 0) : ReceiveToken ⟨s', Function.update s.pc t p'⟩ := by
  obtain ⟨-, hnone⟩ := h.each t hp
  refine LocalInv.update h ⟨hrecvs, fun hsome => ?_⟩ (fun hpath => ⟨hp' hpath, hpending.trans hnone⟩)
    fun u hu => ?_
  · rw [hpending, hnone] at hsome
    cases hsome
  · have hoff : ¬ (s.pc u).OnReceivePath := fun hpath => h.pairs t u (Ne.symm hu) ⟨hp, hpath⟩
    exact ⟨fun hpath => absurd hpath hoff, fun hboth => hoff hboth.2, fun hboth => hoff hboth.1⟩

/-- A thread that gets on the receive path when nobody is. -/
theorem ReceiveToken.enter (h : ReceiveToken s)
    (hfree : s.shared.recvs ≠ 0 ∨ s.shared.connectPending = true) (hrecvs : s'.recvs = 0)
    (hpending : s'.connectPending = false) : ReceiveToken ⟨s', Function.update s.pc t p'⟩ := by
  have hoff : ∀ u, ¬ (s.pc u).OnReceivePath := by
    intro u hpath
    obtain ⟨hzero, hnone⟩ := h.each u hpath
    rcases hfree with hsome | hsome
    · exact hsome hzero
    · rw [hnone] at hsome
      cases hsome
  refine LocalInv.update h ⟨hrecvs.trans_le (Nat.zero_le 1), fun _ => hrecvs⟩
    (fun _ => ⟨hrecvs, hpending⟩) fun u _ => ?_
  exact ⟨fun hpath => absurd hpath (hoff u), fun hboth => hoff u hboth.2, fun hboth => hoff u hboth.1⟩

/-- **The step lemma** of the receive token. -/
theorem ReceiveToken.update (h : ReceiveToken s) {k : SessionChoice Bytes} {o : Unit}
    (hact : sessionAct t s.shared (s.pc t) k = some (s', p', o)) :
    ReceiveToken ⟨s', Function.update s.pc t p'⟩ := by
  rcases sessionAct_eq_some hact with ⟨-, henter⟩ | ⟨r, -, hnext⟩
  · by_cases hk : k = .connected
    · subst hk
      obtain ⟨hpending, heq⟩ := Option.ite_none_right_eq_some.mp henter
      cases heq
      exact h.enter (.inr hpending) (h.shared.2 hpending) rfl
    · have hquiet : s'.connectPending = s.shared.connectPending ∧ p' ≠ .processConnect .store := by
        cases k with
        | send sendBuffer => cases henter; exact ⟨rfl, by simp⟩
        | connected => exact absurd rfl hk
        | _ =>
            have hquiet := enterStep_quiet hk (by simp) henter
            exact ⟨hquiet.connectPending, fun hstore => hquiet.connecting (hstore ▸ trivial)⟩
      obtain ⟨hpending, hstore⟩ := hquiet
      cases enterStep_receive hk henter with
      | quiet hsame hp' => exact h.off hsame.recvs hpending fun hpath => hpath.elim hstore hp'
      | received numOfBytes hk' hpos =>
          have hle := h.shared.1
          have hzero : s.shared.recvs - 1 = 0 := by omega
          have hnone : s.shared.connectPending = false :=
            Bool.eq_false_iff.mpr fun hsome => hpos (h.shared.2 hsome)
          exact h.enter (.inl hpos) hzero hnone
  · obtain ⟨hstore, hpending⟩ := nextStep_connectPending hnext
    have hstep := nextStep_receive hnext
    generalize hp : s.pc t = p at hstep
    have hpath : p.Receiving → (s.pc t).OnReceivePath := fun hreceiving => .inr (hp ▸ hreceiving)
    cases hstep with
    | quiet hsame hp₀ hp' => exact h.off hsame.recvs hpending fun hpath => hpath.elim hstore hp'
    | store =>
        have hfirst : (s.pc t).OnReceivePath := .inl hp
        exact h.on hfirst h.shared.1 hpending fun _ => (h.each t hfirst).1
    | @exchange caller _ hp' hne =>
        by_cases hcaller : caller = .registerRecv
        · subst hcaller
          have hself := hpath trivial
          exact h.on hself h.shared.1 hpending fun _ => (h.each t hself).1
        · exact h.off rfl hpending fun hpath => hpath.elim hstore fun hreceiving =>
            hcaller (hp' hreceiving)
    | work hrecvs hreceiving =>
        have hself := hpath hreceiving
        exact h.on hself (hrecvs.trans_le h.shared.1) hpending fun _ =>
          hrecvs.trans (h.each t hself).1
    | skip =>
        have hself := hpath trivial
        exact h.on hself h.shared.1 hpending fun _ => (h.each t hself).1
    | post =>
        have hself := hpath trivial
        refine h.on hself ?_ hpending fun hout => hout.elim (fun h => by cases h) fun h => h.elim
        simp only [(h.each t hself).1, Nat.zero_add, le_refl]
    | lose =>
        have hself := hpath trivial
        exact h.on hself h.shared.1 hpending fun _ => (h.each t hself).1
    | giveUp hconnected hrecvs hreceiving =>
        have hself := hpath hreceiving
        exact h.on hself (hrecvs.trans_le h.shared.1) hpending fun _ =>
          hrecvs.trans (h.each t hself).1

omit [DecidableEq τ] in
/-- While a `WSARecv` is outstanding nobody is in `ProcessRecv`. -/
theorem ReceiveToken.idle (h : ReceiveToken s) (hrecvs : s.shared.recvs ≠ 0) (u : τ) :
    ¬ (s.pc u).InProcessRecv := fun hin => hrecvs (h.each u hin.onReceivePath).1

omit [DecidableEq τ] in
/-- Nobody else is in `ProcessRecv`. -/
theorem ReceiveToken.alone (h : ReceiveToken s) (ht : (s.pc t).InProcessRecv) {u : τ} (hu : u ≠ t) :
    ¬ (s.pc u).InProcessRecv := fun hin =>
  h.pairs u t hu ⟨hin.onReceivePath, ht.onReceivePath⟩

end token

/-! ## What flows -/

/-- What a thread in `ProcessRecv` knows of what has arrived. -/
def SessionPc.Knows (arrived : Bytes) : SessionPc Bytes → Prop
  | .processRecv (.clearOwner numOfBytes) => arrived.length = numOfBytes
  | .processRecv (.check numOfBytes) => arrived.length = numOfBytes
  | .processRecv .onRecv => arrived ≠ []
  | _ => True

/-- A thread outside of `ProcessRecv` knows nothing. -/
theorem SessionPc.Knows.of_not {arrived : Bytes} {p : SessionPc Bytes} (h : ¬ p.InProcessRecv) :
    p.Knows arrived := by
  cases p with
  | processRecv q => exact absurd trivial h
  | _ => trivial

/-- The other side has sent `frames`: this side was handed the first of them, holds a part of the next
one, and the rest is on its way. -/
structure Flow (frames : List Bytes) (s : Processes τ (PeerShared τ) (SessionPc Bytes)) : Prop where
  /-- What was handed over is complete. -/
  cut : ∃ n, Framing.Cut frames (s.shared.packets.flatten ++ s.shared.recvBuffer.unread) n
    s.shared.recvBuffer.unread ∧ s.shared.packets = frames.take n
  /-- No byte is lost, repeated or out of order. -/
  stream : s.shared.packets.flatten ++ s.shared.recvBuffer.unread ++ s.shared.arrived ++
    s.shared.inbound = frames.flatten
  size : s.shared.recvBuffer.bufferSize = Session.bufferSize
  room : Session.bufferSize ≤ s.shared.recvBuffer.freeSize
  fits : s.shared.arrived.length ≤ s.shared.recvBuffer.freeSize
  accepted : s.shared.refused = false
  known : ∀ t, (s.pc t).Knows s.shared.arrived
  pending : s.shared.arrived = [] ∨ ∃ t, (s.pc t).InProcessRecv

section enters

variable {t : τ} {s s' : SessionShared τ Bytes} {p p' : SessionPc Bytes} {r : CallResult}

/-- No other member of the session calls `ProcessRecv`. -/
theorem nextStep_not_inProcessRecv (hp : ¬ p.InProcessRecv) (h : nextStep t s r p = some (s', p')) :
    ¬ p'.InProcessRecv := by
  have hafter : ∀ nested, ¬ (afterRegisterSend nested : SessionPc Bytes).InProcessRecv := by
    intro nested
    cases nested <;> exact id
  have hreturn : ∀ caller : DisconnectCaller, ¬ (caller.return : SessionPc Bytes).InProcessRecv := by
    intro caller
    cases caller <;> exact id
  cases p with
  | outside => cases h
  | processRecv q => exact absurd trivial hp
  | send q =>
      cases q <;> grind [nextStep, = Option.map_eq_some_iff, sendStep, SessionPc.InProcessRecv]
  | registerSend nested q =>
      cases q <;> grind [nextStep, = Option.map_eq_some_iff, registerSendStep, handleError,
        SessionPc.InProcessRecv]
  | processSend q =>
      cases q <;> grind [nextStep, = Option.map_eq_some_iff, processSendStep, SessionPc.InProcessRecv]
  | disconnect caller q => cases q <;> grind [nextStep, disconnectStep, SessionPc.InProcessRecv]
  | processDisconnect q => cases q <;> grind [nextStep, processDisconnectStep, SessionPc.InProcessRecv]
  | processConnect q => cases q <;> grind [nextStep, processConnectStep, SessionPc.InProcessRecv]
  | registerRecv q =>
      cases q <;> grind [nextStep, registerRecvStep, handleError, SessionPc.InProcessRecv]

/-- A step before `OnWrite` keeps what the thread knows, and forgets nothing that has arrived. -/
theorem SessionPc.Knows.step {arrived : Bytes} (h : p.Knows arrived) (hp : p ≠ .processRecv .onRecv)
    {k : SessionChoice Bytes} (hk : ∀ numOfBytes, p = .outside → k ≠ .received numOfBytes) {o : Unit}
    (hact : sessionAct t s p k = some (s', p', o)) :
    p'.Knows arrived ∧ (p.InProcessRecv → arrived = [] ∨ p'.InProcessRecv) := by
  rcases sessionAct_eq_some hact with ⟨rfl, henter⟩ | ⟨r, -, hnext⟩
  · refine ⟨.of_not ?_, fun hin => hin.elim⟩
    cases k with
    | received numOfBytes => exact absurd rfl (hk numOfBytes rfl)
    | _ => grind [enterStep, SessionPc.InProcessRecv]
  · by_cases hin : p.InProcessRecv
    · cases p with
      | processRecv q =>
          cases q with
          | clearOwner numOfBytes =>
              cases hnext
              exact ⟨h, fun _ => .inr trivial⟩
          | check numOfBytes =>
              have hlen : arrived.length = numOfBytes := h
              cases hnext
              by_cases hzero : numOfBytes = 0
              · rw [if_pos hzero]
                exact ⟨trivial, fun _ => .inl (List.length_eq_zero_iff.mp (hlen.trans hzero))⟩
              · rw [if_neg hzero]
                exact ⟨fun hnil => hzero (hlen.symm.trans (List.length_eq_zero_iff.mpr hnil)),
                  fun _ => .inr trivial⟩
          | onRecv => exact absurd rfl hp
      | _ => exact hin.elim
    · exact ⟨.of_not (nextStep_not_inProcessRecv hin hnext), fun h => absurd h hin⟩

end enters

section flow

variable {frames : List Bytes} {s : Processes τ (PeerShared τ) (SessionPc Bytes)} {t : τ}

omit [DecidableEq τ] in
/-- The stream goes on. -/
theorem Flow.extend (h : Flow frames s) {more : List Bytes}
    (hmore : ∀ f ∈ more, packetFraming.WellFormed f) :
    Flow (frames ++ more) (receive s more.flatten) where
  cut := by
    obtain ⟨n, hcut, hpackets⟩ := h.cut
    refine ⟨n, hcut.extend fun f hf => (hmore f hf).ne_nil packetHeaderSize_pos, ?_⟩
    rw [List.take_append_of_le_length hcut.le]
    exact hpackets
  stream := by
    rw [List.flatten_append, ← h.stream]
    simp only [receive, List.append_assoc]
  size := h.size
  room := h.room
  fits := h.fits
  accepted := h.accepted
  known := h.known
  pending := h.pending

omit [DecidableEq τ] in
/-- **`ProcessRecv` hands over** the packets that what has arrived completes, and comes back. -/
theorem Flow.process (h : Flow frames s) (hframes : ∀ f ∈ frames, packetFraming.WellFormed f)
    (ht : s.pc t = .processRecv .onRecv) :
    ∃ x packets, Session.processRecv ⟨s.shared.recvBuffer, true⟩ s.shared.arrived = (x, some packets) ∧
      x.connected = true ∧
      (∃ n, Framing.Cut frames ((s.shared.packets ++ packets).flatten ++ x.recvBuffer.unread) n
        x.recvBuffer.unread ∧ s.shared.packets ++ packets = frames.take n) ∧
      (s.shared.packets ++ packets).flatten ++ x.recvBuffer.unread ++ s.shared.inbound = frames.flatten ∧
      x.recvBuffer.bufferSize = Session.bufferSize ∧ Session.bufferSize ≤ x.recvBuffer.freeSize := by
  obtain ⟨n, hcut, hpackets⟩ := h.cut
  have hne : s.shared.arrived ≠ [] := by
    have hknown := h.known t
    rw [ht] at hknown
    exact hknown
  have hstream : s.shared.packets.flatten ++ s.shared.recvBuffer.unread ++ s.shared.arrived <+:
      frames.flatten := ⟨s.shared.inbound, h.stream⟩
  -- what was left over and what has arrived are cut into packets of their own
  obtain ⟨k, rest, hnext⟩ := Framing.exists_cut (hcut.append_belongs hstream)
  have htaken : ∀ f ∈ (frames.drop n).take k, packetFraming.WellFormed f := fun f hf =>
    hframes f (List.mem_of_mem_drop (List.mem_of_mem_take hf))
  have hcut' := hcut.append hnext
  have hrest := length_rest_le hcut' hframes
  rw [← h.size] at hrest
  obtain ⟨x, hstep, hunread, hconnected, hsize, hroom⟩ :=
    processRecv_eq (s := ⟨s.shared.recvBuffer, true⟩) hne h.fits hnext.received_eq htaken
      (hcut'.incomplete packetHeaderSize_pos hframes) hrest
  have hall : (s.shared.packets ++ (frames.drop n).take k).flatten ++ x.recvBuffer.unread =
      s.shared.packets.flatten ++ s.shared.recvBuffer.unread ++ s.shared.arrived := by
    have hdata := hnext.received_eq
    rw [List.flatten_append, List.append_assoc, hunread, ← hdata, List.append_assoc]
  refine ⟨x, _, hstep, hconnected, ⟨n + k, ?_, ?_⟩, ?_, hsize.trans h.size, ?_⟩
  · rw [hall, hunread]
    exact hcut'
  · rw [hpackets, List.take_add]
  · rw [hall]
    exact h.stream
  · rw [← h.size]
    exact hroom

variable {k : SessionChoice Bytes} {s' : PeerShared τ} {p' : SessionPc Bytes}

/-- The threads of the session. -/
def session (s : Processes τ (PeerShared τ) (SessionPc Bytes)) :
    Processes τ (SessionShared τ Bytes) (SessionPc Bytes) :=
  ⟨s.shared.session, s.pc⟩

/-- **The step lemma** of the stream. -/
theorem Flow.update (h : Flow frames s) (htoken : ReceiveToken (session s))
    (hframes : ∀ f ∈ frames, packetFraming.WellFormed f)
    (hcase : PeerCase t s.shared (s.pc t) k s' p') :
    Flow frames ⟨s', Function.update s.pc t p'⟩ := by
  cases hcase with
  | @arrives shared _ numOfBytes hp hk hle hroom hact =>
      rcases sessionAct_eq_some hact with ⟨-, henter⟩ | ⟨r, hr, -⟩
      · obtain ⟨hpos, heq⟩ := Option.ite_none_left_eq_some.mp henter
        cases heq
        have hidle : ∀ u, ¬ (s.pc u).InProcessRecv := htoken.idle hpos
        have hnone : s.shared.arrived = [] :=
          h.pending.resolve_right fun ⟨u, hu⟩ => hidle u hu
        have hlen : (s.shared.inbound.take numOfBytes).length = numOfBytes := List.length_take_of_le hle
        refine ⟨h.cut, ?_, h.size, h.room, hlen.trans_le hroom, h.accepted, ?_, .inr ⟨t, ?_⟩⟩
        · have hstream := h.stream
          rw [hnone, List.append_nil] at hstream
          simp only [← hstream, List.append_assoc, List.take_append_drop]
        · rw [Function.forall_update_iff s.pc fun _ p => p.Knows (s.shared.inbound.take numOfBytes)]
          exact ⟨hlen, fun u _ => .of_not (hidle u)⟩
        · simp only [Function.update_self]
          trivial
      · cases hr
  | @processed shared _ x packets hp hprocess hact =>
      obtain ⟨x', packets', hprocess', hconnected, hcut, hstream, hsize, hroom⟩ := h.process hframes hp
      obtain ⟨rfl, hpackets⟩ := Prod.mk.inj (hprocess.symm.trans hprocess')
      obtain rfl := Option.some.inj hpackets
      have hin : (s.pc t).InProcessRecv := by
        rw [hp]
        trivial
      have houtside : ¬ p'.InProcessRecv := by
        rw [hp] at hact
        rcases sessionAct_eq_some hact with ⟨hout, -⟩ | ⟨r, -, hnext⟩
        · cases hout
        · cases hnext
          split <;> exact id
      refine ⟨hcut, ?_, hsize, hroom, Nat.zero_le _, ?_, ?_, .inl rfl⟩
      · simp only [List.append_nil]
        exact hstream
      · simp only [h.accepted, hconnected, Bool.not_true, Bool.or_false]
      · rw [Function.forall_update_iff s.pc fun _ p => p.Knows []]
        exact ⟨.of_not houtside, fun u hu => .of_not (htoken.alone (s := session s) hin hu)⟩
  | other hk hp hact =>
      obtain ⟨hknows, hkeep⟩ := (h.known t).step hp hk hact
      refine ⟨h.cut, h.stream, h.size, h.room, h.fits, h.accepted, ?_, ?_⟩
      · rw [Function.forall_update_iff s.pc fun _ p => p.Knows s.shared.arrived]
        exact ⟨hknows, fun u _ => h.known u⟩
      · rcases h.pending with hnone | ⟨u, hu⟩
        · exact .inl hnone
        · by_cases hut : u = t
          · subst hut
            refine (hkeep hu).imp_right fun hin => ⟨u, ?_⟩
            simpa only [Function.update_self] using hin
          · refine .inr ⟨u, ?_⟩
            simpa only [Function.update_of_ne hut] using hu

end flow

/-! ## Both sides -/

/-- The invariant of one side. -/
structure PeerInv (s : Processes τ (PeerShared τ) (SessionPc Bytes)) : Prop where
  pipeline : PipelineInv (session s)
  token : ReceiveToken (session s)
  taken : s.shared.taken.Sublist s.shared.session.handed

/-- The invariant of both: as long as one side sends packets, the other one is handed them. -/
def PeersInv (s : Peers τ) : Prop :=
  ∀ b, PeerInv (s b) ∧ ((∀ f ∈ (s !b).shared.taken.flatten, packetFraming.WellFormed f) →
    Flow (s !b).shared.taken.flatten (s b))

section inv

variable {t : τ} {p p' : SessionPc Bytes} {k : SessionChoice Bytes}

omit [DecidableEq τ] in
/-- What is passed to `WSASend` stays in the log. -/
theorem PipelineStep.handed_append {s s' : SessionShared τ Bytes} (h : PipelineStep s p s' p') :
    ∃ more, s'.handed = s.handed ++ more := by
  cases h with
  | quiet hsame => exact ⟨[], by rw [hsame.handed, List.append_nil]⟩
  | dropped hsame => exact ⟨[], by rw [hsame.handed, List.append_nil]⟩
  | began hsame => exact ⟨[], by rw [hsame.handed, List.append_nil]⟩
  | posted wsaBufs => exact ⟨[wsaBufs], rfl⟩
  | refused wsaBufs => exact ⟨[wsaBufs], rfl⟩
  | _ => exact ⟨[], (List.append_nil _).symm⟩

/-- What `WSASend` takes was passed to it. -/
theorem takenBy_sublist {s s' : SessionShared τ Bytes} {o : Unit}
    (h : sessionAct t s p k = some (s', p', o)) :
    ∃ more, s'.handed = s.handed ++ more ∧ (takenBy p k).Sublist more := by
  obtain ⟨more, hmore⟩ := (pipelineStep h).handed_append
  unfold takenBy
  split
  · rename_i nested wsaBufs r
    split
    · rename_i herror
      rcases sessionAct_eq_some h with ⟨hout, -⟩ | ⟨r', hr, hnext⟩
      · cases hout
      · cases hr
        simp only [nextStep, registerSendStep, herror] at hnext
        cases hnext
        exact ⟨[wsaBufs], rfl, .refl _⟩
    · exact ⟨more, hmore, List.nil_sublist _⟩
  · exact ⟨more, hmore, List.nil_sublist _⟩

/-- A step adds to what was taken what it passes to `WSASend`. -/
theorem PeerCase.taken_eq {s s' : PeerShared τ} (h : PeerCase t s p k s' p') :
    s'.taken = s.taken ++ takenBy p k := by
  cases h with
  | arrives numOfBytes hp =>
      subst hp
      exact (List.append_nil _).symm
  | processed hp =>
      subst hp
      exact (List.append_nil _).symm
  | other => rfl

/-- What was taken has been handed over. -/
theorem PeerCase.taken_sublist {s s' : PeerShared τ} (h : PeerCase t s p k s' p')
    (hs : s.taken.Sublist s.session.handed) : s'.taken.Sublist s'.session.handed := by
  cases h with
  | arrives numOfBytes hp hk hle hroom hact =>
      obtain ⟨more, hmore⟩ := (pipelineStep hact).handed_append
      rw [hmore]
      exact hs.trans (List.sublist_append_left _ _)
  | processed hp hprocess hact =>
      obtain ⟨more, hmore⟩ := (pipelineStep hact).handed_append
      rw [hmore]
      exact hs.trans (List.sublist_append_left _ _)
  | other hk hp hact =>
      obtain ⟨more, hmore, htaken⟩ := takenBy_sublist hact
      rw [hmore]
      exact hs.append htaken

/-- A step keeps the invariant of its side. -/
theorem PeerInv.update {s : Processes τ (PeerShared τ) (SessionPc Bytes)} (h : PeerInv s)
    {s' : PeerShared τ} (hcase : PeerCase t s.shared (s.pc t) k s' p') :
    PeerInv ⟨s', Function.update s.pc t p'⟩ := by
  obtain ⟨k', hact⟩ := hcase.act
  exact ⟨h.pipeline.update (pipelineStep hact), h.token.update hact, hcase.taken_sublist h.taken⟩

/-- **The step lemma** of both sides. -/
theorem PeersInv.step {s : Peers τ} (h : PeersInv s) (e : Bool × τ × SessionChoice Bytes) :
    PeersInv ((peers τ).step s e).1 := by
  obtain ⟨b, t, k⟩ := e
  rcases hact : peerAct t (s b).shared ((s b).pc t) k with _ | ⟨shared, p', o⟩
  · simp only [peers, hact]
    exact h
  · have hcase := peerCase hact
    obtain ⟨hself, hflow⟩ := h b
    obtain ⟨hother, hflow'⟩ := h !b
    rw [Bool.not_not] at hflow'
    simp only [peers, hact]
    generalize hmoved : (⟨shared, Function.update (s b).pc t p'⟩ : Processes τ (PeerShared τ) _) = moved
    have hmoved_taken : moved.shared.taken = (s b).shared.taken ++ takenBy ((s b).pc t) k := by
      rw [← hmoved]
      exact hcase.taken_eq
    intro c
    rcases Bool.eq_or_eq_not c b with rfl | rfl
    · -- the side that moves
      rw [Function.update_self, Function.update_of_ne (Bool.not_ne_self c), Function.update_self]
      rw [← hmoved]
      exact ⟨hself.update hcase, fun hframes => (hflow hframes).update hself.token hframes hcase⟩
    · -- the side that listens
      rw [Bool.not_not, Function.update_self, Function.update_of_ne (Bool.not_ne_self b),
        Function.update_self, hmoved_taken, List.flatten_append]
      refine ⟨⟨hother.pipeline, hother.token, hother.taken⟩, fun hframes => ?_⟩
      exact (hflow' fun f hf => hframes f (List.mem_append_left _ hf)).extend fun f hf =>
        hframes f (List.mem_append_right _ hf)

end inv

/-! ## Runs -/

omit [DecidableEq τ] in
/-- At the start nothing has flowed. -/
theorem flow_init (b : Bool) : Flow [] (peersInit τ b) where
  cut := ⟨0, Framing.cut_nil fun f hf => absurd hf List.not_mem_nil, rfl⟩
  stream := rfl
  size := rfl
  room := by
    show Session.bufferSize ≤ Session.bufferSize * bufferCount - 0
    decide
  fits := Nat.zero_le _
  accepted := rfl
  known _ := trivial
  pending := .inl rfl

/-- The invariant holds after every run of the two peers. -/
theorem peersInv_run (events : List (Bool × τ × SessionChoice Bytes)) :
    PeersInv ((peers τ).exec (peersInit τ) events) := by
  refine (peers τ).exec_invariant (fun b => ⟨⟨pipelineInv_run [], ?_, List.Sublist.refl _⟩, fun _ => ?_⟩)
    (fun s e h => h.step e) events
  · refine ⟨⟨Nat.zero_le 1, fun _ => rfl⟩, fun t hpath => ?_, fun t u _ hboth => ?_⟩
    · exact hpath.elim (fun h => by cases h) fun h => h.elim
    · exact hboth.1.elim (fun h => by cases h) fun h => h.elim
  · exact flow_init b

/-- **Two peers deliver.** However the threads of the two sides interleave and however the stream is cut: as
long as one side sends packets, the other one never refuses what arrives, `ProcessRecv` always comes back,
and `OnRecvPacket` gets, in order and each once, the packets that `WSASend` took. These are the ones that
were sent, in the order of their entering the queue, but for whole lists that `WSASend` refused. When nothing
is on its way any more, all of them have been handed over. -/
theorem peers_deliver (events : List (Bool × τ × SessionChoice Bytes)) (b : Bool)
    (hframes : ∀ f ∈ ((peers τ).exec (peersInit τ) events b).shared.session.pushed,
      packetFraming.WellFormed f) :
    let sender := ((peers τ).exec (peersInit τ) events b).shared
    let receiver := (peers τ).exec (peersInit τ) events !b
    receiver.shared.packets <+: sender.taken.flatten ∧
      sender.taken.Sublist sender.session.handed ∧
      sender.session.handed.flatten <+: sender.session.pushed ∧
      (sender.taken.length = sender.session.handed.length →
        receiver.shared.packets <+: sender.session.pushed) ∧
      receiver.shared.refused = false ∧
      (∀ t, receiver.pc t = .processRecv .onRecv → ∃ x packets,
        Session.processRecv ⟨receiver.shared.recvBuffer, true⟩ receiver.shared.arrived =
          (x, some packets)) ∧
      (receiver.shared.inbound = [] → (∀ t, ¬ (receiver.pc t).InProcessRecv) →
        receiver.shared.packets = sender.taken.flatten) := by
  intro sender receiver
  have hinv := peersInv_run events
  have hsender : PeerInv ((peers τ).exec (peersInit τ) events b) := (hinv b).1
  have hhanded : sender.session.handed.flatten <+: sender.session.pushed := hsender.pipeline.shared.handed
  have hsub : sender.taken.flatten.Sublist sender.session.pushed :=
    hsender.taken.flatten.trans hhanded.sublist
  have htaken : ∀ f ∈ sender.taken.flatten, packetFraming.WellFormed f := fun f hf =>
    hframes f (hsub.subset hf)
  have hflow : Flow sender.taken.flatten receiver := by
    have hboth := (hinv !b).2
    rw [Bool.not_not] at hboth
    exact hboth htaken
  obtain ⟨n, hcut, hpackets⟩ := hflow.cut
  have hpre : receiver.shared.packets <+: sender.taken.flatten := by
    rw [hpackets]
    exact List.take_prefix _ _
  refine ⟨hpre, hsender.taken, hhanded, fun hall => ?_, hflow.accepted, fun t ht => ?_,
    fun hinbound hidle => ?_⟩
  · have hsame : sender.taken = sender.session.handed := hsender.taken.eq_of_length hall
    rw [hsame] at hpre
    exact hpre.trans hhanded
  · obtain ⟨x, packets, hprocess, -⟩ := hflow.process htaken ht
    exact ⟨x, packets, hprocess⟩
  · have hnone : receiver.shared.arrived = [] :=
      hflow.pending.resolve_right fun ⟨t, ht⟩ => hidle t ht
    have hstream := hflow.stream
    rw [hnone, hinbound, List.append_nil, List.append_nil] at hstream
    rw [hstream] at hcut
    rw [hpackets, hcut.eq_length.1, List.take_length]

/-- A thread hands over what `ProcessRecv` has found, and goes on in `RegisterRecv`. -/
theorem peers_step_processed {s : Peers τ} {b : Bool} {t : τ} {r : CallResult} {x : Session}
    {packets : List Bytes} (hpc : (s b).pc t = .processRecv .onRecv)
    (hcrashed : (s b).shared.session.crashed = false)
    (hprocess : Session.processRecv ⟨(s b).shared.recvBuffer, true⟩ (s b).shared.arrived =
      (x, some packets)) (hconn : x.connected = true) :
    (((peers τ).step s (b, t, .next r)).1 b).pc = Function.update (s b).pc t (.registerRecv .check) ∧
      (((peers τ).step s (b, t, .next r)).1 b).shared.inbound = (s b).shared.inbound ∧
      (((peers τ).step s (b, t, .next r)).1 !b).shared.taken = (s !b).shared.taken ∧
      (((peers τ).step s (b, t, .next r)).1 !b).shared.session = (s !b).shared.session := by
  simp [peers, peerAct, hpc, hprocess, Session.outcome, hconn, sessionAct, hcrashed, nextStep,
    processRecvStep, receive]

/-- Both sides connect, one sends two packets, and the other one is about to work on both. -/
def packetRun : List (Bool × Unit × SessionChoice Bytes) :=
  let side (b : Bool) (k : SessionChoice Bytes) (n : ℕ) :=
    (b, (), k) :: List.replicate n (b, (), .next .ok)
  side true .connected 6 ++ side false .connected 6 ++ side true (.send [4, 0, 7, 0]) 13 ++
    side true (.sent 4) 8 ++ side true (.send [5, 0, 8, 0, 1]) 13 ++ side false (.received 9) 2

/-- Both packets are handed over. -/
theorem peers_deliver_packetRun :
    ((peers Unit).exec (peersInit Unit) (packetRun ++ [(!true, (), .next .ok)]) !true).shared.packets =
      [[4, 0, 7, 0], [5, 0, 8, 0, 1]] := by
  generalize hbefore : (peers Unit).exec (peersInit Unit) packetRun = s
  have hafter : (peers Unit).exec (peersInit Unit) (packetRun ++ [(!true, (), .next .ok)]) =
      ((peers Unit).step s (!true, (), .next .ok)).1 := by
    rw [Transducer.exec_append, hbefore, Transducer.exec_cons, Transducer.exec_nil]
  have hpc : (s !true).pc () = .processRecv .onRecv := by
    rw [← hbefore]
    decide +kernel
  have hcrashed : (s !true).shared.session.crashed = false := by
    rw [← hbefore]
    decide +kernel
  have harrived : (s !true).shared.arrived = [4, 0, 7, 0, 5, 0, 8, 0, 1] := by
    rw [← hbefore]
    decide +kernel
  have hroom : 9 ≤ (s !true).shared.recvBuffer.freeSize := by
    rw [← hbefore]
    decide +kernel
  have hempty : (s !true).shared.recvBuffer.dataSize = 0 := by
    rw [← hbefore]
    decide +kernel
  have htaken : (s true).shared.taken = [[[4, 0, 7, 0]], [[5, 0, 8, 0, 1]]] := by
    rw [← hbefore]
    decide +kernel
  have hpushed : (s true).shared.session.pushed = [[4, 0, 7, 0], [5, 0, 8, 0, 1]] := by
    rw [← hbefore]
    decide +kernel
  have hinbound : (s !true).shared.inbound = [] := by
    rw [← hbefore]
    decide +kernel
  have hne : (s !true).shared.arrived ≠ [] := by
    rw [harrived]
    exact List.cons_ne_nil _ _
  have hfits : (s !true).shared.arrived.length ≤ (s !true).shared.recvBuffer.freeSize := by
    rw [harrived]
    exact hroom
  have hdata : (s !true).shared.recvBuffer.unread ++ (s !true).shared.arrived =
      [[4, 0, 7, 0], [5, 0, 8, 0, 1]].flatten ++ [] := by
    have hunread : (s !true).shared.recvBuffer.unread = [] := by
      rw [← List.length_eq_zero_iff, RecvBuffer.length_unread, hempty]
    rw [hunread, harrived]
    rfl
  obtain ⟨x, hprocess, -, hconn, -⟩ := processRecv_eq (s := ⟨(s !true).shared.recvBuffer, true⟩) hne
    hfits hdata (by decide) (.inl (by decide)) (Nat.zero_le _)
  obtain ⟨hpc', hinbound', htaken', hsession⟩ :=
    peers_step_processed (r := .ok) hpc hcrashed hprocess hconn
  rw [Bool.not_not] at htaken' hsession
  obtain ⟨-, -, -, -, -, -, hall⟩ := peers_deliver (packetRun ++ [(!true, (), .next .ok)]) true (by
    rw [hafter, hsession, hpushed]
    decide)
  rw [hall (by rw [hafter, hinbound', hinbound]) fun t => ?_]
  · rw [hafter, htaken', htaken]
    rfl
  · rw [hafter, hpc', Function.update_self]
    exact id

end CowboyPoker.ServerCore
