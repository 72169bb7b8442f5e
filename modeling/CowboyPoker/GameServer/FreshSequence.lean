import CowboyPoker.GameServer.SequenceFilter
import CowboyPoker.GameServer.UserIds

/-!
# What a handshake does to the sequence filter

A handshake from an address that has a session already gets the context of that session again, with the
sequence number that was accepted last. A client that counts from one after the handshake is ignored
until it is above that number.

* `HelloFrom`, `Acknowledged` — a handshake of an address that is processed and acknowledged.
* `FreshDatagrams` — what a client sends after it: datagrams with the acknowledged id, numbered from one.
* `FreshSequence` — the server dispatches all of them.
* `OpenSession` — the context of an address, which every step but a removal keeps; the number accepted
  last changes with the datagrams of the address only.
* `freshSequence_iff` — a handshake opens a fresh sequence just when the address had no session, or one
  that had accepted no number.
-/

namespace CowboyPoker.GameServer

open CowboyPoker.Found
open CowboyPoker.ServerCore
open UdpService

/-! ## A handshake, and what follows it -/

/-- A well-formed `C_UDP_HELLO` of `addr`: no session id, and a user in the payload. -/
structure HelloFrom (addr : SockAddrIn) (d : Datagram) : Prop where
  senderAddr : d.senderAddr = addr
  header : udpPacketHeaderSize ≤ d.data.length
  sessionId : d.header.sessionId = 0
  user : (helloUser d.data d.data.length).isSome

/-- No context of another address is filed under the key of `addr`. -/
def KeyFree (s : UdpService) (addr : SockAddrIn) : Prop :=
  ∀ r, s.addrMap.lookup (sockAddrKey addr) = some r → (s.heap r).addr = addr

/-- The step that a server takes on a datagram acknowledges the id to the sender, and the process runs
on. -/
structure Acknowledged (addr : SockAddrIn) (sessionId : UInt64) {ρ : Type} (out : Server ρ × Output) :
    Prop where
  sent : (addr, .udpHandshakeAck sessionId) ∈ out.2.sent
  runs : out.1.fault = none

/-- An input that may end a session. -/
def Event.Removes : Event → Prop
  | .mainLoop _ => True
  | .removeClient _ => True
  | .tick _ => True
  | _ => False

/-- The sequence number of a datagram of `addr` with the session id. -/
def sessionSequence (addr : SockAddrIn) (sessionId : UInt64) : Event → Option UInt32
  | .recv d _ _ =>
      if d.senderAddr = addr ∧ d.header.sessionId = sessionId then some d.header.sequence else none
  | _ => none

/-- What happens after a handshake: no session ends, every datagram of `addr` has a header with the
session id or without one, and those with it are numbered `1`, …, `n`, where `n < 2 ^ 32`. The datagrams
of other addresses and the calls of other threads come at any place. -/
structure FreshDatagrams (addr : SockAddrIn) (sessionId : UInt64) (es : List Event) : Prop where
  keeps : ∀ e ∈ es, ¬ e.Removes
  own : ∀ d now later, .recv d now later ∈ es → d.senderAddr = addr →
    udpPacketHeaderSize ≤ d.data.length ∧ (d.header.sessionId = sessionId ∨ d.header.sessionId = 0)
  numbered : ∃ n < 2 ^ 32, es.filterMap (sessionSequence addr sessionId) =
    (List.range n).map fun i => UInt32.ofNat (i + 1)

variable {ρ : Type}

/-- **The law.** After the handshake that led to `s`, every numbered datagram that the process receives is
dispatched. -/
def FreshSequence (B : Backend ρ) (s : Server ρ) (addr : SockAddrIn) (sessionId : UInt64) : Prop :=
  ∀ es, FreshDatagrams addr sessionId es → ∀ t ∈ (server B).trace s es, ∀ d now later,
    t.input = .recv d now later → d.senderAddr = addr → d.header.sessionId = sessionId →
      t.before.fault = none → t.output.dispatched ≠ none

variable {B : Backend ρ} {s : Server ρ} {addr : SockAddrIn} {r : UdpClientContextRef}

/-! ## The context of an address -/

/-- The context at `r` is filed under the key of `addr`, and has that address. -/
structure OpenSession (addr : SockAddrIn) (r : UdpClientContextRef) (s : UdpService) : Prop where
  allocated : Allocated s
  filed : s.addrMap.lookup (sockAddrKey addr) = some r
  addr_eq : (s.heap r).addr = addr

namespace OpenSession

theorem lt_next {s : UdpService} (h : OpenSession addr r s) : r < s.next := h.allocated _ r h.filed

theorem findByAddr {s : UdpService} (h : OpenSession addr r s) : s.findByAddr addr = some r :=
  findByAddr_eq_some_iff.mpr ⟨h.filed, h.addr_eq⟩

/-- A registration keeps the context. -/
theorem registerClient {s : UdpService} (h : OpenSession addr r s) (addr' : SockAddrIn) (now : ℤ) :
    OpenSession addr r (s.registerClient addr' now).2 := by
  refine ⟨h.allocated.registerClient _ _, ?_, (registerClient_attrs _ _ h.lt_next).2.trans h.addr_eq⟩
  rcases hlook : s.addrMap.lookup (sockAddrKey addr') with _ | r₀
  · rw [registerClient_of_none hlook]
    refine lookup_insert_eq_some_iff.mpr (.inr ⟨fun hkey => ?_, h.filed⟩)
    rw [← hkey, h.filed] at hlook
    cases hlook
  · rw [registerClient_of_some hlook]
    exact h.filed

/-- So does a datagram that arrives. -/
theorem arrives {s service : UdpService} {d : Datagram} {now : ℤ} {r' : UdpClientContextRef}
    (h : OpenSession addr r s) (harr : Arrives s d now r' service) : OpenSession addr r service := by
  cases harr with
  | handshake => exact h.registerClient _ _
  | sequenced hlen hid hfind hseq =>
      refine ⟨h.allocated, h.filed, ?_⟩
      exact ((Arrives.sequenced hlen hid hfind hseq).attrs h.lt_next).2.trans h.addr_eq

/-- So does a handler. -/
theorem handled {service : UdpService} {d : Datagram} {later : ℤ} {r' : UdpClientContextRef}
    (h : OpenSession addr r service) :
    OpenSession addr r (Server.handled B s d later r' service).1.service := by
  refine ⟨h.allocated, h.filed, ?_⟩
  by_cases hr : r = r'
  · subst hr
    exact (Server.handled_heap_self B s d later r service).2.trans h.addr_eq
  · rw [Server.handled_heap_of_ne hr]
    exact h.addr_eq

/-- **What a step does to a session** that it does not end: the context stays, and so does the number
accepted last, unless a datagram of the address with a session id replaces it. -/
theorem step (h : OpenSession addr r s.service) {e : Event} (hkeeps : ¬ e.Removes) :
    OpenSession addr r (s.step B e).1.service ∧
      (((s.step B e).1.service.heap r).lastSeq = (s.service.heap r).lastSeq ∨
        ∃ d now later, e = .recv d now later ∧ d.senderAddr = addr ∧ d.header.sessionId ≠ 0 ∧
          ((s.step B e).1.service.heap r).lastSeq = d.header.sequence) := by
  by_cases hfault : s.fault ≠ none
  · rw [step_of_fault e hfault]
    exact ⟨h, .inl rfl⟩
  have hfault := not_not.mp hfault
  cases e with
  | recv d now later =>
      rcases recv_cases B s d now later with heq | ⟨r', service, -, harr, heq⟩
      · rw [heq]
        exact ⟨h, .inl rfl⟩
      · rw [heq]
        refine ⟨(h.arrives harr).handled, ?_⟩
        by_cases hr : r = r'
        · subst hr
          have hlast : ((Server.handled B s d later r service).1.service.heap r).lastSeq =
              (service.heap r).lastSeq := by
            simp only [Server.handled, modifyCtx_heap_self]
            exact (Server.handled_spec B s d later r service).lastSeq
          rw [hlast]
          cases harr with
          | handshake => exact .inl (registerClient_lastSeq h.lt_next)
          | sequenced _ hid hfind =>
              refine .inr ⟨d, now, later, rfl, ?_, hid, ?_⟩
              · exact (findByAddr_eq_some_iff.mp hfind).2.symm.trans h.addr_eq
              · rw [modifyCtx_heap_self]
        · rw [Server.handled_heap_of_ne hr, harr.heap_of_ne hr]
          exact .inl rfl
  | registerClient addr' now =>
      rw [step_registerClient hfault]
      exact ⟨h.registerClient addr' now, .inl (registerClient_lastSeq h.lt_next)⟩
  | findByAddr addr' =>
      have heq : (s.step B (.findByAddr addr')).1 = s := by
        rw [Server.step, if_neg (by rw [hfault]; exact Bool.false_ne_true)]
      rw [heq]
      exact ⟨h, .inl rfl⟩
  | findById id =>
      have heq : (s.step B (.findById id)).1 = s := by
        rw [Server.step, if_neg (by rw [hfault]; exact Bool.false_ne_true)]
      rw [heq]
      exact ⟨h, .inl rfl⟩
  | mainLoop now => exact absurd trivial hkeeps
  | removeClient id => exact absurd trivial hkeeps
  | tick now => exact absurd trivial hkeeps

end OpenSession

/-! ## Runs -/

section runs

variable {sessionId : UInt64} {es : List Event}

/-- The numbers `1`, …, `n` increase, and none is zero. -/
theorem numbers_pairwise {n : ℕ} (hn : n < 2 ^ 32) :
    (0 :: (List.range n).map fun i => UInt32.ofNat (i + 1)).Pairwise (· < ·) := by
  have htoNat : ∀ i < n, (UInt32.ofNat (i + 1)).toNat = i + 1 := fun i hi =>
    UInt32.toNat_ofNat_of_lt' (by rw [UInt32.size]; omega)
  refine List.pairwise_cons.mpr ⟨fun q hq => ?_, ?_⟩
  · obtain ⟨i, hi, rfl⟩ := List.mem_map.mp hq
    rw [UInt32.lt_iff_toNat_lt, htoNat i (List.mem_range.mp hi)]
    exact Nat.succ_pos i
  · refine List.pairwise_map.mpr (List.pairwise_lt_range.imp_of_mem fun {i j} hi hj hij => ?_)
    rw [UInt32.lt_iff_toNat_lt, htoNat i (List.mem_range.mp hi), htoNat j (List.mem_range.mp hj)]
    exact Nat.succ_lt_succ hij

/-- In a session that had accepted no number, the number accepted last is one that the client has sent
since. -/
theorem OpenSession.lastSeq_run (h : OpenSession addr r s.service)
    (hlast : (s.service.heap r).lastSeq = 0) (hkeeps : ∀ e ∈ es, ¬ e.Removes)
    (hown : ∀ d now later, .recv d now later ∈ es → d.senderAddr = addr →
      d.header.sessionId = sessionId ∨ d.header.sessionId = 0) :
    OpenSession addr r ((server B).exec s es).service ∧
      (((server B).exec s es).service.heap r).lastSeq ∈
        (0 : UInt32) :: es.filterMap (sessionSequence addr sessionId) := by
  have hinv : OpenSession addr r ((server B).exec s es).service ∧
      ((((server B).exec s es).service.heap r).lastSeq = 0 ∨ ∃ t ∈ (server B).trace s es,
        sessionSequence addr sessionId t.input =
          some (((server B).exec s es).service.heap r).lastSeq) := by
    refine (server B).history_invariant (C := fun t => t.input ∈ es)
      (J := fun history s' => OpenSession addr r s'.service ∧
        ((s'.service.heap r).lastSeq = 0 ∨ ∃ t ∈ history,
          sessionSequence addr sessionId t.input = some (s'.service.heap r).lastSeq))
      ⟨h, .inl hlast⟩ ?_ es fun t ht => ?_
    · rintro history s' e ⟨hopen, hseq⟩ he
      obtain ⟨hopen', hsame | ⟨d, now, later, rfl, hsender, hid, hnew⟩⟩ := hopen.step (hkeeps e he)
      · refine ⟨hopen', ?_⟩
        rw [show ((server B).step s' e).1 = (s'.step B e).1 from rfl, hsame]
        rcases hseq with hzero | ⟨t, ht, hseq⟩
        · exact .inl hzero
        · exact .inr ⟨t, List.mem_append_left _ ht, hseq⟩
      · refine ⟨hopen', .inr ⟨_, List.mem_append_right _ (List.mem_singleton_self _), ?_⟩⟩
        show sessionSequence addr sessionId (.recv d now later) =
          some (((s'.step B (.recv d now later)).1.service.heap r).lastSeq)
        rw [hnew]
        exact if_pos ⟨hsender, (hown d now later he hsender).resolve_right hid⟩
    · obtain ⟨before, e, after, rfl, rfl⟩ := (Transducer.mem_trace_iff _).mp ht
      exact List.mem_append_right _ List.mem_cons_self
  refine ⟨hinv.1, ?_⟩
  rcases hinv.2 with hzero | ⟨t, ht, hseq⟩
  · rw [hzero]
    exact List.mem_cons_self
  · obtain ⟨before, e, after, rfl, rfl⟩ := (Transducer.mem_trace_iff _).mp ht
    exact List.mem_cons_of_mem _ (List.mem_filterMap.mpr
      ⟨e, List.mem_append_right _ List.mem_cons_self, hseq⟩)

/-- **The numbered datagrams of a fresh session** are dispatched. -/
theorem OpenSession.freshSequence (h : OpenSession addr r s.service)
    (hlast : sessionId = 0 ∨ (s.service.heap r).lastSeq = 0) : FreshSequence B s addr sessionId := by
  rintro es ⟨hkeeps, hown, n, hn, hnumbered⟩ t ht d now later hinput hsender hid hrun
  obtain ⟨before, e, after, rfl, rfl⟩ := (Transducer.mem_trace_iff _).mp ht
  obtain rfl : e = .recv d now later := hinput
  obtain ⟨hlen, -⟩ := hown d now later (List.mem_append_right _ List.mem_cons_self) hsender
  -- a datagram that arrives is dispatched
  suffices harrives : ∃ r service, Arrives ((server B).exec s before).service d now r service by
    obtain ⟨r', service, harr⟩ := harrives
    have hstep : (server B).step ((server B).exec s before) (.recv d now later) =
        Server.handled B ((server B).exec s before) d later r' service :=
      step_recv_of_arrives hrun harr
    rw [Transducer.entry_output, hstep]
    exact Option.some_ne_none _
  by_cases hzero : sessionId = 0
  · exact ⟨_, _, .handshake hlen (hid.trans hzero)⟩
  obtain ⟨hopen, hmem⟩ : OpenSession addr r ((server B).exec s before).service ∧
      (((server B).exec s before).service.heap r).lastSeq ∈
        (0 : UInt32) :: before.filterMap (sessionSequence addr sessionId) :=
    h.lastSeq_run (hlast.resolve_left hzero) (fun e he => hkeeps e (List.mem_append_left _ he))
      fun d now later he hsender => (hown d now later (List.mem_append_left _ he) hsender).2
  refine ⟨r, _, .sequenced hlen (hid ▸ hzero) (hsender ▸ hopen.findByAddr) (.inr ?_)⟩
  -- the number is above all that came before it
  have hseq : sessionSequence addr sessionId (.recv d now later) = some d.header.sequence :=
    if_pos ⟨hsender, hid⟩
  have hpairs := numbers_pairwise hn
  rw [← hnumbered, List.filterMap_append, List.filterMap_cons_some hseq, ← List.cons_append,
    List.pairwise_append] at hpairs
  exact hpairs.2.2 _ hmem _ List.mem_cons_self

/-- A datagram of `addr` with the sequence number one and no payload. -/
def firstDatagram (addr : SockAddrIn) (sessionId : UInt64) : Datagram :=
  .ofPayload addr ⟨sessionId, 1, PacketType.cLobbyHeartbeat.value⟩ [] (Nat.zero_le _)

/-- The first datagram after the handshake is all that a client sends. -/
theorem freshDatagrams_first (addr : SockAddrIn) (sessionId : UInt64) :
    FreshDatagrams addr sessionId [.recv (firstDatagram addr sessionId) 0 0] := by
  have hheader : (firstDatagram addr sessionId).header =
      ⟨sessionId, 1, PacketType.cLobbyHeartbeat.value⟩ := Datagram.header_ofPayload _
  refine ⟨fun e he => ?_, fun d now later he _ => ?_, 1, by decide, ?_⟩
  · obtain rfl := List.mem_singleton.mp he
    exact id
  · obtain ⟨rfl, -, -⟩ := Event.recv.inj (List.mem_singleton.mp he)
    refine ⟨?_, .inl (hheader ▸ rfl)⟩
    rw [firstDatagram, Datagram.ofPayload, List.length_append, UdpPacketHeader.length_encode]
    exact Nat.le_add_right _ _
  · have hseq : sessionSequence addr sessionId (.recv (firstDatagram addr sessionId) 0 0) = some 1 := by
      rw [sessionSequence, hheader]
      exact if_pos ⟨rfl, rfl⟩
    rw [List.filterMap_cons_some hseq]
    rfl

/-- **The first datagram of a session that had accepted a number** is dropped. -/
theorem OpenSession.not_freshSequence (h : OpenSession addr r s.service) (hrun : s.fault = none)
    (hid : sessionId ≠ 0) (hlast : (s.service.heap r).lastSeq ≠ 0) :
    ¬ FreshSequence B s addr sessionId := by
  have hheader : (firstDatagram addr sessionId).header =
      ⟨sessionId, 1, PacketType.cLobbyHeartbeat.value⟩ := Datagram.header_ofPayload _
  have hdrop : s.step B (.recv (firstDatagram addr sessionId) 0 0) = (s, {}) := by
    refine step_recv_of_not_arrives fun r' service harr => ?_
    cases harr with
    | handshake _ hzero =>
        rw [hheader] at hzero
        exact hid hzero
    | sequenced _ _ hfind hseq =>
        obtain rfl : r' = r := Option.some.inj (hfind.symm.trans h.findByAddr)
        rw [hheader] at hseq
        rcases hseq with hseq | hseq
        · exact absurd hseq (by decide : (1 : UInt32) ≠ 0)
        · refine hlast (UInt32.toNat_inj.mp ?_)
          have hlt : (s.service.heap r').lastSeq.toNat < 1 := UInt32.lt_iff_toNat_lt.mp hseq
          exact Nat.lt_one_iff.mp hlt
  intro hlaw
  refine hlaw _ (freshDatagrams_first addr sessionId) _ List.mem_cons_self _ _ _ rfl rfl
    (hheader ▸ rfl) hrun ?_
  exact congrArg (fun out => out.2.dispatched) hdrop

/-! ## The handshake -/

/-- What a handshake that is handled leaves: the context of the address, whose number is zero just when
the address had no context, or one whose number is zero. -/
theorem openSession_of_acknowledged {d : Datagram} {now later : ℤ} (hs : Allocated s.service)
    (hhello : HelloFrom addr d) (hfree : KeyFree s.service addr)
    (hack : Acknowledged addr sessionId (s.step B (.recv d now later))) :
    ∃ r, OpenSession addr r (s.step B (.recv d now later)).1.service ∧
      (((s.step B (.recv d now later)).1.service.heap r).lastSeq = 0 ↔
        ∀ r₀, s.service.addrMap.lookup (sockAddrKey addr) = some r₀ →
          (s.service.heap r₀).lastSeq = 0) := by
  obtain rfl := hhello.senderAddr
  rcases recv_cases B s d now later with heq | ⟨r, service, -, harr, heq⟩
  · have hsent := hack.sent
    rw [heq] at hsent
    exact absurd hsent List.not_mem_nil
  have hlast : ((Server.handled B s d later r service).1.service.heap r).lastSeq =
      (service.heap r).lastSeq := by
    simp only [Server.handled, modifyCtx_heap_self]
    exact (Server.handled_spec B s d later r service).lastSeq
  have hopen : OpenSession d.senderAddr r service :=
    ⟨harr.allocated hs, harr.addrMap_eq, harr.addr_eq hfree⟩
  refine ⟨r, heq ▸ hopen.handled, ?_⟩
  rw [heq, hlast]
  cases harr with
  | sequenced _ hid => exact absurd hhello.sessionId hid
  | handshake =>
      rcases hlook : s.service.addrMap.lookup (sockAddrKey d.senderAddr) with _ | r₀
      · rw [registerClient_of_none hlook]
        refine iff_of_true (by simp only [Function.update_self]) fun r₀ hr₀ => ?_
        cases hr₀
      · rw [registerClient_of_some hlook, modifyCtx_heap_self]
        exact ⟨fun hzero r₁ hr₁ => Option.some.inj hr₁ ▸ hzero, fun hall => hall r₀ rfl⟩

/-- The contexts filed under an address have been created, in every reachable state. -/
theorem allocated_exec (B : Backend ρ) (rc : RedisClient ρ) (es : List Event) :
    Allocated ((server B).exec (.init rc) es).service :=
  ((server B).exec_invariant (I := fun s => UserIds s.service) userIds_init
    (fun _ _ h => userIds_step h) es).allocated

/-- **When a handshake opens a fresh sequence.** In every reachable state, a handshake of an address with
a key of its own, once it is processed and acknowledged, opens a fresh sequence just when the address had
no session, or one that had accepted no number but zero. (The id `0` would be acknowledged after `2 ^ 64`
sessions; datagrams with it are not filtered.) -/
theorem freshSequence_iff (B : Backend ρ) (rc : RedisClient ρ) (before : List Event) (d : Datagram)
    (now later : ℤ) (hhello : HelloFrom addr d)
    (hfree : KeyFree ((server B).exec (.init rc) before).service addr)
    (hack : Acknowledged addr sessionId
      (((server B).exec (.init rc) before).step B (.recv d now later))) :
    FreshSequence B (((server B).exec (.init rc) before).step B (.recv d now later)).1 addr sessionId ↔
      sessionId = 0 ∨
        ∀ r, ((server B).exec (.init rc) before).service.addrMap.lookup (sockAddrKey addr) = some r →
          (((server B).exec (.init rc) before).service.heap r).lastSeq = 0 := by
  obtain ⟨r, hopen, hzero⟩ := openSession_of_acknowledged (allocated_exec B rc before) hhello hfree hack
  rw [← hzero]
  refine ⟨fun hlaw => ?_, hopen.freshSequence⟩
  by_contra hnot
  obtain ⟨hid, hlast⟩ := not_or.mp hnot
  exact hopen.not_freshSequence hack.runs hid hlast hlaw

end runs

/-! ## A second handshake -/

/-- The handshake of a client. -/
def clientHello : Datagram := numbered 0 0 .cUdpHello [0, 0] (by decide)

theorem helloFrom_clientHello : HelloFrom ⟨0x0100007F, 0x3930⟩ clientHello where
  senderAddr := rfl
  header := by decide
  sessionId := by decide
  user := by decide

/-- A server without Redis after some inputs. -/
def served (before : List Event) : Server Unit :=
  (server Backend.unreachable).exec (.init .disconnected) before

/-- A heartbeat has no payload. -/
theorem heartbeat_length : ([] : Bytes).length ≤ udpMaxPayload := Nat.zero_le _

/-- The first life of the client: a handshake, and a heartbeat with the number `7`. -/
def firstLife : List Event :=
  [.recv clientHello 0 0, .recv (numbered 1 7 .cLobbyHeartbeat [] heartbeat_length) 1 1]

theorem acknowledged_first :
    Acknowledged ⟨0x0100007F, 0x3930⟩ 1
      ((served []).step Backend.unreachable (.recv clientHello 0 0)) where
  sent := by decide
  runs := by decide

theorem acknowledged_second :
    Acknowledged ⟨0x0100007F, 0x3930⟩ 1
      ((served firstLife).step Backend.unreachable (.recv clientHello 2 2)) where
  sent := by decide
  runs := by decide

/-- The first handshake opens a fresh sequence. -/
theorem freshSequence_first :
    FreshSequence Backend.unreachable
      ((served []).step Backend.unreachable (.recv clientHello 0 0)).1 ⟨0x0100007F, 0x3930⟩ 1 :=
  (freshSequence_iff Backend.unreachable .disconnected [] clientHello 0 0 helloFrom_clientHello nofun
    acknowledged_first).mpr (.inr nofun)

/-- The second handshake is acknowledged, and the datagram with the number `1` that follows it is
dropped. -/
theorem not_freshSequence_second :
    HelloFrom ⟨0x0100007F, 0x3930⟩ clientHello ∧
      KeyFree (served firstLife).service ⟨0x0100007F, 0x3930⟩ ∧
      Acknowledged ⟨0x0100007F, 0x3930⟩ 1
        ((served firstLife).step Backend.unreachable (.recv clientHello 2 2)) ∧
      ¬ FreshSequence Backend.unreachable
        ((served firstLife).step Backend.unreachable (.recv clientHello 2 2)).1
        ⟨0x0100007F, 0x3930⟩ 1 := by
  have hlook : (served firstLife).service.addrMap.lookup (sockAddrKey ⟨0x0100007F, 0x3930⟩) =
      some 0 := by
    decide
  have hctx : ((served firstLife).service.heap 0).addr = ⟨0x0100007F, 0x3930⟩ ∧
      ((served firstLife).service.heap 0).lastSeq = 7 := by
    decide
  have hfree : KeyFree (served firstLife).service ⟨0x0100007F, 0x3930⟩ := by
    intro r hr
    obtain rfl := Option.some.inj (hlook.symm.trans hr)
    exact hctx.1
  refine ⟨helloFrom_clientHello, hfree, acknowledged_second, ?_⟩
  obtain ⟨r, hopen, hzero⟩ := openSession_of_acknowledged (allocated_exec _ _ firstLife)
    helloFrom_clientHello hfree acknowledged_second
  refine hopen.not_freshSequence acknowledged_second.runs (by decide) fun hlast => ?_
  have hseven : (7 : UInt32) = 0 := hctx.2.symm.trans (hzero.mp hlast 0 hlook)
  exact absurd hseven (by decide)

end CowboyPoker.GameServer
