import CowboyPoker.GameServer.ServerRuns

/-!
# Which context a datagram acts on

* `Isolated` — a step concerns the address it came from: a datagram is dispatched on a context of
  its sender's address, changes no registered context of another address, and is acknowledged to its
  sender; `RegisterClient` returns a context of the address it is given.
* `Collides` — a step registers an address while a context of *another* address is filed under the
  same `SockAddrKey`. `isolated_iff_not_collides`: the steps of a run are isolated exactly when none
  of them collides. `FindByAddr` compares the address behind the key, `RegisterClient` does not.
* `dispatched_by_address` — a datagram with a session id acts on the context registered for its
  sender's address; the session id itself is only compared with zero.
-/

namespace CowboyPoker.GameServer

open CowboyPoker.Found
open CowboyPoker.ServerCore
open UdpService

variable {ρ : Type} {B : Backend ρ}

/-! ## Address isolation -/

/-- The step concerns only the address it came from. -/
def Isolated (t : Entry (Server ρ) Event Output) : Prop :=
  match t.input with
  | .recv d _ _ =>
      (∀ r, t.output.dispatched = some r → (t.after.service.heap r).addr = d.senderAddr) ∧
      (∀ r, t.before.service.Registered r → (t.before.service.heap r).addr ≠ d.senderAddr →
        t.after.service.heap r = t.before.service.heap r) ∧
      (∀ id, .udpHandshakeAck id ∈ t.output.built →
        (d.senderAddr, .udpHandshakeAck id) ∈ t.output.sent ∧
          ∀ addr, (addr, .udpHandshakeAck id) ∈ t.output.sent → addr = d.senderAddr)
  | .registerClient addr _ =>
      ∀ r, t.output.result = some r → (t.after.service.heap r).addr = addr
  | _ => True

/-- The address that an input passes to `RegisterClient`, if it does. -/
def Event.registers : Event → Option SockAddrIn
  | .recv d _ _ =>
      if udpPacketHeaderSize ≤ d.data.length ∧ d.header.sessionId = 0 then some d.senderAddr
      else none
  | .registerClient addr _ => some addr
  | _ => none

/-- The step registers an address while a context of another address is filed under its key. -/
def Collides (t : Entry (Server ρ) Event Output) : Prop :=
  t.before.fault = none ∧ ∃ addr r, t.input.registers = some addr ∧
    t.before.service.addrMap.lookup (sockAddrKey addr) = some r ∧
      (t.before.service.heap r).addr ≠ addr

/-- A handshake is acknowledged to the address of the context it is handled on. -/
theorem ack_of_mem_built {s : Server ρ} {d : Datagram} {later : ℤ} {r : ℕ} {service : UdpService}
    (hr : service.Registered r) {id : UInt64}
    (hid : .udpHandshakeAck id ∈ (Server.handled B s d later r service).2.built) :
    ((service.heap r).addr, .udpHandshakeAck id) ∈ (Server.handled B s d later r service).2.sent ∧
      ∀ addr, (addr, .udpHandshakeAck id) ∈ (Server.handled B s d later r service).2.sent →
        addr = (service.heap r).addr := by
  have hreg : (Server.handled B s d later r service).1.service.Registered r :=
    Server.handled_registered_iff.mpr hr
  have haddr := (Server.handled_heap_self B s d later r service).2
  constructor
  · obtain ⟨q, hq, hfor, hsent⟩ := Server.exists_request_of_mem_built hid
    rcases perform_of_requestFor hreg hfor with heq | ⟨-, posX, posY, posZ, rot, animState, rfl⟩
    · apply hsent _
      rw [heq, hq, haddr]
      exact List.mem_singleton_self _
    · cases hq
  · intro addr hmem
    obtain ⟨q, hfor, hx⟩ := Server.exists_request_of_mem_sent hmem
    rcases perform_of_requestFor hreg hfor with heq | ⟨-, posX, posY, posZ, rot, animState, rfl⟩
    · rw [heq] at hx
      rw [← haddr]
      exact congrArg Prod.fst (List.mem_singleton.mp hx)
    · cases snd_of_mem_perform hx

/-- A step that collides is not isolated: the context it gets belongs to the other address. -/
theorem not_isolated_of_collides {s : Server ρ} {e : Event} (hs : s.service.Consistent)
    (h : Collides ((server B).entry s e)) : ¬ Isolated ((server B).entry s e) := by
  intro hiso
  obtain ⟨hfault, addr, r, hreg, hlook, hne⟩ := h
  simp only [Transducer.entry_before, Transducer.entry_input] at hfault hreg hlook hne
  have hr := hs.allocated r (hs.registered_of_addrMap hlook)
  cases e with
  | recv d now later =>
      obtain ⟨⟨hlen, hid⟩, haddr⟩ := Option.ite_none_right_eq_some.mp hreg
      cases haddr
      have harr : Arrives s.service d now _ _ := .handshake hlen hid
      rw [registerClient_of_some hlook] at harr
      simp only [Isolated, Transducer.entry, server, step_recv_of_arrives hfault harr] at hiso
      have haddr := hiso.1 r rfl
      rw [(Server.handled_heap_self ..).2, (harr.attrs hr).2] at haddr
      exact hne haddr
  | registerClient addr' now =>
      cases hreg
      have hattrs := registerClient_attrs addr now hr
      simp only [Isolated, Transducer.entry, server, step_registerClient hfault] at hiso
      apply hne
      rw [← hattrs.2]
      exact hiso r (by rw [registerClient_of_some hlook])
  | _ => cases hreg

/-- A datagram that arrives without a collision acts on a context of its sender's address. -/
theorem addr_eq_of_not_collides {s : Server ρ} {d : Datagram} {now later : ℤ} {r : ℕ}
    {service : UdpService} (hfault : s.fault = none) (harr : Arrives s.service d now r service)
    (hfree : ¬ Collides ((server B).entry s (.recv d now later))) :
    (service.heap r).addr = d.senderAddr := by
  apply harr.addr_eq
  intro r₀ hlook
  cases harr with
  | handshake hlen hid =>
      by_contra hne
      exact hfree ⟨hfault, d.senderAddr, r₀, if_pos ⟨hlen, hid⟩, hlook, hne⟩
  | sequenced _ _ hfind =>
      obtain ⟨hlook', haddr⟩ := findByAddr_eq_some_iff.mp hfind
      rw [hlook] at hlook'
      cases hlook'
      exact haddr

/-- A step that does not collide is isolated. -/
theorem isolated_of_not_collides {s : Server ρ} {e : Event} (hs : s.service.Consistent)
    (hbound : (s.step B e).1.service.next < 2 ^ 64) (hfree : ¬ Collides ((server B).entry s e)) :
    Isolated ((server B).entry s e) := by
  have hcase := stepCase B s e
  simp only [Isolated, Transducer.entry, server]
  generalize s.step B e = next at hcase hbound ⊢
  cases hcase with
  | idle result he =>
      cases e with
      | recv d now later => simp
      | registerClient addr now => simp [he addr now rfl]
      | _ => trivial
  | handled d now later r service hfault he harr =>
      subst he
      have hreg := harr.registered (harr.consistent hs hbound)
      have haddr := addr_eq_of_not_collides hfault harr hfree
      refine ⟨?_, ?_, ?_⟩
      · intro r' hr'
        cases hr'
        rw [(Server.handled_heap_self ..).2, haddr]
      · intro r' hr' hne
        have hrr' : r' ≠ r := by
          rintro rfl
          exact hne ((harr.attrs (hs.allocated r' hr')).2.symm.trans haddr)
        rw [Server.handled_heap_of_ne hrr', harr.heap_of_ne hrr']
      · intro id hid
        rw [← haddr]
        exact ack_of_mem_built hreg hid
  | registered addr now hfault he =>
      subst he
      intro r hr
      cases hr
      rcases hlook : s.service.addrMap.lookup (sockAddrKey addr) with _ | r₀
      · rw [registerClient_of_none hlook]
        simp only [Function.update_self]
      · rw [registerClient_of_some hlook]
        simp only [modifyCtx_heap_self]
        by_contra hne
        exact hfree ⟨hfault, addr, r₀, rfl, hlook, hne⟩
  | removed out _ _ _ he he' =>
      cases e with
      | recv d now later => exact absurd rfl (he d now later)
      | registerClient addr now => exact absurd rfl (he' addr now)
      | _ => trivial

/-- **Address isolation.** In a run that creates fewer than `2 ^ 64` contexts, every step is isolated
if and only if no step registers an address while a context of another address is filed under its
key. -/
theorem isolated_iff_not_collides (rc : RedisClient ρ) (es : List Event)
    (hbound : ((server B).exec (.init rc) es).service.next < 2 ^ 64) :
    (∀ t ∈ (server B).trace (.init rc) es, Isolated t) ↔
      ∀ t ∈ (server B).trace (.init rc) es, ¬ Collides t := by
  have hentry : ∀ t ∈ (server B).trace (.init rc) es, Isolated t ↔ ¬ Collides t := by
    intro t ht
    have hs := consistent_of_mem_trace ht hbound
    have hnext := lt_of_le_of_lt (next_le_exec ht) hbound
    rw [(server B).eq_entry_of_mem_trace ht] at hnext ⊢
    constructor
    · exact fun hiso hcollides => not_isolated_of_collides hs hcollides hiso
    · exact isolated_of_not_collides hs hnext
  exact ⟨fun h t ht => (hentry t ht).mp (h t ht), fun h t ht => (hentry t ht).mpr (h t ht)⟩

/-- 127.0.0.1 and 126.0.0.1 with ports whose key is the same. -/
def localAddr : SockAddrIn := ⟨0x0100007F, 0x3930⟩

/-- The other address of the pair. -/
def collidingAddr : SockAddrIn := ⟨0x0100007E, 0x3931⟩

theorem isolated_iff_not_collides_handshake :
    (∀ t ∈ (server Backend.unreachable).trace (.init .disconnected)
      [.recv (.hello localAddr [] (by decide)) 0 0], Isolated t) ↔
    ∀ t ∈ (server Backend.unreachable).trace (.init .disconnected)
      [.recv (.hello localAddr [] (by decide)) 0 0], ¬ Collides t :=
  isolated_iff_not_collides .disconnected _ (by decide)

/-- The second of two handshakes with the same key is dispatched on the context of the first, and
acknowledged to its address. -/
theorem not_isolated_of_equal_keys :
    ¬ ∀ t ∈ (server Backend.unreachable).trace (.init .disconnected)
      [.recv (.hello localAddr [] (by decide)) 0 0,
        .recv (.hello collidingAddr [] (by decide)) 5 5], Isolated t := by
  intro h
  have hsecond := h _ (List.mem_cons_of_mem _ List.mem_cons_self)
  exact absurd (hsecond.1 0 (by decide)) (by decide)

/-! ## The session id of the header -/

/-- The lookup and the filter compare the session id of the header with zero only. -/
theorem Arrives.congr {s service : UdpService} {d d' : Datagram} {now : ℤ} {r : ℕ}
    (h : Arrives s d now r service) (hid : d.header.sessionId ≠ 0) (hid' : d'.header.sessionId ≠ 0)
    (haddr : d'.senderAddr = d.senderAddr) (hlen : d'.data.length = d.data.length)
    (hdrop : d'.data.drop 8 = d.data.drop 8) : Arrives s d' now r service := by
  have hseq : d'.header.sequence = d.header.sequence := (UdpPacketHeader.read_congr hdrop).1
  cases h with
  | handshake _ hzero => exact absurd hzero hid
  | sequenced hlen' _ hfind hnew =>
      rw [← hseq]
      exact .sequenced (hlen ▸ hlen') hid' (haddr ▸ hfind) (hseq ▸ hnew)

/-- Two datagrams that differ in a session id other than zero are treated alike. -/
theorem step_recv_congr {s : Server ρ} {d d' : Datagram} {now later : ℤ}
    (hid : d.header.sessionId ≠ 0) (hid' : d'.header.sessionId ≠ 0)
    (haddr : d'.senderAddr = d.senderAddr) (hlen : d'.data.length = d.data.length)
    (hdrop : d'.data.drop 8 = d.data.drop 8) :
    s.step B (.recv d' now later) = s.step B (.recv d now later) := by
  by_cases hfault : s.fault = none
  · by_cases harr : ∃ r service, Arrives s.service d now r service
    · obtain ⟨r, service, harr⟩ := harr
      rw [step_recv_of_arrives hfault harr,
        step_recv_of_arrives hfault (harr.congr hid hid' haddr hlen hdrop)]
      simp only [Server.handled, handlePacket_congr hdrop, hlen]
    · have hnot : ∀ r service, ¬ Arrives s.service d now r service :=
        fun r service h => harr ⟨r, service, h⟩
      rw [step_recv_of_not_arrives hnot, step_recv_of_not_arrives fun r service h =>
        hnot r service (h.congr hid' hid haddr.symm hlen.symm hdrop.symm)]
  · rw [step_of_fault _ hfault, step_of_fault _ hfault]

/-- **A session id does not select a session.** In every run, a datagram whose session id is not zero
acts on the context registered for its sender's address, whatever that id is: it changes no other
context, and nothing at all happens if the address has no context. -/
theorem dispatched_by_address (rc : RedisClient ρ) (es : List Event)
    {t : Entry (Server ρ) Event Output} (ht : t ∈ (server B).trace (.init rc) es) {d : Datagram}
    {now later : ℤ} (hinput : t.input = .recv d now later) (hid : d.header.sessionId ≠ 0) :
    (t.before.service.findByAddr d.senderAddr = none → t.after = t.before ∧ t.output = {}) ∧
    (∀ r, t.output.dispatched = some r →
      t.before.service.findByAddr d.senderAddr = some r ∧
        (t.before.service.heap r).addr = d.senderAddr) ∧
    (∀ r, t.before.service.findByAddr d.senderAddr ≠ some r →
      t.after.service.heap r = t.before.service.heap r) ∧
    ∀ d' : Datagram, d'.header.sessionId ≠ 0 → d'.senderAddr = d.senderAddr →
      d'.data.length = d.data.length → d'.data.drop 8 = d.data.drop 8 →
      (server B).step t.before (.recv d' now later) = (t.after, t.output) := by
  have hstep : t.before.step B (.recv d now later) = (t.after, t.output) := by
    rw [← hinput]
    exact (server B).step_of_mem_trace ht
  rw [← show (t.before.step B (.recv d now later)).1 = t.after from congrArg Prod.fst hstep,
    ← show (t.before.step B (.recv d now later)).2 = t.output from congrArg Prod.snd hstep]
  refine ⟨?_, ?_, ?_, fun d' hid' haddr hlen hdrop => step_recv_congr hid hid' haddr hlen hdrop⟩
  · intro hnone
    have hnot : ∀ r service, ¬ Arrives t.before.service d now r service := by
      rintro r service (⟨-, hzero⟩ | ⟨-, -, hfind, -⟩)
      · exact hid hzero
      · rw [hnone] at hfind
        cases hfind
    rw [step_recv_of_not_arrives hnot]
    exact ⟨rfl, rfl⟩
  · intro r hr
    rcases recv_cases B t.before d now later with hidle | ⟨r', service, hfault, harr, heq⟩
    · rw [hidle] at hr
      cases hr
    · rw [heq] at hr
      cases hr
      have hfind := harr.findByAddr_eq hid
      exact ⟨hfind, (findByAddr_eq_some_iff.mp hfind).2⟩
  · intro r hr
    rcases recv_cases B t.before d now later with hidle | ⟨r', service, hfault, harr, heq⟩
    · rw [hidle]
    · have hne : r ≠ r' := by
        rintro rfl
        exact hr (harr.findByAddr_eq hid)
      rw [heq, Server.handled_heap_of_ne hne, harr.heap_of_ne hne]

/-- A datagram whose session id is not the one registered for its sender's address, on which nothing
happens. -/
def StaleIgnored (t : Entry (Server ρ) Event Output) : Prop :=
  match t.input with
  | .recv d _ _ =>
      d.header.sessionId ≠ 0 →
      (∀ r, t.before.service.findByAddr d.senderAddr = some r →
        (t.before.service.heap r).sessionId ≠ d.header.sessionId) →
      t.after.service.heap = t.before.service.heap ∧ t.output.sent = [] ∧
        t.output.dispatched = none
  | _ => True

/-- A client registers, falls silent, is removed, registers again, and then an old heartbeat with
the first session id and a high sequence number arrives. -/
def staleRun : List Event :=
  [.recv (.hello localAddr [] (by decide)) 0 0, .mainLoop 20000,
    .recv (.hello localAddr [] (by decide)) 21000 21000,
    .recv (.ofPayload localAddr ⟨1, 1000, PacketType.cLobbyHeartbeat.value⟩ [] (by decide))
      22000 22000]

theorem dispatched_by_address_stale :
    ∃ t ∈ (server Backend.unreachable).trace (.init .disconnected) staleRun,
      t.output.dispatched = some 1 ∧
        t.before.service.findByAddr localAddr = some 1 ∧ (t.before.service.heap 1).sessionId = 2 := by
  refine ⟨_, List.mem_cons_of_mem _ (List.mem_cons_of_mem _ (List.mem_cons_of_mem _
    List.mem_cons_self)), by decide, ?_, by decide⟩
  exact ((dispatched_by_address .disconnected staleRun (List.mem_cons_of_mem _
    (List.mem_cons_of_mem _ (List.mem_cons_of_mem _ List.mem_cons_self))) rfl (by decide)).2.1 1
    (by decide)).1

/-- The old heartbeat is dispatched on the new session and raises its sequence filter. -/
theorem not_staleIgnored :
    ¬ ∀ t ∈ (server Backend.unreachable).trace (.init .disconnected) staleRun, StaleIgnored t := by
  intro h
  have hlast := h _ (List.mem_cons_of_mem _ (List.mem_cons_of_mem _ (List.mem_cons_of_mem _
    List.mem_cons_self)))
  have hstale := hlast (by decide) fun r hr => by
    have hone : r = 1 := by
      have : some r = some 1 := hr.symm.trans (by decide)
      exact Option.some.inj this
    subst hone
    decide
  exact absurd hstale.2.2 (by decide)

end CowboyPoker.GameServer
