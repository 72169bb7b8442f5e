import CowboyPoker.ServerCore.Deliveries
import CowboyPoker.GameServer.DatagramParsing
import CowboyPoker.GameServer.RelayBounds
import CowboyPoker.GameServer.WireFormat

/-!
# The relay of a move

* `AcceptedMove` — a move with a session id that passes the lookup and the filter, and whose relay
  fits in a packet.
* `encode_relayedMove` — the relay carries the seventeen bytes of the payload as they are.
* `move_relay` — in every state that is reached, an accepted move goes once to the address of every
  other registered session and to nobody else, decodes to the sender's session, payload and user, and
  changes two fields of the sender's context.
-/

namespace CowboyPoker.GameServer

open CowboyPoker.Found
open CowboyPoker.ServerCore
open UdpService

variable {ρ : Type} {B : Backend ρ}

/-! ## The payload -/

/-- **The fields of a move are its seventeen bytes.** -/
theorem encode_relayedMove {payload : Bytes} (h : 17 ≤ payload.length) :
    Pod.encode (Pod.read payload 0 : UInt32) ++ (Pod.encode (Pod.read payload 4 : UInt32) ++
      (Pod.encode (Pod.read payload 8 : UInt32) ++ (Pod.encode (Pod.read payload 12 : UInt32) ++
        Pod.encode (Pod.read payload 16 : UInt8)))) = payload.take 17 := by
  have hword : ∀ off, off + 4 ≤ 17 →
      Pod.encode (Pod.read payload off : UInt32) = (payload.drop off).take 4 := by
    intro off hoff
    exact Pod.onto_uint32.encode_read (by rw [Pod.size_uint32]; omega)
  have hbyte : Pod.encode (Pod.read payload 16 : UInt8) = (payload.drop 16).take 1 :=
    Pod.onto_uint8.encode_read (by rw [Pod.size_uint8]; omega)
  rw [hword 0 (by omega), hword 4 (by omega), hword 8 (by omega), hword 12 (by omega), hbyte]
  calc (payload.drop 0).take 4 ++ ((payload.drop 4).take 4 ++ ((payload.drop 8).take 4 ++
        ((payload.drop 12).take 4 ++ (payload.drop 16).take 1)))
      = payload.take (4 + (4 + (4 + (4 + 1)))) := by
        simp only [List.take_add, List.drop_drop, List.drop_zero]
    _ = payload.take 17 := rfl

/-- A relay fits exactly when its user id is not too long. -/
theorem fits_relayedMove_iff {ctx : UdpClientContext} (h : ctx.userId.length < 2 ^ 16)
    (payload : Bytes) : (relayedMove ctx payload).Fits ↔ ctx.userId.length ≤ maxRelayUserId := by
  rw [ServerPacket.Fits, ServerPacket.writeSize_make, relayedMove, ServerPacket.length_body,
    udpMaxPacket, udpMaxPayload, maxRelayUserId]
  dsimp only
  rw [Nat.mod_eq_of_lt h]
  omega

/-! ## The law -/

/-- A move with a session id that passes the sequence filter on the context at `r`, and whose relay
fits. -/
structure AcceptedMove (s : Server ρ) (d : Datagram) (r : UdpClientContextRef) : Prop where
  /-- The process is running. -/
  running : s.fault = none
  /-- The header has a session id. -/
  sessionId_ne : d.header.sessionId ≠ 0
  /-- The datagram is a `C_LOBBY_MOVE`. -/
  type_eq : PacketType.ofId d.header.id = some .cLobbyMove
  /-- The payload is long enough. -/
  length : 17 ≤ d.payload.length
  /-- The context of the sender. -/
  found : s.service.findByAddr d.senderAddr = some r
  /-- The datagram is not filtered. -/
  fresh : d.header.sequence = 0 ∨ (s.service.heap r).lastSeq < d.header.sequence
  /-- The relay fits. -/
  fits : (relayedMove (s.service.heap r) d.payload).Fits

/-- What an accepted move does. -/
structure RelaysMove (s : Server ρ) (d : Datagram) (now : ℤ) (r : UdpClientContextRef)
    (next : Server ρ × Output) : Prop where
  /-- Two fields of the context change. -/
  state : next.1 = { s with
    service := s.service.modifyCtx r fun ctx => { ctx with
      lastSeq := d.header.sequence
      lastAliveMs := now } }
  /-- One datagram goes to every other registered session. -/
  others : s.service.next < 2 ^ 64 →
    SentOnceTo s.service next.2.sent fun r' => s.service.Registered r' ∧ r' ≠ r
  /-- None goes to the sender. -/
  sender : s.service.next < 2 ^ 64 → ∀ x ∈ next.2.sent, x.1 ≠ d.senderAddr
  /-- Each decodes to the session, the payload and the user of the sender. -/
  decodes : ∀ x ∈ next.2.sent, ∃ posX posY posZ rot animState,
    readPacket x.2.make.bytes = some
      (⟨(s.service.heap r).sessionId, 0, PacketType.sLobbyPlayerMove.value⟩,
        .lobbyPlayerMove (s.service.heap r).sessionId (s.service.heap r).userId posX posY posZ rot
          animState, x.2.make.writeSize) ∧
    Pod.encode posX ++ (Pod.encode posY ++ (Pod.encode posZ ++ (Pod.encode rot ++
      Pod.encode animState))) = d.payload.take 17

namespace AcceptedMove

variable {s : Server ρ} {d : Datagram} {now later : ℤ} {r : UdpClientContextRef}

/-- The move reaches its handler. -/
theorem reaches (h : AcceptedMove s d r) (now : ℤ) :
    Reaches s d now .cLobbyMove r (s.service.modifyCtx r fun ctx => { ctx with
      lastSeq := d.header.sequence
      lastAliveMs := now }) where
  running := h.running
  arrives := by
    have hlen := h.length
    rw [Datagram.payload, List.length_drop] at hlen
    exact .sequenced (by omega) h.sessionId_ne h.found h.fresh
  type_eq := h.type_eq

/-- What the step does: the relay is built from the context as it was. -/
theorem step_eq (h : AcceptedMove s d r) (now later : ℤ) :
    s.step B (.recv d now later) =
      ({ s with service := s.service.modifyCtx r fun ctx => { ctx with
          lastSeq := d.header.sequence
          lastAliveMs := now } },
        { dispatched := some r
          built := [relayedMove (s.service.heap r) d.payload]
          sent := (s.service.modifyCtx r fun ctx => { ctx with
            lastSeq := d.header.sequence
            lastAliveMs := now }).broadcastExcept (s.service.heap r).sessionId
              (relayedMove (s.service.heap r) d.payload) }) := by
  rw [(h.reaches now).move.1 h.length]
  simp only [modifyCtx_heap_self]
  rfl

/-- The sender is the registered context at `r`. -/
theorem sender_eq (h : AcceptedMove s d r) (hs : s.service.Consistent) :
    s.service.Registered r ∧ (s.service.heap r).addr = d.senderAddr := by
  obtain ⟨hlook, haddr⟩ := findByAddr_eq_some_iff.mp h.found
  exact ⟨hs.registered_of_addrMap hlook, haddr⟩

/-- **The step lemma.** -/
theorem relaysMove (h : AcceptedMove s d r) (hs : s.service.next < 2 ^ 64 → s.service.Consistent)
    (hshort : (s.service.heap r).userId.length < 2 ^ 16) (now later : ℤ) :
    RelaysMove s d now r (s.step B (.recv d now later)) := by
  have hsent : (s.step B (.recv d now later)).2.sent = s.service.broadcastExcept
      (s.service.heap r).sessionId (relayedMove (s.service.heap r) d.payload) := by
    rw [h.step_eq]
    exact broadcastExcept_modifyCtx (f := fun ctx => { ctx with
      lastSeq := d.header.sequence
      lastAliveMs := now }) rfl _ _
  have hothers : s.service.next < 2 ^ 64 →
      SentOnceTo s.service (s.step B (.recv d now later)).2.sent fun r' =>
        s.service.Registered r' ∧ r' ≠ r := by
    intro hbound
    rw [hsent]
    exact (hs hbound).sentOnceTo_broadcastExcept (h.sender_eq (hs hbound)).1 _
  constructor
  · rw [h.step_eq]
  · exact hothers
  · intro hbound
    obtain ⟨hreg, haddr⟩ := h.sender_eq (hs hbound)
    rw [← haddr]
    exact (hothers hbound).ne_addr (hs hbound) hreg fun _ hr' => hr'
  · intro x hx
    rw [hsent] at hx
    obtain ⟨-, r', -, -, rfl⟩ := mem_broadcastExcept_iff.mp hx
    refine ⟨_, _, _, _, _, ?_, encode_relayedMove h.length⟩
    dsimp only
    rw [readPacket_make h.fits, relayedMove, ServerPacket.received,
      cutString_eq_self_iff.mpr hshort]
    rfl

end AcceptedMove

/-- **Moves are relayed exactly**, in every state that is reached. -/
theorem move_relay (B : Backend ρ) (rc : RedisClient ρ) (es : List Event) (d : Datagram)
    (now later : ℤ) (r : UdpClientContextRef)
    (h : AcceptedMove ((server B).exec (.init rc) es) d r) :
    RelaysMove ((server B).exec (.init rc) es) d now r
      (((server B).exec (.init rc) es).step B (.recv d now later)) := by
  have husers : UserIds ((server B).exec (.init rc) es).service :=
    (server B).exec_invariant (I := fun s => UserIds s.service) userIds_init
      (fun _ _ h => userIds_step h) es
  exact h.relaysMove (consistent_exec rc) (husers.short r) now later

/-- Three clients, of whom the first moves. -/
theorem move_relay_three :
    RelaysMove ((server Backend.unreachable).exec (.init .disconnected)
        [.recv (.helloOf ⟨0x0100007F, 0x3930⟩ 65) 0 0, .recv (.helloOf ⟨0x0100007F, 0x3A30⟩ 66) 1 1,
          .recv (.helloOf ⟨0x0100007F, 0x3B30⟩ 67) 2 2])
      (.moveToOrigin ⟨0x0100007F, 0x3930⟩ 1 1) 10 0
      (((server Backend.unreachable).exec (.init .disconnected)
        [.recv (.helloOf ⟨0x0100007F, 0x3930⟩ 65) 0 0, .recv (.helloOf ⟨0x0100007F, 0x3A30⟩ 66) 1 1,
          .recv (.helloOf ⟨0x0100007F, 0x3B30⟩ 67) 2 2]).step Backend.unreachable
        (.recv (.moveToOrigin ⟨0x0100007F, 0x3930⟩ 1 1) 10 10)) :=
  move_relay Backend.unreachable .disconnected _ _ 10 10 0
    { running := by decide +kernel
      sessionId_ne := by decide +kernel
      type_eq := by decide +kernel
      length := by decide +kernel
      found := by decide +kernel
      fresh := by decide +kernel
      fits := (fits_relayedMove_iff (by decide +kernel) _).mpr (by decide +kernel) }

end CowboyPoker.GameServer
