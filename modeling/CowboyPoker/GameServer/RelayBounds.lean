import CowboyPoker.GameServer.UserIds

/-!
# The builders stay inside their buffers

* `RelaysLongUser` — a step relays a move of a context whose user id is longer than `maxRelayUserId`
  bytes. A datagram has room for a user id of 1198 bytes, the relayed move for 1173.
* `inBounds_iff_not_relaysLongUser` — along a run every packet, `S_PLAYER_INFO` aside, is built
  inside its allocation exactly when no step relays such a move.
-/

namespace CowboyPoker.GameServer

open CowboyPoker.Found
open CowboyPoker.ServerCore
open UdpService

variable {ρ : Type} {B : Backend ρ}

/-! ## Relayed moves -/

/-- The longest user id for which a relayed move fits. -/
def maxRelayUserId : ℕ := 1173

/-- A move with a stored user id fits exactly when the id is not longer than that. -/
theorem inBounds_lobbyPlayerMove_iff {userId : Bytes} (h : userId.length < 2 ^ 16)
    (mover : UInt64) (posX posY posZ rot : UInt32) (animState : UInt8) :
    (ServerPacket.lobbyPlayerMove mover userId posX posY posZ rot animState).make.InBounds ↔
      userId.length ≤ maxRelayUserId := by
  rw [ServerPacket.inBounds_make_iff, ServerPacket.length_body, udpMaxPayload, maxRelayUserId]
  dsimp only
  rw [Nat.mod_eq_of_lt h]
  omega

/-- The step relays a move of a context whose user id is too long. -/
def RelaysLongUser (t : Entry (Server ρ) Event Output) : Prop :=
  match t.input with
  | .recv d now _ =>
      t.before.fault = none ∧ IsMove d.data d.data.length ∧
        ∃ r service, Arrives t.before.service d now r service ∧
          maxRelayUserId < (t.before.service.heap r).userId.length
  | _ => False

/-- Every packet that the step builds, `S_PLAYER_INFO` aside, stays inside its allocation. -/
def BuildsInBounds (t : Entry (Server ρ) Event Output) : Prop :=
  ∀ p ∈ t.output.built, (∀ id info, p ≠ .playerInfo id info) → p.make.InBounds

/-- A step that relays a move of a long user id overflows. -/
theorem not_buildsInBounds_of_relaysLongUser {s : Server ρ} {e : Event} (hs : UserIds s.service)
    (h : RelaysLongUser ((server B).entry s e)) : ¬ BuildsInBounds ((server B).entry s e) := by
  intro hbounds
  cases e with
  | recv d now later =>
      obtain ⟨hfault, hmove, r, service, harr, hlong⟩ := h
      obtain ⟨-, posX, posY, posZ, rot, animState, hreq⟩ :=
        handlePacket_of_isMove B (service.heap r) s.redis later hmove
      have hstep : s.step B (.recv d now later) = Server.handled B s d later r service :=
        step_recv_of_arrives hfault harr
      have hbuilt : ServerPacket.lobbyPlayerMove (service.heap r).sessionId (service.heap r).userId
          posX posY posZ rot animState ∈ ((server B).entry s (.recv d now later)).output.built := by
        simp only [Transducer.entry, server, hstep, Server.handled, hreq]
        exact List.mem_singleton_self _
      have hin := hbounds _ hbuilt fun _ _ => ServerPacket.noConfusion
      rw [inBounds_lobbyPlayerMove_iff ((harr.userIds hs).short r), harr.userId_eq hs] at hin
      exact absurd hin (not_le.mpr hlong)
  | _ => exact h

/-- Any other step does not. -/
theorem buildsInBounds_of_not_relaysLongUser {s : Server ρ} {e : Event} (hs : UserIds s.service)
    (h : ¬ RelaysLongUser ((server B).entry s e)) : BuildsInBounds ((server B).entry s e) := by
  have hcase := stepCase B s e
  simp only [BuildsInBounds, Transducer.entry, server]
  generalize s.step B e = next at hcase ⊢
  intro p hp hinfo
  cases hcase with
  | idle => exact absurd hp List.not_mem_nil
  | handled d now later r service hfault he harr =>
      subst he
      obtain ⟨q, rfl, hfor, -⟩ := Server.exists_request_of_mem_built hp
      cases hfor with
      | handshakeAck =>
          exact (ServerPacket.inBounds_make_iff _).mpr (by
            simp [SendRequest.packet, ServerPacket.length_body, udpMaxPayload])
      | playerInfo info => exact absurd rfl (hinfo _ info)
      | lobbyPlayerMove hmove =>
          have hctx : ((Server.handled B s d later r service).1.service.heap r).userId =
              (s.service.heap r).userId := by
            simp only [Server.handled, modifyCtx_heap_self, (handlePacket_of_isMove B _ _ _ hmove).1,
              harr.userId_eq hs]
          have hfits : (s.service.heap r).userId.length ≤ maxRelayUserId :=
            not_lt.mp fun hlong => h ⟨hfault, hmove, r, service, harr, hlong⟩
          apply (inBounds_lobbyPlayerMove_iff ?_ _ _ _ _ _ _).mpr
          · rwa [hctx]
          · rw [hctx]
            exact hs.short r
      | buyWeaponResult =>
          exact (ServerPacket.inBounds_make_iff _).mpr (by
            simp [SendRequest.packet, ServerPacket.length_body, udpMaxPayload])
  | registered => exact absurd hp List.not_mem_nil
  | removed out _ hbuilt =>
      obtain ⟨id, rfl⟩ := hbuilt p hp
      exact (ServerPacket.inBounds_make_iff _).mpr (by
        simp [ServerPacket.length_body, udpMaxPayload])

/-- **The builders stay inside their buffers** at every step of a run if and only if no step of it
relays a move of a context whose user id is longer than 1173 bytes. -/
theorem inBounds_iff_not_relaysLongUser (rc : RedisClient ρ) (es : List Event) :
    (∀ t ∈ (server B).trace (.init rc) es, BuildsInBounds t) ↔
      ∀ t ∈ (server B).trace (.init rc) es, ¬ RelaysLongUser t := by
  have hentry : ∀ t ∈ (server B).trace (.init rc) es, BuildsInBounds t ↔ ¬ RelaysLongUser t := by
    intro t ht
    have hs : UserIds t.before.service := (server B).trace_invariant
      (I := fun s => UserIds s.service) userIds_init (fun _ _ h => userIds_step h) ht
    rw [(server B).eq_entry_of_mem_trace ht]
    constructor
    · exact fun hbounds hlong => not_buildsInBounds_of_relaysLongUser hs hlong hbounds
    · exact buildsInBounds_of_not_relaysLongUser hs
  exact ⟨fun h t ht => (hentry t ht).mp (h t ht), fun h t ht => (hentry t ht).mpr (h t ht)⟩

/-- A handshake with a user id of 1174 bytes, and then a move of the same client. -/
def longUserRun : List Event :=
  [.recv (.hello ⟨0x0100007F, 0x3930⟩ (List.replicate 1174 65)
      (by rw [List.length_replicate]; decide)) 0 0,
    .recv (.moveToOrigin ⟨0x0100007F, 0x3930⟩ 1 1) 10 10]

/-- The second datagram of this run relays a move of 1215 bytes in a buffer of 1214 bytes. -/
theorem not_buildsInBounds_longUserRun :
    ¬ ∀ t ∈ (server Backend.unreachable).trace (.init .disconnected) longUserRun,
      BuildsInBounds t := by
  intro h
  have hin := h _ (List.mem_cons_of_mem _ List.mem_cons_self)
    (.lobbyPlayerMove 1 (List.replicate 1174 65) 0 0 0 0 0) (by decide +kernel)
    fun _ _ => ServerPacket.noConfusion
  rw [inBounds_lobbyPlayerMove_iff (by rw [List.length_replicate]; decide), List.length_replicate]
    at hin
  exact absurd hin (by decide)

end CowboyPoker.GameServer
