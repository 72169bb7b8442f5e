import CowboyPoker.ServerCore.UdpService
import CowboyPoker.GameServer.Packets
import CowboyPoker.GameServer.WeaponData

/-!
# `UdpServerPacketHandler`: the packet handlers

A handler works on one context and on the Redis connection, and calls back into the service only to
send. Its model takes the context and the connection and returns a `HandlerOut`: both as the
handler leaves them, the sends it asks for in order (`SendRequest`), the ranges of the payload it
read, and the exception that ended it, if one did. `UdpService` performs the requests
(`SendRequest.perform`), so that a handler and its sends can also be run as separate steps.

* `handleCUdpHello`, `handleCLobbyMove`, `handleCLobbyHeartbeat`, `handleCBuyWeapon`,
  `handleCGunShotLobby` — the five handlers; `handlePacket` — the switch.
* `Handled` — everything that a handler can do: which fields of the context it may assign, which
  requests it may make (`RequestFor`) and which hash it may touch. `handled_handlePacket` says that
  the switch does no more, and `handlePacket_of_isMove` that it does relay a move.
-/

namespace CowboyPoker.GameServer

open CowboyPoker.Found
open CowboyPoker.ServerCore

/-! ## Requests and results -/

/-- A call that a handler makes into the service in order to send a packet. -/
inductive SendRequest
  /-- `service->SendTo(sessionId, packet)`. -/
  | sendTo (sessionId : UInt64) (packet : ServerPacket)
  /-- `service->BroadcastExcept(excludeSessionId, packet)`. -/
  | broadcastExcept (excludeSessionId : UInt64) (packet : ServerPacket)
  deriving DecidableEq, Repr

/-- The packet that a request sends. -/
def SendRequest.packet : SendRequest → ServerPacket
  | sendTo _ packet => packet
  | broadcastExcept _ packet => packet

/-- The datagrams that a request puts on the wire. -/
def SendRequest.perform (s : UdpService) : SendRequest → List (SockAddrIn × ServerPacket)
  | sendTo sessionId packet => s.sendTo sessionId packet
  | broadcastExcept except packet => s.broadcastExcept except packet

/-- What a handler leaves behind. -/
structure HandlerOut (ρ : Type) where
  /-- The context. -/
  ctx : UdpClientContext
  /-- The Redis connection. -/
  redis : RedisClient ρ
  /-- The sends, in order. -/
  requests : List SendRequest := []
  /-- The ranges of the payload that were read. -/
  reads : List Span := []
  /-- The exception that left the handler; nothing catches it. -/
  fault : Option Fault := none

variable {ρ : Type} (B : Backend ρ)

/-! ## The handlers -/

/-- What `Handle_C_UDP_HELLO` parses: `[userIdLen:u16][userId]`. The first component is the user,
`none` when the handler returns early; the second the ranges read.
Source: `GameServer/UdpServerPacketHandler.cpp`, `UdpServerPacketHandler::Handle_C_UDP_HELLO` -/
def parseUdpHello (payload : Bytes) (payloadLen : ℤ) : Option Bytes × List Span :=
  if payloadLen < 2 then (none, [])
  else
    let br : BufferReader := { buffer := payload, size := payloadLen.toNat }
    let (userIdLen, br) : UInt16 × BufferReader := br.get
    if br.freeSize < userIdLen.toNat then (none, br.reads)
    else
      (some ((payload.drop 2).take userIdLen.toNat), br.reads ++ [⟨2, userIdLen.toNat⟩])

/-- The part of `Handle_C_UDP_HELLO` behind the parser: the user is bound to the context and
acknowledged.
Source: `GameServer/UdpServerPacketHandler.cpp`, `UdpServerPacketHandler::Handle_C_UDP_HELLO` -/
def bindUser (ctx : UdpClientContext) (rc : RedisClient ρ) (userId : Bytes) (reads : List Span) :
    HandlerOut ρ :=
  let ctx := { ctx with userId }
  let ack := SendRequest.sendTo ctx.sessionId (.udpHandshakeAck ctx.sessionId)
  match rc.getPlayerInfo B userId with
  | (.error e, rc) => { ctx, redis := rc, requests := [ack], reads, fault := some e }
  | (.ok (false, _), rc) => { ctx, redis := rc, requests := [ack], reads }
  | (.ok (true, info), rc) =>
      let infoRequest := SendRequest.sendTo ctx.sessionId (.playerInfo ctx.sessionId info)
      { ctx, redis := rc, requests := [ack, infoRequest], reads }

/-- `Handle_C_UDP_HELLO`.
Source: `GameServer/UdpServerPacketHandler.cpp`, `UdpServerPacketHandler::Handle_C_UDP_HELLO` -/
def handleCUdpHello (ctx : UdpClientContext) (rc : RedisClient ρ) (payload : Bytes)
    (payloadLen : ℤ) : HandlerOut ρ :=
  match parseUdpHello payload payloadLen with
  | (none, reads) => { ctx, redis := rc, reads }
  | (some userId, reads) => bindUser B ctx rc userId reads

/-- `Handle_C_LOBBY_MOVE`: `[posX:f32][posY:f32][posZ:f32][rot:f32][animState:u8]`.
Source: `GameServer/UdpServerPacketHandler.cpp`, `UdpServerPacketHandler::Handle_C_LOBBY_MOVE` -/
def handleCLobbyMove (ctx : UdpClientContext) (rc : RedisClient ρ) (payload : Bytes)
    (payloadLen : ℤ) : HandlerOut ρ :=
  if payloadLen < 17 then { ctx, redis := rc }
  else
    let br : BufferReader := { buffer := payload, size := payloadLen.toNat }
    let (posX, br) : UInt32 × BufferReader := br.get
    let (posY, br) : UInt32 × BufferReader := br.get
    let (posZ, br) : UInt32 × BufferReader := br.get
    let (rot, br) : UInt32 × BufferReader := br.get
    let (animState, br) : UInt8 × BufferReader := br.get
    let packet := ServerPacket.lobbyPlayerMove ctx.sessionId ctx.userId posX posY posZ rot animState
    { ctx, redis := rc, requests := [.broadcastExcept ctx.sessionId packet], reads := br.reads }

/-- `Handle_C_LOBBY_HEARTBEAT`; `now` is its own reading of the clock.
Source: `GameServer/UdpServerPacketHandler.cpp`, `UdpServerPacketHandler::Handle_C_LOBBY_HEARTBEAT` -/
def handleCLobbyHeartbeat (ctx : UdpClientContext) (rc : RedisClient ρ) (now : ℤ) :
    HandlerOut ρ :=
  { ctx := { ctx with lastAliveMs := now }, redis := rc }

/-- The part of `Handle_C_BUY_WEAPON` behind the parser: the purchase of a weapon for a user, answered
on the session of `ctx`.
Source: `GameServer/UdpServerPacketHandler.cpp`, `UdpServerPacketHandler::Handle_C_BUY_WEAPON`, the
steps 1 to 5 -/
def buyWeapon (ctx : UdpClientContext) (rc : RedisClient ρ) (userId : Bytes) (weaponType : Int32)
    (reads : List Span) : HandlerOut ρ :=
  let answer (success : Bool) (balance : Int64) : SendRequest :=
    .sendTo ctx.sessionId (.buyWeaponResult ctx.sessionId success weaponType balance)
  match findWeapon weaponType with
  | none => { ctx, redis := rc, requests := [answer false 0], reads }
  | some weapon =>
      match rc.getBalance B userId with
      | (.error e, rc) => { ctx, redis := rc, reads, fault := some e }
      | (.ok none, rc) => { ctx, redis := rc, requests := [answer false 0], reads }
      | (.ok (some balance), rc) =>
          if balance < weapon.price then
            { ctx, redis := rc, requests := [answer false balance], reads }
          else
            let newBalance := balance - weapon.price
            let ammoOnPurchase := weapon.magazineSize * 5
            match rc.purchaseWeapon B userId newBalance weaponType ammoOnPurchase with
            | (false, rc) => { ctx, redis := rc, requests := [answer false balance], reads }
            | (true, rc) =>
                match rc.getPlayerInfo B userId with
                | (.error e, rc) =>
                    { ctx, redis := rc, requests := [answer true newBalance], reads
                      fault := some e }
                | (.ok (false, _), rc) =>
                    { ctx, redis := rc, requests := [answer true newBalance], reads }
                | (.ok (true, info), rc) =>
                    { ctx, redis := rc
                      requests := [answer true newBalance,
                        .sendTo ctx.sessionId (.playerInfo ctx.sessionId info)]
                      reads }

/-- What `Handle_C_BUY_WEAPON` parses: `[userIdLen:u16][userId][weaponType:i32]`. The first component
is the user and the weapon type, `none` when the handler returns early; the second the ranges
read.
Source: `GameServer/UdpServerPacketHandler.cpp`, `UdpServerPacketHandler::Handle_C_BUY_WEAPON` -/
def parseBuyWeapon (payload : Bytes) (payloadLen : ℤ) : Option (Bytes × Int32) × List Span :=
  if payloadLen < 6 then (none, [])
  else
    let br : BufferReader := { buffer := payload, size := payloadLen.toNat }
    let (userIdLen, br) : UInt16 × BufferReader := br.get
    if br.freeSize < userIdLen.toNat + 4 then (none, br.reads)
    else
      (some ((payload.drop 2).take userIdLen.toNat, Pod.read payload (2 + userIdLen.toNat)),
        br.reads ++ [⟨2, userIdLen.toNat⟩, ⟨2 + userIdLen.toNat, 4⟩])

/-- `Handle_C_BUY_WEAPON`.
Source: `GameServer/UdpServerPacketHandler.cpp`, `UdpServerPacketHandler::Handle_C_BUY_WEAPON` -/
def handleCBuyWeapon (ctx : UdpClientContext) (rc : RedisClient ρ) (payload : Bytes)
    (payloadLen : ℤ) : HandlerOut ρ :=
  match parseBuyWeapon payload payloadLen with
  | (none, reads) => { ctx, redis := rc, reads }
  | (some (userId, weaponType), reads) => buyWeapon B ctx rc userId weaponType reads

/-- `Handle_C_GUN_SHOT_LOBBY`.
Source: `GameServer/UdpServerPacketHandler.cpp`, `UdpServerPacketHandler::Handle_C_GUN_SHOT_LOBBY` -/
def handleCGunShotLobby (ctx : UdpClientContext) (rc : RedisClient ρ) : HandlerOut ρ :=
  if ctx.userId = [] then { ctx, redis := rc }
  else
    match rc.consumeLobbyAmmo B ctx.userId with
    | (.error e, rc) => { ctx, redis := rc, fault := some e }
    | (.ok _, rc) => { ctx, redis := rc }

/-- `HandlePacket`: the switch on the packet type.
Source: `GameServer/UdpServerPacketHandler.cpp`, `UdpServerPacketHandler::HandlePacket` -/
def handlePacket (ctx : UdpClientContext) (rc : RedisClient ρ) (buffer : Bytes) (len : ℕ)
    (now : ℤ) : HandlerOut ρ :=
  let header := UdpPacketHeader.read buffer
  let payload := buffer.drop udpPacketHeaderSize
  let payloadLen : ℤ := len - udpPacketHeaderSize
  match PacketType.ofId header.id with
  | some .cUdpHello => handleCUdpHello B ctx rc payload payloadLen
  | some .cLobbyMove => handleCLobbyMove ctx rc payload payloadLen
  | some .cLobbyHeartbeat => handleCLobbyHeartbeat ctx rc now
  | some .cPurchaseWeapon => handleCBuyWeapon B ctx rc payload payloadLen
  | some .cGunShotLobby => handleCGunShotLobby B ctx rc
  | _ => { ctx, redis := rc }

/-! ## What a handler can do -/

/-- The requests of a handler that works for the session of `ctx`; moves are relayed only if
`relays`. -/
inductive RequestFor (ctx : UdpClientContext) (relays : Prop) : SendRequest → Prop
  /-- The acknowledgement of a handshake, to the session. -/
  | handshakeAck : RequestFor ctx relays (.sendTo ctx.sessionId (.udpHandshakeAck ctx.sessionId))
  /-- A record, to the session. -/
  | playerInfo (info : PlayerRedisInfo) :
      RequestFor ctx relays (.sendTo ctx.sessionId (.playerInfo ctx.sessionId info))
  /-- A move of the session, to the others. -/
  | lobbyPlayerMove (h : relays) (posX posY posZ rot : UInt32) (animState : UInt8) :
      RequestFor ctx relays (.broadcastExcept ctx.sessionId
        (.lobbyPlayerMove ctx.sessionId ctx.userId posX posY posZ rot animState))
  /-- The answer to a purchase, to the session. -/
  | buyWeaponResult (success : Bool) (weaponType : Int32) (balance : Int64) :
      RequestFor ctx relays (.sendTo ctx.sessionId
        (.buyWeaponResult ctx.sessionId success weaponType balance))

/-- What a handler that starts on `ctx` and `rc` at time `now` can have done when it ends. -/
structure Handled (user : Bytes) (relays : Prop) (now : ℤ) (ctx : UdpClientContext) (rc : RedisClient ρ)
    (out : HandlerOut ρ) : Prop where
  /-- The session id stays. -/
  sessionId : out.ctx.sessionId = ctx.sessionId
  /-- The address stays. -/
  addr : out.ctx.addr = ctx.addr
  /-- The sequence filter stays. -/
  lastSeq : out.ctx.lastSeq = ctx.lastSeq
  /-- The time of the last packet stays, or is the present. -/
  lastAliveMs : out.ctx.lastAliveMs = ctx.lastAliveMs ∨ out.ctx.lastAliveMs = now
  /-- The user stays, or is one that a 16-bit length prefix can announce. -/
  userId : out.ctx.userId = ctx.userId ∨ out.ctx.userId.length < 2 ^ 16
  /-- The requests are for the session. -/
  requests : ∀ q ∈ out.requests, RequestFor out.ctx relays q
  /-- Redis is asked about the user only. -/
  commands : RedisClient.Commands B (fun c => c.key = userKey user) rc out.redis
  /-- A record that is sent was read from the hash of the user on the way. -/
  described : ∀ id info, (∃ q ∈ out.requests, q.packet = .playerInfo id info) →
    RedisClient.ReadBetween B (fun c => c.key = userKey user) (userKey user) user info rc out.redis

section handled

variable {B} {user : Bytes} {relays : Prop} {now : ℤ} {ctx : UdpClientContext} {rc : RedisClient ρ}

/-- A handler that returns early did nothing. -/
theorem handled_idle (reads : List Span) :
    Handled B user relays now ctx rc { ctx, redis := rc, reads } where
  sessionId := rfl
  addr := rfl
  lastSeq := rfl
  lastAliveMs := .inl rfl
  userId := .inl rfl
  requests _ h := absurd h List.not_mem_nil
  commands := .refl rc
  described _ _ h := by
    obtain ⟨q, hq, -⟩ := h
    exact absurd hq List.not_mem_nil

/-- A handler that leaves the context alone and sends no record. -/
theorem handled_of_ctx_eq {rc' : RedisClient ρ} {requests : List SendRequest} {reads : List Span}
    {fault : Option Fault} (hreq : ∀ q ∈ requests, RequestFor ctx relays q)
    (hrc : RedisClient.Commands B (fun c => c.key = userKey user) rc rc')
    (hinfo : ∀ q ∈ requests, ∀ id info, q.packet ≠ .playerInfo id info) :
    Handled B user relays now ctx rc { ctx, redis := rc', requests, reads, fault } where
  sessionId := rfl
  addr := rfl
  lastSeq := rfl
  lastAliveMs := .inl rfl
  userId := .inl rfl
  requests := hreq
  commands := hrc
  described id info h := by
    obtain ⟨q, hq, heq⟩ := h
    exact absurd heq (hinfo q hq id info)

/-- Reading the record of a user, by key. -/
theorem commands_key_getPlayerInfo (rc : RedisClient ρ) (user : Bytes) :
    RedisClient.Commands B (fun c => c.key = userKey user) rc (rc.getPlayerInfo B user).2 :=
  (RedisClient.commands_getPlayerInfo B).mono fun c hc => by rw [hc]; rfl

/-- A parsed user id is no longer than its length prefix can announce. -/
theorem length_of_parseUdpHello {payload : Bytes} {payloadLen : ℤ} {reads : List Span}
    (h : parseUdpHello payload payloadLen = (some user, reads)) : user.length < 2 ^ 16 := by
  unfold parseUdpHello at h
  by_cases hlen : payloadLen < 2
  · rw [if_pos hlen] at h
    cases h
  · rw [if_neg hlen] at h
    dsimp only at h
    split_ifs at h
    · cases h
    · simp only [Prod.mk.injEq, Option.some.injEq] at h
      rw [← h.1]
      exact lt_of_le_of_lt (List.length_take_le _ _) (UInt16.toNat_lt _)

theorem handled_bindUser (reads : List Span) (hlen : user.length < 2 ^ 16) :
    Handled B user relays now ctx rc (bindUser B ctx rc user reads) := by
  have hcommands := commands_key_getPlayerInfo (B := B) rc user
  have hack : RequestFor { ctx with userId := user } relays
      (.sendTo ctx.sessionId (.udpHandshakeAck ctx.sessionId)) := .handshakeAck
  have hacked : ∀ {rc' : RedisClient ρ} {fault : Option Fault},
      RedisClient.Commands B (fun c => c.key = userKey user) rc rc' →
      Handled B user relays now ctx rc
        { ctx := { ctx with userId := user }, redis := rc', reads, fault
          requests := [.sendTo ctx.sessionId (.udpHandshakeAck ctx.sessionId)] } := by
    intro rc' fault hrc
    refine ⟨rfl, rfl, rfl, .inl rfl, .inr hlen, ?_, hrc, ?_⟩
    · intro q hq
      rwa [List.mem_singleton.mp hq]
    · rintro id info ⟨q, hq, heq⟩
      rw [List.mem_singleton.mp hq] at heq
      cases heq
  unfold bindUser
  dsimp only
  rcases hread : rc.getPlayerInfo B user with ⟨e | ⟨found, info⟩, rc'⟩
  · rw [hread] at hcommands
    exact hacked hcommands
  · rw [hread] at hcommands
    cases found with
    | false => exact hacked hcommands
    | true =>
        refine ⟨rfl, rfl, rfl, .inl rfl, .inr hlen, ?_, hcommands, ?_⟩
        · intro q hq
          rcases List.mem_cons.mp hq with rfl | hq
          · exact hack
          · rw [List.mem_singleton.mp hq]
            exact .playerInfo info
        · rintro id info' ⟨q, hq, heq⟩
          rcases List.mem_cons.mp hq with rfl | hq
          · cases heq
          · rw [List.mem_singleton.mp hq] at heq
            cases heq
            exact RedisClient.readBetween_getPlayerInfo hread

theorem handled_handleCLobbyMove (payload : Bytes) (payloadLen : ℤ) :
    Handled B user (17 ≤ payloadLen) now ctx rc (handleCLobbyMove ctx rc payload payloadLen) := by
  unfold handleCLobbyMove
  by_cases hlen : payloadLen < 17
  · rw [if_pos hlen]
    exact handled_idle []
  · rw [if_neg hlen]
    refine handled_of_ctx_eq ?_ (.refl rc) ?_
    · intro q hq
      rw [List.mem_singleton.mp hq]
      exact .lobbyPlayerMove (not_lt.mp hlen) _ _ _ _ _
    · intro q hq id info
      rw [List.mem_singleton.mp hq]
      exact ServerPacket.noConfusion

theorem handled_handleCLobbyHeartbeat :
    Handled B user relays now ctx rc (handleCLobbyHeartbeat ctx rc now) where
  sessionId := rfl
  addr := rfl
  lastSeq := rfl
  lastAliveMs := .inr rfl
  userId := .inl rfl
  requests _ h := absurd h List.not_mem_nil
  commands := .refl rc
  described _ _ h := by
    obtain ⟨q, hq, -⟩ := h
    exact absurd hq List.not_mem_nil

/-- A purchase that is answered, or not, without a record. -/
theorem handled_answer {rc' : RedisClient ρ} {requests : List SendRequest} {reads : List Span}
    {fault : Option Fault}
    (hreq : ∀ q ∈ requests, ∃ success weaponType balance, q = .sendTo ctx.sessionId
      (.buyWeaponResult ctx.sessionId success weaponType balance))
    (hrc : RedisClient.Commands B (fun c => c.key = userKey user) rc rc') :
    Handled B user relays now ctx rc { ctx, redis := rc', requests, reads, fault } := by
  refine handled_of_ctx_eq ?_ hrc ?_
  · intro q hq
    obtain ⟨success, weaponType, balance, rfl⟩ := hreq q hq
    exact .buyWeaponResult success weaponType balance
  · intro q hq id info
    obtain ⟨success, weaponType, balance, rfl⟩ := hreq q hq
    exact ServerPacket.noConfusion

theorem handled_buyWeapon (weaponType : Int32) (reads : List Span) :
    Handled B user relays now ctx rc (buyWeapon B ctx rc user weaponType reads) := by
  have hone : ∀ success balance, ∀ q ∈ [SendRequest.sendTo ctx.sessionId
      (.buyWeaponResult ctx.sessionId success weaponType balance)],
      ∃ success weaponType balance, q = .sendTo ctx.sessionId
        (.buyWeaponResult ctx.sessionId success weaponType balance) := by
    intro success balance q hq
    exact ⟨success, weaponType, balance, List.mem_singleton.mp hq⟩
  unfold buyWeapon
  dsimp only
  rcases findWeapon weaponType with _ | weapon
  · exact handled_answer (hone _ _) (.refl rc)
  have hbalance : RedisClient.Commands B (fun c => c.key = userKey user) rc
      (rc.getBalance B user).2 :=
    (RedisClient.commands_getBalance B).mono fun c hc => by rw [hc]; rfl
  dsimp only
  generalize rc.getBalance B user = out at hbalance
  obtain ⟨e | balance, rc₁⟩ := out
  · exact handled_answer (fun q hq => absurd hq List.not_mem_nil) hbalance
  rcases balance with _ | balance
  · exact handled_answer (hone _ _) hbalance
  dsimp only
  by_cases hprice : balance < weapon.price
  · rw [if_pos hprice]
    exact handled_answer (hone _ _) hbalance
  rw [if_neg hprice]
  have hpurchase : RedisClient.Commands B (fun c => c.key = userKey user) rc
      (rc₁.purchaseWeapon B user (balance - weapon.price) weaponType
        (weapon.magazineSize * 5)).2 := by
    refine hbalance.trans ((RedisClient.commands_purchaseWeapon B).mono ?_)
    rintro c ⟨f, v, rfl⟩
    rfl
  generalize rc₁.purchaseWeapon B user (balance - weapon.price) weaponType
    (weapon.magazineSize * 5) = out at hpurchase
  obtain ⟨stored, rc₂⟩ := out
  cases stored with
  | false => exact handled_answer (hone _ _) hpurchase
  | true =>
      have hinfo := hpurchase.trans (commands_key_getPlayerInfo (B := B) rc₂ user)
      dsimp only
      rcases hread : rc₂.getPlayerInfo B user with ⟨e | ⟨found, info⟩, rc₃⟩
      · rw [hread] at hinfo
        exact handled_answer (hone _ _) hinfo
      · rw [hread] at hinfo
        cases found with
        | false => exact handled_answer (hone _ _) hinfo
        | true =>
            refine ⟨rfl, rfl, rfl, .inl rfl, .inl rfl, ?_, hinfo, ?_⟩
            · intro q hq
              rcases List.mem_cons.mp hq with rfl | hq
              · exact .buyWeaponResult _ _ _
              · rw [List.mem_singleton.mp hq]
                exact .playerInfo info
            · rintro id info' ⟨q, hq, heq⟩
              rcases List.mem_cons.mp hq with rfl | hq
              · cases heq
              · rw [List.mem_singleton.mp hq] at heq
                cases heq
                have hrecord := RedisClient.readBetween_getPlayerInfo hread
                  (P := fun c => c.key = userKey user)
                exact hrecord.extend (fun _ hc => hc) hpurchase (.refl rc₃)

theorem handled_handleCGunShotLobby :
    Handled B ctx.userId relays now ctx rc (handleCGunShotLobby B ctx rc) := by
  unfold handleCGunShotLobby
  by_cases hempty : ctx.userId = []
  · rw [if_pos hempty]
    exact handled_idle []
  · rw [if_neg hempty]
    have hcommands := RedisClient.commands_consumeLobbyAmmo B rc ctx.userId
    generalize rc.consumeLobbyAmmo B ctx.userId = out at hcommands
    obtain ⟨e | v, rc'⟩ := out <;>
      exact handled_of_ctx_eq (fun q hq => absurd hq List.not_mem_nil) hcommands
        fun q hq => absurd hq List.not_mem_nil

/-- The user whose record a dispatched datagram is about: the one its payload names if it is a
purchase, otherwise the one `bound` to the context. -/
def accountOf (bound : Bytes) (buffer : Bytes) (len : ℕ) : Bytes :=
  match PacketType.ofId (UdpPacketHeader.read buffer).id with
  | some .cPurchaseWeapon =>
      match parseBuyWeapon (buffer.drop udpPacketHeaderSize) (len - udpPacketHeaderSize) with
      | (some (userId, _), _) => userId
      | (none, _) => bound
  | _ => bound

/-- The user that a dispatched datagram binds to its context, if it does. -/
def helloUser (buffer : Bytes) (len : ℕ) : Option Bytes :=
  match PacketType.ofId (UdpPacketHeader.read buffer).id with
  | some .cUdpHello =>
      (parseUdpHello (buffer.drop udpPacketHeaderSize) (len - udpPacketHeaderSize)).1
  | _ => none

/-- Binding a user changes nothing else. -/
theorem ctx_bindUser (reads : List Span) :
    (bindUser B ctx rc user reads).ctx = { ctx with userId := user } := by
  unfold bindUser
  dsimp only
  split <;> rfl

theorem userId_bindUser (reads : List Span) : (bindUser B ctx rc user reads).ctx.userId = user := by
  rw [ctx_bindUser]

/-- A purchase leaves the context alone. -/
theorem ctx_buyWeapon (weaponType : Int32) (reads : List Span) :
    (buyWeapon B ctx rc user weaponType reads).ctx = ctx := by
  unfold buyWeapon
  dsimp only
  rcases findWeapon weaponType with _ | weapon
  · rfl
  · dsimp only
    rcases rc.getBalance B user with ⟨e | _ | balance, rc₁⟩
    · rfl
    · rfl
    · dsimp only
      by_cases hprice : balance < weapon.price
      · rw [if_pos hprice]
      · rw [if_neg hprice]
        split
        · rfl
        · split <;> rfl

/-- A shot leaves the context alone. -/
theorem ctx_handleCGunShotLobby : (handleCGunShotLobby B ctx rc).ctx = ctx := by
  unfold handleCGunShotLobby
  by_cases hempty : ctx.userId = []
  · rw [if_pos hempty]
  · rw [if_neg hempty]
    split <;> rfl

/-- **What the switch does to the context**: a handshake binds a user, a heartbeat stores the time, and
nothing else changes. -/
theorem ctx_handlePacket (buffer : Bytes) (len : ℕ) :
    (handlePacket B ctx rc buffer len now).ctx = { ctx with
      userId := (helloUser buffer len).getD ctx.userId
      lastAliveMs :=
        if PacketType.ofId (UdpPacketHeader.read buffer).id = some .cLobbyHeartbeat then now
        else ctx.lastAliveMs } := by
  unfold handlePacket helloUser
  dsimp only
  generalize PacketType.ofId (UdpPacketHeader.read buffer).id = t
  rcases t with _ | t
  · rfl
  cases t with
  | cUdpHello =>
      dsimp only [handleCUdpHello]
      rcases parseUdpHello (buffer.drop udpPacketHeaderSize)
        (len - udpPacketHeaderSize) with ⟨_ | userId, reads⟩
      · rfl
      · exact ctx_bindUser reads
  | cLobbyMove =>
      dsimp only [handleCLobbyMove]
      split <;> rfl
  | cPurchaseWeapon =>
      dsimp only [handleCBuyWeapon]
      rcases parseBuyWeapon (buffer.drop udpPacketHeaderSize)
        (len - udpPacketHeaderSize) with ⟨_ | ⟨userId, weaponType⟩, reads⟩
      · rfl
      · exact ctx_buyWeapon weaponType reads
  | cGunShotLobby => exact ctx_handleCGunShotLobby
  | _ => rfl

/-- **Only a handshake binds a user.** -/
theorem userId_handlePacket (buffer : Bytes) (len : ℕ) :
    (handlePacket B ctx rc buffer len now).ctx.userId = (helloUser buffer len).getD ctx.userId := by
  rw [ctx_handlePacket]

/-- **Only a heartbeat stores the time.** -/
theorem lastAliveMs_handlePacket (buffer : Bytes) (len : ℕ) :
    (handlePacket B ctx rc buffer len now).ctx.lastAliveMs =
      if PacketType.ofId (UdpPacketHeader.read buffer).id = some .cLobbyHeartbeat then now
      else ctx.lastAliveMs := by
  rw [ctx_handlePacket]

/-- A datagram that the switch hands to `Handle_C_LOBBY_MOVE` and that is long enough for it. -/
def IsMove (buffer : Bytes) (len : ℕ) : Prop :=
  PacketType.ofId (UdpPacketHeader.read buffer).id = some .cLobbyMove ∧
    udpPacketHeaderSize + 17 ≤ len

instance (buffer : Bytes) (len : ℕ) : Decidable (IsMove buffer len) :=
  inferInstanceAs (Decidable (_ ∧ _))

/-- **What the switch can do.** -/
theorem handled_handlePacket (buffer : Bytes) (len : ℕ) :
    Handled B (accountOf (handlePacket B ctx rc buffer len now).ctx.userId buffer len)
      (IsMove buffer len) now ctx rc (handlePacket B ctx rc buffer len now) := by
  unfold handlePacket accountOf IsMove
  dsimp only
  generalize PacketType.ofId (UdpPacketHeader.read buffer).id = t
  rcases t with _ | t
  · exact handled_idle []
  cases t with
  | cUdpHello =>
      dsimp only [handleCUdpHello]
      rcases hparse : parseUdpHello (buffer.drop udpPacketHeaderSize)
        (len - udpPacketHeaderSize) with ⟨_ | userId, reads⟩
      · exact handled_idle reads
      · dsimp only
        rw [userId_bindUser]
        exact handled_bindUser reads (length_of_parseUdpHello hparse)
  | cLobbyMove =>
      have hlen : (17 : ℤ) ≤ len - udpPacketHeaderSize ↔
          some PacketType.cLobbyMove = some .cLobbyMove ∧ udpPacketHeaderSize + 17 ≤ len := by
        rw [eq_self_iff_true, true_and]
        omega
      dsimp only
      rw [← hlen]
      exact handled_handleCLobbyMove _ _
  | cLobbyHeartbeat => exact handled_handleCLobbyHeartbeat
  | cPurchaseWeapon =>
      dsimp only [handleCBuyWeapon]
      rcases parseBuyWeapon (buffer.drop udpPacketHeaderSize)
        (len - udpPacketHeaderSize) with ⟨_ | ⟨userId, weaponType⟩, reads⟩
      · exact handled_idle reads
      · exact handled_buyWeapon weaponType reads
  | cGunShotLobby =>
      dsimp only
      rw [ctx_handleCGunShotLobby]
      exact handled_handleCGunShotLobby
  | _ => exact handled_idle []

/-- A handler does not look at the session id of the header. -/
theorem handlePacket_congr {buffer buffer' : Bytes} (h : buffer.drop 8 = buffer'.drop 8)
    (len : ℕ) : handlePacket B ctx rc buffer len now = handlePacket B ctx rc buffer' len now := by
  have hpayload : buffer.drop udpPacketHeaderSize = buffer'.drop udpPacketHeaderSize := by
    have := congrArg (List.drop 6) h
    rwa [List.drop_drop, List.drop_drop] at this
  simp only [handlePacket, (UdpPacketHeader.read_congr h).2, hpayload]

/-- A move relays one packet, with the user that the context is bound to. -/
theorem handlePacket_of_isMove (B : Backend ρ) (ctx : UdpClientContext) (rc : RedisClient ρ)
    (now : ℤ) {buffer : Bytes} {len : ℕ} (h : IsMove buffer len) :
    (handlePacket B ctx rc buffer len now).ctx = ctx ∧
      ∃ posX posY posZ rot animState, (handlePacket B ctx rc buffer len now).requests =
        [.broadcastExcept ctx.sessionId
          (.lobbyPlayerMove ctx.sessionId ctx.userId posX posY posZ rot animState)] := by
  obtain ⟨htype, hlen⟩ := h
  have hlong : ¬ ((len : ℤ) - udpPacketHeaderSize < 17) := by omega
  simp only [handlePacket, handleCLobbyMove, htype]
  rw [if_neg hlong]
  exact ⟨rfl, _, _, _, _, _, rfl⟩

end handled

/-- `OnClientLeave`: announces a removed session to everyone who is still registered.
Source: `GameServer/UdpServerPacketHandler.cpp`, `UdpServerPacketHandler::OnClientLeave` -/
def onClientLeave (s : UdpService) (sessionId : UInt64) : List (SockAddrIn × ServerPacket) :=
  s.broadcast (.lobbyPlayerLeave sessionId)

end CowboyPoker.GameServer
