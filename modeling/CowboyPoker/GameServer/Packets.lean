import CowboyPoker.ServerCore.UdpSession
import CowboyPoker.GameServer.RedisClient

/-!
# Packet types and packet builders

* `PacketType` — the UDP packet ids of both directions.
* `makePacket` — what the five builders have in common: a `SendBuffer` of `UDP_MAX_PACKET` bytes, a
  header reserved first and filled in last, and the stores of the body in between. Each builder
  keeps its own definition (`makeSUdpHandshakeAck`, …).
* `ServerPacket` — a builder call with its arguments; `ServerPacket.make` performs it.
* `ServerPacket.body` — the wire format: the bytes that follow the header.
  `wrote_make` says that the builder writes exactly the header and the body, whether or not they
  fit, and `inBounds_make_iff` that it stays inside its allocation exactly when they do.
-/

namespace CowboyPoker.GameServer

open CowboyPoker.Found
open CowboyPoker.ServerCore

/-! ## Packet types -/

/-- The packet ids of the UDP protocol.
Source: `GameServer/packetTypes.h`, `PacketType` -/
inductive PacketType
  /-- `C_UDP_HELLO`. -/
  | cUdpHello
  /-- `C_LOBBY_MOVE`. -/
  | cLobbyMove
  /-- `C_LOBBY_HEARTBEAT`. -/
  | cLobbyHeartbeat
  /-- `C_PURCHASE_WEAPON`. -/
  | cPurchaseWeapon
  /-- `C_GUN_SHOT_LOBBY`. -/
  | cGunShotLobby
  /-- `S_UDP_HANDSHAKE_ACK`. -/
  | sUdpHandshakeAck
  /-- `S_LOBBY_PLAYER_MOVE`. -/
  | sLobbyPlayerMove
  /-- `S_LOBBY_PLAYER_LEAVE`. -/
  | sLobbyPlayerLeave
  /-- `S_PLAYER_INFO`. -/
  | sPlayerInfo
  /-- `S_PURCHASE_WEAPON_RESULT`. -/
  | sPurchaseWeaponResult
  deriving DecidableEq, Repr

namespace PacketType

/-- The value of an enumerator, cast to `uint16` as the header holds it. -/
def value : PacketType → UInt16
  | cUdpHello => 300
  | cLobbyMove => 301
  | cLobbyHeartbeat => 302
  | cPurchaseWeapon => 303
  | cGunShotLobby => 305
  | sUdpHandshakeAck => 350
  | sLobbyPlayerMove => 352
  | sLobbyPlayerLeave => 353
  | sPlayerInfo => 354
  | sPurchaseWeaponResult => 355

/-- The packets a client sends, which `HandlePacket` switches on. -/
def clientTypes : List PacketType :=
  [cUdpHello, cLobbyMove, cLobbyHeartbeat, cPurchaseWeapon, cGunShotLobby]

/-- The case of the switch that a header id selects, `none` for the default case. -/
def ofId (id : UInt16) : Option PacketType := clientTypes.find? fun t => t.value = id

end PacketType

/-! ## Builders -/

/-- The common shape of the builders.
Source: `GameServer/UdpServerPacketHandler.cpp`, each `Make_S_…` -/
def makePacket (header : UdpPacketHeader) (body : BufferWriter → BufferWriter) : SendBuffer :=
  let (off, bw) := (SendBuffer.writer udpMaxPacket).reserve udpPacketHeaderSize
  SendBuffer.ofWriter (header.store off (body bw))

/-- A length prefix of 16 bits and as many bytes of the string as it says. -/
def putString (bw : BufferWriter) (s : Bytes) : BufferWriter :=
  let len := UInt16.ofNat s.length
  (bw.put len).putBytes (s.take len.toNat)

/-- Source: `UdpServerPacketHandler::Make_S_UDP_HANDSHAKE_ACK` -/
def makeSUdpHandshakeAck (sessionId : UInt64) : SendBuffer :=
  makePacket ⟨sessionId, 0, PacketType.sUdpHandshakeAck.value⟩ fun bw => bw.put sessionId

/-- Source: `UdpServerPacketHandler::Make_S_LOBBY_PLAYER_LEAVE` -/
def makeSLobbyPlayerLeave (leftSessionId : UInt64) : SendBuffer :=
  makePacket ⟨0, 0, PacketType.sLobbyPlayerLeave.value⟩ fun bw => bw.put leftSessionId

/-- Source: `UdpServerPacketHandler::Make_S_LOBBY_PLAYER_MOVE` -/
def makeSLobbyPlayerMove (moverSessionId : UInt64) (userId : Bytes)
    (posX posY posZ rot : UInt32) (animState : UInt8) : SendBuffer :=
  makePacket ⟨moverSessionId, 0, PacketType.sLobbyPlayerMove.value⟩ fun bw =>
    putString ((((((bw.put moverSessionId).put posX).put posY).put posZ).put rot).put animState)
      userId

/-- Source: `UdpServerPacketHandler::Make_S_PLAYER_INFO` -/
def makeSPlayerInfo (sessionId : UInt64) (info : PlayerRedisInfo) : SendBuffer :=
  makePacket ⟨sessionId, 0, PacketType.sPlayerInfo.value⟩ fun bw =>
    let bw := (((bw.put sessionId).put info.hp).put info.balance).put info.charType
    let bw := (((bw.put info.posX).put info.posY).put info.posZ).put info.rot
    let bw := ((bw.put info.weapon).put info.ammoType).put info.ammo
    putString (putString bw info.nickname) info.scene

/-- The byte `success ? 1 : 0`. -/
def successByte (success : Bool) : UInt8 := if success then 1 else 0

/-- Source: `UdpServerPacketHandler::Make_S_BUY_WEAPON_RESULT` -/
def makeSBuyWeaponResult (sessionId : UInt64) (success : Bool) (weaponType : Int32)
    (balance : Int64) : SendBuffer :=
  makePacket ⟨sessionId, 0, PacketType.sPurchaseWeaponResult.value⟩ fun bw =>
    (((bw.put sessionId).put (successByte success)).put weaponType).put balance

/-! ## Builder calls -/

/-- A call of a builder. -/
inductive ServerPacket
  /-- `Make_S_UDP_HANDSHAKE_ACK`. -/
  | udpHandshakeAck (sessionId : UInt64)
  /-- `Make_S_LOBBY_PLAYER_MOVE`. -/
  | lobbyPlayerMove (moverSessionId : UInt64) (userId : Bytes) (posX posY posZ rot : UInt32)
      (animState : UInt8)
  /-- `Make_S_LOBBY_PLAYER_LEAVE`. -/
  | lobbyPlayerLeave (leftSessionId : UInt64)
  /-- `Make_S_PLAYER_INFO`. -/
  | playerInfo (sessionId : UInt64) (info : PlayerRedisInfo)
  /-- `Make_S_BUY_WEAPON_RESULT`. -/
  | buyWeaponResult (sessionId : UInt64) (success : Bool) (weaponType : Int32) (balance : Int64)
  deriving DecidableEq, Repr

namespace ServerPacket

/-- The buffer that a builder call returns. -/
def make : ServerPacket → SendBuffer
  | udpHandshakeAck sessionId => makeSUdpHandshakeAck sessionId
  | lobbyPlayerMove mover userId posX posY posZ rot animState =>
      makeSLobbyPlayerMove mover userId posX posY posZ rot animState
  | lobbyPlayerLeave left => makeSLobbyPlayerLeave left
  | playerInfo sessionId info => makeSPlayerInfo sessionId info
  | buyWeaponResult sessionId success weaponType balance =>
      makeSBuyWeaponResult sessionId success weaponType balance

/-- The header that a builder fills in. -/
def header : ServerPacket → UdpPacketHeader
  | udpHandshakeAck sessionId => ⟨sessionId, 0, PacketType.sUdpHandshakeAck.value⟩
  | lobbyPlayerMove mover _ _ _ _ _ _ => ⟨mover, 0, PacketType.sLobbyPlayerMove.value⟩
  | lobbyPlayerLeave _ => ⟨0, 0, PacketType.sLobbyPlayerLeave.value⟩
  | playerInfo sessionId _ => ⟨sessionId, 0, PacketType.sPlayerInfo.value⟩
  | buyWeaponResult sessionId _ _ _ => ⟨sessionId, 0, PacketType.sPurchaseWeaponResult.value⟩

/-- A string on the wire. -/
def stringBytes (s : Bytes) : Bytes :=
  Pod.encode (UInt16.ofNat s.length) ++ s.take (UInt16.ofNat s.length).toNat

/-- The bytes of a packet behind its header. -/
def body : ServerPacket → Bytes
  | udpHandshakeAck sessionId => Pod.encode sessionId
  | lobbyPlayerMove mover userId posX posY posZ rot animState =>
      Pod.encode mover ++ Pod.encode posX ++ Pod.encode posY ++ Pod.encode posZ ++
        Pod.encode rot ++ Pod.encode animState ++ stringBytes userId
  | lobbyPlayerLeave left => Pod.encode left
  | playerInfo sessionId info =>
      Pod.encode sessionId ++ Pod.encode info.hp ++ Pod.encode info.balance ++
        Pod.encode info.charType ++ Pod.encode info.posX ++ Pod.encode info.posY ++
        Pod.encode info.posZ ++ Pod.encode info.rot ++ Pod.encode info.weapon ++
        Pod.encode info.ammoType ++ Pod.encode info.ammo ++ stringBytes info.nickname ++
        stringBytes info.scene
  | buyWeaponResult sessionId success weaponType balance =>
      Pod.encode sessionId ++ Pod.encode (successByte success) ++ Pod.encode weaponType ++
        Pod.encode balance

/-- A string takes its prefix and at most 65535 bytes. -/
theorem length_stringBytes (s : Bytes) :
    (stringBytes s).length = 2 + s.length % 2 ^ 16 := by
  rw [stringBytes, List.length_append, Pod.length_encode, List.length_take, UInt16.toNat_ofNat',
    Nat.min_eq_left (Nat.mod_le _ _), Pod.size_uint16]

/-- The length of a packet of each kind. -/
theorem length_body (p : ServerPacket) :
    p.body.length = match p with
      | udpHandshakeAck _ => 8
      | lobbyPlayerMove _ userId _ _ _ _ _ => 27 + userId.length % 2 ^ 16
      | lobbyPlayerLeave _ => 8
      | playerInfo _ info => 56 + info.nickname.length % 2 ^ 16 + info.scene.length % 2 ^ 16
      | buyWeaponResult _ _ _ _ => 21 := by
  cases p with
  | udpHandshakeAck => simp [body]
  | lobbyPlayerMove => simp [body, length_stringBytes]; omega
  | lobbyPlayerLeave => simp [body]
  | playerInfo => simp [body, length_stringBytes]; omega
  | buyWeaponResult => simp [body]

/-- No body comes near the range of the cursor. -/
theorem length_body_lt (p : ServerPacket) : p.body.length < 2 ^ 18 := by
  rw [length_body]
  split <;> omega

end ServerPacket

open BufferWriter in
theorem wrote_putString {alloc : ℕ} {bw : BufferWriter} {out : Bytes} (h : Wrote alloc bw out)
    (s : Bytes) (hfit : out.length + (ServerPacket.stringBytes s).length < 2 ^ 32) :
    Wrote alloc (putString bw s) (out ++ ServerPacket.stringBytes s) := by
  have hlen := ServerPacket.length_stringBytes s
  have htake : (s.take (UInt16.ofNat s.length).toNat).length = s.length % 2 ^ 16 := by
    rw [List.length_take, UInt16.toNat_ofNat', Nat.min_eq_left (Nat.mod_le _ _)]
  have h₁ := h.put (UInt16.ofNat s.length) (by rw [Pod.size_uint16]; omega)
  have h₂ := h₁.putBytes (s.take (UInt16.ofNat s.length).toNat) (by
    rw [List.length_append, Pod.length_encode, Pod.size_uint16, htake]
    omega)
  rwa [List.append_assoc] at h₂

/-- A builder whose stores write `body` behind the reserved header writes the header and `body`. -/
theorem wrote_makePacket (header : UdpPacketHeader) (f : BufferWriter → BufferWriter)
    (body : Bytes)
    (hf : ∀ bw, BufferWriter.Wrote udpMaxPacket bw (List.replicate udpPacketHeaderSize 0) →
      BufferWriter.Wrote udpMaxPacket (f bw) (List.replicate udpPacketHeaderSize 0 ++ body)) :
    ∃ bw, makePacket header f = SendBuffer.ofWriter bw ∧
      BufferWriter.Wrote udpMaxPacket bw (header.encode ++ body) := by
  obtain ⟨bw, hreserve, hbw⟩ := SendBuffer.wrote_reserve udpMaxPacket udpPacketHeaderSize
    (by decide) (by decide)
  refine ⟨header.store (some 0) (f bw), ?_, header.wrote_store (hf bw hbw)⟩
  unfold makePacket
  simp only [hreserve]

namespace ServerPacket

open BufferWriter in
/-- **A builder writes its header and its body**, in this order and nothing else. -/
theorem wrote_make (p : ServerPacket) :
    ∃ bw, p.make = SendBuffer.ofWriter bw ∧ Wrote udpMaxPacket bw (p.header.encode ++ p.body) := by
  have hlt := p.length_body_lt
  have hheader : (List.replicate udpPacketHeaderSize (0 : UInt8)).length = 14 := by decide
  cases p with
  | udpHandshakeAck sessionId =>
      simp only [make, makeSUdpHandshakeAck, header, body]
      apply wrote_makePacket _ _ _
      intro bw h
      exact h.put sessionId (by rw [hheader]; simp)
  | lobbyPlayerMove mover userId posX posY posZ rot animState =>
      simp only [make, makeSLobbyPlayerMove, header, body]
      apply wrote_makePacket _ _ _
      intro bw h
      have h := h.put mover (by rw [hheader]; simp)
      have h := h.put posX (by simp [udpPacketHeaderSize])
      have h := h.put posY (by simp [udpPacketHeaderSize])
      have h := h.put posZ (by simp [udpPacketHeaderSize])
      have h := h.put rot (by simp [udpPacketHeaderSize])
      have h := h.put animState (by simp [udpPacketHeaderSize])
      have h := wrote_putString h userId (by
        simp [udpPacketHeaderSize, length_stringBytes]
        omega)
      simpa using h
  | lobbyPlayerLeave left =>
      simp only [make, makeSLobbyPlayerLeave, header, body]
      apply wrote_makePacket _ _ _
      intro bw h
      exact h.put left (by rw [hheader]; simp)
  | playerInfo sessionId info =>
      simp only [make, makeSPlayerInfo, header, body]
      apply wrote_makePacket _ _ _
      intro bw h
      have h := h.put sessionId (by rw [hheader]; simp)
      have h := h.put info.hp (by simp [udpPacketHeaderSize])
      have h := h.put info.balance (by simp [udpPacketHeaderSize])
      have h := h.put info.charType (by simp [udpPacketHeaderSize])
      have h := h.put info.posX (by simp [udpPacketHeaderSize])
      have h := h.put info.posY (by simp [udpPacketHeaderSize])
      have h := h.put info.posZ (by simp [udpPacketHeaderSize])
      have h := h.put info.rot (by simp [udpPacketHeaderSize])
      have h := h.put info.weapon (by simp [udpPacketHeaderSize])
      have h := h.put info.ammoType (by simp [udpPacketHeaderSize])
      have h := h.put info.ammo (by simp [udpPacketHeaderSize])
      have h := wrote_putString h info.nickname (by
        simp [udpPacketHeaderSize, length_stringBytes]
        omega)
      have h := wrote_putString h info.scene (by
        simp [udpPacketHeaderSize, length_stringBytes]
        omega)
      simpa using h
  | buyWeaponResult sessionId success weaponType balance =>
      simp only [make, makeSBuyWeaponResult, header, body]
      apply wrote_makePacket _ _ _
      intro bw h
      have h := h.put sessionId (by rw [hheader]; simp)
      have h := h.put (successByte success) (by simp [udpPacketHeaderSize])
      have h := h.put weaponType (by simp [udpPacketHeaderSize])
      have h := h.put balance (by simp [udpPacketHeaderSize])
      simpa using h

/-- **A builder stays inside its allocation exactly when the packet fits.** -/
theorem inBounds_make_iff (p : ServerPacket) :
    p.make.InBounds ↔ p.body.length ≤ udpMaxPayload := by
  obtain ⟨bw, hmake, hbw⟩ := p.wrote_make
  rw [hmake, SendBuffer.inBounds_ofWriter_iff hbw, List.length_append,
    UdpPacketHeader.length_encode, udpMaxPacket, Nat.add_le_add_iff_left]

/-- A packet that fits is sent as its header and its body. -/
theorem bytes_make (p : ServerPacket) (h : p.body.length ≤ udpMaxPayload) :
    p.make.bytes = p.header.encode ++ p.body := by
  obtain ⟨bw, hmake, hbw⟩ := p.wrote_make
  rw [hmake, SendBuffer.bytes_ofWriter hbw]
  rw [List.length_append, UdpPacketHeader.length_encode, udpMaxPacket]
  omega

end ServerPacket

end CowboyPoker.GameServer
