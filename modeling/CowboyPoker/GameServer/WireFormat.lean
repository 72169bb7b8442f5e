import CowboyPoker.GameServer.Packets

/-!
# The wire format of the server

What a client gets that reads the packets of the server back.

* `readPacket` — the header, and behind it the reads of a `BufferReader` for the packet that the id of
  the header announces, field by field in the order of the builder.
* `ServerPacket.received` — the arguments of a builder that reach the wire: a user id of a record is
  not sent, and of a string no more than its length modulo 65536 says.
* `readPacket_make` — a packet that fits is read back as what its builder sent, and the reads end at
  `WriteSize`.
* `unambiguous_iff` — two packets that fit are read back as the arguments of their builders, and are
  equal only for equal arguments, exactly when all strings are shorter than 65536 bytes.
-/

namespace CowboyPoker.GameServer

open CowboyPoker.Found
open CowboyPoker.ServerCore

/-! ## Reading packets -/

/-- A length prefix of 16 bits and as many bytes as it says. -/
def readString (br : BufferReader) : Bytes × BufferReader :=
  let (len, br) : UInt16 × BufferReader := br.get
  br.getBytes len.toNat

/-- The fields of `Make_S_UDP_HANDSHAKE_ACK`. -/
def readUdpHandshakeAck (br : BufferReader) : ServerPacket × BufferReader :=
  let (sessionId, br) : UInt64 × BufferReader := br.get
  (.udpHandshakeAck sessionId, br)

/-- The fields of `Make_S_LOBBY_PLAYER_LEAVE`. -/
def readLobbyPlayerLeave (br : BufferReader) : ServerPacket × BufferReader :=
  let (leftSessionId, br) : UInt64 × BufferReader := br.get
  (.lobbyPlayerLeave leftSessionId, br)

/-- The fields of `Make_S_LOBBY_PLAYER_MOVE`. -/
def readLobbyPlayerMove (br : BufferReader) : ServerPacket × BufferReader :=
  let (moverSessionId, br) : UInt64 × BufferReader := br.get
  let (posX, br) : UInt32 × BufferReader := br.get
  let (posY, br) : UInt32 × BufferReader := br.get
  let (posZ, br) : UInt32 × BufferReader := br.get
  let (rot, br) : UInt32 × BufferReader := br.get
  let (animState, br) : UInt8 × BufferReader := br.get
  let (userId, br) := readString br
  (.lobbyPlayerMove moverSessionId userId posX posY posZ rot animState, br)

/-- The fields of `Make_S_PLAYER_INFO`. -/
def readPlayerInfo (br : BufferReader) : ServerPacket × BufferReader :=
  let (sessionId, br) : UInt64 × BufferReader := br.get
  let (hp, br) : Int32 × BufferReader := br.get
  let (balance, br) : Int64 × BufferReader := br.get
  let (charType, br) : Int32 × BufferReader := br.get
  let (posX, br) : UInt32 × BufferReader := br.get
  let (posY, br) : UInt32 × BufferReader := br.get
  let (posZ, br) : UInt32 × BufferReader := br.get
  let (rot, br) : UInt32 × BufferReader := br.get
  let (weapon, br) : Int32 × BufferReader := br.get
  let (ammoType, br) : Int32 × BufferReader := br.get
  let (ammo, br) : Int32 × BufferReader := br.get
  let (nickname, br) := readString br
  let (scene, br) := readString br
  (.playerInfo sessionId
    { nickname, scene, hp, balance, charType, posX, posY, posZ, rot, weapon, ammoType, ammo }, br)

/-- The fields of `Make_S_BUY_WEAPON_RESULT`. -/
def readBuyWeaponResult (br : BufferReader) : ServerPacket × BufferReader :=
  let (sessionId, br) : UInt64 × BufferReader := br.get
  let (success, br) : UInt8 × BufferReader := br.get
  let (weaponType, br) : Int32 × BufferReader := br.get
  let (balance, br) : Int64 × BufferReader := br.get
  (.buyWeaponResult sessionId (success ≠ 0) weaponType balance, br)

/-- The header, the packet that it announces, and the number of bytes read. -/
def readPacket (bytes : Bytes) : Option (UdpPacketHeader × ServerPacket × ℕ) :=
  let header := UdpPacketHeader.read bytes
  let br : BufferReader := { buffer := bytes, size := bytes.length, pos := udpPacketHeaderSize }
  let fields : Option (ServerPacket × BufferReader) :=
    if header.id = PacketType.sUdpHandshakeAck.value then some (readUdpHandshakeAck br)
    else if header.id = PacketType.sLobbyPlayerMove.value then some (readLobbyPlayerMove br)
    else if header.id = PacketType.sLobbyPlayerLeave.value then some (readLobbyPlayerLeave br)
    else if header.id = PacketType.sPlayerInfo.value then some (readPlayerInfo br)
    else if header.id = PacketType.sPurchaseWeaponResult.value then some (readBuyWeaponResult br)
    else none
  fields.map fun (p, br) => (header, p, br.pos)

/-! ## What reaches the wire -/

/-- As many bytes of a string as the low 16 bits of its length say. -/
def cutString (s : Bytes) : Bytes := s.take (UInt16.ofNat s.length).toNat

/-- A string is sent whole if its length fits the prefix. -/
theorem cutString_eq_self_iff {s : Bytes} : cutString s = s ↔ s.length < 2 ^ 16 := by
  rw [cutString, List.take_eq_self_iff, UInt16.toNat_ofNat']
  omega

/-- The prefix announces the bytes that follow it. -/
theorem toNat_length_cutString (s : Bytes) :
    (UInt16.ofNat s.length).toNat = (cutString s).length := by
  rw [cutString, List.length_take, UInt16.toNat_ofNat']
  omega

namespace ServerPacket

/-- The arguments without the user id of a record, which is not sent. -/
def sent : ServerPacket → ServerPacket
  | playerInfo sessionId info => playerInfo sessionId { info with userId := [] }
  | p => p

/-- The arguments as they reach the wire. -/
def received : ServerPacket → ServerPacket
  | lobbyPlayerMove mover userId posX posY posZ rot animState =>
      lobbyPlayerMove mover (cutString userId) posX posY posZ rot animState
  | playerInfo sessionId info => playerInfo sessionId
      { info with userId := [], nickname := cutString info.nickname, scene := cutString info.scene }
  | p => p

/-- Every string among the arguments is shorter than 65536 bytes. -/
def ShortStrings : ServerPacket → Prop
  | lobbyPlayerMove _ userId _ _ _ _ _ => userId.length < 2 ^ 16
  | playerInfo _ info => info.nickname.length < 2 ^ 16 ∧ info.scene.length < 2 ^ 16
  | _ => True

/-- The arguments reach the wire exactly when every string is short. -/
theorem received_eq_sent_iff (p : ServerPacket) : p.received = p.sent ↔ p.ShortStrings := by
  cases p with
  | lobbyPlayerMove => simp [received, sent, ShortStrings, cutString_eq_self_iff]
  | playerInfo => simp [received, sent, ShortStrings, cutString_eq_self_iff]
  | udpHandshakeAck => simp [received, sent, ShortStrings]
  | lobbyPlayerLeave => simp [received, sent, ShortStrings]
  | buyWeaponResult => simp [received, sent, ShortStrings]

end ServerPacket

/-! ## Reading back -/

section reading

variable {br : BufferReader} {rest : Bytes}

/-- A string that comes next is read as far as it was written. -/
theorem unread_readString {s : Bytes} (h : br.Unread (ServerPacket.stringBytes s ++ rest)) :
    ∃ br', readString br = (cutString s, br') ∧ br'.buffer = br.buffer ∧ br'.Unread rest := by
  rw [ServerPacket.stringBytes, List.append_assoc] at h
  obtain ⟨br₁, hget, hbuffer₁, hrest⟩ := h.get
  obtain ⟨br₂, hbytes, hbuffer₂, hdone⟩ := hrest.getBytes
  refine ⟨br₂, ?_, hbuffer₂.trans hbuffer₁, hdone⟩
  simp only [readString, hget, toNat_length_cutString]
  exact hbytes

/-- The reads for a packet consume its body. -/
def Reads (read : BufferReader → ServerPacket × BufferReader) (body : Bytes) (p : ServerPacket) :
    Prop :=
  ∀ br : BufferReader, br.Unread body →
    ∃ br', read br = (p, br') ∧ br'.buffer = br.buffer ∧ br'.Unread []

/-- `S_UDP_HANDSHAKE_ACK` is read back. -/
theorem reads_udpHandshakeAck (sessionId : UInt64) :
    Reads readUdpHandshakeAck (ServerPacket.udpHandshakeAck sessionId).body
      (.udpHandshakeAck sessionId) := by
  intro br h
  rw [ServerPacket.body, ← List.append_nil (Pod.encode _)] at h
  obtain ⟨br₁, hget, hbuffer, hdone⟩ := h.get
  exact ⟨br₁, by simp only [readUdpHandshakeAck, hget], hbuffer, hdone⟩

/-- `S_LOBBY_PLAYER_LEAVE` is read back. -/
theorem reads_lobbyPlayerLeave (left : UInt64) :
    Reads readLobbyPlayerLeave (ServerPacket.lobbyPlayerLeave left).body
      (.lobbyPlayerLeave left) := by
  intro br h
  rw [ServerPacket.body, ← List.append_nil (Pod.encode _)] at h
  obtain ⟨br₁, hget, hbuffer, hdone⟩ := h.get
  exact ⟨br₁, by simp only [readLobbyPlayerLeave, hget], hbuffer, hdone⟩

/-- `S_LOBBY_PLAYER_MOVE` is read back, with its string cut. -/
theorem reads_lobbyPlayerMove (mover : UInt64) (userId : Bytes) (posX posY posZ rot : UInt32)
    (animState : UInt8) :
    Reads readLobbyPlayerMove
      (ServerPacket.lobbyPlayerMove mover userId posX posY posZ rot animState).body
      (ServerPacket.lobbyPlayerMove mover userId posX posY posZ rot animState).received := by
  intro br h
  rw [ServerPacket.body, ← List.append_nil (ServerPacket.stringBytes _)] at h
  simp only [List.append_assoc] at h
  obtain ⟨br₁, hmover, hb₁, h⟩ := h.get
  obtain ⟨br₂, hposX, hb₂, h⟩ := h.get
  obtain ⟨br₃, hposY, hb₃, h⟩ := h.get
  obtain ⟨br₄, hposZ, hb₄, h⟩ := h.get
  obtain ⟨br₅, hrot, hb₅, h⟩ := h.get
  obtain ⟨br₆, hanimState, hb₆, h⟩ := h.get
  obtain ⟨br₇, huserId, hb₇, h⟩ := unread_readString h
  refine ⟨br₇, ?_, ?_, h⟩
  · simp only [readLobbyPlayerMove, hmover, hposX, hposY, hposZ, hrot, hanimState, huserId,
      ServerPacket.received]
  · rw [hb₇, hb₆, hb₅, hb₄, hb₃, hb₂, hb₁]

/-- `S_PLAYER_INFO` is read back, with its strings cut. -/
theorem reads_playerInfo (sessionId : UInt64) (info : PlayerRedisInfo) :
    Reads readPlayerInfo (ServerPacket.playerInfo sessionId info).body
      (ServerPacket.playerInfo sessionId info).received := by
  intro br h
  rw [ServerPacket.body, ← List.append_nil (ServerPacket.stringBytes info.scene)] at h
  simp only [List.append_assoc] at h
  obtain ⟨br₁, hsessionId, hb₁, h⟩ := h.get
  obtain ⟨br₂, hhp, hb₂, h⟩ := h.get
  obtain ⟨br₃, hbalance, hb₃, h⟩ := h.get
  obtain ⟨br₄, hcharType, hb₄, h⟩ := h.get
  obtain ⟨br₅, hposX, hb₅, h⟩ := h.get
  obtain ⟨br₆, hposY, hb₆, h⟩ := h.get
  obtain ⟨br₇, hposZ, hb₇, h⟩ := h.get
  obtain ⟨br₈, hrot, hb₈, h⟩ := h.get
  obtain ⟨br₉, hweapon, hb₉, h⟩ := h.get
  obtain ⟨br₁₀, hammoType, hb₁₀, h⟩ := h.get
  obtain ⟨br₁₁, hammo, hb₁₁, h⟩ := h.get
  obtain ⟨br₁₂, hnickname, hb₁₂, h⟩ := unread_readString h
  obtain ⟨br₁₃, hscene, hb₁₃, h⟩ := unread_readString h
  refine ⟨br₁₃, ?_, ?_, h⟩
  · simp only [readPlayerInfo, hsessionId, hhp, hbalance, hcharType, hposX, hposY, hposZ, hrot,
      hweapon, hammoType, hammo, hnickname, hscene, ServerPacket.received]
  · rw [hb₁₃, hb₁₂, hb₁₁, hb₁₀, hb₉, hb₈, hb₇, hb₆, hb₅, hb₄, hb₃, hb₂, hb₁]

/-- `S_BUY_WEAPON_RESULT` is read back. -/
theorem reads_buyWeaponResult (sessionId : UInt64) (success : Bool) (weaponType : Int32)
    (balance : Int64) :
    Reads readBuyWeaponResult
      (ServerPacket.buyWeaponResult sessionId success weaponType balance).body
      (.buyWeaponResult sessionId success weaponType balance) := by
  intro br h
  rw [ServerPacket.body, ← List.append_nil (Pod.encode balance)] at h
  simp only [List.append_assoc] at h
  obtain ⟨br₁, hsessionId, hb₁, h⟩ := h.get
  obtain ⟨br₂, hsuccess, hb₂, h⟩ := h.get
  obtain ⟨br₃, hweaponType, hb₃, h⟩ := h.get
  obtain ⟨br₄, hbalance, hb₄, h⟩ := h.get
  refine ⟨br₄, ?_, ?_, h⟩
  · have hbyte : decide (successByte success ≠ 0) = success := by cases success <;> rfl
    simp only [readBuyWeaponResult, hsessionId, hsuccess, hweaponType, hbalance, hbyte]
  · rw [hb₄, hb₃, hb₂, hb₁]

end reading

/-! ## The round trip -/

namespace ServerPacket

/-- The packet fits the buffer of its builder. -/
def Fits (p : ServerPacket) : Prop := p.make.writeSize ≤ udpMaxPacket

/-- A packet takes its header and its body. -/
theorem writeSize_make (p : ServerPacket) :
    p.make.writeSize = udpPacketHeaderSize + p.body.length := by
  obtain ⟨bw, hmake, hbw⟩ := p.wrote_make
  rw [hmake, SendBuffer.ofWriter, hbw.pos, List.length_append, UdpPacketHeader.length_encode]

/-- A packet that fits is its header and its body. -/
theorem bytes_of_fits {p : ServerPacket} (h : p.Fits) : p.make.bytes = p.header.encode ++ p.body := by
  apply p.bytes_make
  rw [Fits, writeSize_make, udpMaxPacket] at h
  omega

end ServerPacket

/-- The packet announced by the header of `p` is read with the fields of `p`. -/
theorem readPacket_of_reads {p q : ServerPacket} {read : BufferReader → ServerPacket × BufferReader}
    (hread : Reads read p.body q)
    (hfields : ∀ br, (if p.header.id = PacketType.sUdpHandshakeAck.value then
        some (readUdpHandshakeAck br)
      else if p.header.id = PacketType.sLobbyPlayerMove.value then some (readLobbyPlayerMove br)
      else if p.header.id = PacketType.sLobbyPlayerLeave.value then some (readLobbyPlayerLeave br)
      else if p.header.id = PacketType.sPlayerInfo.value then some (readPlayerInfo br)
      else if p.header.id = PacketType.sPurchaseWeaponResult.value then
        some (readBuyWeaponResult br)
      else none) = some (read br)) :
    readPacket (p.header.encode ++ p.body) =
      some (p.header, q, udpPacketHeaderSize + p.body.length) := by
  have hlen := p.length_body_lt
  have hheader := p.header.length_encode
  have hunread : BufferReader.Unread { buffer := p.header.encode ++ p.body
                                       size := (p.header.encode ++ p.body).length
                                       pos := udpPacketHeaderSize } p.body := by
    refine ⟨List.drop_left' hheader, ?_, ?_⟩
    · simp only [List.length_append, hheader]
      omega
    · simp only [List.length_append, hheader, udpPacketHeaderSize]
      omega
  obtain ⟨br, hq, hbuffer, hdone⟩ := hread _ hunread
  have hpos := hdone.pos_add
  rw [List.length_nil, Nat.add_zero, hbuffer, List.length_append, hheader] at hpos
  simp only [readPacket, UdpPacketHeader.read_encode_append, hfields, hq, Option.map_some, hpos]

/-- **Reading back.** A packet that fits is read as its header and what its builder sent, and the reads
end at `WriteSize`. -/
theorem readPacket_make {p : ServerPacket} (h : p.Fits) :
    readPacket p.make.bytes = some (p.header, p.received, p.make.writeSize) := by
  rw [ServerPacket.bytes_of_fits h, ServerPacket.writeSize_make]
  cases p with
  | udpHandshakeAck sessionId =>
      exact readPacket_of_reads (reads_udpHandshakeAck sessionId) fun _ => rfl
  | lobbyPlayerMove mover userId posX posY posZ rot animState =>
      exact readPacket_of_reads (reads_lobbyPlayerMove mover userId posX posY posZ rot animState)
        fun _ => rfl
  | lobbyPlayerLeave left => exact readPacket_of_reads (reads_lobbyPlayerLeave left) fun _ => rfl
  | playerInfo sessionId info =>
      exact readPacket_of_reads (reads_playerInfo sessionId info) fun _ => rfl
  | buyWeaponResult sessionId success weaponType balance =>
      exact readPacket_of_reads (reads_buyWeaponResult sessionId success weaponType balance)
        fun _ => rfl

/-- The packet is read back as the arguments of its builder, and the reads end at `WriteSize`. -/
def RoundTrips (p : ServerPacket) : Prop :=
  readPacket p.make.bytes = some (p.header, p.sent, p.make.writeSize)

/-- A packet that fits is read back as it was exactly if its strings are short. -/
theorem roundTrips_iff {p : ServerPacket} (h : p.Fits) : RoundTrips p ↔ p.ShortStrings := by
  rw [RoundTrips, readPacket_make h, ← p.received_eq_sent_iff]
  simp

/-- **The wire format.** Two packets that fit are read back as the arguments of their builders, and are
equal only for the same builder with the same arguments, exactly when all strings among the arguments
are shorter than 65536 bytes. -/
theorem unambiguous_iff {p q : ServerPacket} (hp : p.Fits) (hq : q.Fits) :
    (RoundTrips p ∧ RoundTrips q ∧ (p.make.bytes = q.make.bytes → p.sent = q.sent)) ↔
      p.ShortStrings ∧ q.ShortStrings := by
  rw [roundTrips_iff hp, roundTrips_iff hq]
  constructor
  · rintro ⟨hshort, hshort', -⟩
    exact ⟨hshort, hshort'⟩
  · rintro ⟨hshort, hshort'⟩
    refine ⟨hshort, hshort', fun hbytes => ?_⟩
    have hread := readPacket_make hp
    rw [hbytes, readPacket_make hq] at hread
    have hreceived : q.received = p.received :=
      (Prod.mk.inj (Prod.mk.inj (Option.some.inj hread)).2).1
    rw [← p.received_eq_sent_iff.mpr hshort, ← q.received_eq_sent_iff.mpr hshort', hreceived]

/-- A move of user `A`. -/
def moveOfA : ServerPacket := .lobbyPlayerMove 1 [65] 0 0 0 0 2

/-- The record of a user in the lobby. -/
def infoOfCow : ServerPacket := .playerInfo 1 { nickname := ascii "Cow", scene := ascii "Lobby" }

/-- Both carry strings. -/
theorem unambiguous_iff_move_info :
    RoundTrips moveOfA ∧ RoundTrips infoOfCow ∧
      (moveOfA.make.bytes = infoOfCow.make.bytes → moveOfA.sent = infoOfCow.sent) :=
  (unambiguous_iff (show moveOfA.Fits by unfold ServerPacket.Fits; decide)
    (show infoOfCow.Fits by unfold ServerPacket.Fits; decide)).mpr
      ⟨show [65].length < 2 ^ 16 by decide, show _ ∧ _ by decide⟩

/-- The record of a user whose nickname has `n` letters. -/
def nicknameOf (n : ℕ) : ServerPacket := .playerInfo 1 { nickname := List.replicate n 65 }

/-- A nickname of 65536 letters is announced as empty: the packet fits, is read back without a
nickname, and is the packet of a user who has none. -/
theorem not_roundTrips_longNickname :
    (nicknameOf 65536).Fits ∧ ¬ RoundTrips (nicknameOf 65536) ∧
      (nicknameOf 65536).make.bytes = (nicknameOf 0).make.bytes ∧
      (nicknameOf 65536).sent ≠ (nicknameOf 0).sent := by
  have hfits : ∀ n, n % 2 ^ 16 = 0 → (nicknameOf n).Fits := by
    intro n hn
    rw [ServerPacket.Fits, ServerPacket.writeSize_make, ServerPacket.length_body]
    simp only [nicknameOf, List.length_replicate, hn]
    decide
  have hlong := hfits 65536 rfl
  refine ⟨hlong, ?_, ?_, ?_⟩
  · rw [roundTrips_iff hlong]
    rintro ⟨hshort, -⟩
    rw [List.length_replicate] at hshort
    exact absurd hshort (by decide)
  · rw [ServerPacket.bytes_of_fits hlong, ServerPacket.bytes_of_fits (hfits 0 rfl)]
    have hcut : ServerPacket.stringBytes (List.replicate 65536 65) =
        ServerPacket.stringBytes (List.replicate 0 65) := by
      simp only [ServerPacket.stringBytes, List.length_replicate]
      rfl
    simp only [nicknameOf, ServerPacket.header, ServerPacket.body, hcut]
  · intro hsame
    have hnickname := congrArg (fun p : ServerPacket => match p with
      | .playerInfo _ info => info.nickname.length
      | _ => 0) hsame
    simp only [nicknameOf, ServerPacket.sent, List.length_replicate] at hnickname
    exact absurd hnickname (by decide)

end CowboyPoker.GameServer
