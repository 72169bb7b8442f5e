import CowboyPoker.GameServer.Handshakes

/-!
# The grammars of the datagrams

The three handlers that parse a payload, and the reads of a datagram from `OnRecvPacket` down.

* `HelloFits`, `MoveFits`, `PurchaseFits` — the payload is as long as its grammar and the length that
  it declares ask for.
* `parseUdpHello_append`, `parseBuyWeapon_append`, `handleCLobbyMove_append` — what each handler reads
  of a payload, whatever bytes of earlier datagrams lie behind it in the receive buffer.
* `readsOf` — the ranges of the receive buffer that one datagram makes the server read.
* `datagram_law` — from every state that is reached, a datagram is read within its length, and each of
  the three handlers acts on exactly the payloads that fit.
-/

namespace CowboyPoker.GameServer

open CowboyPoker.Found
open CowboyPoker.ServerCore
open UdpService

variable {ρ : Type} {B : Backend ρ}

/-! ## The grammars -/

/-- The length that the prefix of a payload declares. -/
def declaredLen (payload : Bytes) : ℕ := (Pod.read payload 0 : UInt16).toNat

/-- The bytes that the prefix announces. -/
def declaredUser (payload : Bytes) : Bytes := (payload.drop 2).take (declaredLen payload)

/-- The little-endian 32-bit number behind the announced bytes. -/
def declaredWeapon (payload : Bytes) : Int32 := Pod.read payload (2 + declaredLen payload)

/-- `[userIdLen:u16][userId]` lies inside the payload. -/
def HelloFits (payload : Bytes) : Prop :=
  2 ≤ payload.length ∧ declaredLen payload ≤ payload.length - 2

/-- `[posX:f32][posY:f32][posZ:f32][rot:f32][animState:u8]` lies inside the payload. -/
def MoveFits (payload : Bytes) : Prop := 17 ≤ payload.length

/-- `[userIdLen:u16][userId][weaponType:i32]` lies inside the payload. -/
def PurchaseFits (payload : Bytes) : Prop :=
  6 ≤ payload.length ∧ 2 + declaredLen payload + 4 ≤ payload.length

instance (payload : Bytes) : Decidable (HelloFits payload) :=
  inferInstanceAs (Decidable (_ ∧ _))

instance (payload : Bytes) : Decidable (MoveFits payload) :=
  inferInstanceAs (Decidable (_ ≤ _))

instance (payload : Bytes) : Decidable (PurchaseFits payload) :=
  inferInstanceAs (Decidable (_ ∧ _))

/-- The relay of a move: the seventeen bytes of the payload, in the name of the context. -/
def relayedMove (ctx : UdpClientContext) (payload : Bytes) : ServerPacket :=
  .lobbyPlayerMove ctx.sessionId ctx.userId (Pod.read payload 0) (Pod.read payload 4)
    (Pod.read payload 8) (Pod.read payload 12) (Pod.read payload 16)

section parsers

variable {payload : Bytes}

/-- A user that fits has the declared length. -/
theorem length_declaredUser (h : 2 + declaredLen payload ≤ payload.length) :
    (declaredUser payload).length = declaredLen payload := by
  rw [declaredUser, List.length_take, List.length_drop, Nat.min_eq_left (by omega)]

/-- The prefix is read from the payload. -/
theorem read_prefix (h : 2 ≤ payload.length) (tail : Bytes) :
    (Pod.read (payload ++ tail) 0 : UInt16).toNat = declaredLen payload := by
  rw [declaredLen, Pod.read_append_left payload tail (by rwa [Pod.size_uint16, Nat.zero_add])]

/-- What is left behind the prefix. -/
theorem freeSize_behind_prefix {n : ℕ} (h : 2 ≤ n) (hlen : n < 2 ^ 32) :
    (n + 2 ^ 32 - (0 + 2) % 2 ^ 32) % 2 ^ 32 = n - 2 := by
  omega

/-- **What `Handle_C_UDP_HELLO` reads of a payload.** -/
theorem parseUdpHello_append (hlen : payload.length < 2 ^ 32) (tail : Bytes) :
    parseUdpHello (payload ++ tail) payload.length =
      if HelloFits payload then
        (some (declaredUser payload), [⟨0, 2⟩, ⟨2, declaredLen payload⟩])
      else (none, if 2 ≤ payload.length then [⟨0, 2⟩] else []) := by
  unfold parseUdpHello
  by_cases htwo : (payload.length : ℤ) < 2
  · have hshort : ¬ 2 ≤ payload.length := by omega
    rw [if_pos htwo, if_neg fun h => hshort h.1, if_neg hshort]
  · have hlong : 2 ≤ payload.length := by omega
    rw [if_neg htwo]
    simp only [BufferReader.get, BufferReader.freeSize, Int.toNat_natCast, Pod.size_uint16,
      read_prefix hlong tail, freeSize_behind_prefix hlong hlen, List.nil_append]
    by_cases hfits : payload.length - 2 < declaredLen payload
    · rw [if_pos hfits, if_neg fun h : HelloFits payload => absurd h.2 (not_le.mpr hfits),
        if_pos hlong]
    · rw [if_neg hfits, if_pos ⟨hlong, not_lt.mp hfits⟩, declaredUser,
        List.drop_append_of_le_length hlong, List.take_append_of_le_length]
      · rfl
      · rw [List.length_drop]
        omega

/-- **What `Handle_C_BUY_WEAPON` reads of a payload.** -/
theorem parseBuyWeapon_append (hlen : payload.length < 2 ^ 32) (tail : Bytes) :
    parseBuyWeapon (payload ++ tail) payload.length =
      if PurchaseFits payload then
        (some (declaredUser payload, declaredWeapon payload),
          [⟨0, 2⟩, ⟨2, declaredLen payload⟩, ⟨2 + declaredLen payload, 4⟩])
      else (none, if 6 ≤ payload.length then [⟨0, 2⟩] else []) := by
  unfold parseBuyWeapon
  by_cases hsix : (payload.length : ℤ) < 6
  · have hshort : ¬ 6 ≤ payload.length := by omega
    rw [if_pos hsix, if_neg fun h => hshort h.1, if_neg hshort]
  · have hlong : 6 ≤ payload.length := by omega
    have htwo : 2 ≤ payload.length := by omega
    rw [if_neg hsix]
    simp only [BufferReader.get, BufferReader.freeSize, Int.toNat_natCast, Pod.size_uint16,
      read_prefix htwo tail, freeSize_behind_prefix htwo hlen, List.nil_append]
    by_cases hfits : payload.length - 2 < declaredLen payload + 4
    · have hnot : ¬ PurchaseFits payload := by
        rintro ⟨-, hrest⟩
        omega
      rw [if_pos hfits, if_neg hnot, if_pos hlong]
    · have hrest : 2 + declaredLen payload + 4 ≤ payload.length := by omega
      have hweapon : (Pod.read (payload ++ tail) (2 + declaredLen payload) : Int32) =
          declaredWeapon payload := Pod.read_append_left payload tail hrest
      rw [if_neg hfits, if_pos ⟨hlong, hrest⟩, hweapon, declaredUser,
        List.drop_append_of_le_length htwo, List.take_append_of_le_length]
      · rfl
      · rw [List.length_drop]
        omega

/-- **What `Handle_C_LOBBY_MOVE` does with a payload.** -/
theorem handleCLobbyMove_append (ctx : UdpClientContext) (rc : RedisClient ρ) (payload tail : Bytes) :
    handleCLobbyMove ctx rc (payload ++ tail) payload.length =
      if MoveFits payload then
        { ctx, redis := rc
          requests := [.broadcastExcept ctx.sessionId (relayedMove ctx payload)]
          reads := [⟨0, 4⟩, ⟨4, 4⟩, ⟨8, 4⟩, ⟨12, 4⟩, ⟨16, 1⟩] }
      else { ctx, redis := rc } := by
  unfold handleCLobbyMove
  by_cases hfits : MoveFits payload
  · have hlong : 17 ≤ payload.length := hfits
    have hread : ∀ off, off + 4 ≤ 17 →
        (Pod.read (payload ++ tail) off : UInt32) = Pod.read payload off := by
      intro off hoff
      apply Pod.read_append_left
      rw [Pod.size_uint32]
      omega
    have hstate : (Pod.read (payload ++ tail) 16 : UInt8) = Pod.read payload 16 :=
      Pod.read_append_left payload tail hlong
    rw [if_neg (by omega), if_pos hfits]
    simp only [BufferReader.get, Pod.size_uint32, Pod.size_uint8, Nat.zero_add, Nat.reducePow,
      Nat.reduceMod, Nat.reduceAdd, List.nil_append, List.cons_append, relayedMove, hstate,
      hread 0 (by omega), hread 4 (by omega), hread 8 (by omega), hread 12 (by omega)]
  · have hshort : (payload.length : ℤ) < 17 := by
      unfold MoveFits at hfits
      omega
    rw [if_pos hshort, if_neg hfits]

end parsers

/-! ## Reads -/

section reads

variable {ctx : UdpClientContext} {rc : RedisClient ρ} {user : Bytes} {now : ℤ}

/-- Binding a user reads no more of the payload. -/
theorem reads_bindUser (reads : List Span) : (bindUser B ctx rc user reads).reads = reads := by
  unfold bindUser
  dsimp only
  split <;> rfl

/-- Buying a weapon reads no more of the payload. -/
theorem reads_buyWeapon (weaponType : Int32) (reads : List Span) :
    (buyWeapon B ctx rc user weaponType reads).reads = reads := by
  unfold buyWeapon
  dsimp only
  rcases findWeapon weaponType with _ | weapon
  · rfl
  · dsimp only
    rcases rc.getBalance B user with ⟨e | _ | balance, rc₁⟩
    · rfl
    · rfl
    · dsimp only
      by_cases hprice : balance < weapon.price
      · rw [if_pos hprice]
      · rw [if_neg hprice]
        split
        · rfl
        · split <;> rfl

/-- A shot reads nothing of the payload. -/
theorem reads_handleCGunShotLobby : (handleCGunShotLobby B ctx rc).reads = [] := by
  unfold handleCGunShotLobby
  by_cases hempty : ctx.userId = []
  · rw [if_pos hempty]
  · rw [if_neg hempty]
    split <;> rfl

/-- What `Handle_C_UDP_HELLO` reads lies inside the payload. -/
theorem reads_parseUdpHello {payload : Bytes} (hlen : payload.length < 2 ^ 32) :
    ∀ span ∈ (parseUdpHello payload payload.length).2, span.stop ≤ payload.length := by
  have hparse := parseUdpHello_append hlen []
  rw [List.append_nil] at hparse
  rw [hparse]
  by_cases hfits : HelloFits payload
  · obtain ⟨htwo, hrest⟩ := hfits
    rw [if_pos ⟨htwo, hrest⟩]
    simp only [List.mem_cons, List.not_mem_nil, or_false, Span.stop]
    rintro span (rfl | rfl)
    · exact htwo
    · dsimp only
      omega
  · rw [if_neg hfits]
    dsimp only
    split_ifs with htwo
    · simp only [List.mem_singleton, Span.stop]
      rintro span rfl
      exact htwo
    · exact fun span h => absurd h List.not_mem_nil

/-- What `Handle_C_BUY_WEAPON` reads lies inside the payload. -/
theorem reads_parseBuyWeapon {payload : Bytes} (hlen : payload.length < 2 ^ 32) :
    ∀ span ∈ (parseBuyWeapon payload payload.length).2, span.stop ≤ payload.length := by
  have hparse := parseBuyWeapon_append hlen []
  rw [List.append_nil] at hparse
  rw [hparse]
  by_cases hfits : PurchaseFits payload
  · obtain ⟨hsix, hrest⟩ := hfits
    rw [if_pos ⟨hsix, hrest⟩]
    simp only [List.mem_cons, List.not_mem_nil, or_false, Span.stop]
    rintro span (rfl | rfl | rfl) <;> dsimp only <;> omega
  · rw [if_neg hfits]
    dsimp only
    split_ifs with hsix
    · simp only [List.mem_singleton, Span.stop]
      rintro span rfl
      dsimp only
      omega
    · exact fun span h => absurd h List.not_mem_nil

/-- What `Handle_C_LOBBY_MOVE` reads lies inside the payload. -/
theorem reads_handleCLobbyMove (payload : Bytes) :
    ∀ span ∈ (handleCLobbyMove ctx rc payload payload.length).reads,
      span.stop ≤ payload.length := by
  have hmove := handleCLobbyMove_append ctx rc payload []
  rw [List.append_nil] at hmove
  rw [hmove]
  by_cases hfits : MoveFits payload
  · have hlong : 17 ≤ payload.length := hfits
    rw [if_pos hfits]
    simp only [List.mem_cons, List.not_mem_nil, or_false, Span.stop]
    rintro span (rfl | rfl | rfl | rfl | rfl) <;> dsimp only <;> omega
  · rw [if_neg hfits]
    exact fun span h => absurd h List.not_mem_nil

/-- **Every handler reads inside the payload.** -/
theorem reads_handlePacket {data : Bytes} (hheader : udpPacketHeaderSize ≤ data.length)
    (hlen : data.length < 2 ^ 32) :
    ∀ span ∈ (handlePacket B ctx rc data data.length now).reads,
      (span.shift udpPacketHeaderSize).stop ≤ data.length := by
  have hpayload : (data.length : ℤ) - udpPacketHeaderSize =
      (data.drop udpPacketHeaderSize).length := by
    rw [List.length_drop]
    omega
  have hshort : (data.drop udpPacketHeaderSize).length < 2 ^ 32 := by
    rw [List.length_drop]
    omega
  have hinside : ∀ spans : List Span,
      (∀ span ∈ spans, span.stop ≤ (data.drop udpPacketHeaderSize).length) →
      ∀ span ∈ spans, (span.shift udpPacketHeaderSize).stop ≤ data.length := by
    intro spans h span hspan
    have hstop := h span hspan
    simp only [Span.stop, Span.shift, List.length_drop] at hstop ⊢
    omega
  apply hinside
  simp only [handlePacket, hpayload]
  split
  · have hreads := reads_parseUdpHello hshort
    unfold handleCUdpHello
    generalize parseUdpHello (data.drop udpPacketHeaderSize)
      (data.drop udpPacketHeaderSize).length = out at hreads
    obtain ⟨_ | user, reads⟩ := out
    · exact hreads
    · dsimp only
      rw [reads_bindUser]
      exact hreads
  · exact reads_handleCLobbyMove _
  · exact fun span h => absurd h List.not_mem_nil
  · have hreads := reads_parseBuyWeapon hshort
    unfold handleCBuyWeapon
    generalize parseBuyWeapon (data.drop udpPacketHeaderSize)
      (data.drop udpPacketHeaderSize).length = out at hreads
    obtain ⟨_ | ⟨user, weaponType⟩, reads⟩ := out
    · exact hreads
    · dsimp only
      rw [reads_buyWeapon]
      exact hreads
  · rw [reads_handleCGunShotLobby]
    exact fun span h => absurd h List.not_mem_nil
  · exact fun span h => absurd h List.not_mem_nil

/-- **What lies behind the datagram in the receive buffer does not matter.** -/
theorem handlePacket_append {data : Bytes} (hheader : udpPacketHeaderSize ≤ data.length)
    (hlen : data.length < 2 ^ 32) (tail : Bytes) :
    handlePacket B ctx rc (data ++ tail) data.length now =
      handlePacket B ctx rc data data.length now := by
  have hpayload : (data.length : ℤ) - udpPacketHeaderSize =
      (data.drop udpPacketHeaderSize).length := by
    rw [List.length_drop]
    omega
  have hshort : (data.drop udpPacketHeaderSize).length < 2 ^ 32 := by
    rw [List.length_drop]
    omega
  have hhello := (parseUdpHello_append hshort tail).trans (parseUdpHello_append hshort []).symm
  have hbuy := (parseBuyWeapon_append hshort tail).trans (parseBuyWeapon_append hshort []).symm
  have hmove := (handleCLobbyMove_append ctx rc (data.drop udpPacketHeaderSize) tail).trans
    (handleCLobbyMove_append ctx rc (data.drop udpPacketHeaderSize) []).symm
  rw [List.append_nil] at hhello hbuy hmove
  simp only [handlePacket, UdpPacketHeader.read_append_left hheader, hpayload,
    List.drop_append_of_le_length hheader, handleCUdpHello, handleCBuyWeapon, hhello, hbuy, hmove]

end reads

/-- The ranges of the receive buffer that a datagram makes the server read: the fields of the header
when they are needed, and what the handler reads of the payload.
Source: `GameServer/UdpGameSession.cpp`, `UdpGameSession::OnRecvPacket`, and
`GameServer/UdpServerPacketHandler.cpp`, `UdpServerPacketHandler::HandlePacket` -/
def readsOf (B : Backend ρ) (s : Server ρ) (d : Datagram) (now later : ℤ) : List Span :=
  if d.data.length < udpPacketHeaderSize then []
  else
    -- `header->sessionId`
    ⟨0, 8⟩ ::
      match lookup s.service d now with
      | (none, _) => []
      | (some r, service) =>
          -- `header->sequence`, for the filter only
          (if d.header.sessionId = 0 then [] else [⟨8, 4⟩]) ++
            match accept service r d now with
            | none => []
            | some service =>
                -- `header->id`
                ⟨12, 2⟩ ::
                  (handlePacket B (service.heap r) s.redis d.data d.data.length later).reads.map
                    fun span => span.shift udpPacketHeaderSize

/-- A datagram is no longer than a cursor can count. -/
theorem Datagram.length_data_lt (d : Datagram) : d.data.length < 2 ^ 32 := by
  have := d.length_le
  unfold udpMaxPacket udpMaxPayload udpPacketHeaderSize at this
  omega

/-- **A datagram is read within its length.** -/
theorem readsOf_stop_le (B : Backend ρ) (s : Server ρ) (d : Datagram) (now later : ℤ) :
    ∀ span ∈ readsOf B s d now later, span.stop ≤ d.data.length := by
  have hlen := d.length_data_lt
  unfold readsOf
  by_cases hshort : d.data.length < udpPacketHeaderSize
  · rw [if_pos hshort]
    exact fun span h => absurd h List.not_mem_nil
  rw [if_neg hshort]
  have hheader := not_lt.mp hshort
  have hfield : ∀ off len, off + len ≤ 14 → (⟨off, len⟩ : Span).stop ≤ d.data.length := by
    intro off len h
    unfold udpPacketHeaderSize at hheader
    exact h.trans hheader
  intro span hspan
  rcases List.mem_cons.mp hspan with rfl | hspan
  · exact hfield 0 8 (by omega)
  generalize lookup s.service d now = found at hspan
  obtain ⟨_ | r, service⟩ := found
  · exact absurd hspan List.not_mem_nil
  rcases List.mem_append.mp hspan with hspan | hspan
  · split_ifs at hspan
    · exact absurd hspan List.not_mem_nil
    · rw [List.mem_singleton.mp hspan]
      exact hfield 8 4 (by omega)
  generalize accept service r d now = accepted at hspan
  rcases accepted with _ | service'
  · exact absurd hspan List.not_mem_nil
  rcases List.mem_cons.mp hspan with rfl | hspan
  · exact hfield 12 2 (by omega)
  · obtain ⟨inner, hinner, rfl⟩ := List.mem_map.mp hspan
    exact reads_handlePacket hheader hlen inner hinner

/-! ## The law -/

/-- A datagram of the given type gets through to its handler: the context it acts on, and the registry
behind the lookup and the filter. -/
structure Reaches (s : Server ρ) (d : Datagram) (now : ℤ) (type : PacketType) (r : UdpClientContextRef)
    (service : UdpService) : Prop where
  /-- The process is running. -/
  running : s.fault = none
  /-- The datagram passes the lookup and the filter. -/
  arrives : Arrives s.service d now r service
  /-- The switch selects the handler. -/
  type_eq : PacketType.ofId d.header.id = some type

/-- The handler changes nothing and sends nothing. -/
def Ignored (s : Server ρ) (r : UdpClientContextRef) (service : UdpService)
    (next : Server ρ × Output) : Prop :=
  next = ({ s with service }, { dispatched := some r })

/-- What is built is sent to the address of the context, while ids last. -/
def Answered (r : UdpClientContextRef) (service : UdpService) (o : Output) : Prop :=
  service.next < 2 ^ 64 → o.sent = o.built.map fun p => ((service.heap r).addr, p)

/-- The context is bound to the declared user and gets one acknowledgement. -/
structure BindsDeclared (d : Datagram) (r : UdpClientContextRef) (service : UdpService)
    (next : Server ρ × Output) : Prop where
  /-- Only the user of the context changes. -/
  service_eq : next.1.service =
    service.modifyCtx r fun ctx => { ctx with userId := declaredUser d.payload }
  /-- The user has the declared length. -/
  length : (declaredUser d.payload).length = declaredLen d.payload
  /-- One acknowledgement, and at most the record of the user behind it. -/
  ack : ∃ rest, next.2.built = .udpHandshakeAck (service.heap r).sessionId :: rest ∧
    ∀ p ∈ rest, ∃ info, p = .playerInfo (service.heap r).sessionId info
  /-- To the sender. -/
  answered : Answered r service next.2

/-- A purchase of the declared weapon for the declared user. -/
structure BuysDeclared (B : Backend ρ) (s : Server ρ) (d : Datagram) (r : UdpClientContextRef)
    (service : UdpService) (next : Server ρ × Output) : Prop where
  /-- The user has the declared length. -/
  length : (declaredUser d.payload).length = declaredLen d.payload
  /-- The handler works for that user on that weapon. -/
  outcome : ∃ reads out,
    out = buyWeapon B (service.heap r) s.redis (declaredUser d.payload) (declaredWeapon d.payload)
      reads ∧
    next.1 = { service, redis := out.redis, fault := out.fault } ∧
    next.2.built = out.requests.map SendRequest.packet
  /-- Redis is asked about that user only. -/
  issued : RedisClient.IssuedOnly (fun c => c.key = userKey (declaredUser d.payload)) s.redis
    next.1.redis
  /-- It is asked, or the sender is answered. -/
  acts : next.1.redis.issued ≠ s.redis.issued ∨ next.2.built ≠ []
  /-- To the sender. -/
  answered : Answered r service next.2

/-- **How a datagram is parsed** by a server in the state `s`. -/
structure DatagramLaw (B : Backend ρ) (s : Server ρ) (d : Datagram) (now later : ℤ) : Prop where
  /-- It is read within its length. -/
  reads : ∀ span ∈ readsOf B s d now later, span.stop ≤ d.data.length
  /-- Shorter than a header, it leaves the server as it is and shows nothing. -/
  short : d.data.length < udpPacketHeaderSize → s.step B (.recv d now later) = (s, {})
  /-- What lies behind it in the receive buffer does not matter, whatever has become of the context
  and of Redis. -/
  stale : udpPacketHeaderSize ≤ d.data.length → ∀ tail ctx rc,
    UdpPacketHeader.read (d.data ++ tail) = d.header ∧
      handlePacket B ctx rc (d.data ++ tail) d.data.length later =
        handlePacket B ctx rc d.data d.data.length later
  /-- A handshake binds its user exactly when it fits. -/
  hello : ∀ r service, Reaches s d now .cUdpHello r service →
    (HelloFits d.payload → BindsDeclared d r service (s.step B (.recv d now later))) ∧
      (¬ HelloFits d.payload → Ignored s r service (s.step B (.recv d now later)))
  /-- A move is relayed exactly when it fits. -/
  move : ∀ r service, Reaches s d now .cLobbyMove r service →
    (MoveFits d.payload → s.step B (.recv d now later) =
      ({ s with service }, { dispatched := some r
                             built := [relayedMove (service.heap r) d.payload]
                             sent := service.broadcastExcept (service.heap r).sessionId
                               (relayedMove (service.heap r) d.payload) })) ∧
      (¬ MoveFits d.payload → Ignored s r service (s.step B (.recv d now later)))
  /-- A purchase is carried out exactly when it fits. -/
  purchase : ∀ r service, Reaches s d now .cPurchaseWeapon r service →
    (PurchaseFits d.payload → BuysDeclared B s d r service (s.step B (.recv d now later))) ∧
      (¬ PurchaseFits d.payload → Ignored s r service (s.step B (.recv d now later)))

section law

variable {s : Server ρ} {d : Datagram} {now later : ℤ} {r : ℕ} {service : UdpService}
  {type : PacketType} {ctx : UdpClientContext} {rc : RedisClient ρ} {user : Bytes}

/-- Assigning the context that is there changes nothing. -/
theorem modifyCtx_self (service : UdpService) (r : ℕ) :
    service.modifyCtx r (fun _ => service.heap r) = service := by
  simp only [modifyCtx, Function.update_eq_self]

/-- A datagram that reaches its handler is handled. -/
theorem Reaches.step_eq (h : Reaches s d now type r service) :
    s.step B (.recv d now later) = Server.handled B s d later r service :=
  step_recv_of_arrives h.running h.arrives

/-- What the switch gives its handlers. -/
theorem Reaches.payload (h : Reaches s d now type r service) :
    (d.data.length : ℤ) - udpPacketHeaderSize = d.payload.length ∧ d.payload.length < 2 ^ 32 := by
  have hlen := h.arrives.length_le
  have hlt := d.length_data_lt
  rw [Datagram.payload, List.length_drop]
  omega

/-- A handler that returns early. -/
theorem Reaches.ignored (h : Reaches s d now type r service) {reads : List Span}
    (hout : handlePacket B (service.heap r) s.redis d.data d.data.length later =
      { ctx := service.heap r, redis := s.redis, reads }) :
    Ignored s r service (s.step B (.recv d now later)) := by
  have hfault := h.running
  rw [Ignored, h.step_eq, Server.handled, hout]
  dsimp only
  rw [modifyCtx_self, ← hfault]
  rfl

/-- Requests for the session of a registered context go to its address. -/
theorem Reaches.answered (h : Reaches s d now type r service) (hs : s.service.Consistent)
    {requests : List SendRequest} (hreq : ∀ q ∈ requests, ∃ p, q = .sendTo (service.heap r).sessionId p)
    {ctx : UdpClientContext} (haddr : ctx.addr = (service.heap r).addr) (hbound : service.next < 2 ^ 64) :
    requests.flatMap (SendRequest.perform (service.modifyCtx r fun _ => ctx)) =
      (requests.map SendRequest.packet).map fun p => ((service.heap r).addr, p) := by
  have hreg := h.arrives.registered (h.arrives.consistent hs hbound)
  induction requests with
  | nil => rfl
  | cons q requests ih =>
      obtain ⟨p, rfl⟩ := hreq q List.mem_cons_self
      rw [List.flatMap_cons, ih fun q hq => hreq q (List.mem_cons_of_mem _ hq), List.map_cons,
        List.map_cons, SendRequest.perform, sendTo, findById, modifyCtx_idMap,
        show service.idMap.lookup (service.heap r).sessionId = some r from hreg]
      simp only [modifyCtx_heap_self, haddr, SendRequest.packet, List.cons_append, List.nil_append]

/-- Binding a user answers with an acknowledgement, and with the record when there is one. -/
theorem requests_bindUser (ctx : UdpClientContext) (rc : RedisClient ρ) (user : Bytes)
    (reads : List Span) :
    ∃ rest, (bindUser B ctx rc user reads).requests =
        .sendTo ctx.sessionId (.udpHandshakeAck ctx.sessionId) :: rest ∧
      ∀ q ∈ rest, ∃ info, q = .sendTo ctx.sessionId (.playerInfo ctx.sessionId info) := by
  unfold bindUser
  dsimp only
  rcases rc.getPlayerInfo B user with ⟨e | ⟨_ | _, info⟩, rc'⟩
  · exact ⟨[], rfl, by simp⟩
  · exact ⟨[], rfl, by simp⟩
  · refine ⟨_, rfl, fun q hq => ⟨info, ?_⟩⟩
    exact List.mem_singleton.mp hq

/-- Looking up a balance asks Redis when there is a connection, and finds none otherwise. -/
theorem issued_getBalance (rc : RedisClient ρ) (user : Bytes) :
    rc.issued.length < (rc.getBalance B user).2.issued.length ∨
      (rc.getBalance B user).1 = .ok none := by
  unfold RedisClient.getBalance
  by_cases hconn : ¬ rc.connected
  · rw [if_pos hconn]
    exact .inr rfl
  · rw [if_neg hconn]
    left
    have hlonger : rc.issued.length <
        (rc.redisCommand B (.hget (userKey user) (ascii "balance"))).2.issued.length := by
      simp [RedisClient.redisCommand]
    generalize rc.redisCommand B (.hget (userKey user) (ascii "balance")) = out at hlonger
    obtain ⟨reply, rc'⟩ := out
    dsimp only
    split <;> exact hlonger

/-- **A purchase asks Redis or answers.** -/
theorem buyWeapon_acts (ctx : UdpClientContext) (rc : RedisClient ρ) (user : Bytes)
    (weaponType : Int32) (reads : List Span) :
    (buyWeapon B ctx rc user weaponType reads).redis.issued ≠ rc.issued ∨
      (buyWeapon B ctx rc user weaponType reads).requests ≠ [] := by
  unfold buyWeapon
  dsimp only
  rcases findWeapon weaponType with _ | weapon
  · exact .inr (List.cons_ne_nil _ _)
  dsimp only
  have hissued := issued_getBalance (B := B) rc user
  generalize rc.getBalance B user = out at hissued
  obtain ⟨e | _ | balance, rc₁⟩ := out
  · left
    rcases hissued with hlonger | hnone
    · exact fun heq => absurd (congrArg List.length heq) (ne_of_gt hlonger)
    · cases hnone
  · exact .inr (List.cons_ne_nil _ _)
  right
  dsimp only
  by_cases hprice : balance < weapon.price
  · rw [if_pos hprice]
    exact List.cons_ne_nil _ _
  · rw [if_neg hprice]
    split
    · exact List.cons_ne_nil _ _
    · split <;> exact List.cons_ne_nil _ _

/-- A request that relays nothing goes to the session of the context. -/
theorem exists_sendTo_of_requestFor {q : SendRequest} (h : RequestFor ctx False q) :
    ∃ p, q = .sendTo ctx.sessionId p := by
  cases h with
  | handshakeAck => exact ⟨_, rfl⟩
  | playerInfo info => exact ⟨_, rfl⟩
  | lobbyPlayerMove hrelays => exact hrelays.elim
  | buyWeaponResult => exact ⟨_, rfl⟩

/-- **A handshake.** -/
theorem Reaches.hello (h : Reaches s d now .cUdpHello r service) (hs : service.next < 2 ^ 64 →
    s.service.Consistent) :
    (HelloFits d.payload → BindsDeclared d r service (s.step B (.recv d now later))) ∧
      (¬ HelloFits d.payload → Ignored s r service (s.step B (.recv d now later))) := by
  obtain ⟨hpayload, hlen⟩ := h.payload
  have htype : PacketType.ofId (UdpPacketHeader.read d.data).id = some .cUdpHello := h.type_eq
  have hparse := parseUdpHello_append hlen []
  rw [List.append_nil] at hparse
  have hout : handlePacket B (service.heap r) s.redis d.data d.data.length later =
      handleCUdpHello B (service.heap r) s.redis d.payload d.payload.length := by
    simp only [handlePacket, htype, hpayload]
    rfl
  rw [handleCUdpHello, hparse] at hout
  constructor
  · intro hfits
    have hlength : (declaredUser d.payload).length = declaredLen d.payload := by
      obtain ⟨htwo, hrest⟩ := hfits
      exact length_declaredUser (by omega)
    rw [if_pos hfits] at hout
    dsimp only at hout
    obtain ⟨rest, hrequests, hrest⟩ := requests_bindUser (B := B) (service.heap r) s.redis
      (declaredUser d.payload) [⟨0, 2⟩, ⟨2, declaredLen d.payload⟩]
    rw [h.step_eq, Server.handled, hout]
    refine ⟨?_, hlength, ⟨rest.map SendRequest.packet, ?_, fun p hp => ?_⟩, fun hbound => ?_⟩
    · dsimp only
      rw [ctx_bindUser]
      rfl
    · dsimp only
      rw [hrequests]
      rfl
    · obtain ⟨q, hq, rfl⟩ := List.mem_map.mp hp
      obtain ⟨info, rfl⟩ := hrest q hq
      exact ⟨info, rfl⟩
    · refine h.answered (hs hbound) (fun q hq => ?_) (by rw [ctx_bindUser]) hbound
      rw [hrequests] at hq
      rcases List.mem_cons.mp hq with rfl | hq
      · exact ⟨_, rfl⟩
      · obtain ⟨info, rfl⟩ := hrest q hq
        exact ⟨_, rfl⟩
  · intro hfits
    rw [if_neg hfits] at hout
    exact h.ignored hout

/-- **A move.** -/
theorem Reaches.move (h : Reaches s d now .cLobbyMove r service) :
    (MoveFits d.payload → s.step B (.recv d now later) =
      ({ s with service }, { dispatched := some r
                             built := [relayedMove (service.heap r) d.payload]
                             sent := service.broadcastExcept (service.heap r).sessionId
                               (relayedMove (service.heap r) d.payload) })) ∧
      (¬ MoveFits d.payload → Ignored s r service (s.step B (.recv d now later))) := by
  obtain ⟨hpayload, -⟩ := h.payload
  have htype : PacketType.ofId (UdpPacketHeader.read d.data).id = some .cLobbyMove := h.type_eq
  have hmove := handleCLobbyMove_append (service.heap r) s.redis d.payload []
  rw [List.append_nil] at hmove
  have hout : handlePacket B (service.heap r) s.redis d.data d.data.length later =
      handleCLobbyMove (service.heap r) s.redis d.payload d.payload.length := by
    simp only [handlePacket, htype, hpayload]
    rfl
  rw [hmove] at hout
  constructor
  · intro hfits
    have hfault := h.running
    rw [if_pos hfits] at hout
    rw [h.step_eq, Server.handled, hout]
    simp only [modifyCtx_self, ← hfault, List.map_cons, List.map_nil, List.flatMap_cons,
      List.flatMap_nil, List.append_nil, SendRequest.packet, SendRequest.perform]
  · intro hfits
    rw [if_neg hfits] at hout
    exact h.ignored hout

/-- **A purchase.** -/
theorem Reaches.purchase (h : Reaches s d now .cPurchaseWeapon r service)
    (hs : service.next < 2 ^ 64 → s.service.Consistent) :
    (PurchaseFits d.payload → BuysDeclared B s d r service (s.step B (.recv d now later))) ∧
      (¬ PurchaseFits d.payload → Ignored s r service (s.step B (.recv d now later))) := by
  obtain ⟨hpayload, hlen⟩ := h.payload
  have htype : PacketType.ofId (UdpPacketHeader.read d.data).id = some .cPurchaseWeapon := h.type_eq
  have hparse := parseBuyWeapon_append hlen []
  rw [List.append_nil] at hparse
  have hout : handlePacket B (service.heap r) s.redis d.data d.data.length later =
      handleCBuyWeapon B (service.heap r) s.redis d.payload d.payload.length := by
    simp only [handlePacket, htype, hpayload]
    rfl
  rw [handleCBuyWeapon, hparse] at hout
  constructor
  · intro hfits
    have hlength : (declaredUser d.payload).length = declaredLen d.payload := by
      obtain ⟨-, hrest⟩ := hfits
      exact length_declaredUser (by omega)
    rw [if_pos hfits] at hout
    dsimp only at hout
    have hctx := @ctx_buyWeapon _ B (declaredUser d.payload) (service.heap r) s.redis
      (declaredWeapon d.payload) [⟨0, 2⟩, ⟨2, declaredLen d.payload⟩, ⟨2 + declaredLen d.payload, 4⟩]
    have hhandled := @handled_buyWeapon _ B (declaredUser d.payload) False later (service.heap r)
      s.redis (declaredWeapon d.payload)
      [⟨0, 2⟩, ⟨2, declaredLen d.payload⟩, ⟨2 + declaredLen d.payload, 4⟩]
    have hacts := buyWeapon_acts (B := B) (service.heap r) s.redis (declaredUser d.payload)
      (declaredWeapon d.payload)
      [⟨0, 2⟩, ⟨2, declaredLen d.payload⟩, ⟨2 + declaredLen d.payload, 4⟩]
    rw [h.step_eq, Server.handled, hout]
    refine ⟨hlength, ⟨_, _, rfl, ?_, rfl⟩, hhandled.commands.issuedOnly, ?_, fun hbound => ?_⟩
    · dsimp only
      rw [hctx, modifyCtx_self]
    · exact hacts.imp_right fun hne hnil => hne (List.map_eq_nil_iff.mp hnil)
    · refine h.answered (hs hbound) (fun q hq => ?_) (by rw [hctx]) hbound
      have hfor := exists_sendTo_of_requestFor (hhandled.requests q hq)
      rwa [hctx] at hfor
  · intro hfits
    rw [if_neg hfits] at hout
    exact h.ignored hout

end law

/-- **Datagrams are parsed within their length and by their grammars**, in every state that is
reached. -/
theorem datagram_law (B : Backend ρ) (rc : RedisClient ρ) (es : List Event) (d : Datagram)
    (now later : ℤ) : DatagramLaw B ((server B).exec (.init rc) es) d now later := by
  have hs : ∀ r service, Arrives ((server B).exec (.init rc) es).service d now r service →
      service.next < 2 ^ 64 → ((server B).exec (.init rc) es).service.Consistent :=
    fun r service harr hbound => consistent_exec rc (harr.next_le.trans_lt hbound)
  constructor
  · exact readsOf_stop_le B _ d now later
  · exact fun hshort => step_recv_of_not_arrives fun r service harr =>
      absurd harr.length_le (not_le.mpr hshort)
  · intro hheader tail ctx rc
    exact ⟨UdpPacketHeader.read_append_left hheader tail,
      handlePacket_append hheader d.length_data_lt tail⟩
  · exact fun r service h => h.hello (hs r service h.arrives)
  · exact fun r service h => h.move
  · exact fun r service h => h.purchase (hs r service h.arrives)

/-- A purchase whose prefix declares one byte more than there is changes nothing; with that byte it is
answered. -/
example : ¬ PurchaseFits [1, 0, 4, 0, 0, 0] ∧ PurchaseFits [1, 0, 65, 4, 0, 0, 0] ∧
    declaredUser [1, 0, 65, 4, 0, 0, 0] = [65] ∧ declaredWeapon [1, 0, 65, 4, 0, 0, 0] = 4 := by
  decide

end CowboyPoker.GameServer
