import CowboyPoker.GameServer.WireFormat
import CowboyPoker.GameServer.ServerPacketHandler

/-!
# The builders of packets of variable length

`Make_S_PLAYER_INFO` and `Make_S_TEST` write strings and lists of any length through `operator<<`,
which does not look at the size of its buffer, behind prefixes of 16 bits.

* `stored_make` — a builder of `UdpServerPacketHandler` stores each byte up to `WriteSize` once.
* `PlayerInfoLaw`, `TestLaw` — the stores stay inside the allocation, `WriteSize` counts them, and every
  prefix is exact.
* `builders_exact_iff` — the laws hold exactly up to 1144 bytes of strings and 339 entries.
-/

namespace CowboyPoker.GameServer

open CowboyPoker.Found
open CowboyPoker.ServerCore

/-! ## What is stored -/

/-- The fields of a header are stored once. -/
theorem stored_store (h : UdpPacketHeader) (off : ℕ) (bw : BufferWriter) :
    (h.store (some off) bw).stored = udpPacketHeaderSize + bw.stored := by
  simp only [UdpPacketHeader.store, BufferWriter.stored_poke, Pod.length_encode, Pod.size_uint64,
    Pod.size_uint32, Pod.size_uint16, udpPacketHeaderSize]
  omega

/-- A string takes its prefix and the bytes behind it. -/
theorem stored_putString (bw : BufferWriter) (s : Bytes) :
    (putString bw s).stored = bw.stored + (ServerPacket.stringBytes s).length := by
  rw [putString, BufferWriter.stored_putBytes, BufferWriter.stored_put, ServerPacket.stringBytes,
    List.length_append, Pod.length_encode, Nat.add_assoc]

/-- The header and what the body stores. -/
theorem stored_makePacket (header : UdpPacketHeader) {f : BufferWriter → BufferWriter} {n : ℕ}
    (hf : ∀ bw, (f bw).stored = bw.stored + n) :
    (makePacket header f).stored = udpPacketHeaderSize + n := by
  obtain ⟨bw, hreserve, -⟩ := SendBuffer.wrote_reserve udpMaxPacket udpPacketHeaderSize
    (by decide) (by decide)
  have hnone : bw.stored = 0 := by
    have hstored := BufferWriter.stored_reserve (SendBuffer.writer udpMaxPacket) udpPacketHeaderSize
    rwa [hreserve] at hstored
  have hstored : (makePacket header f).stored = (header.store (some 0) (f bw)).stored := by
    unfold makePacket
    simp only [hreserve]
    rfl
  rw [hstored, stored_store, hf, hnone, Nat.zero_add]

/-- **A builder stores as many bytes as its packet has.** -/
theorem stored_make (p : ServerPacket) : p.make.stored = udpPacketHeaderSize + p.body.length := by
  cases p with
  | udpHandshakeAck sessionId =>
      rw [ServerPacket.make, makeSUdpHandshakeAck]
      apply stored_makePacket
      intro bw
      simp [ServerPacket.body]
  | lobbyPlayerMove mover userId posX posY posZ rot animState =>
      rw [ServerPacket.make, makeSLobbyPlayerMove]
      apply stored_makePacket
      intro bw
      simp only [stored_putString, BufferWriter.stored_put, ServerPacket.body, List.length_append,
        Pod.length_encode]
      omega
  | lobbyPlayerLeave left =>
      rw [ServerPacket.make, makeSLobbyPlayerLeave]
      apply stored_makePacket
      intro bw
      simp [ServerPacket.body]
  | playerInfo sessionId info =>
      rw [ServerPacket.make, makeSPlayerInfo]
      apply stored_makePacket
      intro bw
      simp only [stored_putString, BufferWriter.stored_put, ServerPacket.body, List.length_append,
        Pod.length_encode]
      omega
  | buyWeaponResult sessionId success weaponType balance =>
      rw [ServerPacket.make, makeSBuyWeaponResult]
      apply stored_makePacket
      intro bw
      simp only [BufferWriter.stored_put, ServerPacket.body, List.length_append, Pod.length_encode]
      omega

/-! ## `Make_S_PLAYER_INFO` -/

/-- The packet for a record stays inside its allocation, `WriteSize` is the number of bytes stored, and
the two length prefixes are the lengths of the strings that follow them. -/
structure PlayerInfoLaw (sessionId : UInt64) (info : PlayerRedisInfo) : Prop where
  /-- The allocation has `UDP_MAX_PACKET` bytes. -/
  allocSize : (makeSPlayerInfo sessionId info).allocSize = 1214
  /-- Every store lies inside. -/
  inBounds : (makeSPlayerInfo sessionId info).InBounds
  /-- `WriteSize` counts the stores. -/
  writeSize : (makeSPlayerInfo sessionId info).writeSize = (makeSPlayerInfo sessionId info).stored
  /-- `nickLen`. -/
  nickLen : (Pod.read (makeSPlayerInfo sessionId info).bytes 66 : UInt16).toNat =
    info.nickname.length
  /-- The nickname follows. -/
  nickname : ((makeSPlayerInfo sessionId info).bytes.drop 68).take info.nickname.length =
    info.nickname
  /-- `sceneLen`. -/
  sceneLen : (Pod.read (makeSPlayerInfo sessionId info).bytes (68 + info.nickname.length) :
    UInt16).toNat = info.scene.length
  /-- The scene follows, up to the end. -/
  scene : (makeSPlayerInfo sessionId info).bytes.drop (70 + info.nickname.length) = info.scene

/-- What `Make_S_PLAYER_INFO` writes in front of the nickname. -/
def playerInfoFront (sessionId : UInt64) (info : PlayerRedisInfo) : Bytes :=
  (ServerPacket.playerInfo sessionId info).header.encode ++ (Pod.encode sessionId ++
    Pod.encode info.hp ++ Pod.encode info.balance ++ Pod.encode info.charType ++
    Pod.encode info.posX ++ Pod.encode info.posY ++ Pod.encode info.posZ ++ Pod.encode info.rot ++
    Pod.encode info.weapon ++ Pod.encode info.ammoType ++ Pod.encode info.ammo)

/-- The fields of `S_PLAYER_INFO` before the strings take 66 bytes. -/
theorem length_playerInfoFront (sessionId : UInt64) (info : PlayerRedisInfo) :
    (playerInfoFront sessionId info).length = 66 := by
  simp [playerInfoFront, udpPacketHeaderSize]

/-- A string that is short enough is written whole. -/
theorem stringBytes_of_lt {s : Bytes} (h : s.length < 2 ^ 16) :
    ServerPacket.stringBytes s = Pod.encode (UInt16.ofNat s.length) ++ s := by
  rw [ServerPacket.stringBytes, show s.take _ = s from cutString_eq_self_iff.mpr h]

/-- A number below 2^16 is a `uint16`. -/
theorem toNat_ofNat_of_lt {n : ℕ} (h : n < 2 ^ 16) : (UInt16.ofNat n).toNat = n := by
  rw [UInt16.toNat_ofNat', Nat.mod_eq_of_lt h]

section playerInfo

variable {sessionId : UInt64} {info : PlayerRedisInfo}

/-- What is sent of a record whose strings fit. -/
theorem bytes_makeSPlayerInfo (h : info.nickname.length + info.scene.length ≤ 1144) :
    (makeSPlayerInfo sessionId info).bytes = playerInfoFront sessionId info ++
      (Pod.encode (UInt16.ofNat info.nickname.length) ++ (info.nickname ++
        (Pod.encode (UInt16.ofNat info.scene.length) ++ info.scene))) := by
  have hbody : (ServerPacket.playerInfo sessionId info).body.length ≤ udpMaxPayload := by
    rw [ServerPacket.length_body, udpMaxPayload]
    dsimp only
    omega
  have hbytes := ServerPacket.bytes_make _ hbody
  rw [ServerPacket.make] at hbytes
  rw [hbytes, ServerPacket.body, stringBytes_of_lt (by omega), stringBytes_of_lt (by omega),
    playerInfoFront]
  simp only [List.append_assoc]

/-- **The record of a user is written exactly** when its strings have at most 1144 bytes together. -/
theorem playerInfoLaw_iff :
    PlayerInfoLaw sessionId info ↔ info.nickname.length + info.scene.length ≤ 1144 := by
  constructor
  · intro h
    have hfits := (ServerPacket.inBounds_make_iff (.playerInfo sessionId info)).mp h.inBounds
    rw [ServerPacket.length_body, udpMaxPayload] at hfits
    have hnick := (Pod.read (makeSPlayerInfo sessionId info).bytes 66 : UInt16).toNat_lt
    have hscene := (Pod.read (makeSPlayerInfo sessionId info).bytes (68 + info.nickname.length) :
      UInt16).toNat_lt
    rw [h.nickLen] at hnick
    rw [h.sceneLen] at hscene
    dsimp only at hfits
    omega
  · intro h
    have hbytes := @bytes_makeSPlayerInfo sessionId info h
    have hfront := length_playerInfoFront sessionId info
    have hbehind : (makeSPlayerInfo sessionId info).bytes.drop 68 = info.nickname ++
        (Pod.encode (UInt16.ofNat info.scene.length) ++ info.scene) := by
      rw [hbytes, ← List.append_assoc]
      apply List.drop_left'
      rw [List.length_append, hfront, Pod.length_encode, Pod.size_uint16]
    have hin : (makeSPlayerInfo sessionId info).InBounds :=
      (ServerPacket.inBounds_make_iff (.playerInfo sessionId info)).mpr (by
        rw [ServerPacket.length_body, udpMaxPayload]
        dsimp only
        omega)
    have hwritten : (makeSPlayerInfo sessionId info).writeSize =
        (makeSPlayerInfo sessionId info).stored :=
      (ServerPacket.writeSize_make (.playerInfo sessionId info)).trans
        (stored_make (.playerInfo sessionId info)).symm
    refine ⟨?_, hin, hwritten, ?_, ?_, ?_, ?_⟩
    · obtain ⟨bw, hmake, hbw⟩ := (ServerPacket.playerInfo sessionId info).wrote_make
      rw [ServerPacket.make] at hmake
      rw [hmake]
      exact hbw.length
    · rw [hbytes, ← hfront, Pod.read_append, toNat_ofNat_of_lt (by omega)]
    · rw [hbehind, List.take_left]
    · rw [Pod.read_add, hbehind, Pod.read_append, toNat_ofNat_of_lt (by omega)]
    · rw [show 70 + info.nickname.length = 68 + (info.nickname.length + 2) by omega,
        ← List.drop_drop, hbehind, ← List.append_assoc]
      apply List.drop_left'
      rw [List.length_append, Pod.length_encode, Pod.size_uint16]

end playerInfo

/-! ## `Make_S_TEST` -/

open ServerPacketHandler

/-- The bytes of a buff. -/
def buffBytes (buff : BuffData) : Bytes :=
  Pod.encode buff.buffId ++ Pod.encode buff.remainTime

/-- The packet for a list of buffs stays inside its allocation, `WriteSize` is the number of bytes
stored, and the size of the header and the count are exact. -/
structure TestLaw (id : UInt64) (hp : UInt32) (attack : UInt16) (buffs : List BuffData) : Prop where
  /-- The allocation has 4096 bytes. -/
  allocSize : (makeSTest id hp attack buffs).allocSize = 4096
  /-- Every store lies inside. -/
  inBounds : (makeSTest id hp attack buffs).InBounds
  /-- `WriteSize` counts the stores. -/
  writeSize : (makeSTest id hp attack buffs).writeSize = (makeSTest id hp attack buffs).stored
  /-- `header->size`. -/
  size : (Pod.read (makeSTest id hp attack buffs).bytes 0 : UInt16).toNat =
    (makeSTest id hp attack buffs).writeSize
  /-- The count of the buffs. -/
  count : (Pod.read (makeSTest id hp attack buffs).bytes 18 : UInt16).toNat = buffs.length
  /-- The buffs follow, up to the end. -/
  buffs : (makeSTest id hp attack buffs).bytes.drop 20 =
    buffs.flatMap buffBytes

/-- What `Make_S_TEST` writes in front of the buffs. -/
def testFront (id : UInt64) (hp : UInt32) (attack : UInt16) (n : ℕ) : Bytes :=
  Pod.encode (UInt16.ofNat (20 + 12 * n)) ++ (Pod.encode sTest ++ (Pod.encode id ++
    Pod.encode hp ++ Pod.encode attack ++ Pod.encode (UInt16.ofNat n)))

/-- The front of `S_TEST` takes 20 bytes. -/
theorem length_testFront (id : UInt64) (hp : UInt32) (attack : UInt16) (n : ℕ) :
    (testFront id hp attack n).length = 20 := by
  simp [testFront]

section test

variable {id : UInt64} {hp : UInt32} {attack : UInt16} {buffs : List BuffData}

/-- A buff takes 12 bytes. -/
theorem length_buffBytes (buff : BuffData) : (buffBytes buff).length = 12 := by
  rw [buffBytes, List.length_append, Pod.length_encode, Pod.length_encode, Pod.size_uint64,
    Pod.size_uint32]

/-- A buff takes twelve bytes. -/
theorem length_flatMap_buffs (buffs : List BuffData) :
    (buffs.flatMap buffBytes).length = 12 * buffs.length := by
  induction buffs with
  | nil => rfl
  | cons buff buffs ih =>
      rw [List.flatMap_cons, List.length_append, ih, length_buffBytes, List.length_cons]
      omega

open BufferWriter in
/-- One buff, while the cursor does not wrap around. -/
theorem wrote_putBuff {alloc : ℕ} {bw : BufferWriter} {out : Bytes} (h : Wrote alloc bw out)
    (buff : BuffData) (hfit : out.length + 12 < 2 ^ 32) :
    Wrote alloc (putBuff bw buff)
      (out ++ buffBytes buff) := by
  have hid := h.put buff.buffId (by rw [Pod.size_uint64]; omega)
  have htime := hid.put buff.remainTime (by
    rw [List.length_append, Pod.length_encode, Pod.size_uint64, Pod.size_uint32]
    omega)
  rwa [List.append_assoc] at htime

/-- Each buff adds 12 bytes. -/
theorem length_append_buff (out : Bytes) (buff : BuffData) :
    (out ++ buffBytes buff).length = out.length + 12 := by
  rw [List.length_append, length_buffBytes]

open BufferWriter in
/-- The loop over the buffs. -/
theorem wrote_foldl_putBuff {alloc : ℕ} {bw : BufferWriter} {out : Bytes} (h : Wrote alloc bw out)
    (buffs : List BuffData) (hfit : out.length + 12 * buffs.length < 2 ^ 32) :
    Wrote alloc (buffs.foldl putBuff bw)
      (out ++ buffs.flatMap buffBytes) := by
  induction buffs generalizing bw out with
  | nil => simpa using h
  | cons buff buffs ih =>
      rw [List.length_cons] at hfit
      have hrest := ih (wrote_putBuff h buff (by omega)) (by rw [length_append_buff]; omega)
      rwa [List.append_assoc, ← List.flatMap_cons] at hrest

/-- A store of the loop stays in the log. -/
theorem writes_subset_foldl_putBuff (buffs : List BuffData) (bw : BufferWriter) :
    bw.writes ⊆ (buffs.foldl putBuff bw).writes := by
  induction buffs generalizing bw with
  | nil => exact List.Subset.refl _
  | cons buff buffs ih =>
      have hbuff : bw.writes ⊆ (putBuff bw buff).writes :=
        List.Subset.trans (bw.writes_subset_put buff.buffId)
          (BufferWriter.writes_subset_put _ buff.remainTime)
      exact List.Subset.trans hbuff (ih (putBuff bw buff))

open BufferWriter in
/-- Where the store of a buff ends, before the cursor wraps around. -/
theorem exists_store_of_lt {alloc k : ℕ} {bw : BufferWriter} {out : Bytes} (h : Wrote alloc bw out)
    (hk : k < buffs.length) (hfit : out.length + 12 * (k + 1) < 2 ^ 32) :
    ∃ w ∈ (buffs.foldl putBuff bw).writes, w.stop = out.length + 12 * (k + 1) := by
  induction buffs generalizing bw out k with
  | nil => exact absurd hk (Nat.not_lt_zero k)
  | cons buff buffs ih =>
      cases k with
      | zero =>
          have hid := h.put buff.buffId (by rw [Pod.size_uint64]; omega)
          refine ⟨⟨(bw.put buff.buffId).pos, 4⟩, writes_subset_foldl_putBuff buffs _ ?_, ?_⟩
          · exact List.mem_append_right _ (List.mem_singleton_self _)
          · simp only [Span.stop, hid.pos, List.length_append, Pod.length_encode, Pod.size_uint64]
      | succ k =>
          rw [List.length_cons] at hk
          obtain ⟨w, hw, hstop⟩ := ih (wrote_putBuff h buff (by omega)) (Nat.lt_of_succ_lt_succ hk)
            (by rw [length_append_buff]; omega)
          refine ⟨w, hw, ?_⟩
          rw [hstop, length_append_buff]
          omega

/-- The loop stores twelve bytes for each buff. -/
theorem stored_foldl_putBuff (buffs : List BuffData) (bw : BufferWriter) :
    (buffs.foldl putBuff bw).stored = bw.stored + 12 * buffs.length := by
  induction buffs generalizing bw with
  | nil => rfl
  | cons buff buffs ih =>
      rw [List.foldl_cons, ih, putBuff, BufferWriter.stored_put, BufferWriter.stored_put,
        Pod.size_uint64, Pod.size_uint32, List.length_cons]
      omega

/-- Filling in the header that was reserved first. -/
theorem wrote_storeHeader {alloc : ℕ} {bw : BufferWriter} {body : Bytes} (h : PacketHeader)
    (hbw : BufferWriter.Wrote alloc bw (List.replicate packetHeaderSize 0 ++ body)) :
    BufferWriter.Wrote alloc (storeHeader h (some 0) bw)
      (Pod.encode h.size ++ Pod.encode h.id ++ body) := by
  have hzeros : List.replicate packetHeaderSize (0 : UInt8) =
      List.replicate 2 0 ++ List.replicate 2 0 := by decide
  rw [hzeros] at hbw
  have hsize := BufferWriter.Wrote.poke [] (List.replicate 2 0) (List.replicate 2 0 ++ body)
    (by simpa using hbw) (Pod.encode h.size) (by simp)
  have hid := BufferWriter.Wrote.poke (Pod.encode h.size) (List.replicate 2 0) body
    (by simpa using hsize) (Pod.encode h.id) (by simp)
  simpa [storeHeader] using hid

/-- The writer of `Make_S_TEST` in front of the loop. -/
def testWriter (id : UInt64) (hp : UInt32) (attack : UInt16) (buffs : List BuffData) :
    BufferWriter :=
  (((((SendBuffer.writer 4096).reserve packetHeaderSize).2.put id).put hp).put attack).put
    (UInt16.ofNat buffs.length)

/-- `Make_S_TEST` writes the front and the buffs, and then the header over them. -/
theorem makeSTest_eq (id : UInt64) (hp : UInt32) (attack : UInt16) (buffs : List BuffData) :
    makeSTest id hp attack buffs = SendBuffer.ofWriter (storeHeader
      ⟨UInt16.ofNat (buffs.foldl putBuff (testWriter id hp attack buffs)).pos, sTest⟩ (some 0)
      (buffs.foldl putBuff (testWriter id hp attack buffs))) := by
  obtain ⟨bw, hreserve, -⟩ := SendBuffer.wrote_reserve 4096 packetHeaderSize
    (by simp [packetHeaderSize]) (by simp)
  unfold makeSTest testWriter
  simp only [hreserve]

/-- The front of `S_TEST` has stored 16 bytes besides the header. -/
theorem stored_testWriter (id : UInt64) (hp : UInt32) (attack : UInt16) (buffs : List BuffData) :
    (testWriter id hp attack buffs).stored = 16 := by
  have hnone : (SendBuffer.writer 4096).stored = 0 := rfl
  simp only [testWriter, BufferWriter.stored_put, BufferWriter.stored_reserve, hnone,
    Pod.size_uint64, Pod.size_uint32, Pod.size_uint16, Nat.zero_add, Nat.reduceAdd]

/-- The header adds its bytes to what is stored. -/
theorem stored_storeHeader (h : PacketHeader) (off : ℕ) (bw : BufferWriter) :
    (storeHeader h (some off) bw).stored = packetHeaderSize + bw.stored := by
  simp only [storeHeader, BufferWriter.stored_poke, Pod.length_encode, Pod.size_uint16,
    packetHeaderSize]
  omega

/-- In front of the loop are twenty bytes. -/
theorem wrote_testWriter (id : UInt64) (hp : UInt32) (attack : UInt16) (buffs : List BuffData) :
    BufferWriter.Wrote 4096 (testWriter id hp attack buffs)
      (List.replicate packetHeaderSize 0 ++ (Pod.encode id ++ Pod.encode hp ++ Pod.encode attack ++
        Pod.encode (UInt16.ofNat buffs.length))) := by
  obtain ⟨bw, hreserve, hbw⟩ := SendBuffer.wrote_reserve 4096 packetHeaderSize
    (by simp [packetHeaderSize]) (by simp)
  rw [testWriter, hreserve]
  have h := hbw.put id (by simp [packetHeaderSize])
  have h := h.put hp (by simp [packetHeaderSize])
  have h := h.put attack (by simp [packetHeaderSize])
  have h := h.put (UInt16.ofNat buffs.length) (by simp [packetHeaderSize])
  simpa only [List.append_assoc] using h

/-- What is written of a list that fits, and how many bytes are stored. -/
theorem wrote_makeSTest (h : buffs.length ≤ 339) :
    ∃ bw, makeSTest id hp attack buffs = SendBuffer.ofWriter bw ∧
      bw.stored = 20 + 12 * buffs.length ∧
      BufferWriter.Wrote 4096 bw
        (testFront id hp attack buffs.length ++ buffs.flatMap buffBytes) := by
  have hfront := wrote_testWriter id hp attack buffs
  have hlength : (List.replicate packetHeaderSize (0 : UInt8) ++ (Pod.encode id ++ Pod.encode hp ++
      Pod.encode attack ++ Pod.encode (UInt16.ofNat buffs.length))).length = 20 := by
    simp [packetHeaderSize]
  have hloop := wrote_foldl_putBuff hfront buffs (by rw [hlength]; omega)
  have hpos := hloop.pos
  rw [List.length_append, hlength, length_flatMap_buffs] at hpos
  rw [List.append_assoc] at hloop
  have hwrote := wrote_storeHeader ⟨UInt16.ofNat (20 + 12 * buffs.length), sTest⟩ hloop
  refine ⟨storeHeader ⟨UInt16.ofNat (20 + 12 * buffs.length), sTest⟩ (some 0)
    (buffs.foldl putBuff (testWriter id hp attack buffs)), ?_, ?_, ?_⟩
  · rw [makeSTest_eq, hpos]
  · rw [stored_storeHeader, stored_foldl_putBuff, stored_testWriter, packetHeaderSize]
    omega
  · simpa only [testFront, List.append_assoc] using hwrote

/-- **A list of buffs is written exactly** when it has at most 339 entries. -/
theorem testLaw_iff : TestLaw id hp attack buffs ↔ buffs.length ≤ 339 := by
  have hfront := wrote_testWriter id hp attack buffs
  have hlength : (List.replicate packetHeaderSize (0 : UInt8) ++ (Pod.encode id ++ Pod.encode hp ++
      Pod.encode attack ++ Pod.encode (UInt16.ofNat buffs.length))).length = 20 := by
    simp [packetHeaderSize]
  constructor
  · intro h
    by_contra hmany
    -- the buff behind the first 339 ends four bytes behind the allocation
    obtain ⟨w, hw, hstop⟩ := exists_store_of_lt hfront (not_le.mp hmany) (by rw [hlength]; omega)
    have hin := h.inBounds.1 w (by
      rw [makeSTest_eq]
      exact List.mem_append_left _ (List.mem_append_left _ hw))
    rw [h.allocSize, hstop, hlength] at hin
    omega
  · intro h
    obtain ⟨bw, hmake, hstored, hbw⟩ := @wrote_makeSTest id hp attack buffs h
    have htotal := hbw.pos
    rw [List.length_append, length_testFront, length_flatMap_buffs] at htotal
    have hbytes := SendBuffer.bytes_ofWriter hbw (by rw [← hbw.pos, htotal]; omega)
    have hcount : (Pod.encode (UInt16.ofNat (20 + 12 * buffs.length)) ++ (Pod.encode sTest ++
        (Pod.encode id ++ Pod.encode hp ++ Pod.encode attack))).length = 18 := by
      simp
    rw [← hmake] at hbytes
    refine ⟨?_, ?_, ?_, ?_, ?_, ?_⟩
    · rw [hmake]
      exact hbw.length
    · rw [hmake, SendBuffer.inBounds_ofWriter_iff hbw, ← hbw.pos, htotal]
      omega
    · rw [hmake]
      exact htotal.trans hstored.symm
    · have hsize := Pod.read_append [] ((Pod.encode sTest ++ (Pod.encode id ++ Pod.encode hp ++
        Pod.encode attack ++ Pod.encode (UInt16.ofNat buffs.length))) ++ buffs.flatMap buffBytes)
        (UInt16.ofNat (20 + 12 * buffs.length))
      rw [hbytes, testFront, List.append_assoc, ← List.nil_append (Pod.encode _ ++ _),
        ← List.length_nil (α := UInt8), hsize, toNat_ofNat_of_lt (by omega), hmake]
      exact htotal.symm
    · have hread := Pod.read_append (Pod.encode (UInt16.ofNat (20 + 12 * buffs.length)) ++
        (Pod.encode sTest ++ (Pod.encode id ++ Pod.encode hp ++ Pod.encode attack)))
        (buffs.flatMap buffBytes) (UInt16.ofNat buffs.length)
      rw [hcount] at hread
      rw [hbytes, testFront]
      simp only [List.append_assoc] at hread ⊢
      rw [hread, toNat_ofNat_of_lt (by omega)]
    · rw [hbytes]
      exact List.drop_left' (length_testFront id hp attack buffs.length)

end test

/-! ## Both builders -/

/-- **The builders of variable length are exact** up to 1144 bytes of strings and 339 buffs, and no
further. -/
theorem builders_exact_iff (sessionId : UInt64) (info : PlayerRedisInfo) (id : UInt64) (hp : UInt32)
    (attack : UInt16) (buffs : List BuffData) :
    (PlayerInfoLaw sessionId info ↔ info.nickname.length + info.scene.length ≤ 1144) ∧
      (TestLaw id hp attack buffs ↔ buffs.length ≤ 339) :=
  ⟨playerInfoLaw_iff, testLaw_iff⟩

/-- A nickname of 1145 bytes, and a list of 340 buffs, are written past the end of the buffer. -/
theorem not_builders_exact :
    ¬ PlayerInfoLaw 1 { nickname := List.replicate 1145 65 } ∧
      ¬ TestLaw 1 100 10 (List.replicate 340 ⟨0, 0⟩) := by
  rw [playerInfoLaw_iff, testLaw_iff]
  simp only [List.length_replicate, List.length_nil]
  omega

end CowboyPoker.GameServer
