import CowboyPoker.ServerCore.BufferIO
import CowboyPoker.ServerCore.PacketSession

/-!
# `ServerPacketHandler` and the packets it is handed

`OnRecv` moves on by the size that each header declares, and compares it only with what is left. A size
of zero keeps it where it is for good; one of 1 to 3 makes a packet without a header.

* `ServerPacketHandler.handlePacket` — the header that `HandlePacket` switches on.
* `ServerPacketHandler.makeSTest` — `Make_S_TEST`, the one builder.
* `OnRecvLaw` — the loop ends, its packets tile what it has processed, and each has a header.
* `Boundary` — where a packet starts, going by the declared sizes. `onRecvLaw_iff` — the law holds
  exactly when no header at a boundary declares less than the size of a header.
-/

namespace CowboyPoker.GameServer

open CowboyPoker.Found
open CowboyPoker.ServerCore

/-! ## The handler -/

namespace ServerPacketHandler

/-- The header that the switch, which has no case, looks at; `none` when nothing was stored in it.
Source: `GameServer/ServerPacketHandler.cpp`, `ServerPacketHandler::HandlePacket` -/
def handlePacket (buffer : Bytes) (len : ℕ) : Option PacketHeader :=
  let br : BufferReader := { buffer, size := len }
  (br.peek packetHeaderSize).1.map fun dest => PacketHeader.read dest 0

/-- Source: `GameServer/GameSession.cpp`, `GameSession::OnRecvPacket` -/
def onRecvPacket (packet : Bytes) : Option PacketHeader := handlePacket packet packet.length

/-- `Peek` stores a header exactly when the packet has one. -/
theorem onRecvPacket_ne_none_iff {packet : Bytes} (h : packet.length < 2 ^ 32) :
    onRecvPacket packet ≠ none ↔ packetHeaderSize ≤ packet.length := by
  have hfree : (packet.length + 2 ^ 32 - 0) % 2 ^ 32 = packet.length := by omega
  unfold onRecvPacket handlePacket BufferReader.peek
  simp only [BufferReader.freeSize, hfree]
  by_cases hlen : packet.length < packetHeaderSize
  · simp [hlen]
  · simp [hlen, not_lt.mp hlen]

/-! ## The builder -/

/-- `S_TEST`. -/
def sTest : UInt16 := 1

/-- Source: `GameServer/ServerPacketHandler.h`, `BuffData`; a `float` is its 32-bit pattern -/
structure BuffData where
  /-- `buffId`. -/
  buffId : UInt64
  /-- `remainTime`. -/
  remainTime : UInt32
  deriving DecidableEq, Repr

/-- `bw << buff.buffId << buff.remainTime`. -/
def putBuff (bw : BufferWriter) (buff : BuffData) : BufferWriter :=
  (bw.put buff.buffId).put buff.remainTime

/-- `header->size = …; header->id = …` on the reserved bytes. -/
def storeHeader (h : PacketHeader) (off : Option ℕ) (bw : BufferWriter) : BufferWriter :=
  match off with
  | none => bw
  | some off => (bw.poke off (Pod.encode h.size)).poke (off + 2) (Pod.encode h.id)

/-- Source: `GameServer/ServerPacketHandler.cpp`, `ServerPacketHandler::Make_S_TEST` -/
def makeSTest (id : UInt64) (hp : UInt32) (attack : UInt16) (buffs : List BuffData) : SendBuffer :=
  let (header, bw) := (SendBuffer.writer 4096).reserve packetHeaderSize
  let bw := ((bw.put id).put hp).put attack
  let bw := bw.put (UInt16.ofNat buffs.length)
  let bw := buffs.foldl putBuff bw
  SendBuffer.ofWriter (storeHeader ⟨UInt16.ofNat bw.pos, sTest⟩ header bw)

end ServerPacketHandler

/-! ## The packets of `OnRecv` -/

/-- `OnRecv` ends with some `processLen`, the packets that it hands over are consecutive and tile the
bytes up to there, and each has a header, which `HandlePacket` reads. -/
def OnRecvLaw (buffer : Bytes) (len : ℕ) : Prop :=
  ∃ fuel processLen packets, onRecv buffer len fuel 0 = some (processLen, packets) ∧
    processLen ≤ len ∧ packets.flatten = buffer.take processLen ∧
    ∀ packet ∈ packets, packetHeaderSize ≤ packet.length ∧
      ServerPacketHandler.onRecvPacket packet ≠ none

/-- The size that the header at an offset declares. -/
def declaredSize (buffer : Bytes) (off : ℕ) : ℕ := (PacketHeader.read buffer off).size.toNat

/-- Where a packet starts, going by the declared sizes. -/
inductive Boundary (buffer : Bytes) (len : ℕ) : ℕ → Prop
  /-- At the start. -/
  | start : Boundary buffer len 0
  /-- Behind a complete packet. -/
  | next {off : ℕ} (h : Boundary buffer len off) (hheader : off + packetHeaderSize ≤ len)
      (hpacket : off + declaredSize buffer off ≤ len) :
      Boundary buffer len (off + declaredSize buffer off)

/-- No header at a boundary declares less than the size of a header. -/
def NoShortHeader (buffer : Bytes) (len : ℕ) : Prop :=
  ∀ off, Boundary buffer len off → off + packetHeaderSize ≤ len →
    packetHeaderSize ≤ declaredSize buffer off

section loop

variable {buffer : Bytes} {len : ℕ}

/-- A boundary lies within the data. -/
theorem Boundary.le {off : ℕ} (h : Boundary buffer len off) : off ≤ len := by
  cases h with
  | start => exact Nat.zero_le len
  | next _ _ hpacket => exact hpacket

/-- An iteration that breaks off. -/
theorem onRecv_break {fuel off : ℕ}
    (h : len - off < packetHeaderSize ∨ len - off < declaredSize buffer off) :
    onRecv buffer len (fuel + 1) off = some (off, []) := by
  unfold declaredSize at h
  simp only [onRecv]
  by_cases hheader : len - off < packetHeaderSize
  · rw [if_pos hheader]
  · rw [if_neg hheader, if_pos (h.resolve_left hheader)]

/-- An iteration that hands over a packet. -/
theorem onRecv_packet {fuel off : ℕ} (hheader : packetHeaderSize ≤ len - off)
    (hpacket : declaredSize buffer off ≤ len - off) :
    onRecv buffer len (fuel + 1) off =
      (onRecv buffer len fuel (off + declaredSize buffer off)).map fun done =>
        (done.1, (buffer.drop off).take (declaredSize buffer off) :: done.2) := by
  unfold declaredSize at hpacket ⊢
  simp only [onRecv]
  rw [if_neg (not_lt.mpr hheader), if_neg (not_lt.mpr hpacket)]
  cases onRecv buffer len fuel (off + (PacketHeader.read buffer off).size.toNat) <;> rfl

/-- **At each boundary** a run that ends goes on to its end, and hands over packets of its own. -/
theorem onRecv_boundary {fuel processLen off : ℕ} {packets : List Bytes}
    (hloop : onRecv buffer len fuel 0 = some (processLen, packets)) (h : Boundary buffer len off) :
    ∃ fuel' rest, onRecv buffer len fuel' off = some (processLen, rest) ∧ rest ⊆ packets := by
  induction h with
  | start => exact ⟨fuel, packets, hloop, fun _ h => h⟩
  | @next off h hheader hpacket ih =>
      obtain ⟨fuel', rest, hrest, hsub⟩ := ih
      cases fuel' with
      | zero => cases hrest
      | succ fuel' =>
          rw [onRecv_packet (by omega) (by omega), Option.map_eq_some_iff] at hrest
          obtain ⟨⟨processed, more⟩, hmore, heq⟩ := hrest
          cases heq
          exact ⟨fuel', more, hmore, fun x hx => hsub (List.mem_cons_of_mem _ hx)⟩

/-- **From each boundary** the loop ends, when no header is short. -/
theorem onRecv_tiles (hlen : len ≤ buffer.length) (hshort : NoShortHeader buffer len) {off : ℕ}
    (h : Boundary buffer len off) :
    ∃ fuel processLen packets, onRecv buffer len fuel off = some (processLen, packets) ∧
      off ≤ processLen ∧ processLen ≤ len ∧
      packets.flatten = (buffer.drop off).take (processLen - off) ∧
      ∀ packet ∈ packets, packetHeaderSize ≤ packet.length ∧ packet.length < 2 ^ 16 := by
  -- the measure is what is left of the data
  induction hleft : len - off using Nat.strong_induction_on generalizing off with
  | _ left ih =>
      by_cases hbreak : len - off < packetHeaderSize ∨ len - off < declaredSize buffer off
      · refine ⟨1, off, [], onRecv_break hbreak, le_rfl, h.le, ?_, by simp⟩
        rw [Nat.sub_self, List.take_zero, List.flatten_nil]
      · rw [not_or, not_lt, not_lt] at hbreak
        obtain ⟨hheader, hpacket⟩ := hbreak
        have hpos : 0 < packetHeaderSize := by decide
        have hfour := hshort off h (by omega)
        obtain ⟨fuel, processLen, packets, hloop, hle, hend, hflat, hall⟩ :=
          ih (len - (off + declaredSize buffer off)) (by omega)
            (h.next (by omega) (by omega)) rfl
        refine ⟨fuel + 1, processLen, (buffer.drop off).take (declaredSize buffer off) :: packets, ?_,
          by omega, hend, ?_, fun packet hp => ?_⟩
        · rw [onRecv_packet hheader hpacket, hloop]
          rfl
        · rw [List.flatten_cons, hflat, ← List.drop_drop, ← List.take_add]
          congr 1
          omega
        · rcases List.mem_cons.mp hp with rfl | hp
          · rw [List.length_take, List.length_drop, Nat.min_eq_left (by omega)]
            exact ⟨hfour, (PacketHeader.read buffer off).size.toNat_lt⟩
          · exact hall packet hp

/-- A size of zero keeps the loop at its place. -/
theorem onRecv_zero {off : ℕ} (hheader : packetHeaderSize ≤ len - off)
    (hzero : declaredSize buffer off = 0) (fuel : ℕ) : onRecv buffer len fuel off = none := by
  induction fuel with
  | zero => rfl
  | succ fuel ih => rw [onRecv_packet hheader (by omega), hzero, Nat.add_zero, ih, Option.map_none]

end loop

/-- **`OnRecv` cuts its data into packets with headers** exactly when no header at a boundary declares
less than the size of a header. -/
theorem onRecvLaw_iff (buffer : Bytes) (len : ℕ) (hlen : len ≤ buffer.length) :
    OnRecvLaw buffer len ↔ NoShortHeader buffer len := by
  constructor
  · rintro ⟨fuel, processLen, packets, hloop, -, -, hall⟩ off hoff hheader
    by_contra hshort
    -- the short packet would be handed over
    obtain ⟨fuel', rest, hrest, hsub⟩ := onRecv_boundary hloop hoff
    cases fuel' with
    | zero => cases hrest
    | succ fuel' =>
        rw [onRecv_packet (by omega) (by omega), Option.map_eq_some_iff] at hrest
        obtain ⟨⟨processed, more⟩, -, heq⟩ := hrest
        cases heq
        obtain ⟨hfour, -⟩ := hall _ (hsub List.mem_cons_self)
        rw [List.length_take, List.length_drop] at hfour
        omega
  · intro hshort
    obtain ⟨fuel, processLen, packets, hloop, -, hend, hflat, hall⟩ :=
      onRecv_tiles hlen hshort .start
    refine ⟨fuel, processLen, packets, hloop, hend, hflat, fun packet hp => ?_⟩
    obtain ⟨hfour, hlt⟩ := hall packet hp
    exact ⟨hfour, (ServerPacketHandler.onRecvPacket_ne_none_iff (by omega)).mpr hfour⟩

theorem onRecvLaw_packet_and_a_half : OnRecvLaw [4, 0, 7, 0, 6, 0] 6 := by
  refine (onRecvLaw_iff [4, 0, 7, 0, 6, 0] 6 (by decide)).mpr fun off _ hheader => ?_
  have hall : ∀ off < 3, packetHeaderSize ≤ declaredSize [4, 0, 7, 0, 6, 0] off := by decide
  exact hall off (by rw [packetHeaderSize] at hheader; omega)

/-- On a header that declares size zero the loop does not end. -/
theorem not_onRecvLaw_zero : ¬ OnRecvLaw [0, 0, 0, 0] 4 := by
  rintro ⟨fuel, processLen, packets, hloop, -⟩
  rw [onRecv_zero (by decide) (by decide)] at hloop
  cases hloop

/-- On one that declares size three, `HandlePacket` switches on a header that nothing was stored in. -/
example : onRecv [3, 0, 1, 0] 4 2 0 = some (3, [[3, 0, 1]]) ∧
    (ServerPacketHandler.onRecvPacket [3, 0, 1]).isNone := by
  decide

end CowboyPoker.GameServer
