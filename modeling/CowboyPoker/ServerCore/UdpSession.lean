import CowboyPoker.ServerCore.BufferIO

/-!
# `UdpSession`: the datagram format

`UdpPacketHeader` with its packed layout, and the sizes of packets.
-/

namespace CowboyPoker.ServerCore

open CowboyPoker.Found

/-- The header of every datagram.
Source: `ServerCore/UdpSession.h`, `UdpPacketHeader` -/
structure UdpPacketHeader where
  /-- `sessionId`. -/
  sessionId : UInt64
  /-- `sequence`. -/
  sequence : UInt32
  /-- `id`, a packet type. -/
  id : UInt16
  deriving DecidableEq, Repr

/-- `sizeof(UdpPacketHeader)`: the fields are packed. -/
def udpPacketHeaderSize : ℕ := 14

/-- `UDP_MAX_PAYLOAD`. -/
def udpMaxPayload : ℕ := 1200

/-- `UDP_MAX_PACKET`.
Source: `ServerCore/UdpSession.h`, `UDP_MAX_PACKET` -/
def udpMaxPacket : ℕ := udpPacketHeaderSize + udpMaxPayload

namespace UdpPacketHeader

/-- The header that `reinterpret_cast<UdpPacketHeader*>(buffer)` shows. -/
def read (buffer : Bytes) : UdpPacketHeader :=
  ⟨Pod.read buffer 0, Pod.read buffer 8, Pod.read buffer 12⟩

/-- The bytes of a header. -/
def encode (h : UdpPacketHeader) : Bytes :=
  Pod.encode h.sessionId ++ Pod.encode h.sequence ++ Pod.encode h.id

@[simp] theorem length_encode (h : UdpPacketHeader) : h.encode.length = udpPacketHeaderSize := by
  simp [encode, udpPacketHeaderSize]

/-- The fields behind the session id depend on the bytes behind it only. -/
theorem read_congr {buffer buffer' : Bytes} (h : buffer.drop 8 = buffer'.drop 8) :
    (read buffer).sequence = (read buffer').sequence ∧ (read buffer).id = (read buffer').id := by
  have hread : ∀ {α : Type} [Pod α] (n : ℕ),
      (Pod.read buffer (8 + n) : α) = Pod.read buffer' (8 + n) := by
    intro α _ n
    rw [Pod.read_add, Pod.read_add, h]
  exact ⟨hread 0, hread 4⟩

/-- A header in front of a payload is read back. -/
theorem read_encode_append (h : UdpPacketHeader) (payload : Bytes) :
    read (h.encode ++ payload) = h := by
  have h₁ : Pod.read (h.encode ++ payload) 0 = h.sessionId := by
    have := Pod.read_append [] (Pod.encode h.sequence ++ Pod.encode h.id ++ payload) h.sessionId
    simpa [encode] using this
  have h₂ : Pod.read (h.encode ++ payload) 8 = h.sequence := by
    have := Pod.read_append (Pod.encode h.sessionId) (Pod.encode h.id ++ payload) h.sequence
    simpa [encode] using this
  have h₃ : Pod.read (h.encode ++ payload) 12 = h.id := by
    have := Pod.read_append (Pod.encode h.sessionId ++ Pod.encode h.sequence) payload h.id
    simpa [encode] using this
  rw [read, h₁, h₂, h₃]

/-- The header lies inside its own bytes. -/
theorem read_append_left {buffer : Bytes} (h : udpPacketHeaderSize ≤ buffer.length) (tail : Bytes) :
    read (buffer ++ tail) = read buffer := by
  rw [udpPacketHeaderSize] at h
  simp only [read, mk.injEq]
  refine ⟨Pod.read_append_left _ _ ?_, Pod.read_append_left _ _ ?_, Pod.read_append_left _ _ ?_⟩
  · rw [Pod.size_uint64]
    omega
  · rw [Pod.size_uint32]
    omega
  · rwa [Pod.size_uint16]

/-- `header->sessionId = …; header->sequence = …; header->id = …` on the reserved bytes. A store
through the null pointer is not modelled: `Reserve` never returns it here, see
`SendBuffer.wrote_reserve`. -/
def store (h : UdpPacketHeader) (off : Option ℕ) (bw : BufferWriter) : BufferWriter :=
  match off with
  | none => bw
  | some off =>
      ((bw.poke off (Pod.encode h.sessionId)).poke (off + 8) (Pod.encode h.sequence)).poke
        (off + 12) (Pod.encode h.id)

/-- Filling in the header that was reserved first. -/
theorem wrote_store {alloc : ℕ} {bw : BufferWriter} {body : Bytes} (h : UdpPacketHeader)
    (hbw : BufferWriter.Wrote alloc bw (List.replicate udpPacketHeaderSize 0 ++ body)) :
    BufferWriter.Wrote alloc (h.store (some 0) bw) (h.encode ++ body) := by
  have hzeros : List.replicate udpPacketHeaderSize (0 : UInt8) =
      List.replicate 8 0 ++ List.replicate 4 0 ++ List.replicate 2 0 := by decide
  rw [hzeros] at hbw
  have h₁ := BufferWriter.Wrote.poke [] (List.replicate 8 0)
    (List.replicate 4 0 ++ List.replicate 2 0 ++ body) (by simpa using hbw)
    (Pod.encode h.sessionId) (by simp)
  have h₂ := BufferWriter.Wrote.poke (Pod.encode h.sessionId) (List.replicate 4 0)
    (List.replicate 2 0 ++ body) (by simpa using h₁) (Pod.encode h.sequence) (by simp)
  have h₃ := BufferWriter.Wrote.poke (Pod.encode h.sessionId ++ Pod.encode h.sequence)
    (List.replicate 2 0) body (by simpa using h₂) (Pod.encode h.id) (by simp)
  simpa [store, encode] using h₃

end UdpPacketHeader

end CowboyPoker.ServerCore
