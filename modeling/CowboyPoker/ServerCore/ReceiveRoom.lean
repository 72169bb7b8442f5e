import CowboyPoker.ServerCore.PacketSession

/-!
# Room in the receive buffer

Nothing in `Session` compares a receive with the room that is left, and `Clean` copies with `memcpy`
without looking at the ranges. Both are safe for a `PacketSession`: what `OnRecv` leaves behind is less than
a packet, a packet is shorter than `0x10000` bytes, and the buffer is ten times that.

* `RecvBuffer.memcpy` — the copy that `Clean` makes. `clean_of_memcpy` ties it to `RecvBuffer.clean`.
* `onRecv_leftover`, `onRecv_enough` — what a run of the loop that ends leaves, and that the fuel of
  `processRecv` is enough for it.
* `Offered` — what holds at every `RegisterRecv`. `offered_step` — a completion keeps it.
* `receive_room` — in a run the buffer offers room for a whole packet at every `RegisterRecv`, no
  completion overflows, and every copy is between ranges that are apart.
-/

namespace CowboyPoker.ServerCore

open CowboyPoker.Found

/-! ## The copy -/

/-- A call of `memcpy` within one buffer. -/
structure Memcpy where
  /-- The offset that is copied to. -/
  dst : ℕ
  /-- The offset that is copied from. -/
  src : ℕ
  /-- The number of bytes. -/
  count : ℕ

/-- Both ranges lie inside a buffer of that size, and they do not overlap. -/
def Memcpy.Safe (m : Memcpy) (size : ℕ) : Prop :=
  m.dst + m.count ≤ size ∧ m.src + m.count ≤ size ∧
    (m.dst + m.count ≤ m.src ∨ m.src + m.count ≤ m.dst)

namespace RecvBuffer

/-- The copy that `Clean` makes, if it makes one.
Source: `ServerCore/RecvBuffer.cpp`, `RecvBuffer::Clean` -/
def memcpy (b : RecvBuffer) : Option Memcpy :=
  if b.dataSize = 0 then none
  else if b.freeSize < b.bufferSize then some ⟨0, b.readPos, b.dataSize⟩
  else none

variable {b b' : RecvBuffer} {m : Memcpy} {n : ℕ}

/-- Where `Clean` copies, it is defined only for ranges that are apart, and the data is then at the
front. -/
theorem clean_of_memcpy (hm : b.memcpy = some m) (hclean : b.clean = some b') :
    m.dst + m.count ≤ m.src ∧ b'.buffer = overwrite b.buffer m.dst ((b.buffer.drop m.src).take m.count) ∧
      b'.readPos = 0 ∧ b'.writePos = m.count := by
  unfold memcpy at hm
  unfold clean at hclean
  by_cases hzero : b.dataSize = 0
  · rw [if_pos hzero] at hm
    cases hm
  rw [if_neg hzero] at hm hclean
  by_cases hshort : b.freeSize < b.bufferSize
  · rw [if_pos hshort] at hm hclean
    obtain rfl := Option.some.inj hm
    by_cases hover : b.readPos < b.dataSize
    · rw [if_pos hover] at hclean
      cases hclean
    · rw [if_neg hover] at hclean
      obtain rfl := Option.some.inj hclean
      refine ⟨?_, rfl, rfl, rfl⟩
      show 0 + b.dataSize ≤ b.readPos
      omega
  · rw [if_neg hshort] at hm
    cases hm

/-- A copy that `Clean` makes without undefined behaviour is safe. -/
theorem memcpy_safe (hm : b.memcpy = some m) (hclean : b.clean = some b') : m.Safe b.capacity := by
  obtain ⟨hapart, -, -, -⟩ := clean_of_memcpy hm hclean
  have hsrc : m.src + m.count ≤ b.capacity := by
    have hle := b.readPos_le
    have hend : b.writePos ≤ b.capacity := b.writePos_le
    unfold memcpy at hm
    split at hm
    · cases hm
    · split at hm
      · obtain rfl := Option.some.inj hm
        show b.readPos + (b.writePos - b.readPos) ≤ b.capacity
        omega
      · cases hm
  exact ⟨by omega, hsrc, .inl hapart⟩

end RecvBuffer

/-! ## The loop -/

section Loop

variable {buffer : Bytes} {len : ℕ}

/-- A run of the loop that ends has gone on, has not left the data, and leaves less than a packet. -/
theorem onRecv_leftover {fuel processLen processed : ℕ} {packets : List Bytes}
    (h : onRecv buffer len fuel processLen = some (processed, packets)) (hle : processLen ≤ len) :
    processLen ≤ processed ∧ processed ≤ len ∧ len - processed < 0x10000 := by
  induction fuel generalizing processLen packets with
  | zero => cases h
  | succ fuel ih =>
      rw [onRecv] at h
      set size := (PacketHeader.read buffer processLen).size with hsize
      have hlt : size.toNat < 2 ^ 16 := size.toNat_lt
      by_cases hheader : len - processLen < packetHeaderSize
      · rw [if_pos hheader] at h
        obtain ⟨rfl, -⟩ := Prod.mk.inj (Option.some.inj h)
        unfold packetHeaderSize at hheader
        omega
      rw [if_neg hheader] at h
      by_cases hpacket : len - processLen < size.toNat
      · rw [if_pos hpacket] at h
        obtain ⟨rfl, -⟩ := Prod.mk.inj (Option.some.inj h)
        omega
      rw [if_neg hpacket] at h
      -- the loop goes on behind the packet
      cases hrest : onRecv buffer len fuel (processLen + size.toNat) with
      | none =>
          rw [hrest] at h
          cases h
      | some r =>
          rw [hrest] at h
          obtain ⟨rfl, -⟩ := Prod.mk.inj (Option.some.inj h)
          have hnext := ih hrest (by omega)
          omega

/-- The loop does not come back from a packet of size zero. -/
theorem onRecv_stuck {processLen : ℕ} (hheader : ¬ len - processLen < packetHeaderSize)
    (hzero : (PacketHeader.read buffer processLen).size.toNat = 0) (fuel : ℕ) :
    onRecv buffer len fuel processLen = none := by
  induction fuel with
  | zero => rfl
  | succ fuel ih =>
      rw [onRecv, if_neg hheader, if_neg (by omega), hzero, Nat.add_zero, ih]

/-- A run that ends needs no more fuel than there is data left, and a further unit. -/
theorem onRecv_enough {fuel processLen : ℕ} {r : ℕ × List Bytes}
    (h : onRecv buffer len fuel processLen = some r) {fuel' : ℕ} (hfuel : len - processLen < fuel') :
    onRecv buffer len fuel' processLen = some r := by
  induction fuel generalizing processLen r fuel' with
  | zero => cases h
  | succ fuel ih =>
      obtain ⟨fuel', rfl⟩ : ∃ k, fuel' = k + 1 := ⟨fuel' - 1, by omega⟩
      by_cases hheader : len - processLen < packetHeaderSize
      · rw [onRecv, if_pos hheader] at h ⊢
        exact h
      by_cases hpacket : len - processLen < (PacketHeader.read buffer processLen).size.toNat
      · rw [onRecv, if_neg hheader, if_pos hpacket] at h ⊢
        exact h
      by_cases hzero : (PacketHeader.read buffer processLen).size.toNat = 0
      · rw [onRecv_stuck hheader hzero] at h
        cases h
      · rw [onRecv, if_neg hheader, if_neg hpacket] at h ⊢
        cases hrest : onRecv buffer len fuel
            (processLen + (PacketHeader.read buffer processLen).size.toNat) with
        | none =>
            simp only [hrest] at h
            cases h
        | some r' =>
            unfold packetHeaderSize at hheader
            rw [ih hrest (by omega)]
            simp only [hrest] at h
            exact h

end Loop

/-! ## A completion -/

namespace Session

/-- The buffer that `OnRecv` is called on; `none` when `OnWrite` reports an overflow.
Source: `ServerCore/Session.cpp`, `Session::ProcessRecv` -/
def written (s : Session) (bytes : Bytes) : Option RecvBuffer :=
  (s.recvBuffer.fill bytes).onWrite bytes.length

/-- The buffer that `Clean` is called on, if `ProcessRecv` comes to the call.
Source: `ServerCore/Session.cpp`, `Session::ProcessRecv` -/
def consumed (s : Session) (bytes : Bytes) : Option RecvBuffer :=
  if bytes.length = 0 then none
  else
    match s.written bytes with
    | none => none
    | some recvBuffer =>
        match onRecv recvBuffer.unread recvBuffer.dataSize (recvBuffer.dataSize + 1) 0 with
        | none => none
        | some (processLen, _) =>
            if recvBuffer.dataSize < processLen then none else recvBuffer.onRead processLen

end Session

/-- The call of `OnRecv` in a completion, if there is one, comes to an end. -/
def RecvEnds (t : Entry Session Bytes (Option (List Bytes))) : Prop :=
  t.input ≠ [] → ∀ b, t.before.written t.input = some b →
    ∃ fuel r, onRecv b.unread b.dataSize fuel 0 = some r

/-- What holds of the receive buffer at every `RegisterRecv`. -/
structure Offered (b : RecvBuffer) : Prop where
  /-- `_bufferSize`. -/
  bufferSize_eq : b.bufferSize = 0x10000
  /-- `_capacity` is ten times that. -/
  capacity_eq : b.capacity = 10 * 0x10000
  /-- The positions are in order. -/
  read_le_write : b.readPos ≤ b.writePos
  /-- They lie inside the buffer. -/
  write_le_capacity : b.writePos ≤ b.capacity
  /-- The room that is offered to `WSARecv` is at least a whole buffer size. -/
  room : b.bufferSize ≤ b.freeSize

/-- What a completion does with the receive buffer. -/
structure ReceiveSafe (t : Entry Session Bytes (Option (List Bytes))) : Prop where
  /-- The buffer that was offered to it. -/
  before : Offered t.before.recvBuffer
  /-- `OnWrite` does not report an overflow. -/
  no_overflow : t.before.written t.input ≠ none
  /-- `Clean` copies between ranges that are apart and inside the buffer, and keeps the data. -/
  copies : ∀ b, t.before.consumed t.input = some b →
    (∀ m, b.memcpy = some m → m.Safe b.capacity) ∧
      ∃ b', b.clean = some b' ∧ b'.unread = b.unread ∧ t.after.recvBuffer = b'
  /-- Unless the connection was closed, `ProcessRecv` comes to `Clean`, and then to `RegisterRecv`. -/
  registers : t.input ≠ [] → t.before.consumed t.input ≠ none ∧ t.output ≠ none ∧
    t.after.connected = t.before.connected
  /-- The buffer that is offered next. -/
  after : Offered t.after.recvBuffer

section Step

variable {b b' : RecvBuffer} {s : Session} {bytes : Bytes}

/-- The positions of a buffer and its size are all that is needed. -/
theorem offered_of_room (hsize : b.bufferSize = 0x10000) (hroom : b.bufferSize ≤ b.freeSize) :
    Offered b where
  bufferSize_eq := hsize
  capacity_eq := by
    rw [RecvBuffer.capacity, hsize, bufferCount]
  read_le_write := b.readPos_le
  write_le_capacity := b.writePos_le
  room := hroom

/-- A session starts with all of its buffer free. -/
theorem offered_init : Offered Session.init.recvBuffer := by
  refine offered_of_room rfl ?_
  show Session.bufferSize ≤ Session.bufferSize * bufferCount - 0
  unfold bufferCount
  omega

/-- What was received and the end of `OnRecv` fix the rest of the completion. -/
theorem exists_consumed (hoffered : Offered s.recvBuffer)
    (hfits : bytes.length ≤ s.recvBuffer.freeSize) (hne : bytes ≠ [])
    (hends : RecvEnds (tcpSession.entry s bytes)) :
    ∃ b b' packets, s.consumed bytes = some b ∧ b.clean = some b' ∧ b'.unread = b.unread ∧
      Offered b' ∧ s.processRecv bytes = ({ s with recvBuffer := b' }, some packets) := by
  have hlen : bytes.length ≠ 0 := fun h => hne (List.length_eq_zero_iff.mp h)
  obtain ⟨stored, hstored, -, hsize⟩ := RecvBuffer.onWrite_fill hfits
  obtain ⟨fuel, ⟨processLen, packets⟩, hr⟩ := hends hne stored hstored
  have hloop := onRecv_enough hr (show stored.dataSize - 0 < stored.dataSize + 1 by omega)
  obtain ⟨-, hle, hleft⟩ := onRecv_leftover hloop (Nat.zero_le _)
  have hdata := stored.length_unread
  have hread_le : processLen ≤ stored.unread.length := by omega
  obtain ⟨b, hread, hunread, hsize'⟩ := RecvBuffer.onRead_eq hread_le
  have hsmall : b.unread.length ≤ b.bufferSize := by
    rw [hunread, List.length_drop, hsize', hsize, hoffered.bufferSize_eq]
    omega
  obtain ⟨b', hclean, hkeeps, hsize'', hroom⟩ := RecvBuffer.clean_eq hsmall
  refine ⟨b, b', packets, ?_, hclean, hkeeps, ?_, ?_⟩
  · rw [Session.consumed, if_neg hlen, Session.written, hstored]
    simp only [hloop]
    rw [if_neg (by omega), hread]
  · refine offered_of_room ?_ (hsize'' ▸ hroom)
    rw [hsize'', hsize', hsize, hoffered.bufferSize_eq]
  · simp only [Session.processRecv]
    rw [if_neg hlen, hstored]
    simp only [hloop]
    rw [if_neg (by omega), hread]
    simp only [hclean]

/-- **A completion** that fits keeps the room, and its copies are safe. -/
theorem offered_step (hoffered : Offered s.recvBuffer)
    (hfits : bytes.length ≤ s.recvBuffer.freeSize)
    (hends : RecvEnds (tcpSession.entry s bytes)) : ReceiveSafe (tcpSession.entry s bytes) := by
  have hwritten : s.written bytes ≠ none := by
    obtain ⟨stored, hstored, -⟩ := RecvBuffer.onWrite_fill hfits
    exact fun h => Option.some_ne_none stored (hstored.symm.trans h)
  by_cases hne : bytes = []
  · -- the connection was closed, and nothing is copied
    subst hne
    have hconsumed : s.consumed [] = none := if_pos rfl
    refine ⟨hoffered, hwritten, fun b hb => ?_, fun h => absurd rfl h, ?_⟩
    · cases hconsumed.symm.trans hb
    · exact offered_of_room hoffered.bufferSize_eq hoffered.room
  · obtain ⟨b, b', packets, hconsumed, hclean, hkeeps, hafter, hstep⟩ :=
      exists_consumed hoffered hfits hne hends
    have hstep' : tcpSession.step s bytes = ({ s with recvBuffer := b' }, some packets) := hstep
    refine ⟨hoffered, hwritten, fun c hc => ?_, fun _ => ⟨?_, ?_, ?_⟩, ?_⟩
    · obtain rfl : b = c := Option.some.inj (hconsumed.symm.trans hc)
      refine ⟨fun m hm => RecvBuffer.memcpy_safe hm hclean, b', hclean, hkeeps, ?_⟩
      rw [Transducer.entry_after, hstep']
    · exact fun h => Option.some_ne_none b (hconsumed.symm.trans h)
    · rw [Transducer.entry_output, hstep']
      exact Option.some_ne_none packets
    · rw [Transducer.entry_after, hstep', Transducer.entry_before]
    · rw [Transducer.entry_after, hstep']
      exact hafter

end Step

/-! ## A run -/

section Run

variable {chunks : List Bytes}

/-- **The receive buffer always offers a whole buffer size.** In every run of completions, each no longer
than the room that was offered to it, in which `OnRecv` comes to an end, the positions are in order and
inside the buffer at every `RegisterRecv` and at least `0x10000` bytes are free; no completion overflows,
and every copy of `Clean` is between ranges that are apart and keeps the unread bytes. -/
theorem receive_room
    (hfits : ∀ t ∈ tcpSession.trace .init chunks, t.input.length ≤ t.before.recvBuffer.freeSize)
    (hends : ∀ t ∈ tcpSession.trace .init chunks, RecvEnds t) :
    Offered (tcpSession.exec .init chunks).recvBuffer ∧
      ∀ t ∈ tcpSession.trace .init chunks, ReceiveSafe t := by
  have hstep : ∀ s bytes, Offered s.recvBuffer →
      (tcpSession.entry s bytes).input.length ≤
          (tcpSession.entry s bytes).before.recvBuffer.freeSize ∧
        RecvEnds (tcpSession.entry s bytes) → Offered (tcpSession.step s bytes).1.recvBuffer :=
    fun s bytes hs hC => (offered_step hs hC.1 hC.2).after
  have hboth : ∀ t ∈ tcpSession.trace .init chunks,
      t.input.length ≤ t.before.recvBuffer.freeSize ∧ RecvEnds t :=
    fun t ht => ⟨hfits t ht, hends t ht⟩
  constructor
  · exact tcpSession.guarded_invariant (I := fun s => Offered s.recvBuffer) offered_init hstep chunks
      hboth
  · intro t ht
    have hbefore := tcpSession.guarded_trace_invariant (I := fun s => Offered s.recvBuffer)
      offered_init hstep hboth ht
    rw [tcpSession.eq_entry_of_mem_trace ht]
    refine offered_step hbefore (hfits t ht) ?_
    rw [← tcpSession.eq_entry_of_mem_trace ht]
    exact hends t ht

/-- A completion that comes to an end has come to the end of `OnRecv`. -/
theorem recvEnds_of_output {s : Session} {bytes : Bytes}
    (h : (tcpSession.entry s bytes).output ≠ none) : RecvEnds (tcpSession.entry s bytes) := by
  intro hne b hb
  have hlen : bytes.length ≠ 0 := fun h => hne (List.length_eq_zero_iff.mp h)
  refine ⟨b.dataSize + 1, ?_⟩
  cases hr : onRecv b.unread b.dataSize (b.dataSize + 1) 0 with
  | some r => exact ⟨r, rfl⟩
  | none =>
      refine absurd ?_ h
      show (s.processRecv bytes).2 = none
      have hstored : (s.recvBuffer.fill bytes).onWrite bytes.length = some b := hb
      simp only [Session.processRecv]
      rw [if_neg hlen, hstored]
      simp only [hr]

/-- A packet and a half, and then the rest. -/
theorem receive_room_two_packets :
    Offered (tcpSession.exec .init [[4, 0, 7], [0, 6, 0, 1, 0], [9, 9]]).recvBuffer ∧
      ∀ t ∈ tcpSession.trace .init [[4, 0, 7], [0, 6, 0, 1, 0], [9, 9]], ReceiveSafe t := by
  have hframes : ∀ f ∈ ([[4, 0, 7, 0], [6, 0, 1, 0, 9, 9]] : List Bytes),
      packetFraming.WellFormed f := by decide
  have hstream : ([[4, 0, 7], [0, 6, 0, 1, 0], [9, 9]] : List Bytes).flatten <+:
      ([[4, 0, 7, 0], [6, 0, 1, 0, 9, 9]] : List Bytes).flatten := List.prefix_rfl
  have hfits := fits_of_length_le hframes [[4, 0, 7], [0, 6, 0, 1, 0], [9, 9]] hstream (by decide)
  refine receive_room (fun t ht => (hfits t ht).2) fun t ht => ?_
  have houtput := (framed_exec hframes hstream hfits).ended t ht
  rw [tcpSession.eq_entry_of_mem_trace ht] at houtput ⊢
  exact recvEnds_of_output houtput

end Run

end CowboyPoker.ServerCore
