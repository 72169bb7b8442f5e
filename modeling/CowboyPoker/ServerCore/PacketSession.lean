import CowboyPoker.Found.Framing
import CowboyPoker.Found.Transducer
import CowboyPoker.ServerCore.RecvBuffer

/-!
# `PacketSession`: packets out of a TCP stream

* `onRecv` — the loop that takes complete packets out of the received data. The fuel bounds its
  iterations; it runs out only on a packet of size zero, on which the source does not come back.
* `Session`, `processRecv` — a receive completion: the bytes are stored in the buffer, complete packets
  are handed to `OnRecvPacket`, and the buffer is cleaned. `tcpSession` — the session as a
  `Transducer` that reads receive completions.
* `packetFraming` — packets as a `Framing`.
* `framing_of_segmentation` — however a stream of well-formed packets is cut into completions, each
  packet is handed over once, in order, when its last byte has arrived.
-/

namespace CowboyPoker.ServerCore

open CowboyPoker.Found

/-! ## The session -/

/-- The header of a packet; `size` counts the header too.
Source: `ServerCore/Session.h`, `PacketHeader` -/
structure PacketHeader where
  /-- `size`. -/
  size : UInt16
  /-- `id`. -/
  id : UInt16

/-- `sizeof(PacketHeader)`. -/
def packetHeaderSize : ℕ := 4

/-- The header that is stored at an offset. -/
def PacketHeader.read (buffer : Bytes) (off : ℕ) : PacketHeader where
  size := Pod.read buffer off
  id := Pod.read buffer (off + 2)

/-- `OnRecv` from `processLen` on: the value of `processLen` at its end and the packets handed to
`OnRecvPacket`.
Source: `ServerCore/Session.cpp`, `PacketSession::OnRecv` -/
def onRecv (buffer : Bytes) (len : ℕ) : ℕ → ℕ → Option (ℕ × List Bytes)
  | 0, _ => none
  | fuel + 1, processLen =>
      let dataSize := len - processLen
      if dataSize < packetHeaderSize then some (processLen, [])
      else
        let header := PacketHeader.read buffer processLen
        if dataSize < header.size.toNat then some (processLen, [])
        else
          match onRecv buffer len fuel (processLen + header.size.toNat) with
          | some (processed, packets) =>
              some (processed, (buffer.drop processLen).take header.size.toNat :: packets)
          | none => none

/-- What a session keeps of its connection.
Source: `ServerCore/Session.h`, `Session` -/
structure Session where
  /-- `_recvBuffer`. -/
  recvBuffer : RecvBuffer
  /-- `_connected`. -/
  connected : Bool

namespace Session

/-- `BUFFER_SIZE`.
Source: `ServerCore/Session.h`, `Session::BUFFER_SIZE` -/
def bufferSize : ℕ := 0x10000

/-- A session that has just been connected. -/
def init : Session where
  recvBuffer := .init bufferSize
  connected := true

/-- `Disconnect`.
Source: `ServerCore/Session.cpp`, `Session::Disconnect` -/
def disconnect (s : Session) : Session := { s with connected := false }

/-- A receive completion: `WSARecv` has stored `bytes`, and `ProcessRecv` runs. The second component has
the packets handed to `OnRecvPacket`; it is `none` when the loop does not end or the `memcpy` of
`Clean` is undefined.
Source: `ServerCore/Session.cpp`, `Session::ProcessRecv` -/
def processRecv (s : Session) (bytes : Bytes) : Session × Option (List Bytes) :=
  let numOfBytes := bytes.length
  let recvBuffer := s.recvBuffer.fill bytes
  if numOfBytes = 0 then (disconnect { s with recvBuffer }, some [])
  else
    match recvBuffer.onWrite numOfBytes with
    | none => (disconnect { s with recvBuffer }, some [])
    | some recvBuffer =>
        let dataSize := recvBuffer.dataSize
        match onRecv recvBuffer.unread dataSize (dataSize + 1) 0 with
        | none => ({ s with recvBuffer }, none)
        | some (processLen, packets) =>
            if dataSize < processLen then (disconnect { s with recvBuffer }, some packets)
            else
              match recvBuffer.onRead processLen with
              | none => (disconnect { s with recvBuffer }, some packets)
              | some recvBuffer =>
                  match recvBuffer.clean with
                  | none => ({ s with recvBuffer }, none)
                  | some recvBuffer => ({ s with recvBuffer }, some packets)

end Session

/-- The session as a machine that reads receive completions. -/
def tcpSession : Transducer Session Bytes (Option (List Bytes)) where
  step := Session.processRecv

/-- The bytes that the steps of a run received. -/
def received (h : List (Entry Session Bytes (Option (List Bytes)))) : Bytes :=
  h.flatMap fun t => t.input

/-- The packets that they handed to `OnRecvPacket`. -/
def packets (h : List (Entry Session Bytes (Option (List Bytes)))) : List Bytes :=
  h.flatMap fun t => t.output.getD []

/-- The completion is not empty and fits the room that was offered to it. -/
def Fits (t : Entry Session Bytes (Option (List Bytes))) : Prop :=
  t.input ≠ [] ∧ t.input.length ≤ t.before.recvBuffer.freeSize

/-! ## Packets as frames -/

/-- Reading a header depends on its bytes only. -/
theorem PacketHeader.read_append (xs ys : Bytes) (h : packetHeaderSize ≤ xs.length) :
    PacketHeader.read (xs ++ ys) 0 = PacketHeader.read xs 0 := by
  unfold packetHeaderSize at h
  have hsize : (Pod.read (xs ++ ys) 0 : UInt16) = Pod.read xs 0 := by
    rw [Pod.read, Pod.read, List.drop_zero, List.drop_zero,
      List.take_append_of_le_length (by rw [Pod.size_uint16]; omega)]
  have hid : (Pod.read (xs ++ ys) (0 + 2) : UInt16) = Pod.read xs (0 + 2) := by
    rw [Pod.read, Pod.read, List.drop_append_of_le_length (by omega),
      List.take_append_of_le_length (by rw [Pod.size_uint16, List.length_drop]; omega)]
  rw [PacketHeader.read, PacketHeader.read, hsize, hid]

/-- The format of packets. -/
def packetFraming : Framing UInt8 where
  headerSize := packetHeaderSize
  frameSize xs := (PacketHeader.read xs 0).size.toNat
  frameSize_append xs ys h := by rw [PacketHeader.read_append xs ys h]

theorem packetHeaderSize_pos : 0 < packetFraming.headerSize := by decide

/-- Reading a header at an offset is reading it from the rest of the buffer. -/
theorem PacketHeader.read_size_eq (pre post : Bytes) :
    (PacketHeader.read (pre ++ post) pre.length).size = (PacketHeader.read post 0).size := by
  show (Pod.read (pre ++ post) (pre.length + 0) : UInt16) = Pod.read post 0
  rw [Pod.read_add, List.drop_left]

/-- **The loop** takes the packets out of the data until what is left does not hold one. -/
theorem onRecv_eq {frames : List Bytes} {rest : Bytes}
    (hframes : ∀ f ∈ frames, packetFraming.WellFormed f) (hrest : packetFraming.Incomplete rest)
    (pre : Bytes) {fuel : ℕ} (hfuel : frames.length < fuel) :
    onRecv (pre ++ (frames.flatten ++ rest)) (pre ++ (frames.flatten ++ rest)).length fuel
      pre.length = some (pre.length + frames.flatten.length, frames) := by
  induction frames generalizing pre fuel with
  | nil =>
      obtain ⟨fuel, rfl⟩ := Nat.exists_eq_succ_of_ne_zero (Nat.ne_of_gt hfuel)
      have hlen : (pre ++ rest).length - pre.length = rest.length := by
        rw [List.length_append]
        omega
      simp only [List.flatten_nil, List.nil_append, onRecv, hlen, List.length_nil, Nat.add_zero]
      by_cases hheader : rest.length < packetHeaderSize
      · rw [if_pos hheader]
      · have hshort : rest.length < (PacketHeader.read rest 0).size.toNat :=
          hrest.resolve_left hheader
        rw [if_neg hheader, PacketHeader.read_size_eq, if_pos hshort]
  | cons f frames ih =>
      obtain ⟨fuel, rfl⟩ := Nat.exists_eq_succ_of_ne_zero (Nat.ne_of_gt (Nat.zero_lt_of_lt hfuel))
      obtain ⟨hheader, hsize⟩ := hframes f List.mem_cons_self
      have hlen : (pre ++ ((f :: frames).flatten ++ rest)).length - pre.length =
          f.length + (frames.flatten ++ rest).length := by
        simp only [List.flatten_cons, List.append_assoc, List.length_append]
        omega
      have hread : (PacketHeader.read (pre ++ ((f :: frames).flatten ++ rest)) pre.length).size.toNat =
          f.length := by
        rw [PacketHeader.read_size_eq, List.flatten_cons, List.append_assoc,
          PacketHeader.read_append _ _ hheader]
        exact hsize
      have hmore := ih (fun g hg => hframes g (List.mem_cons_of_mem _ hg)) (pre ++ f)
        (Nat.lt_of_succ_lt_succ hfuel)
      have hpre : (pre ++ f).length = pre.length + f.length := List.length_append
      rw [List.append_assoc, ← List.append_assoc f, ← List.flatten_cons, hpre] at hmore
      have hpacket : ((pre ++ ((f :: frames).flatten ++ rest)).drop pre.length).take f.length = f := by
        rw [List.drop_left, List.flatten_cons, List.append_assoc, List.take_left]
      have hheader' : packetHeaderSize ≤ f.length := hheader
      unfold onRecv
      simp only [hlen, hread, hpacket, hmore]
      rw [if_neg (by omega), if_neg (by omega), List.flatten_cons, List.length_append,
        Nat.add_assoc]

/-! ## Completions -/

/-- **One completion** hands over the packets that it completes, and leaves the rest in the buffer. -/
theorem processRecv_eq {s : Session} {bytes rest : Bytes} {frames : List Bytes} (hne : bytes ≠ [])
    (hfits : bytes.length ≤ s.recvBuffer.freeSize)
    (hdata : s.recvBuffer.unread ++ bytes = frames.flatten ++ rest)
    (hframes : ∀ f ∈ frames, packetFraming.WellFormed f) (hrest : packetFraming.Incomplete rest)
    (hsize : rest.length ≤ s.recvBuffer.bufferSize) :
    ∃ s', s.processRecv bytes = (s', some frames) ∧ s'.recvBuffer.unread = rest ∧
      s'.connected = s.connected ∧ s'.recvBuffer.bufferSize = s.recvBuffer.bufferSize ∧
      s.recvBuffer.bufferSize ≤ s'.recvBuffer.freeSize := by
  obtain ⟨b₁, hwrite, hunread₁, hsize₁⟩ := RecvBuffer.onWrite_fill hfits
  rw [hdata] at hunread₁
  have hlen₁ : b₁.dataSize = (frames.flatten ++ rest).length := by
    rw [← b₁.length_unread, hunread₁]
  have hfuel : frames.length < (frames.flatten ++ rest).length + 1 := by
    have hle := Framing.length_le_length_flatten packetHeaderSize_pos hframes
    rw [List.length_append]
    omega
  have hloop := onRecv_eq hframes hrest [] hfuel
  simp only [List.nil_append, List.length_nil, Nat.zero_add] at hloop
  have hle : frames.flatten.length ≤ b₁.unread.length := by
    rw [hunread₁, List.length_append]
    omega
  obtain ⟨b₂, hread, hunread₂, hsize₂⟩ := RecvBuffer.onRead_eq hle
  rw [hunread₁, List.drop_left] at hunread₂
  obtain ⟨b₃, hclean, hunread₃, hsize₃, hroom⟩ := RecvBuffer.clean_eq (b := b₂) (by
    rw [hunread₂, hsize₂, hsize₁]
    exact hsize)
  refine ⟨{ s with recvBuffer := b₃ }, ?_, hunread₃.trans hunread₂, rfl,
    hsize₃.trans (hsize₂.trans hsize₁), ?_⟩
  · have hprocess : ¬ b₁.dataSize < frames.flatten.length := by
      rw [hlen₁, List.length_append]
      omega
    unfold Session.processRecv
    simp only [hwrite, hunread₁, hlen₁, hloop] at hprocess ⊢
    rw [if_neg (by rwa [List.length_eq_zero_iff]), if_neg hprocess]
    simp only [hread, hclean]
  · rw [← hsize₁, ← hsize₂]
    exact hroom

/-! ## Runs -/

/-- What is known of the steps `h` when the session is in `s`: it has been sent a part of the stream of
`frames`, it has handed over the complete packets, and it holds the rest. -/
structure Framed (frames : List Bytes) (h : List (Entry Session Bytes (Option (List Bytes))))
    (s : Session) : Prop where
  /-- The complete packets were handed over, and the rest is unread. -/
  cut : ∃ n, Framing.Cut frames (received h) n s.recvBuffer.unread ∧ packets h = frames.take n
  /-- The session is connected. -/
  connected : s.connected
  /-- Every step came to an end. -/
  ended : ∀ t ∈ h, t.output ≠ none
  /-- The size of the buffer is that of every session. -/
  size : s.recvBuffer.bufferSize = Session.bufferSize
  /-- There is room for a whole buffer. -/
  room : Session.bufferSize ≤ s.recvBuffer.freeSize

variable {frames : List Bytes}

theorem framed_init (hframes : ∀ f ∈ frames, packetFraming.WellFormed f) :
    Framed frames [] .init where
  cut := ⟨0, Framing.cut_nil fun f hf => (hframes f hf).ne_nil packetHeaderSize_pos, rfl⟩
  connected := rfl
  ended _ h := absurd h List.not_mem_nil
  size := rfl
  room := by
    show Session.bufferSize ≤ Session.bufferSize * bufferCount - 0
    decide

/-- A packet is shorter than the buffer. -/
theorem length_lt_of_wellFormed {f : Bytes} (h : packetFraming.WellFormed f) :
    f.length < Session.bufferSize := by
  rw [← h.2]
  exact (PacketHeader.read f 0).size.toNat_lt

/-- The rest is shorter than the buffer. -/
theorem length_rest_le {xs rest : Bytes} {n : ℕ} (h : Framing.Cut frames xs n rest)
    (hframes : ∀ f ∈ frames, packetFraming.WellFormed f) : rest.length ≤ Session.bufferSize := by
  rcases hnext : frames[n]? with _ | f
  · have hstream := h.belongs
    rw [List.drop_of_length_le (List.getElem?_eq_none_iff.mp hnext)] at hstream
    rw [List.prefix_nil.mp hstream]
    exact Nat.zero_le _
  · have hshort := h.short f hnext
    have hlt := length_lt_of_wellFormed (hframes f (List.mem_of_getElem? hnext))
    omega

/-- **The step lemma.** A completion that continues the stream. -/
theorem framed_step {h : List (Entry Session Bytes (Option (List Bytes)))} {s : Session}
    {bytes : Bytes} (hframes : ∀ f ∈ frames, packetFraming.WellFormed f) (hinv : Framed frames h s)
    (hfits : Fits (tcpSession.entry s bytes))
    (hstream : received (h ++ [tcpSession.entry s bytes]) <+: frames.flatten) :
    Framed frames (h ++ [tcpSession.entry s bytes]) (tcpSession.step s bytes).1 := by
  obtain ⟨n, hcut, hpackets⟩ := hinv.cut
  obtain ⟨hne, hle⟩ : bytes ≠ [] ∧ bytes.length ≤ s.recvBuffer.freeSize := hfits
  have hreceived : received (h ++ [tcpSession.entry s bytes]) = received h ++ bytes := by
    rw [received, List.flatMap_append, List.flatMap_singleton]
    rfl
  rw [hreceived] at hstream
  -- what was left over and the new bytes are cut into packets of their own
  obtain ⟨k, rest, hnext⟩ := Framing.exists_cut (hcut.append_belongs hstream)
  have htaken : ∀ f ∈ (frames.drop n).take k, packetFraming.WellFormed f := fun f hf =>
    hframes f (List.mem_of_mem_drop (List.mem_of_mem_take hf))
  have hcut' := hcut.append hnext
  have hrest := length_rest_le hcut' hframes
  rw [← hinv.size] at hrest
  obtain ⟨s', hstep, hunread, hconnected, hsize, hroom⟩ := processRecv_eq hne hle
    hnext.received_eq htaken (hcut'.incomplete packetHeaderSize_pos hframes) hrest
  have hentry : tcpSession.entry s bytes = ⟨s, bytes, s', some ((frames.drop n).take k)⟩ := by
    simp only [Transducer.entry, tcpSession, hstep]
  have hafter : (tcpSession.step s bytes).1 = s' := congrArg Prod.fst hstep
  rw [hafter]
  constructor
  · refine ⟨n + k, ?_, ?_⟩
    · rw [hreceived, hunread]
      exact hcut'
    · rw [packets, List.flatMap_append, List.flatMap_singleton, hentry, List.take_add]
      exact congrArg (· ++ _) hpackets
  · rw [hconnected]
    exact hinv.connected
  · intro t ht
    rcases List.mem_append.mp ht with ht | ht
    · exact hinv.ended t ht
    · rw [List.mem_singleton.mp ht, hentry]
      exact Option.some_ne_none _
  · exact hsize.trans hinv.size
  · rw [← hinv.size]
    exact hroom

/-- What the steps of a run have received is what its inputs contain. -/
theorem received_trace (s : Session) (chunks : List Bytes) :
    received (tcpSession.trace s chunks) = chunks.flatten := by
  induction chunks generalizing s with
  | nil => rfl
  | cons bytes chunks ih =>
      rw [Transducer.trace_cons, received, List.flatMap_cons, List.flatten_cons]
      exact congrArg (bytes ++ ·) (ih _)

/-- A run that receives a part of the stream. -/
theorem framed_exec (hframes : ∀ f ∈ frames, packetFraming.WellFormed f) {chunks : List Bytes}
    (hstream : chunks.flatten <+: frames.flatten)
    (hfits : ∀ t ∈ tcpSession.trace .init chunks, Fits t) :
    Framed frames (tcpSession.trace .init chunks) (tcpSession.exec .init chunks) := by
  refine tcpSession.history_invariant (C := Fits)
    (J := fun h s => received h <+: frames.flatten → Framed frames h s)
    (fun _ => framed_init hframes) ?_ chunks hfits ?_
  · intro h s bytes hinv hC hpre
    refine framed_step hframes (hinv ?_) hC hpre
    refine List.IsPrefix.trans ?_ hpre
    rw [received, received, List.flatMap_append]
    exact List.prefix_append _ _
  · rwa [received_trace]

/-- **Framing is independent of segmentation.** However a stream of well-formed packets is cut into
completions, after each completion the packets that are complete have been handed over, once and in
order, the rest is unread, the session is connected and the completion came to an end; and at the end
all packets have been handed over. -/
theorem framing_of_segmentation (frames chunks : List Bytes)
    (hframes : ∀ f ∈ frames, packetFraming.WellFormed f) (hcut : chunks.flatten = frames.flatten)
    (hfits : ∀ t ∈ tcpSession.trace .init chunks, Fits t) :
    (∀ pre t post, tcpSession.trace .init chunks = pre ++ t :: post →
      (∃ n, Framing.Cut frames (received (pre ++ [t])) n t.after.recvBuffer.unread ∧
        packets (pre ++ [t]) = frames.take n) ∧
      t.after.connected ∧ t.output ≠ none) ∧
    packets (tcpSession.trace .init chunks) = frames := by
  constructor
  · intro pre t post htrace
    obtain ⟨as, bytes, bs, rfl, rfl, rfl, -⟩ := tcpSession.trace_eq_append_cons htrace
    have hpart : tcpSession.trace .init (as ++ [bytes]) = tcpSession.trace .init as ++
        [tcpSession.entry (tcpSession.exec .init as) bytes] := tcpSession.trace_append _ _ _
    rw [List.append_cons] at hcut hfits
    have hsplit : (as ++ [bytes] ++ bs).flatten = (as ++ [bytes]).flatten ++ bs.flatten :=
      List.flatten_append
    have hstream : (as ++ [bytes]).flatten <+: frames.flatten := by
      rw [← hcut, hsplit]
      exact List.prefix_append _ _
    have hinv := framed_exec hframes hstream fun u hu => hfits u (by
      rw [Transducer.trace_append]
      exact List.mem_append_left _ hu)
    rw [hpart, Transducer.exec_append] at hinv
    exact ⟨hinv.cut, hinv.connected, hinv.ended _ (List.mem_append_right _ List.mem_cons_self)⟩
  · obtain ⟨n, hall, hpackets⟩ := (framed_exec hframes (hcut ▸ List.prefix_rfl) hfits).cut
    rw [received_trace, hcut] at hall
    rw [hpackets, hall.eq_length.1, List.take_length]

/-- Completions that are not longer than the buffer size always fit. -/
theorem fits_of_length_le (hframes : ∀ f ∈ frames, packetFraming.WellFormed f)
    (chunks : List Bytes) (hstream : chunks.flatten <+: frames.flatten)
    (hsize : ∀ c ∈ chunks, c ≠ [] ∧ c.length ≤ Session.bufferSize) :
    ∀ t ∈ tcpSession.trace .init chunks, Fits t := by
  induction chunks using List.reverseRecOn with
  | nil => exact fun t ht => absurd ht List.not_mem_nil
  | append_singleton chunks bytes ih =>
      rw [List.flatten_append] at hstream
      have hstream' := (List.prefix_append _ _).trans hstream
      have hfits := ih hstream' fun c hc => hsize c (List.mem_append_left _ hc)
      obtain ⟨hne, hle⟩ := hsize bytes (List.mem_append_right _ List.mem_cons_self)
      intro t ht
      rw [Transducer.trace_append] at ht
      rcases List.mem_append.mp ht with ht | ht
      · exact hfits t ht
      · rw [List.mem_singleton.mp ht]
        exact ⟨hne, hle.trans (framed_exec hframes hstream' hfits).room⟩

theorem framing_of_segmentation_two_packets :
    packets (tcpSession.trace .init [[4, 0, 7], [0, 6, 0, 1, 0], [9, 9]]) =
      [[4, 0, 7, 0], [6, 0, 1, 0, 9, 9]] := by
  have hframes : ∀ f ∈ ([[4, 0, 7, 0], [6, 0, 1, 0, 9, 9]] : List Bytes),
      packetFraming.WellFormed f := by decide
  have hfits := fits_of_length_le hframes [[4, 0, 7], [0, 6, 0, 1, 0], [9, 9]]
    List.prefix_rfl (by decide)
  exact (framing_of_segmentation _ [[4, 0, 7], [0, 6, 0, 1, 0], [9, 9]] hframes rfl hfits).2

end CowboyPoker.ServerCore
