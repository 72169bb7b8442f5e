import CowboyPoker.Found.LittleEndian

/-!
# `BufferReader`, `BufferWriter`, `SendBuffer`

The unchecked cursors that every packet goes through.

* `BufferReader.get` and `BufferWriter.put` are the two stream operators: they touch `sizeof(T)`
  bytes at the cursor and move it, and never look at the size of the buffer. Each keeps a log of
  the byte ranges it touched (`reads`, `writes`); the log is the model's record of what the code
  does to memory and nothing in the code depends on it.
* `Unread` is the invariant of a reader: what lies between the cursor and the end of the data.
  `Unread.get` and `Unread.getBytes` carry it through a read.
* A store behind the end of the allocation is lost to the model's buffer (`overwrite`) but stays in
  the log, so `SendBuffer.InBounds` states that no store left the allocation.
* `Wrote` is the one invariant of a writer: what has been written so far, in order. `Wrote.put`,
  `Wrote.putBytes` and `Wrote.poke` carry it through the three kinds of store, and
  `SendBuffer.inBounds_ofWriter_iff` reads the bound off it.
-/

namespace CowboyPoker.ServerCore

open CowboyPoker.Found

/-! ## Byte ranges -/

/-- The byte range `[off, off + len)`. -/
structure Span where
  /-- The first byte. -/
  off : ℕ
  /-- The number of bytes. -/
  len : ℕ
  deriving DecidableEq, Repr

/-- The first byte behind a range. -/
def Span.stop (s : Span) : ℕ := s.off + s.len

/-- The range `n` bytes further on. -/
def Span.shift (s : Span) (n : ℕ) : Span := ⟨n + s.off, s.len⟩

/-! ## Reading -/

/-- A reading cursor over `_size` bytes.
Source: `ServerCore/BufferReader.h`, `BufferReader` -/
structure BufferReader where
  /-- `_buffer`. -/
  buffer : Bytes
  /-- `_size`, an `uint32`. -/
  size : ℕ
  /-- `_pos`, an `uint32`. -/
  pos : ℕ := 0
  /-- The ranges read so far. -/
  reads : List Span := []

namespace BufferReader

/-- `FreeSize()`: a subtraction of `uint32`s.
Source: `ServerCore/BufferReader.h`, `BufferReader::FreeSize` -/
def freeSize (br : BufferReader) : ℕ := (br.size + 2 ^ 32 - br.pos) % 2 ^ 32

/-- `operator>>`: reads a `T` at the cursor, without comparing the cursor with `_size`.
Source: `ServerCore/BufferReader.h`, `BufferReader::operator>>` -/
def get {α : Type} [Pod α] (br : BufferReader) : α × BufferReader :=
  (Pod.read br.buffer br.pos,
    { br with
      pos := (br.pos + Pod.size α) % 2 ^ 32
      reads := br.reads ++ [⟨br.pos, Pod.size α⟩] })

/-- `Peek(dest, len)`: the bytes copied to `dest`, which is left as it is when fewer are there.
Source: `ServerCore/BufferReader.cpp`, `BufferReader::Peek` -/
def peek (br : BufferReader) (len : ℕ) : Option Bytes × BufferReader :=
  if br.freeSize < len then (none, br)
  else (some ((br.buffer.drop br.pos).take len), { br with reads := br.reads ++ [⟨br.pos, len⟩] })

/-- The bytes between the cursor and the end of the data are `rest`. -/
structure Unread (br : BufferReader) (rest : Bytes) : Prop where
  /-- The data behind the cursor. -/
  drop_eq : br.buffer.drop br.pos = rest
  /-- The cursor stands inside the data. -/
  pos_le : br.pos ≤ br.buffer.length
  /-- The data is no longer than a cursor can count. -/
  length_lt : br.buffer.length < 2 ^ 32

/-- How far the cursor has come. -/
theorem Unread.pos_add {br : BufferReader} {rest : Bytes} (h : br.Unread rest) :
    br.pos + rest.length = br.buffer.length := by
  have hle := h.pos_le
  rw [← h.drop_eq, List.length_drop]
  omega

/-- A value that comes next is read. -/
theorem Unread.get {α : Type} [Pod α] {br : BufferReader} {x : α} {rest : Bytes}
    (h : br.Unread (Pod.encode x ++ rest)) :
    ∃ br', br.get = (x, br') ∧ br'.buffer = br.buffer ∧ br'.Unread rest := by
  have hpos := h.pos_add
  have hlt := h.length_lt
  rw [List.length_append, Pod.length_encode] at hpos
  have hnext : (br.pos + Pod.size α) % 2 ^ 32 = br.pos + Pod.size α := Nat.mod_eq_of_lt (by omega)
  refine ⟨_, Prod.ext ?_ rfl, rfl, ?_, ?_, hlt⟩
  · show (Pod.read br.buffer br.pos : α) = x
    have hread := Pod.read_append [] rest x
    rwa [← h.drop_eq, List.length_nil, List.nil_append, ← Pod.read_add] at hread
  · show br.buffer.drop ((br.pos + Pod.size α) % 2 ^ 32) = rest
    rw [hnext, ← List.drop_drop, h.drop_eq, List.drop_left' (Pod.length_encode x)]
  · show (br.pos + Pod.size α) % 2 ^ 32 ≤ br.buffer.length
    omega

/-- `n` bytes, read one by one with `operator>>`. -/
def getBytes : ℕ → BufferReader → Bytes × BufferReader
  | 0, br => ([], br)
  | n + 1, br =>
      let (b, br) : UInt8 × BufferReader := br.get
      let (bs, br) := getBytes n br
      (b :: bs, br)

/-- Bytes that come next are read. -/
theorem Unread.getBytes {br : BufferReader} {bs rest : Bytes} (h : br.Unread (bs ++ rest)) :
    ∃ br', getBytes bs.length br = (bs, br') ∧ br'.buffer = br.buffer ∧ br'.Unread rest := by
  induction bs generalizing br with
  | nil => exact ⟨br, rfl, rfl, h⟩
  | cons b bs ih =>
      have henc : Pod.encode b = [b] := by
        show [UInt8.ofNat b.toNat] = [b]
        rw [UInt8.ofNat_toNat]
      rw [List.cons_append, ← List.singleton_append, ← henc] at h
      obtain ⟨br₁, hget, hbuffer₁, hrest⟩ := h.get
      obtain ⟨br₂, hgetBytes, hbuffer₂, hdone⟩ := ih hrest
      refine ⟨br₂, ?_, hbuffer₂.trans hbuffer₁, hdone⟩
      simp only [List.length_cons, BufferReader.getBytes, hget, hgetBytes]

end BufferReader

/-! ## Writing -/

/-- A writing cursor over the memory of one allocation.
Source: `ServerCore/BufferWriter.h`, `BufferWriter` -/
structure BufferWriter where
  /-- The memory `_buffer` points to. -/
  buffer : Bytes
  /-- `_size`, an `uint32`. -/
  size : ℕ
  /-- `_pos`, an `uint32`. -/
  pos : ℕ := 0
  /-- The ranges written so far. -/
  writes : List Span := []

namespace BufferWriter

/-- `FreeSize()`.
Source: `ServerCore/BufferWriter.h`, `BufferWriter::FreeSize` -/
def freeSize (bw : BufferWriter) : ℕ := (bw.size + 2 ^ 32 - bw.pos) % 2 ^ 32

/-- Stores bytes at an offset, wherever it lies. -/
def poke (bw : BufferWriter) (off : ℕ) (xs : Bytes) : BufferWriter :=
  { bw with buffer := overwrite bw.buffer off xs, writes := bw.writes ++ [⟨off, xs.length⟩] }

/-- `operator<<`: stores a `T` at the cursor, without comparing the cursor with `_size`.
Source: `ServerCore/BufferWriter.h`, `BufferWriter::operator<<` -/
def put {α : Type} [Pod α] (bw : BufferWriter) (x : α) : BufferWriter :=
  { bw.poke bw.pos (Pod.encode x) with pos := (bw.pos + Pod.size α) % 2 ^ 32 }

/-- The loop `for (i = 0; i < n; i++) bw << (BYTE)s[i]` over the bytes it visits. -/
def putBytes (bw : BufferWriter) (xs : Bytes) : BufferWriter := xs.foldl put bw

/-- `Reserve<T>()` for a `T` of `n` bytes: the offset of the reserved bytes, or the null pointer
when they do not fit.
Source: `ServerCore/BufferWriter.h`, `BufferWriter::Reserve` -/
def reserve (bw : BufferWriter) (n : ℕ) : Option ℕ × BufferWriter :=
  if bw.freeSize < n then (none, bw)
  else (some bw.pos, { bw with pos := (bw.pos + n) % 2 ^ 32 })

/-- The number of bytes stored so far. -/
def stored (bw : BufferWriter) : ℕ := (bw.writes.map Span.len).sum

@[simp] theorem stored_poke (bw : BufferWriter) (off : ℕ) (xs : Bytes) :
    (bw.poke off xs).stored = bw.stored + xs.length := by
  simp [stored, poke]

@[simp] theorem stored_put {α : Type} [Pod α] (bw : BufferWriter) (x : α) :
    (bw.put x).stored = bw.stored + Pod.size α := by
  simp [stored, put, poke]

@[simp] theorem stored_putBytes (bw : BufferWriter) (xs : Bytes) :
    (bw.putBytes xs).stored = bw.stored + xs.length := by
  induction xs generalizing bw with
  | nil => rfl
  | cons x xs ih =>
      have htail := ih (bw.put x)
      rw [stored_put, Pod.size_uint8] at htail
      rw [putBytes, List.foldl_cons, List.length_cons]
      rw [putBytes] at htail
      omega

/-- Reserving stores nothing. -/
@[simp] theorem stored_reserve (bw : BufferWriter) (n : ℕ) : (bw.reserve n).2.stored = bw.stored := by
  unfold reserve
  split <;> rfl

/-- A store stays in the log. -/
theorem writes_subset_put {α : Type} [Pod α] (bw : BufferWriter) (x : α) :
    bw.writes ⊆ (bw.put x).writes :=
  List.subset_append_left _ _

/-- What a writer over an allocation of `alloc` bytes has written when `out` is everything behind
the cursor, in order. -/
structure Wrote (alloc : ℕ) (bw : BufferWriter) (out : Bytes) : Prop where
  /-- The cursor stands behind the output. -/
  pos : bw.pos = out.length
  /-- No store went past the cursor. -/
  writes : ∀ w ∈ bw.writes, w.stop ≤ out.length
  /-- The allocation keeps its size. -/
  length : bw.buffer.length = alloc
  /-- The allocation starts with the output, as long as it fits. -/
  content : out.length ≤ alloc → bw.buffer.take out.length = out

variable {alloc : ℕ} {bw : BufferWriter} {out : Bytes}

theorem Wrote.put {α : Type} [Pod α] (h : Wrote alloc bw out) (x : α)
    (hfit : out.length + Pod.size α < 2 ^ 32) :
    Wrote alloc (bw.put x) (out ++ Pod.encode x) where
  pos := by
    simp only [BufferWriter.put, h.pos, List.length_append, Pod.length_encode,
      Nat.mod_eq_of_lt hfit]
  writes := by
    intro w hw
    simp only [BufferWriter.put, poke, List.mem_append, List.mem_singleton] at hw
    rw [List.length_append]
    rcases hw with hw | rfl
    · exact (h.writes w hw).trans (Nat.le_add_right _ _)
    · rw [Span.stop, h.pos]
  length := by simp only [BufferWriter.put, poke, length_overwrite, h.length]
  content := by
    intro hle
    rw [List.length_append] at hle
    have htake := h.content (by omega)
    have hsplit : bw.buffer = out ++ bw.buffer.drop out.length := by
      conv_lhs => rw [← List.take_append_drop out.length bw.buffer, htake]
    have hroom : (Pod.encode x).length ≤ (bw.buffer.drop out.length).length := by
      rw [List.length_drop, h.length]
      omega
    show (overwrite bw.buffer bw.pos (Pod.encode x)).take _ = _
    rw [h.pos, hsplit, overwrite_append _ _ _ hroom, List.take_left]

theorem Wrote.putBytes (h : Wrote alloc bw out) (xs : Bytes)
    (hfit : out.length + xs.length < 2 ^ 32) : Wrote alloc (bw.putBytes xs) (out ++ xs) := by
  induction xs generalizing bw out with
  | nil => simpa [BufferWriter.putBytes] using h
  | cons x xs ih =>
      rw [List.length_cons] at hfit
      have hx : Wrote alloc (bw.put x) (out ++ [x]) := by
        have henc : Pod.encode x = [x] := by
          show [UInt8.ofNat x.toNat] = [x]
          rw [UInt8.ofNat_toNat]
        rw [← henc]
        exact h.put x (by rw [Pod.size_uint8]; omega)
      have := ih hx (by rw [List.length_append, List.length_singleton]; omega)
      rwa [List.append_assoc, List.singleton_append] at this

/-- Storing over bytes that are already part of the output replaces them. -/
theorem Wrote.poke (pre old post : Bytes) (h : Wrote alloc bw (pre ++ old ++ post)) (xs : Bytes)
    (hlen : xs.length = old.length) :
    Wrote alloc (bw.poke pre.length xs) (pre ++ xs ++ post) where
  pos := by simpa [BufferWriter.poke, hlen] using h.pos
  writes := by
    intro w hw
    simp only [BufferWriter.poke, List.mem_append, List.mem_singleton] at hw
    rcases hw with hw | rfl
    · simpa [hlen] using h.writes w hw
    · simp only [Span.stop, List.length_append]
      omega
  length := by simp only [BufferWriter.poke, length_overwrite, h.length]
  content := by
    intro hle
    have hle' : (pre ++ old ++ post).length ≤ alloc := by simpa [hlen] using hle
    have hsplit : bw.buffer = pre ++ (old ++ (post ++ bw.buffer.drop (pre ++ old ++ post).length)) := by
      conv_lhs => rw [← List.take_append_drop (pre ++ old ++ post).length bw.buffer, h.content hle']
      simp only [List.append_assoc]
    have hroom : xs.length ≤
        (old ++ (post ++ bw.buffer.drop (pre ++ old ++ post).length)).length := by
      rw [List.length_append]
      omega
    show (overwrite bw.buffer pre.length xs).take _ = _
    rw [hsplit, overwrite_append _ _ _ hroom, hlen, List.drop_left, ← List.append_assoc,
      List.take_left]

end BufferWriter

/-! ## Send buffers -/

/-- A packet handed to the socket: the allocation, how much of it is sent, and the stores that
filled it.
Source: `ServerCore/SendBuffer.h`, `SendBuffer` -/
structure SendBuffer where
  /-- `_buffer`. -/
  buffer : Bytes
  /-- `_writeSize`. -/
  writeSize : ℕ
  /-- The ranges its builder stored to. -/
  writes : List Span

namespace SendBuffer

/-- `AllocSize()`.
Source: `ServerCore/SendBuffer.h`, `SendBuffer::AllocSize` -/
def allocSize (buf : SendBuffer) : ℕ := buf.buffer.length

/-- The bytes `WSASendTo` is given: `WriteSize()` bytes from the start of the allocation.
Source: `ServerCore/UdpSession.cpp`, `UdpSession::SendTo` -/
def bytes (buf : SendBuffer) : Bytes := buf.buffer.take buf.writeSize

/-- Every byte the builder stored lies inside the allocation, and so does everything that is
sent. -/
def InBounds (buf : SendBuffer) : Prop :=
  (∀ w ∈ buf.writes, w.stop ≤ buf.allocSize) ∧ buf.writeSize ≤ buf.allocSize

instance (buf : SendBuffer) : Decidable buf.InBounds :=
  inferInstanceAs (Decidable ((∀ w ∈ buf.writes, w.stop ≤ buf.allocSize) ∧ _))

/-- A writer over a fresh `SendBuffer` of `n` zero bytes.
Source: `ServerCore/SendBuffer.cpp`, `SendBuffer::SendBuffer` -/
def writer (n : ℕ) : BufferWriter := { buffer := List.replicate n 0, size := n }

/-- The `SendBuffer` after `SetWriteSize(bw.WriteSize())`. -/
def ofWriter (bw : BufferWriter) : SendBuffer := ⟨bw.buffer, bw.pos, bw.writes⟩

/-- The number of bytes its builder stored. -/
def stored (buf : SendBuffer) : ℕ := (buf.writes.map Span.len).sum

/-- A fresh writer that reserves room for a header has written that many zeros. -/
theorem wrote_reserve (alloc n : ℕ) (hn : n ≤ alloc) (halloc : alloc < 2 ^ 32) :
    ∃ bw, (writer alloc).reserve n = (some 0, bw) ∧
      BufferWriter.Wrote alloc bw (List.replicate n 0) := by
  have hfree : ¬ (writer alloc).freeSize < n := by
    simp only [writer, BufferWriter.freeSize]
    omega
  refine ⟨_, if_neg hfree, ?_⟩
  constructor
  · simp only [writer, List.length_replicate, Nat.zero_add]
    exact Nat.mod_eq_of_lt (by omega)
  · intro w hw
    cases hw
  · simp [writer]
  · intro _
    simp [writer, List.take_replicate, hn]

/-- A builder stays inside its allocation exactly when its output fits. -/
theorem inBounds_ofWriter_iff {alloc : ℕ} {bw : BufferWriter} {out : Bytes}
    (h : BufferWriter.Wrote alloc bw out) : (ofWriter bw).InBounds ↔ out.length ≤ alloc := by
  have halloc : (ofWriter bw).allocSize = alloc := h.length
  unfold InBounds
  rw [halloc]
  constructor
  · rintro ⟨-, hsize⟩
    rwa [ofWriter, h.pos] at hsize
  · intro hle
    exact ⟨fun w hw => (h.writes w hw).trans hle, by rw [ofWriter, h.pos]; exact hle⟩

/-- What is sent is the output, when it fits. -/
theorem bytes_ofWriter {alloc : ℕ} {bw : BufferWriter} {out : Bytes}
    (h : BufferWriter.Wrote alloc bw out) (hle : out.length ≤ alloc) :
    (ofWriter bw).bytes = out := by
  show bw.buffer.take bw.pos = out
  rw [h.pos, h.content hle]

end SendBuffer

end CowboyPoker.ServerCore
