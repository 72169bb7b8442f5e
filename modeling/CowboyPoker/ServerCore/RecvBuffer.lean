import CowboyPoker.Found.LittleEndian

/-!
# `RecvBuffer`: the receive buffer of a TCP session

Data is received behind `_writePos` and consumed from `_readPos`; `Clean` moves what is left to the
front when the room behind it gets short.

* `RecvBuffer` — the buffer with its two positions, which stay in order and inside it.
* `fill`, `onWrite`, `onRead`, `clean` — what `WSARecv` stores, and the three operations. `Clean` copies
  with `memcpy`, whose effect is undefined when the ranges overlap; `clean` has no result then.
* `unread` — the data between the positions. **One lemma for each operation** says what becomes of it:
  `onWrite_fill`, `onRead_eq`, `clean_eq`.
-/

namespace CowboyPoker.ServerCore

open CowboyPoker.Found

/-- `BUFFER_COUNT`.
Source: `ServerCore/RecvBuffer.h`, `RecvBuffer::BUFFER_COUNT` -/
def bufferCount : ℕ := 10

/-- The buffer.
Source: `ServerCore/RecvBuffer.h`, `RecvBuffer` -/
structure RecvBuffer where
  /-- `_bufferSize`. -/
  bufferSize : ℕ
  /-- `_buffer`. -/
  buffer : Bytes
  /-- `_readPos`. -/
  readPos : ℕ
  /-- `_writePos`. -/
  writePos : ℕ
  /-- The size is `_capacity`. -/
  length_buffer : buffer.length = bufferSize * bufferCount
  /-- Nothing is read before it is written. -/
  readPos_le : readPos ≤ writePos
  /-- Nothing is written behind the end. -/
  writePos_le : writePos ≤ bufferSize * bufferCount

namespace RecvBuffer

/-- The constructor.
Source: `ServerCore/RecvBuffer.cpp`, `RecvBuffer::RecvBuffer` -/
def init (bufferSize : ℕ) : RecvBuffer where
  bufferSize
  buffer := List.replicate (bufferSize * bufferCount) 0
  readPos := 0
  writePos := 0
  length_buffer := List.length_replicate
  readPos_le := le_rfl
  writePos_le := Nat.zero_le _

/-- `_capacity`. -/
def capacity (b : RecvBuffer) : ℕ := b.bufferSize * bufferCount

/-- `DataSize`.
Source: `ServerCore/RecvBuffer.h`, `RecvBuffer::DataSize` -/
def dataSize (b : RecvBuffer) : ℕ := b.writePos - b.readPos

/-- `FreeSize`.
Source: `ServerCore/RecvBuffer.h`, `RecvBuffer::FreeSize` -/
def freeSize (b : RecvBuffer) : ℕ := b.capacity - b.writePos

/-- The data from `ReadPos()` on. -/
def unread (b : RecvBuffer) : Bytes := (b.buffer.drop b.readPos).take b.dataSize

/-- A receive stores its bytes from `WritePos()` on. -/
def fill (b : RecvBuffer) (bytes : Bytes) : RecvBuffer :=
  { b with
    buffer := overwrite b.buffer b.writePos bytes
    length_buffer := by rw [length_overwrite, b.length_buffer] }

/-- `OnWrite`; `none` stands for `false`.
Source: `ServerCore/RecvBuffer.cpp`, `RecvBuffer::OnWrite` -/
def onWrite (b : RecvBuffer) (numOfBytes : ℕ) : Option RecvBuffer :=
  if h : numOfBytes > b.freeSize then none
  else
    some { b with
      writePos := b.writePos + numOfBytes
      readPos_le := b.readPos_le.trans (Nat.le_add_right _ _)
      writePos_le := by
        have := b.writePos_le
        unfold freeSize capacity at h
        omega }

/-- `OnRead`; `none` stands for `false`.
Source: `ServerCore/RecvBuffer.cpp`, `RecvBuffer::OnRead` -/
def onRead (b : RecvBuffer) (numOfBytes : ℕ) : Option RecvBuffer :=
  if h : numOfBytes > b.dataSize then none
  else
    some { b with
      readPos := b.readPos + numOfBytes
      readPos_le := by
        have := b.readPos_le
        unfold dataSize at h
        omega }

/-- `Clean`; `none` when the ranges of the `memcpy` overlap.
Source: `ServerCore/RecvBuffer.cpp`, `RecvBuffer::Clean` -/
def clean (b : RecvBuffer) : Option RecvBuffer :=
  if b.dataSize = 0 then
    some { b with
      readPos := 0
      writePos := 0
      readPos_le := le_rfl
      writePos_le := Nat.zero_le _ }
  else if b.freeSize < b.bufferSize then
    if b.readPos < b.dataSize then none
    else
      some { b with
        buffer := overwrite b.buffer 0 b.unread
        readPos := 0
        writePos := b.dataSize
        length_buffer := by rw [length_overwrite, b.length_buffer]
        readPos_le := Nat.zero_le _
        writePos_le := (Nat.sub_le _ _).trans b.writePos_le }
  else some b

/-! ## What becomes of the data -/

variable {b b' : RecvBuffer} {bytes : Bytes} {n : ℕ}

/-- The parts of the buffer. -/
theorem exists_parts (b : RecvBuffer) : ∃ pre post, b.buffer = pre ++ (b.unread ++ post) ∧
    pre.length = b.readPos ∧ b.unread.length = b.dataSize := by
  refine ⟨b.buffer.take b.readPos, (b.buffer.drop b.readPos).drop b.dataSize, ?_, ?_, ?_⟩
  · rw [unread, List.take_append_drop, List.take_append_drop]
  · have := b.readPos_le
    have := b.writePos_le
    rw [List.length_take, b.length_buffer]
    omega
  · have := b.writePos_le
    rw [unread, List.length_take, List.length_drop, b.length_buffer, dataSize]
    omega

theorem length_unread (b : RecvBuffer) : b.unread.length = b.dataSize := by
  obtain ⟨_, _, -, -, h⟩ := b.exists_parts
  exact h

/-- The data is what lies between the positions. -/
theorem unread_eq_of_parts (pre mid post : Bytes) (hbuffer : b.buffer = pre ++ (mid ++ post))
    (hread : pre.length = b.readPos) (hwrite : b.readPos + mid.length = b.writePos) :
    b.unread = mid := by
  have hsize : b.dataSize = mid.length := by
    unfold dataSize
    omega
  rw [unread, hbuffer, ← hread, List.drop_left, hsize, List.take_left]

/-- A receive that fits appends its bytes to the data. -/
theorem onWrite_fill (h : bytes.length ≤ b.freeSize) :
    ∃ b', (b.fill bytes).onWrite bytes.length = some b' ∧ b'.unread = b.unread ++ bytes ∧
      b'.bufferSize = b.bufferSize := by
  have hfits : ¬ bytes.length > (b.fill bytes).freeSize := not_lt.mpr h
  unfold onWrite
  rw [dif_neg hfits]
  refine ⟨_, rfl, ?_, rfl⟩
  obtain ⟨pre, post, hbuffer, hpre, hunread⟩ := b.exists_parts
  have hle := b.readPos_le
  have hwrite : (pre ++ b.unread).length = b.writePos := by
    rw [List.length_append, hpre, hunread, dataSize]
    omega
  have hroom : bytes.length ≤ post.length := by
    have hlen := b.length_buffer
    rw [hbuffer, ← List.append_assoc, List.length_append, hwrite] at hlen
    unfold freeSize capacity at h
    omega
  refine unread_eq_of_parts pre _ (post.drop bytes.length) ?_ hpre ?_
  · show overwrite b.buffer b.writePos bytes = _
    rw [hbuffer, ← List.append_assoc, ← hwrite, overwrite_append _ _ _ hroom]
    simp only [List.append_assoc]
  · show b.readPos + (b.unread ++ bytes).length = b.writePos + bytes.length
    rw [List.length_append, hunread, dataSize]
    omega

/-- Consuming data that is there drops it. -/
theorem onRead_eq (h : n ≤ b.unread.length) :
    ∃ b', b.onRead n = some b' ∧ b'.unread = b.unread.drop n ∧ b'.bufferSize = b.bufferSize := by
  have hsize := b.length_unread
  unfold onRead
  rw [dif_neg (by omega)]
  refine ⟨_, rfl, ?_, rfl⟩
  show (b.buffer.drop (b.readPos + n)).take (b.writePos - (b.readPos + n)) = _
  rw [unread, List.drop_take, List.drop_drop, dataSize, Nat.sub_sub]

/-- `Clean` keeps the data and leaves room for a whole buffer, if there is not more data than that. -/
theorem clean_eq (h : b.unread.length ≤ b.bufferSize) :
    ∃ b', b.clean = some b' ∧ b'.unread = b.unread ∧ b'.bufferSize = b.bufferSize ∧
      b.bufferSize ≤ b'.freeSize := by
  have hsize := b.length_unread
  have hle := b.readPos_le
  have hcapacity := b.writePos_le
  unfold bufferCount at hcapacity
  unfold clean
  by_cases hzero : b.dataSize = 0
  · rw [if_pos hzero]
    refine ⟨_, rfl, ?_, rfl, ?_⟩
    · rw [List.length_eq_zero_iff.mp (hsize.trans hzero)]
      rfl
    · show b.bufferSize ≤ b.bufferSize * bufferCount - 0
      unfold bufferCount
      omega
  rw [if_neg hzero]
  by_cases hshort : b.freeSize < b.bufferSize
  · -- the data sits far behind the front, so the ranges do not overlap
    have hapart : ¬ b.readPos < b.dataSize := by
      unfold freeSize capacity bufferCount at hshort
      unfold dataSize at hsize ⊢
      omega
    rw [if_pos hshort, if_neg hapart]
    refine ⟨_, rfl, ?_, rfl, ?_⟩
    · have hfits : b.unread.length ≤ b.buffer.length := by
        rw [b.length_buffer, hsize, dataSize]
        unfold bufferCount
        omega
      refine unread_eq_of_parts [] _ (b.buffer.drop b.unread.length) ?_ rfl ?_
      · exact overwrite_append [] b.buffer b.unread hfits
      · show 0 + b.unread.length = b.dataSize
        omega
    · show b.bufferSize ≤ b.bufferSize * bufferCount - b.dataSize
      unfold bufferCount
      omega
  · rw [if_neg hshort]
    exact ⟨b, rfl, rfl, rfl, not_lt.mp hshort⟩

end RecvBuffer

end CowboyPoker.ServerCore
