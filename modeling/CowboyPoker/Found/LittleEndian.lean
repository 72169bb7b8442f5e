import Mathlib.Data.Nat.ModEq
import Mathlib.Tactic.Ring
import Mathlib.Tactic.NormNum

/-!
# Plain data as little-endian bytes

* `leBytes w n` / `leNat bs` — a natural as its `w` low bytes, least significant first, and back;
  `leNat_leBytes` is the round trip modulo `256 ^ w`.
* `Pod α` — a type whose values are stored as a fixed number of bytes. The class carries the length
  of an encoding and the round trip as fields, so every instance is lawful; instances for the
  unsigned and signed machine integers.
* `Pod.Onto α` — the round trip the other way: every string of the right length is an encoding.
* `overwrite buf pos xs` — the memory `buf` after the bytes `xs` are stored at offset `pos`; what
  falls behind the end of `buf` is lost, and the length never changes.
-/

namespace CowboyPoker.Found

/-- A string of bytes. -/
abbrev Bytes := List UInt8

/-! ## Naturals -/

/-- The `w` low bytes of `n`, least significant first. -/
def leBytes : ℕ → ℕ → Bytes
  | 0, _ => []
  | w + 1, n => UInt8.ofNat n :: leBytes w (n / 256)

/-- The natural whose bytes, least significant first, are given. -/
def leNat : Bytes → ℕ
  | [] => 0
  | b :: bs => b.toNat + 256 * leNat bs

/-- A number in `w` bytes takes `w` bytes. -/
@[simp] theorem length_leBytes (w n : ℕ) : (leBytes w n).length = w := by
  induction w generalizing n with
  | zero => rfl
  | succ w ih => simp only [leBytes, List.length_cons, ih]

/-- Decoding an encoding keeps the `w` low bytes. -/
theorem leNat_leBytes (w n : ℕ) : leNat (leBytes w n) = n % 256 ^ w := by
  induction w generalizing n with
  | zero => simp [leBytes, leNat, Nat.mod_one]
  | succ w ih =>
      have hb : (UInt8.ofNat n).toNat = n % 256 := by simp
      rw [leBytes, leNat, ih, hb, pow_succ', Nat.mod_mul]

/-- A number that fits in `w` bytes survives the round trip. -/
theorem leNat_leBytes_of_lt {w n : ℕ} (h : n < 256 ^ w) : leNat (leBytes w n) = n := by
  rw [leNat_leBytes, Nat.mod_eq_of_lt h]

/-- Bytes stand for a number that fits in them. -/
theorem leNat_lt (bs : Bytes) : leNat bs < 256 ^ bs.length := by
  induction bs with
  | nil => simp [leNat]
  | cons b bs ih =>
      have hb := b.toNat_lt
      rw [leNat, List.length_cons, pow_succ']
      omega

/-- The bytes of a number that is given by bytes are these bytes. -/
theorem leBytes_leNat (bs : Bytes) : leBytes bs.length (leNat bs) = bs := by
  induction bs with
  | nil => rfl
  | cons b bs ih =>
      have hb := b.toNat_lt
      have hmod : (b.toNat + 256 * leNat bs) % 256 = b.toNat := by omega
      have hdiv : (b.toNat + 256 * leNat bs) / 256 = leNat bs := by omega
      have hlow : UInt8.ofNat (b.toNat + 256 * leNat bs) = b := by
        apply UInt8.toNat_inj.mp
        rw [UInt8.toNat_ofNat', hmod]
      rw [List.length_cons, leNat, leBytes, hdiv, hlow, ih]

/-! ## Plain data types -/

/-- A type stored as a fixed number of bytes. -/
class Pod (α : Type) where
  /-- The number of bytes of a value. -/
  size : ℕ
  /-- The bytes of a value. -/
  encode : α → Bytes
  /-- The value with the given bytes. -/
  decode : Bytes → α
  /-- Every value takes `size` bytes. -/
  length_encode : ∀ x, (encode x).length = size
  /-- Decoding gives the value back. -/
  decode_encode : ∀ x, decode (encode x) = x

attribute [simp] Pod.length_encode Pod.decode_encode

/-- A type whose values are numbers of `w` bytes. -/
@[reducible]
def Pod.ofWidth {α : Type} (w : ℕ) (toNat : α → ℕ) (ofNat : ℕ → α)
    (lt : ∀ x, toNat x < 256 ^ w) (ofNat_toNat : ∀ x, ofNat (toNat x) = x) : Pod α where
  size := w
  encode x := leBytes w (toNat x)
  decode bs := ofNat (leNat bs)
  length_encode _ := length_leBytes _ _
  decode_encode x := by rw [leNat_leBytes_of_lt (lt x), ofNat_toNat]

instance : Pod UInt8 := .ofWidth 1 UInt8.toNat UInt8.ofNat (fun x => x.toNat_lt) fun _ => by simp

instance : Pod UInt16 := .ofWidth 2 UInt16.toNat UInt16.ofNat (fun x => x.toNat_lt) fun _ => by simp

instance : Pod UInt32 := .ofWidth 4 UInt32.toNat UInt32.ofNat (fun x => x.toNat_lt) fun _ => by simp

instance : Pod UInt64 := .ofWidth 8 UInt64.toNat UInt64.ofNat (fun x => x.toNat_lt) fun _ => by simp

/-- Two's complement. -/
instance : Pod Int32 :=
  .ofWidth 4 (fun x => x.toUInt32.toNat) (fun n => (UInt32.ofNat n).toInt32)
    (fun x => x.toUInt32.toNat_lt) fun _ => by simp

/-- Two's complement. -/
instance : Pod Int64 :=
  .ofWidth 8 (fun x => x.toUInt64.toNat) (fun n => (UInt64.ofNat n).toInt64)
    (fun x => x.toUInt64.toNat_lt) fun _ => by simp

@[simp] theorem Pod.size_uint8 : Pod.size UInt8 = 1 := rfl
@[simp] theorem Pod.size_uint16 : Pod.size UInt16 = 2 := rfl
@[simp] theorem Pod.size_uint32 : Pod.size UInt32 = 4 := rfl
@[simp] theorem Pod.size_uint64 : Pod.size UInt64 = 8 := rfl
@[simp] theorem Pod.size_int32 : Pod.size Int32 = 4 := rfl
@[simp] theorem Pod.size_int64 : Pod.size Int64 = 8 := rfl

/-- The value of type `α` stored at offset `off` of a buffer. -/
def Pod.read {α : Type} [Pod α] (buf : Bytes) (off : ℕ) : α :=
  Pod.decode ((buf.drop off).take (Pod.size α))

/-- Reading at an offset is reading from the rest of the buffer. -/
theorem Pod.read_add {α : Type} [Pod α] (buf : Bytes) (m n : ℕ) :
    (Pod.read buf (m + n) : α) = Pod.read (buf.drop m) n := by
  rw [Pod.read, Pod.read, List.drop_drop]

/-- Reading back the value stored behind a prefix. -/
theorem Pod.read_append {α : Type} [Pod α] (pre post : Bytes) (x : α) :
    Pod.read (pre ++ (Pod.encode x ++ post)) pre.length = x := by
  rw [Pod.read, List.drop_left, List.take_append_of_le_length (by simp),
    List.take_of_length_le (by simp), Pod.decode_encode]

/-- A value that lies inside a prefix is read from the prefix. -/
theorem Pod.read_append_left {α : Type} [Pod α] (pre post : Bytes) {off : ℕ}
    (h : off + Pod.size α ≤ pre.length) : (Pod.read (pre ++ post) off : α) = Pod.read pre off := by
  have hsize : Pod.size α ≤ (pre.drop off).length := by
    rw [List.length_drop]
    omega
  rw [Pod.read, Pod.read, List.drop_append_of_le_length (by omega),
    List.take_append_of_le_length hsize]

/-- Every string of bytes of the right length is the encoding of a value. -/
def Pod.Onto (α : Type) [Pod α] : Prop :=
  ∀ bs : Bytes, bs.length = Pod.size α → Pod.encode (Pod.decode bs : α) = bs

/-- A type with a value for every number of `w` bytes. -/
theorem Pod.onto_ofWidth {α : Type} {w : ℕ} {toNat : α → ℕ} {ofNat : ℕ → α}
    (lt : ∀ x, toNat x < 256 ^ w) (ofNat_toNat : ∀ x, ofNat (toNat x) = x)
    (toNat_ofNat : ∀ n < 256 ^ w, toNat (ofNat n) = n) :
    @Pod.Onto α (.ofWidth w toNat ofNat lt ofNat_toNat) := by
  intro bs hlen
  have hlen : bs.length = w := hlen
  have hlt := leNat_lt bs
  rw [hlen] at hlt
  calc leBytes w (toNat (ofNat (leNat bs)))
      = leBytes w (leNat bs) := by rw [toNat_ofNat _ hlt]
    _ = bs := by rw [← hlen, leBytes_leNat]

/-- Every byte is a `uint8`. -/
theorem Pod.onto_uint8 : Pod.Onto UInt8 :=
  Pod.onto_ofWidth (fun x => x.toNat_lt) (fun _ => by simp) fun n hn => by
    rw [UInt8.toNat_ofNat', Nat.mod_eq_of_lt (by omega)]

/-- Every four bytes are a `uint32`. -/
theorem Pod.onto_uint32 : Pod.Onto UInt32 :=
  Pod.onto_ofWidth (fun x => x.toNat_lt) (fun _ => by simp) fun n hn => by
    rw [UInt32.toNat_ofNat', Nat.mod_eq_of_lt (by omega)]

/-- The bytes of a value that was read are the bytes it was read from. -/
theorem Pod.Onto.encode_read {α : Type} [Pod α] (h : Pod.Onto α) {buf : Bytes} {off : ℕ}
    (hin : off + Pod.size α ≤ buf.length) :
    Pod.encode (Pod.read buf off : α) = (buf.drop off).take (Pod.size α) := by
  apply h
  rw [List.length_take, List.length_drop]
  omega

/-! ## Stores -/

/-- The memory `buf` after the bytes `xs` are stored at offset `pos`. -/
def overwrite (buf : Bytes) (pos : ℕ) (xs : Bytes) : Bytes :=
  buf.take pos ++ xs.take (buf.length - pos) ++ buf.drop (pos + xs.length)

/-- Overwriting keeps the length. -/
@[simp] theorem length_overwrite (buf : Bytes) (pos : ℕ) (xs : Bytes) :
    (overwrite buf pos xs).length = buf.length := by
  simp only [overwrite, List.length_append, List.length_take, List.length_drop]
  omega

/-- A store that fits behind a prefix replaces the bytes that follow the prefix. -/
theorem overwrite_append (pre post xs : Bytes) (h : xs.length ≤ post.length) :
    overwrite (pre ++ post) pre.length xs = pre ++ xs ++ post.drop xs.length := by
  have hlen : xs.length ≤ (pre ++ post).length - pre.length := by
    rw [List.length_append]
    omega
  rw [overwrite, List.take_left, List.take_of_length_le hlen, ← List.drop_drop, List.drop_left]

end CowboyPoker.Found
