import Mathlib.Tactic.NormNum
import Mathlib.Tactic.Ring

/-!
# `StompAllocator`: blocks that end where their pages end

A debugging allocator. Every block gets pages of its own from `VirtualAlloc` and is laid at their end, so
that the first byte behind the block is outside the mapping. `Release` knows only the address of the
block and takes the base to be that address rounded down to a page.

* `StompAllocator.alloc`, `StompAllocator.release` — the two functions, in the integers of the source:
  `int32` for the size and the rounding up, `int64` for the offset and the addresses.
* `pageCeil` — the rounding up to whole pages, over the integers.
* `StompBlock` — what a block is good for, `alloc_stompBlock` — every block that `Alloc` returns is.
-/

namespace CowboyPoker.ServerCore

/-! ## The allocator -/

namespace StompAllocator

/-- `PAGE_SIZE`, an `int` as the enumerations of the source are. -/
def pageSize : Int32 := 0x1000

/-- `pageCount` of `Alloc`. The quotient is one of `int32`, widened when it is stored. -/
def pageCount (size : Int32) : Int64 := ((size + pageSize - 1) / pageSize).toInt64

/-- The bytes that `Alloc` asks `VirtualAlloc` for. -/
def mappedBytes (size : Int32) : Int64 := pageCount size * pageSize.toInt64

/-- `dataOffset` of `Alloc`. -/
def dataOffset (size : Int32) : Int64 := pageCount size * pageSize.toInt64 - size.toInt64

/-- `virtualAlloc` is the operating system: the address that it returns for a number of bytes.
Source: `ServerCore/Allocator.cpp`, `StompAllocator::Alloc` -/
def alloc (virtualAlloc : Int64 → Int64) (size : Int32) : Int64 :=
  let baseAddress := virtualAlloc (mappedBytes size)
  baseAddress + dataOffset size

/-- The address that is passed to `VirtualFree`.
Source: `ServerCore/Allocator.cpp`, `StompAllocator::Release` -/
def release (ptr : Int64) : Int64 :=
  let address := ptr
  address - address % pageSize.toInt64

end StompAllocator

/-- `base` is what `VirtualAlloc` is documented to return for `bytes` bytes: the address of a page, with
the whole mapping at positive addresses of 64 bits. -/
structure IsMapping (bytes base : Int64) : Prop where
  /-- The mapping starts with a page. -/
  aligned : (4096 : ℤ) ∣ base.toInt
  /-- It is not null. -/
  pos : 0 < base.toInt
  /-- It ends inside the address space. -/
  fits : base.toInt + bytes.toInt < 2 ^ 63

/-! ## Whole pages -/

/-- The least number of whole pages that holds `n` bytes, in bytes. -/
def pageCeil (n : ℤ) : ℤ := (n + 4095) / 4096 * 4096

/-- The pages hold the bytes. -/
theorem le_pageCeil (n : ℤ) : n ≤ pageCeil n := by
  unfold pageCeil
  omega

/-- The first page holds the first of them. -/
theorem pageCeil_lt (n : ℤ) : pageCeil n < n + 4096 := by
  unfold pageCeil
  omega

/-- The pages are whole. -/
theorem dvd_pageCeil (n : ℤ) : 4096 ∣ pageCeil n := Dvd.intro_left _ rfl

/-- An address in the first page of a mapping, rounded down to a page, is the base. -/
theorem sub_emod_of_first_page {base offset : ℤ} (hbase : 4096 ∣ base) (h₀ : 0 ≤ offset)
    (h₁ : offset < 4096) : base + offset - (base + offset) % 4096 = base := by
  omega

/-- The power of two `2 ^ k` divides the length of a page when `k ≤ 12`. -/
theorem two_pow_dvd_page {k : ℕ} (hk : k ≤ 12) : (2 ^ k : ℤ) ∣ 4096 := by
  have h : (2 ^ k : ℤ) ∣ 2 ^ 12 := pow_dvd_pow 2 hk
  norm_num at h
  exact h

/-! ## The arithmetic of the source -/

namespace StompAllocator

variable {size : Int32}

@[simp] theorem pageSize_toInt : pageSize.toInt = 4096 := by decide

/-- The rounding up does not overflow. At the last size the sum `size + PAGE_SIZE` is `2 ^ 31`, one more
than an `int32` holds, and the subtraction of one brings it back. -/
theorem roundUp_toInt (h₁ : 1 ≤ size.toInt) (h₂ : size.toInt ≤ 2 ^ 31 - 4096) :
    (size + pageSize - 1).toInt = size.toInt + 4095 := by
  have hassoc : size + pageSize - 1 = size + (pageSize - 1) := by
    rw [Int32.sub_eq_add_neg, Int32.add_assoc, ← Int32.sub_eq_add_neg]
  have hpage : (pageSize - 1).toInt = 4095 := by decide
  rw [hassoc, Int32.toInt_add, hpage]
  exact Int.bmod_eq_of_le (by norm_num; omega) (by norm_num; omega)

/-- The page count is the rounded up quotient. -/
theorem pageCount_toInt (h₁ : 1 ≤ size.toInt) (h₂ : size.toInt ≤ 2 ^ 31 - 4096) :
    (pageCount size).toInt = (size.toInt + 4095) / 4096 := by
  have hne : pageSize ≠ -1 := by decide
  rw [pageCount, Int32.toInt_toInt64, Int32.toInt_div_of_ne_right _ _ hne, roundUp_toInt h₁ h₂,
    pageSize_toInt]
  exact Int.tdiv_eq_ediv_of_nonneg (by omega)

/-- The bytes asked for are the whole pages of the size. -/
theorem mappedBytes_toInt (h₁ : 1 ≤ size.toInt) (h₂ : size.toInt ≤ 2 ^ 31 - 4096) :
    (mappedBytes size).toInt = pageCeil size.toInt := by
  rw [mappedBytes, Int64.toInt_mul, pageCount_toInt h₁ h₂, Int32.toInt_toInt64, pageSize_toInt]
  exact Int.bmod_eq_of_le (by norm_num; omega) (by norm_num; omega)

/-- The offset is what the pages have more than the block. -/
theorem dataOffset_toInt (h₁ : 1 ≤ size.toInt) (h₂ : size.toInt ≤ 2 ^ 31 - 4096) :
    (dataOffset size).toInt = pageCeil size.toInt - size.toInt := by
  have hle := le_pageCeil size.toInt
  have hlt := pageCeil_lt size.toInt
  have hbytes := mappedBytes_toInt h₁ h₂
  rw [mappedBytes] at hbytes
  rw [dataOffset, Int64.toInt_sub, hbytes, Int32.toInt_toInt64]
  exact Int.bmod_eq_of_le (by norm_num; omega) (by norm_num; omega)

/-- The block starts behind the base, by the offset. -/
theorem alloc_toInt {virtualAlloc : Int64 → Int64}
    (hmap : IsMapping (mappedBytes size) (virtualAlloc (mappedBytes size)))
    (h₁ : 1 ≤ size.toInt) (h₂ : size.toInt ≤ 2 ^ 31 - 4096) :
    (alloc virtualAlloc size).toInt =
      (virtualAlloc (mappedBytes size)).toInt + (pageCeil size.toInt - size.toInt) := by
  have hle := le_pageCeil size.toInt
  have hfits := hmap.fits
  have hpos := hmap.pos
  rw [mappedBytes_toInt h₁ h₂] at hfits
  rw [alloc, Int64.toInt_add, dataOffset_toInt h₁ h₂]
  exact Int.bmod_eq_of_le (by norm_num; omega) (by norm_num; omega)

/-- `Release` rounds a positive address down to a page. -/
theorem release_toInt {ptr : Int64} (hpos : 0 ≤ ptr.toInt) :
    (release ptr).toInt = ptr.toInt - ptr.toInt % 4096 := by
  have hlt : ptr.toInt < 2 ^ 63 := ptr.toInt_lt
  have hmod : (ptr % pageSize.toInt64).toInt = ptr.toInt % 4096 := by
    rw [Int64.toInt_mod, Int32.toInt_toInt64, pageSize_toInt]
    exact Int.tmod_eq_emod_of_nonneg hpos
  rw [release, Int64.toInt_sub, hmod]
  exact Int.bmod_eq_of_le (by norm_num; omega) (by norm_num; omega)

end StompAllocator

/-! ## The blocks -/

/-- What the block at `p` is good for, when `base` is the mapping that it was laid in. -/
structure StompBlock (size : Int32) (base p : Int64) : Prop where
  /-- The block starts inside the mapping. -/
  base_le : base ≤ p
  /-- As many pages were asked for as the block needs. -/
  pages : (StompAllocator.mappedBytes size).toInt = pageCeil size.toInt
  /-- The block ends where the last page ends: the next byte is outside the mapping. -/
  ends : p.toInt + size.toInt = base.toInt + (StompAllocator.mappedBytes size).toInt
  /-- The block has every alignment up to a page that its size has. -/
  aligned : ∀ k ≤ 12, (2 ^ k : ℤ) ∣ size.toInt → (2 ^ k : ℤ) ∣ p.toInt
  /-- An array of objects has the alignment of the objects. -/
  array_aligned : ∀ k ≤ 12, ∀ sizeofT count : ℤ, (2 ^ k : ℤ) ∣ sizeofT →
    size.toInt = count * sizeofT → (2 ^ k : ℤ) ∣ p.toInt
  /-- `Release` gives back the base. -/
  release_eq : StompAllocator.release p = base

section Block

variable {virtualAlloc : Int64 → Int64} {size : Int32}

/-- The block has the alignments of its size, since the mapping ends at a page. -/
theorem StompAllocator.alloc_aligned
    (hmap : IsMapping (mappedBytes size) (virtualAlloc (mappedBytes size)))
    (h₁ : 1 ≤ size.toInt) (h₂ : size.toInt ≤ 2 ^ 31 - 4096) {k : ℕ} (hk : k ≤ 12)
    (hsize : (2 ^ k : ℤ) ∣ size.toInt) : (2 ^ k : ℤ) ∣ (alloc virtualAlloc size).toInt := by
  have hpage := two_pow_dvd_page hk
  rw [alloc_toInt hmap h₁ h₂]
  exact Int.dvd_add (hpage.trans hmap.aligned)
    (Int.dvd_sub (hpage.trans (dvd_pageCeil _)) hsize)

/-- `Release` finds the base, since the block starts in the first page: also when the size is a number of
whole pages, where the block starts with the mapping. -/
theorem StompAllocator.release_alloc
    (hmap : IsMapping (mappedBytes size) (virtualAlloc (mappedBytes size)))
    (h₁ : 1 ≤ size.toInt) (h₂ : size.toInt ≤ 2 ^ 31 - 4096) :
    release (alloc virtualAlloc size) = virtualAlloc (mappedBytes size) := by
  have hle := le_pageCeil size.toInt
  have hlt := pageCeil_lt size.toInt
  have hpos := hmap.pos
  have halloc := alloc_toInt hmap h₁ h₂
  apply Int64.toInt_inj.mp
  rw [release_toInt (by omega), halloc]
  exact sub_emod_of_first_page hmap.aligned (by omega) (by omega)

variable (virtualAlloc) in
/-- Every block that `Alloc` returns ends with its pages, is aligned like its size and is given back
whole. -/
theorem alloc_stompBlock
    (hmap : IsMapping (StompAllocator.mappedBytes size)
      (virtualAlloc (StompAllocator.mappedBytes size)))
    (h₁ : 1 ≤ size.toInt) (h₂ : size.toInt ≤ 2 ^ 31 - 4096) :
    StompBlock size (virtualAlloc (StompAllocator.mappedBytes size))
      (StompAllocator.alloc virtualAlloc size) := by
  have hle := le_pageCeil size.toInt
  have halloc := StompAllocator.alloc_toInt hmap h₁ h₂
  have hbytes := StompAllocator.mappedBytes_toInt h₁ h₂
  refine ⟨?_, hbytes, ?_, ?_, ?_, ?_⟩
  case refine_1 =>
    rw [Int64.le_iff_toInt_le, halloc]
    omega
  case refine_2 =>
    rw [halloc, hbytes]
    ring
  case refine_3 => exact fun k hk => StompAllocator.alloc_aligned hmap h₁ h₂ hk
  case refine_4 =>
    intro k hk sizeofT count hT hsize
    have hdvd : (2 ^ k : ℤ) ∣ size.toInt := hsize ▸ hT.mul_left count
    exact StompAllocator.alloc_aligned hmap h₁ h₂ hk hdvd
  case refine_5 => exact StompAllocator.release_alloc hmap h₁ h₂

/-- A block of `5000` bytes in the two pages that the system maps at `0x20000`. -/
theorem alloc_stompBlock_5000 :
    StompBlock 5000 0x20000 (StompAllocator.alloc (fun _ => 0x20000) 5000) := by
  have hmap : IsMapping (StompAllocator.mappedBytes 5000) 0x20000 :=
    ⟨by decide, by decide, by decide⟩
  have h₁ : 1 ≤ (5000 : Int32).toInt := by decide
  have h₂ : (5000 : Int32).toInt ≤ 2 ^ 31 - 4096 := by decide
  exact alloc_stompBlock (fun _ => 0x20000) hmap h₁ h₂

end Block

end CowboyPoker.ServerCore
