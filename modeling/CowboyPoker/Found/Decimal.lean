import CowboyPoker.Found.LittleEndian
import Mathlib.Data.Nat.Digits.Defs
import Mathlib.Data.Nat.Digits.Lemmas
import Mathlib.Data.List.TakeWhile

/-!
# ASCII decimal numerals

* `decimal` / `decimalInt` — the numeral of a natural or an integer, as `std::to_string` prints it:
  no leading zeros, a minus sign in front of a negative number.
* `parseInt` — the conversion of the `strtol` family in base ten: leading white space is skipped,
  one sign is accepted, the longest run of digits is read and whatever follows is ignored; `none`
  when there is no digit.
* `parseInt_decimalInt` — reading a printed integer gives it back.
-/

namespace CowboyPoker.Found

/-- The bytes of a text of single-byte characters. -/
def ascii (s : String) : Bytes := s.toList.map fun c => UInt8.ofNat c.toNat

/-- The C string that starts a byte string: everything before the first NUL. -/
def cstr (s : Bytes) : Bytes := s.takeWhile (· ≠ 0)

/-! ## Printing -/

/-- The ASCII digit of a number below ten. -/
def digitChar (d : ℕ) : UInt8 := UInt8.ofNat (48 + d)

/-- The decimal numeral of a natural. -/
def decimal (n : ℕ) : Bytes :=
  if n = 0 then [48] else ((Nat.digits 10 n).map digitChar).reverse

/-- The decimal numeral of an integer. -/
def decimalInt : ℤ → Bytes
  | .ofNat n => decimal n
  | .negSucc n => 45 :: decimal (n + 1)

/-! ## Parsing -/

/-- `isspace` in the C locale. -/
def isSpace (b : UInt8) : Bool := b == 32 || (9 ≤ b && b ≤ 13)

/-- `isdigit`. -/
def isDigit (b : UInt8) : Bool := 48 ≤ b && b ≤ 57

/-- The value of a run of digits, most significant first. -/
def digitsValue (ds : Bytes) : ℕ := ds.foldl (fun acc b => 10 * acc + (b.toNat - 48)) 0

/-- The number at the head of a byte string, if it starts with a digit. -/
def parseNat (bs : Bytes) : Option ℕ :=
  match bs.takeWhile isDigit with
  | [] => none
  | ds => some (digitsValue ds)

/-- The integer at the head of a byte string, as `strtoll` reads it before its range check. -/
def parseInt (bs : Bytes) : Option ℤ :=
  match bs.dropWhile isSpace with
  | 45 :: rest => (parseNat rest).map fun n => -(n : ℤ)
  | 43 :: rest => (parseNat rest).map fun n => (n : ℤ)
  | rest => (parseNat rest).map fun n => (n : ℤ)

/-! ## The round trip -/

/-- The byte of a digit. -/
theorem toNat_digitChar {d : ℕ} (h : d < 10) : (digitChar d).toNat = 48 + d := by
  simp only [digitChar, UInt8.toNat_ofNat']
  omega

/-- It is a digit. -/
theorem isDigit_digitChar {d : ℕ} (h : d < 10) : isDigit (digitChar d) = true := by
  simp only [isDigit, Bool.and_eq_true, decide_eq_true_eq, UInt8.le_iff_toNat_le, toNat_digitChar h]
  constructor
  · exact Nat.le_add_right 48 d
  · show 48 + d ≤ 57
    omega

/-- Reading printed digits back is evaluating them in base ten. -/
theorem digitsValue_reverse_map {ds : List ℕ} (h : ∀ d ∈ ds, d < 10) :
    digitsValue (ds.map digitChar).reverse = Nat.ofDigits 10 ds := by
  induction ds with
  | nil => rfl
  | cons d ds ih =>
      have hd : d < 10 := h d List.mem_cons_self
      rw [List.map_cons, List.reverse_cons, digitsValue, List.foldl_append, ← digitsValue,
        ih fun d' hd' => h d' (List.mem_cons_of_mem _ hd'), Nat.ofDigits_cons]
      simp only [List.foldl_cons, List.foldl_nil, toNat_digitChar hd]
      omega

/-- A numeral consists of digits. -/
theorem isDigit_of_mem_decimal {n : ℕ} {b : UInt8} (h : b ∈ decimal n) : isDigit b = true := by
  rw [decimal] at h
  split_ifs at h with hn
  · rw [List.mem_singleton.mp h]
    rfl
  · rw [List.mem_reverse, List.mem_map] at h
    obtain ⟨d, hd, rfl⟩ := h
    exact isDigit_digitChar (Nat.digits_lt_base (by norm_num) hd)

/-- A numeral has a digit. -/
theorem decimal_ne_nil (n : ℕ) : decimal n ≠ [] := by
  rw [decimal]
  split_ifs with hn
  · exact List.cons_ne_nil _ _
  · simpa [Nat.digits_ne_nil_iff_ne_zero] using hn

/-- The value of a numeral is the number. -/
theorem digitsValue_decimal (n : ℕ) : digitsValue (decimal n) = n := by
  rw [decimal]
  split_ifs with hn
  · rw [hn]
    rfl
  · rw [digitsValue_reverse_map fun d hd => Nat.digits_lt_base (by norm_num) hd,
      Nat.ofDigits_digits]

/-- Reading a numeral gives its number. -/
theorem parseNat_decimal (n : ℕ) : parseNat (decimal n) = some n := by
  have htake : (decimal n).takeWhile isDigit = decimal n :=
    List.takeWhile_eq_self_iff.mpr fun _ hb => isDigit_of_mem_decimal hb
  rw [parseNat, htake]
  split
  · exact absurd (by assumption) (decimal_ne_nil n)
  · rw [digitsValue_decimal]

/-- A digit is neither white space nor a sign. -/
theorem parseInt_of_head_digit {bs : Bytes} {b : UInt8} (h : bs.head? = some b)
    (hb : isDigit b = true) : parseInt bs = (parseNat bs).map fun n => (n : ℤ) := by
  obtain ⟨rest, rfl⟩ : ∃ rest, bs = b :: rest := by
    cases bs with
    | nil => cases h
    | cons c rest => exact ⟨rest, by rw [Option.some.inj h]⟩
  have hrange : 48 ≤ b.toNat ∧ b.toNat ≤ 57 := by
    simpa [isDigit, UInt8.le_iff_toNat_le] using hb
  have hspace : isSpace b = false := by
    have h32 : b ≠ 32 := by
      rintro rfl
      exact absurd hrange.1 (by decide)
    have h13 : ¬ b ≤ 13 := by
      rw [UInt8.le_iff_toNat_le]
      show ¬ b.toNat ≤ 13
      omega
    simp [isSpace, h32, h13]
  have h45 : b ≠ 45 := by
    rintro rfl
    exact absurd hrange.1 (by decide)
  have h43 : b ≠ 43 := by
    rintro rfl
    exact absurd hrange.1 (by decide)
  rw [parseInt, List.dropWhile_cons_of_neg (by simp [hspace])]
  split
  · rename_i heq
    exact absurd (List.cons.inj heq).1 h45
  · rename_i heq
    exact absurd (List.cons.inj heq).1 h43
  · rfl

/-- **Round trip**: an integer printed in decimal is read back. -/
theorem parseInt_decimalInt (z : ℤ) : parseInt (decimalInt z) = some z := by
  have hhead : ∀ n, ∃ b, (decimal n).head? = some b ∧ isDigit b = true := by
    intro n
    rcases hd : decimal n with _ | ⟨b, rest⟩
    · exact absurd hd (decimal_ne_nil n)
    · exact ⟨b, rfl, isDigit_of_mem_decimal (n := n) (hd ▸ List.mem_cons_self)⟩
  cases z with
  | ofNat n =>
      obtain ⟨b, hb, hdig⟩ := hhead n
      rw [decimalInt, parseInt_of_head_digit hb hdig, parseNat_decimal]
      rfl
  | negSucc n =>
      have hdrop : (45 :: decimal (n + 1)).dropWhile isSpace = 45 :: decimal (n + 1) :=
        List.dropWhile_cons_of_neg (by decide)
      rw [decimalInt, parseInt, hdrop]
      simp only [parseNat_decimal]
      rfl

/-- A text that is its own C string holds no NUL. -/
theorem zero_notMem_cstr (s : Bytes) : 0 ∉ cstr s := by
  intro h
  have hne := List.mem_takeWhile_imp h
  simp at hne

/-- Exactly the texts without NUL are their own C strings. -/
theorem cstr_eq_self_iff {s : Bytes} : cstr s = s ↔ 0 ∉ s := by
  constructor
  · intro h
    rw [← h]
    exact zero_notMem_cstr s
  · intro h
    refine List.takeWhile_eq_self_iff.mpr fun b hb => ?_
    have hne : b ≠ 0 := ne_of_mem_of_not_mem hb h
    simpa using hne

/-- A C string with a prefix in front that holds no NUL. -/
theorem cstr_append {s : Bytes} (h : 0 ∉ s) (t : Bytes) : cstr (s ++ t) = s ++ cstr t := by
  apply List.takeWhile_append_of_pos
  intro b hb
  simpa using fun heq : b = 0 => h (heq ▸ hb)

/-- Runs of bytes other than NUL end inside the C string. -/
theorem takeWhile_cstr {p : UInt8 → Bool} (hp : p 0 = false) (s : Bytes) :
    (cstr s).takeWhile p = s.takeWhile p := by
  unfold cstr
  induction s with
  | nil => rfl
  | cons b s ih =>
      by_cases hb : b = 0
      · subst hb
        simp [hp]
      · rw [List.takeWhile_cons_of_pos (by simpa using hb)]
        by_cases hpb : p b = true
        · rw [List.takeWhile_cons_of_pos hpb, List.takeWhile_cons_of_pos hpb, ih]
        · rw [List.takeWhile_cons_of_neg hpb, List.takeWhile_cons_of_neg hpb]

/-- What is dropped at the front does not depend on what follows the first NUL. -/
theorem dropWhile_cstr {p : UInt8 → Bool} (hp : p 0 = false) (s : Bytes) :
    (cstr s).dropWhile p = cstr (s.dropWhile p) := by
  unfold cstr
  induction s with
  | nil => rfl
  | cons b s ih =>
      by_cases hb : b = 0
      · subst hb
        simp [hp]
      · rw [List.takeWhile_cons_of_pos (by simpa using hb)]
        by_cases hpb : p b = true
        · rw [List.dropWhile_cons_of_pos hpb, List.dropWhile_cons_of_pos hpb, ih]
        · rw [List.dropWhile_cons_of_neg hpb, List.dropWhile_cons_of_neg hpb,
            List.takeWhile_cons_of_pos (by simpa using hb)]

/-- **The conversions stop at a NUL.** -/
theorem parseInt_cstr (s : Bytes) : parseInt (cstr s) = parseInt s := by
  have hnat : ∀ t, parseNat (cstr t) = parseNat t := by
    intro t
    rw [parseNat, parseNat, takeWhile_cstr (by decide)]
  unfold parseInt
  rw [dropWhile_cstr (by decide)]
  rcases s.dropWhile isSpace with _ | ⟨b, t⟩
  · rfl
  by_cases hb : b = 0
  · subst hb
    rfl
  have hcons : cstr (b :: t) = b :: cstr t := List.takeWhile_cons_of_pos (by simpa using hb)
  by_cases hminus : b = 45
  · subst hminus
    rw [hcons]
    simp only [hnat]
  by_cases hplus : b = 43
  · subst hplus
    rw [hcons]
    simp only [hnat]
  have hrest := hnat (b :: t)
  rw [hcons] at hrest ⊢
  split
  · rename_i heq
    exact absurd (List.cons.inj heq).1 hminus
  · rename_i heq
    exact absurd (List.cons.inj heq).1 hplus
  · rw [hrest]
    split
    · rename_i heq
      exact absurd (List.cons.inj heq).1 hminus
    · rename_i heq
      exact absurd (List.cons.inj heq).1 hplus
    · rfl

/-- A numeral holds no NUL. -/
@[simp] theorem cstr_decimalInt (z : ℤ) : cstr (decimalInt z) = decimalInt z := by
  have hdigit : ∀ b, isDigit b = true → b ≠ 0 := by
    rintro b hb rfl
    exact absurd hb (by decide)
  apply cstr_eq_self_iff.mpr
  intro hb
  cases z with
  | ofNat n => exact hdigit 0 (isDigit_of_mem_decimal hb) rfl
  | negSucc n =>
      rcases List.mem_cons.mp hb with heq | hb
      · exact absurd heq (by decide)
      · exact hdigit 0 (isDigit_of_mem_decimal hb) rfl

end CowboyPoker.Found
