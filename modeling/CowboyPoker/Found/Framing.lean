import Mathlib.Data.List.Infix
import Mathlib.Tactic.Common

/-!
# Length-prefixed frames

A `Framing` says how many elements a header has and which length the header announces. A stream is a
concatenation of frames, of which a receiver holds a prefix at any time.

* `WellFormed f` — `f` is as long as its header announces. `Incomplete xs` — `xs` ends before the
  frame it starts with does.
* `Cut frames received n rest` — of the stream of `frames` the part `received` has arrived: `n` frames
  and then `rest`, which is a part of the next one.
* `exists_cut` — every prefix of the stream has a cut. `Cut.append` — a cut of what was left over and
  a further chunk is a cut of everything received. `Cut.extend` — so it is when the stream goes on.
  `Cut.incomplete` — what is left over does not hold a frame.
-/

namespace CowboyPoker.Found

variable {α : Type*}

/-- A format of frames. -/
structure Framing (α : Type*) where
  /-- The number of elements of a header. -/
  headerSize : ℕ
  /-- The length that the header announces. -/
  frameSize : List α → ℕ
  /-- What follows the header does not matter. -/
  frameSize_append : ∀ xs ys, headerSize ≤ xs.length → frameSize (xs ++ ys) = frameSize xs

namespace Framing

/-- A frame has a header, and the length that it announces. -/
def WellFormed (F : Framing α) (f : List α) : Prop :=
  F.headerSize ≤ f.length ∧ F.frameSize f = f.length

instance (F : Framing α) (f : List α) : Decidable (F.WellFormed f) :=
  inferInstanceAs (Decidable (_ ∧ _))

/-- The data ends within its header, or within the frame that the header announces. -/
def Incomplete (F : Framing α) (xs : List α) : Prop :=
  xs.length < F.headerSize ∨ xs.length < F.frameSize xs

/-- `received` is made of the first `n` frames and of `rest`, a part of the next one. -/
structure Cut (frames : List (List α)) (received : List α) (n : ℕ) (rest : List α) : Prop where
  /-- There are that many frames. -/
  le : n ≤ frames.length
  /-- What was received. -/
  received_eq : received = (frames.take n).flatten ++ rest
  /-- The rest belongs to the frames that follow. -/
  belongs : rest <+: (frames.drop n).flatten
  /-- The next frame is not complete. -/
  short : ∀ f ∈ frames[n]?, rest.length < f.length

variable {F : Framing α} {frames : List (List α)} {received rest chunk : List α} {n : ℕ}

theorem WellFormed.ne_nil {f : List α} (h : F.WellFormed f) (hF : 0 < F.headerSize) : f ≠ [] :=
  List.length_pos_iff.mp (lt_of_lt_of_le hF h.1)

/-- No frame is empty. -/
theorem length_le_length_flatten (hF : 0 < F.headerSize) (h : ∀ f ∈ frames, F.WellFormed f) :
    frames.length ≤ frames.flatten.length := by
  induction frames with
  | nil => exact le_rfl
  | cons f frames ih =>
      have hf := (h f List.mem_cons_self).1
      have hframes := ih fun g hg => h g (List.mem_cons_of_mem _ hg)
      rw [List.flatten_cons, List.length_append, List.length_cons]
      omega

/-- Nothing has been received. -/
theorem cut_nil (h : ∀ f ∈ frames, f ≠ []) : Cut frames [] 0 [] where
  le := Nat.zero_le _
  received_eq := rfl
  belongs := List.nil_prefix
  short f hf := List.length_pos_iff.mpr (h f (List.mem_of_getElem? hf))

/-- Every prefix of the stream can be cut. -/
theorem exists_cut (h : received <+: frames.flatten) : ∃ n rest, Cut frames received n rest := by
  induction frames generalizing received with
  | nil =>
      obtain rfl := List.prefix_nil.mp h
      exact ⟨0, [], le_rfl, rfl, List.nil_prefix, fun f hf => nomatch hf⟩
  | cons f frames ih =>
      by_cases hlen : received.length < f.length
      · refine ⟨0, received, Nat.zero_le _, rfl, h, fun f' hf' => ?_⟩
        cases hf'
        exact hlen
      · -- the first frame has arrived, and the rest of the stream is cut behind it
        rw [List.flatten_cons] at h
        obtain ⟨received, rfl⟩ := List.prefix_of_prefix_length_le (List.prefix_append _ _) h
          (not_lt.mp hlen)
        obtain ⟨n, rest, hcut⟩ := ih ((List.prefix_append_right_inj f).mp h)
        refine ⟨n + 1, rest, Nat.succ_le_succ hcut.le, ?_, hcut.belongs, hcut.short⟩
        rw [List.take_succ_cons, List.flatten_cons, List.append_assoc, ← hcut.received_eq]

namespace Cut

/-- A cut of the rest and a further chunk. -/
theorem append {k : ℕ} {rest' : List α} (h : Cut frames received n rest)
    (h' : Cut (frames.drop n) (rest ++ chunk) k rest') :
    Cut frames (received ++ chunk) (n + k) rest' where
  le := by
    have hle := h'.le
    have hle' := h.le
    rw [List.length_drop] at hle
    omega
  received_eq := by
    rw [h.received_eq, List.append_assoc, h'.received_eq, List.take_add, List.flatten_append,
      List.append_assoc]
  belongs := by
    rw [← List.drop_drop]
    exact h'.belongs
  short f hf := by
    apply h'.short f
    rwa [List.getElem?_drop]

/-- The rest and a further chunk of the stream belong to the frames that follow. -/
theorem append_belongs (h : Cut frames received n rest)
    (hchunk : received ++ chunk <+: frames.flatten) : rest ++ chunk <+: (frames.drop n).flatten := by
  have hsplit : frames.flatten = (frames.take n).flatten ++ (frames.drop n).flatten := by
    rw [← List.flatten_append, List.take_append_drop]
  rw [h.received_eq, List.append_assoc, hsplit] at hchunk
  exact (List.prefix_append_right_inj _).mp hchunk

/-- More frames follow. -/
theorem extend {more : List (List α)} (h : Cut frames received n rest) (hmore : ∀ f ∈ more, f ≠ []) :
    Cut (frames ++ more) received n rest where
  le := h.le.trans (by rw [List.length_append]; exact Nat.le_add_right _ _)
  received_eq := by
    rw [List.take_append_of_le_length h.le]
    exact h.received_eq
  belongs := by
    rw [List.drop_append_of_le_length h.le, List.flatten_append]
    exact h.belongs.trans (List.prefix_append _ _)
  short f hf := by
    rcases Nat.lt_or_eq_of_le h.le with hlt | heq
    · rw [List.getElem?_append_left hlt] at hf
      exact h.short f hf
    · -- nothing is left over, and the next frame is one of the new ones
      have hstream := h.belongs
      rw [heq, List.drop_length] at hstream
      rw [heq, List.getElem?_append_right le_rfl] at hf
      rw [List.prefix_nil.mp hstream]
      exact List.length_pos_iff.mpr (hmore f (List.mem_of_getElem? hf))

/-- The rest of well-formed frames does not hold a frame. -/
theorem incomplete (h : Cut frames received n rest) (hF : 0 < F.headerSize)
    (hframes : ∀ f ∈ frames, F.WellFormed f) : F.Incomplete rest := by
  rcases hnext : frames[n]? with _ | f
  · have hstream := h.belongs
    rw [List.drop_of_length_le (List.getElem?_eq_none_iff.mp hnext)] at hstream
    rw [List.prefix_nil.mp hstream]
    exact .inl hF
  · obtain ⟨hlt, rfl⟩ := List.getElem?_eq_some_iff.mp hnext
    have hshort := h.short _ hnext
    have hstream := h.belongs
    rw [List.drop_eq_getElem_cons hlt, List.flatten_cons] at hstream
    obtain ⟨more, hmore⟩ := List.prefix_of_prefix_length_le hstream (List.prefix_append _ _)
      (Nat.le_of_lt hshort)
    by_cases hheader : rest.length < F.headerSize
    · exact .inl hheader
    · right
      rw [← F.frameSize_append rest more (not_lt.mp hheader), hmore,
        (hframes _ (List.getElem_mem hlt)).2]
      exact hshort

/-- When the whole stream has been received, all frames have. -/
theorem eq_length (h : Cut frames frames.flatten n rest) : n = frames.length ∧ rest = [] := by
  have hsplit : frames.flatten = (frames.take n).flatten ++ (frames.drop n).flatten := by
    rw [← List.flatten_append, List.take_append_drop]
  have hrest : (frames.drop n).flatten = rest :=
    List.append_cancel_left (hsplit.symm.trans h.received_eq)
  rcases Nat.lt_or_eq_of_le h.le with hlt | rfl
  · have hshort := h.short _ (List.getElem?_eq_getElem hlt)
    rw [← hrest, List.drop_eq_getElem_cons hlt, List.flatten_cons, List.length_append] at hshort
    omega
  · refine ⟨rfl, ?_⟩
    rw [← hrest, List.drop_length, List.flatten_nil]

end Cut

end Framing

end CowboyPoker.Found
