import CowboyPoker.Found.DoubleIndex

/-!
# A list of writes to a map that may fail

A client writes a list of entries one after another to a map held elsewhere. Each write is done,
refused or lost (`Outcome`); the client notices only a lost one, and stops there.

* `Puts put` — how the holder of the map stores an entry, up to the order of the entries.
* `writeAll put o n m ws` — the writes `ws`, where the `i`-th outcome of the process is `o i` and `n`
  outcomes have been used up: whether the client noticed no failure, and the map after.
* `AllStored`, `NoneStored` — conditions on the outcomes and on the map before.
* `Puts.allStored_iff`: the client reports success and every entry is in the map exactly when
  `AllStored`; `Puts.noneStored_iff`: it reports failure and the map is as before exactly when
  `NoneStored`.
-/

namespace CowboyPoker.Found

/-- What becomes of a write. -/
inductive Outcome
  /-- It takes effect, and is answered. -/
  | done
  /-- It has no effect, and is answered. -/
  | refused
  /-- It has no effect, and no answer comes. -/
  | lost
  deriving DecidableEq, Repr

variable {K V : Type*} [DecidableEq K]

/-- `put` stores an entry: the key gets the value, and the other keys keep theirs. -/
def Puts (put : KeyMap K V → K → V → KeyMap K V) : Prop :=
  ∀ m k v k', (put m k v).lookup k' = (m.insert k v).lookup k'

theorem puts_insert : Puts fun (m : KeyMap K V) k v => m.insert k v := fun _ _ _ _ => rfl

/-- The key gets the value. -/
theorem Puts.lookup_self {put : KeyMap K V → K → V → KeyMap K V} (h : Puts put) (m : KeyMap K V)
    (k : K) (v : V) : (put m k v).lookup k = some v := by
  rw [h m k v k, AList.lookup_insert]

/-- The other keys keep theirs. -/
theorem Puts.lookup_of_ne {put : KeyMap K V → K → V → KeyMap K V} (h : Puts put) (m : KeyMap K V)
    {k k' : K} (v : V) (hne : k' ≠ k) : (put m k v).lookup k' = m.lookup k' := by
  rw [h m k v k', AList.lookup_insert_ne hne]

variable (put : KeyMap K V → K → V → KeyMap K V)

/-- The map after a write. -/
def write (m : KeyMap K V) (k : K) (v : V) : Outcome → KeyMap K V
  | .done => put m k v
  | .refused => m
  | .lost => m

/-- The writes of a list, up to the first that is lost. -/
def writeAll (o : ℕ → Outcome) : ℕ → KeyMap K V → List (K × V) → Bool × KeyMap K V
  | _, m, [] => (true, m)
  | n, m, (k, v) :: ws =>
      if o n = .lost then (false, m) else writeAll o (n + 1) (write put m k v (o n)) ws

/-- No write is lost, and each is done or finds its entry in the map. -/
def AllStored (o : ℕ → Outcome) (m : KeyMap K V) : ℕ → List (K × V) → Prop
  | _, [] => True
  | n, (k, v) :: ws =>
      o n ≠ .lost ∧ (o n = .done ∨ m.lookup k = some v) ∧ AllStored o m (n + 1) ws

/-- Some write is lost, and each before it is refused or finds its entry in the map. -/
def NoneStored (o : ℕ → Outcome) (m : KeyMap K V) : ℕ → List (K × V) → Prop
  | _, [] => False
  | n, (k, v) :: ws =>
      o n = .lost ∨ (o n = .refused ∨ m.lookup k = some v) ∧ NoneStored o m (n + 1) ws

section lemmas

variable {put} {o : ℕ → Outcome} {n : ℕ} {m m' : KeyMap K V} {k : K} {v : V} {ws : List (K × V)}

theorem Puts.lookup_write_of_ne (hput : Puts put) {k' : K} {x : Outcome} (h : k' ≠ k) :
    (write put m k v x).lookup k' = m.lookup k' := by
  cases x with
  | done => exact hput.lookup_of_ne m v h
  | refused => rfl
  | lost => rfl

/-- The writes leave other keys alone. -/
theorem Puts.lookup_writeAll_of_notMem (hput : Puts put) (hk : k ∉ ws.map Prod.fst) :
    (writeAll put o n m ws).2.lookup k = m.lookup k := by
  induction ws generalizing n m with
  | nil => rfl
  | cons w ws ih =>
      obtain ⟨k', v'⟩ := w
      rw [List.map_cons, List.mem_cons, not_or] at hk
      unfold writeAll
      by_cases hlost : o n = .lost
      · rw [if_pos hlost]
      · rw [if_neg hlost, ih hk.2, hput.lookup_write_of_ne hk.1]

omit [DecidableEq K] in
/-- The client notices a failure exactly when one of the writes is lost. -/
theorem writeAll_fst_eq_false_iff :
    (writeAll put o n m ws).1 = false ↔ ∃ i < ws.length, o (n + i) = .lost := by
  induction ws generalizing n m with
  | nil => simp [writeAll]
  | cons w ws ih =>
      obtain ⟨k, v⟩ := w
      unfold writeAll
      rw [List.length_cons]
      by_cases hlost : o n = .lost
      · rw [if_pos hlost]
        exact iff_of_true rfl ⟨0, Nat.succ_pos _, hlost⟩
      · rw [if_neg hlost, ih]
        constructor
        · rintro ⟨i, hi, hout⟩
          exact ⟨i + 1, Nat.succ_lt_succ hi, by rwa [Nat.add_right_comm] at hout⟩
        · rintro ⟨_ | i, hi, hout⟩
          · exact absurd hout hlost
          · exact ⟨i, Nat.lt_of_succ_lt_succ hi, by rwa [Nat.add_right_comm]⟩

/-- A key holds its old value or one that was to be written. -/
theorem Puts.lookup_writeAll (hput : Puts put) (hnodup : (ws.map Prod.fst).Nodup)
    (hmem : (k, v) ∈ ws) : (writeAll put o n m ws).2.lookup k = m.lookup k ∨
      (writeAll put o n m ws).2.lookup k = some v := by
  induction ws generalizing n m with
  | nil => exact absurd hmem List.not_mem_nil
  | cons w ws ih =>
      obtain ⟨k', v'⟩ := w
      rw [List.map_cons, List.nodup_cons] at hnodup
      unfold writeAll
      by_cases hlost : o n = .lost
      · rw [if_pos hlost]
        exact .inl rfl
      rw [if_neg hlost]
      rcases List.mem_cons.mp hmem with heq | hmem
      · cases heq
        rw [hput.lookup_writeAll_of_notMem hnodup.1]
        cases hout : o n with
        | done => exact .inr (hput.lookup_self m _ _)
        | refused => exact .inl rfl
        | lost => exact absurd hout hlost
      · have hne : k ≠ k' := fun heq => hnodup.1 (List.mem_map.mpr ⟨_, hmem, heq⟩)
        rw [← hput.lookup_write_of_ne (m := m) (v := v') (x := o n) hne]
        exact ih hnodup.2 hmem

/-- The conditions read the map at the written keys only. -/
theorem AllStored.congr (h : ∀ k ∈ ws.map Prod.fst, m.lookup k = m'.lookup k) :
    AllStored o m n ws ↔ AllStored o m' n ws := by
  induction ws generalizing n with
  | nil => exact Iff.rfl
  | cons w ws ih =>
      rw [List.map_cons, List.forall_mem_cons] at h
      unfold AllStored
      rw [h.1, ih h.2]

theorem NoneStored.congr (h : ∀ k ∈ ws.map Prod.fst, m.lookup k = m'.lookup k) :
    NoneStored o m n ws ↔ NoneStored o m' n ws := by
  induction ws generalizing n with
  | nil => exact Iff.rfl
  | cons w ws ih =>
      rw [List.map_cons, List.forall_mem_cons] at h
      unfold NoneStored
      rw [h.1, ih h.2]

/-- A write to another key is not seen by the rest. -/
theorem Puts.lookup_write_rest (hput : Puts put) (hnodup : k ∉ ws.map Prod.fst) :
    ∀ k' ∈ ws.map Prod.fst, (write put m k v (o n)).lookup k' = m.lookup k' := by
  intro k' hk'
  apply hput.lookup_write_of_ne
  rintro rfl
  exact hnodup hk'

/-- **Success means stored** exactly when `AllStored`. -/
theorem Puts.allStored_iff (hput : Puts put) (hnodup : (ws.map Prod.fst).Nodup) :
    (writeAll put o n m ws).1 = true ∧
        (∀ kv ∈ ws, (writeAll put o n m ws).2.lookup kv.1 = some kv.2) ↔ AllStored o m n ws := by
  induction ws generalizing n m with
  | nil => simp [writeAll, AllStored]
  | cons w ws ih =>
      obtain ⟨k, v⟩ := w
      rw [List.map_cons, List.nodup_cons] at hnodup
      unfold writeAll AllStored
      by_cases hlost : o n = .lost
      · simp [hlost]
      rw [if_neg hlost, List.forall_mem_cons, hput.lookup_writeAll_of_notMem hnodup.1,
        ← AllStored.congr (hput.lookup_write_rest hnodup.1), ← ih hnodup.2]
      have hhead : (write put m k v (o n)).lookup k = some v ↔ o n = .done ∨ m.lookup k = some v := by
        cases hout : o n with
        | done => simp [write, hput.lookup_self]
        | refused => simp [write]
        | lost => exact absurd hout hlost
      rw [hhead]
      tauto

/-- **Failure means unchanged** exactly when `NoneStored`. -/
theorem Puts.noneStored_iff (hput : Puts put) (hnodup : (ws.map Prod.fst).Nodup) :
    (writeAll put o n m ws).1 = false ∧ (∀ k, (writeAll put o n m ws).2.lookup k = m.lookup k) ↔
      NoneStored o m n ws := by
  induction ws generalizing n m with
  | nil => simp [writeAll, NoneStored]
  | cons w ws ih =>
      obtain ⟨k, v⟩ := w
      rw [List.map_cons, List.nodup_cons] at hnodup
      unfold writeAll NoneStored
      by_cases hlost : o n = .lost
      · simp [hlost]
      rw [if_neg hlost, ← NoneStored.congr (hput.lookup_write_rest hnodup.1), ← ih hnodup.2]
      have hhead : (write put m k v (o n)).lookup k = m.lookup k ↔
          o n = .refused ∨ m.lookup k = some v := by
        cases hout : o n with
        | done => simp [write, hput.lookup_self, eq_comm]
        | refused => simp [write]
        | lost => exact absurd hout hlost
      rw [or_iff_right hlost, ← hhead]
      constructor
      · rintro ⟨hfail, hsame⟩
        have hk := hsame k
        rw [hput.lookup_writeAll_of_notMem hnodup.1] at hk
        refine ⟨hk, hfail, fun k' => ?_⟩
        by_cases heq : k' = k
        · subst heq
          rw [hsame, hk]
        · rw [hsame, hput.lookup_write_of_ne heq]
      · rintro ⟨hk, hfail, hsame⟩
        refine ⟨hfail, fun k' => ?_⟩
        rw [hsame]
        by_cases heq : k' = k
        · subst heq
          exact hk
        · exact hput.lookup_write_of_ne heq

end lemmas

end CowboyPoker.Found
