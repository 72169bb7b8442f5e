import Mathlib.Data.List.Chain
import Mathlib.Data.Set.Insert
import Mathlib.Logic.Relation

/-!
# Acyclic relations

What a depth-first search for a cycle needs to know of the graph that it searches, the graph being a
relation on its nodes.

* `Acyclic` — no node reaches itself. `Acyclic.eq_of_reach` — two nodes that reach each other are one.
* `Explored` — a set of nodes that is closed under successors and has no cycle; the nodes that a search
  is done with. `Explored.insert` — it is done with a node once it is done with its successors.
* `reach_of_isChain` — along a chain every node reaches the first one. `Acyclic.eq_of_closed_chain` —
  a closed chain is a point.
* `withEdge` — one edge more.
-/

namespace CowboyPoker.Found

open Relation

variable {α : Type*} {r : α → α → Prop}

/-- No node reaches itself. -/
def Acyclic (r : α → α → Prop) : Prop := ∀ a, ¬ TransGen r a a

/-- In an acyclic relation, nodes that reach each other are equal. -/
theorem Acyclic.eq_of_reach (h : Acyclic r) {a b : α} (hab : ReflTransGen r a b)
    (hba : ReflTransGen r b a) : a = b := by
  rcases reflTransGen_iff_eq_or_transGen.mp hab with heq | hpath
  · exact heq.symm
  · exact absurd (hpath.trans_left hba) (h a)

/-- A part of an acyclic relation is acyclic. -/
theorem Acyclic.mono (h : Acyclic r) {r' : α → α → Prop} (hsub : ∀ a b, r' a b → r a b) :
    Acyclic r' := fun a hcycle => h a (TransGen.mono hsub _ _ hcycle)

/-- The relation with the edge from `a` to `b`. -/
def withEdge (r : α → α → Prop) (a b : α) : α → α → Prop := fun x y => r x y ∨ (x = a ∧ y = b)

/-! ## What a search is done with -/

/-- A set of nodes with all their successors, and without a cycle. -/
structure Explored (r : α → α → Prop) (done : Set α) : Prop where
  closed : ∀ a b, a ∈ done → r a b → b ∈ done
  acyclic : ∀ a ∈ done, ¬ TransGen r a a

theorem Explored.empty : Explored r ∅ where
  closed _ _ h := h.elim
  acyclic _ h := h.elim

/-- What a node of the set reaches is in the set. -/
theorem Explored.reach {done : Set α} (h : Explored r done) {a b : α} (ha : a ∈ done)
    (hab : TransGen r a b) : b ∈ done := by
  induction hab with
  | single hab => exact h.closed _ _ ha hab
  | tail _ hbc ih => exact h.closed _ _ ih hbc

/-- A node is added once its successors are in the set: a cycle through it would lead out of the set
and back. -/
theorem Explored.insert {done : Set α} (h : Explored r done) {a : α} (ha : a ∉ done)
    (hsucc : ∀ b, r a b → b ∈ done) : Explored r (Insert.insert a done) where
  closed x y hx hxy := by
    rcases hx with rfl | hx
    · exact .inr (hsucc y hxy)
    · exact .inr (h.closed x y hx hxy)
  acyclic x hx hcycle := by
    rcases hx with rfl | hx
    · obtain ⟨b, hab, hba⟩ := TransGen.head'_iff.mp hcycle
      rcases reflTransGen_iff_eq_or_transGen.mp hba with rfl | hba
      · exact ha (hsucc _ hab)
      · exact ha (h.reach (hsucc b hab) hba)
    · exact h.acyclic x hx hcycle

/-- A relation is acyclic once every node with a successor is explored. -/
theorem Explored.acyclic_of_forall {done : Set α} (h : Explored r done)
    (hall : ∀ a b, r a b → a ∈ done) : Acyclic r := by
  intro a hcycle
  obtain ⟨b, hab, -⟩ := TransGen.head'_iff.mp hcycle
  exact h.acyclic a (hall a b hab) hcycle

/-! ## Chains -/

/-- Along a chain, every node reaches the first one. -/
theorem reach_of_isChain {a : α} {path : List α} (h : (a :: path).IsChain fun x y => r y x) {b : α}
    (hb : b ∈ a :: path) : ReflTransGen r b a := by
  induction path generalizing a with
  | nil =>
      obtain rfl := List.mem_singleton.mp hb
      exact .refl
  | cons c path ih =>
      obtain ⟨hca, hrest⟩ := List.isChain_cons_cons.mp h
      rcases List.mem_cons.mp hb with rfl | hb
      · exact .refl
      · exact (ih hrest hb).tail hca

/-- Along a closed chain of reachability in an acyclic relation, all nodes are one. -/
theorem Acyclic.eq_of_closed_chain (h : Acyclic r) {β : Type*} {f : β → α} {first : β}
    {rest : List β}
    (hchain : (first :: rest ++ [first]).IsChain fun x y => ReflTransGen r (f x) (f y)) {x : β}
    (hx : x ∈ first :: rest) : f x = f first := by
  have htrans : Trans (fun x y : β => ReflTransGen r (f x) (f y)) (fun x y => ReflTransGen r (f x) (f y))
      (fun x y => ReflTransGen r (f x) (f y)) := ⟨fun hxy hyz => hxy.trans hyz⟩
  obtain ⟨hpairs, -, hlast⟩ := List.pairwise_append.mp (List.isChain_iff_pairwise.mp hchain)
  have hback : ReflTransGen r (f x) (f first) := hlast x hx first (List.mem_singleton_self first)
  rcases List.mem_cons.mp hx with rfl | hmem
  · rfl
  · exact h.eq_of_reach hback ((List.pairwise_cons.mp hpairs).1 x hmem)

end CowboyPoker.Found
