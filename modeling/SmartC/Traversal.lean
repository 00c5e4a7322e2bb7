import Mathlib.Algebra.BigOperators.Group.List.Basic
import Mathlib.Algebra.GroupWithZero.Nat

/-!
# Searching a tree with a stack

A search takes one node after the other from a stack, looks at it, and puts the
nodes below it on the stack. It gives up after a number of nodes and below a
depth. The nodes are those of a function `children`, over any type, and what the
search finds does not depend on the order in which it visits them.
-/

namespace SmartC.Traversal

variable {α : Type*} {children : α → List α} {bad : α → Bool} {limit : Nat}

/-- `Node children v d w`: the node `w` is `d` levels below `v`. -/
inductive Node (children : α → List α) : α → Nat → α → Prop
  | root {v : α} : Node children v 0 v
  | child {v c w : α} {d : Nat} (mem : c ∈ children v) (node : Node children c d w) :
      Node children v (d + 1) w

/-- Whether a bad node, a node below the limit or more than `nodes` nodes are found. The head of
the list is the top of the stack, and a node stands there with its depth. -/
def search (children : α → List α) (bad : α → Bool) (limit : Nat) : Nat → List (Nat × α) → Bool
  | _, [] => false
  | 0, _ :: _ => true
  | nodes + 1, (depth, v) :: pending =>
    if depth > limit then true
    else if bad v then true
    else search children bad limit nodes
      (((children v).map fun child => (depth + 1, child)).reverse ++ pending)

/-- Nothing to be found at a node or below it, the number of nodes apart. -/
def Clean (children : α → List α) (bad : α → Bool) (limit depth : Nat) (v : α) : Prop :=
  ∀ d w, Node children v d w → depth + d ≤ limit ∧ bad w = false

theorem clean_iff {depth : Nat} {v : α} :
    Clean children bad limit depth v ↔
      depth ≤ limit ∧ bad v = false ∧ ∀ c ∈ children v, Clean children bad limit (depth + 1) c := by
  constructor
  · intro h
    obtain ⟨hdepth, hbad⟩ := h 0 v .root
    refine ⟨hdepth, hbad, fun c hc d w hw => ?_⟩
    obtain ⟨hbelow, hgood⟩ := h (d + 1) w (.child hc hw)
    exact ⟨by omega, hgood⟩
  · rintro ⟨hdepth, hbad, hbelow⟩ d w hw
    cases hw with
    | root => exact ⟨hdepth, hbad⟩
    | child hc hw =>
      obtain ⟨hlimit, hgood⟩ := hbelow _ hc _ w hw
      exact ⟨by omega, hgood⟩

/-- The loop invariant: what is still to be visited is clean and fits in the number of nodes that
are left. -/
theorem search_eq_false_iff {size : α → Nat}
    (hsize : ∀ v, size v = ((children v).map size).sum + 1) (nodes : Nat)
    (pending : List (Nat × α)) :
    search children bad limit nodes pending = false ↔
      (pending.map fun entry => size entry.2).sum ≤ nodes ∧
        ∀ entry ∈ pending, Clean children bad limit entry.1 entry.2 := by
  induction nodes generalizing pending with
  | zero =>
    cases pending with
    | nil => simp [search]
    | cons entry pending =>
      have hpos : 0 < size entry.2 := by
        rw [hsize]
        omega
      simp only [search, List.map_cons, List.sum_cons, Bool.true_eq_false, false_iff]
      intro h
      omega
  | succ nodes ih =>
    cases pending with
    | nil => simp [search]
    | cons entry pending =>
      obtain ⟨depth, v⟩ := entry
      rw [search, List.forall_mem_cons, clean_iff]
      split
      · next hdeep => simp [Nat.not_le.2 hdeep]
      next hdeep =>
      split
      · next hbad => simp [hbad]
      next hbad =>
      have hchildren : ((children v).map fun child => (depth + 1, child)).map
          (fun entry => size entry.2) = (children v).map size := by
        rw [List.map_map]
        rfl
      rw [ih, List.map_append, List.map_reverse, List.sum_append, List.sum_reverse, hchildren,
        List.forall_mem_append, List.map_cons, List.sum_cons, hsize v]
      simp only [List.mem_reverse, List.forall_mem_map, Nat.not_lt.1 hdeep, hbad, true_and,
        eq_self]
      refine and_congr ?_ Iff.rfl
      omega

end SmartC.Traversal
