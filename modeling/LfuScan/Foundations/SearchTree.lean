import Mathlib.Data.List.Basic

/-! A set kept as a search tree, over a comparison that answers as C's do: a negative number,
0 or a positive number.
-/

namespace LfuScan.Foundations

variable {α : Type}

/-- What a search tree asks of a comparison, also one that is balanced. -/
structure Comparison (cmp : α → α → Int) : Prop where
  zero_iff : ∀ x y, cmp x y = 0 ↔ x = y
  swap : ∀ x y, cmp x y < 0 ↔ 0 < cmp y x
  trans : ∀ x y z, cmp x y < 0 → cmp y z < 0 → cmp x z < 0

inductive SearchTree (α : Type)
  | leaf
  | node (left : SearchTree α) (key : α) (right : SearchTree α)
deriving DecidableEq, Repr

namespace SearchTree

def keys : SearchTree α → List α
  | leaf => []
  | node left key right => left.keys ++ key :: right.keys

@[simp]
theorem mem_keys_node {left right : SearchTree α} {key x : α}
    : x ∈ (node left key right).keys ↔ x ∈ left.keys ∨ x = key ∨ x ∈ right.keys := by
  simp [keys]

variable (cmp : α → α → Int)

def has (x : α) : SearchTree α → Bool
  | leaf => false
  | node left key right =>
      if cmp x key == 0 then true else if cmp x key < 0 then left.has x else right.has x

def insert (x : α) : SearchTree α → SearchTree α
  | leaf => node leaf x leaf
  | node left key right =>
      if cmp x key == 0 then
        node left key right
      else if cmp x key < 0 then
        node (left.insert x) key right
      else
        node left key (right.insert x)

/-- What is left of a key is less than it, what is right of it more. -/
def Ordered : SearchTree α → Prop
  | leaf => True
  | node left key right =>
      (∀ x ∈ left.keys, cmp x key < 0) ∧ (∀ x ∈ right.keys, cmp key x < 0)
        ∧ left.Ordered ∧ right.Ordered

variable {cmp}

theorem ordered_leaf : (leaf : SearchTree α).Ordered cmp := trivial

theorem mem_keys_insert (lawful : Comparison cmp) (x y : α) (tree : SearchTree α)
    : y ∈ (tree.insert cmp x).keys ↔ y = x ∨ y ∈ tree.keys := by
  induction tree with
  | leaf => simp [insert, keys]
  | node left key right fromLeft fromRight =>
      unfold insert
      split
      · rename_i same
        obtain rfl := (lawful.zero_iff x key).mp (eq_of_beq same)
        simp only [mem_keys_node]
        exact ⟨.inr, fun either => either.elim (fun here => .inr (.inl here)) id⟩
      · split
        · rw [mem_keys_node, mem_keys_node, fromLeft, or_assoc]
        · rw [mem_keys_node, mem_keys_node, fromRight, or_left_comm (a := y = key),
            or_left_comm (a := y ∈ left.keys)]

theorem Ordered.insert (lawful : Comparison cmp) (x : α) {tree : SearchTree α}
    (ordered : tree.Ordered cmp)
    : (tree.insert cmp x).Ordered cmp := by
  induction tree with
  | leaf =>
      have empty {p : α → Prop} : ∀ y ∈ (leaf : SearchTree α).keys, p y :=
        fun _ member => absurd member List.not_mem_nil
      exact ⟨empty, empty, trivial, trivial⟩
  | node left key right fromLeft fromRight =>
      obtain ⟨less, more, leftOrdered, rightOrdered⟩ := ordered
      unfold SearchTree.insert
      split
      · exact ⟨less, more, leftOrdered, rightOrdered⟩
      rename_i other
      split
      · rename_i below
        refine ⟨fun y member => ?_, more, fromLeft leftOrdered, rightOrdered⟩
        rcases (mem_keys_insert lawful x y left).mp member with rfl | old
        · exact below
        · exact less y old
      · rename_i above
        refine ⟨less, fun y member => ?_, leftOrdered, fromRight rightOrdered⟩
        rcases (mem_keys_insert lawful x y right).mp member with rfl | old
        · have nonzero : cmp y key ≠ 0 := fun zero => other (beq_iff_eq.mpr zero)
          rw [lawful.swap]
          omega
        · exact more y old

/-- A search finds what is in the tree. -/
theorem Ordered.has_iff (lawful : Comparison cmp) (x : α) {tree : SearchTree α}
    (ordered : tree.Ordered cmp)
    : tree.has cmp x = true ↔ x ∈ tree.keys := by
  induction tree with
  | leaf => simp [has, keys]
  | node left key right fromLeft fromRight =>
      obtain ⟨less, more, leftOrdered, rightOrdered⟩ := ordered
      rw [mem_keys_node]
      unfold has
      split
      · rename_i same
        exact iff_of_true rfl (.inr (.inl ((lawful.zero_iff x key).mp (eq_of_beq same))))
      rename_i other
      have apart : x ≠ key := fun same => other (beq_iff_eq.mpr ((lawful.zero_iff _ _).mpr same))
      split
      · rename_i below
        rw [fromLeft leftOrdered]
        refine ⟨.inl, fun either => either.resolve_right ?_⟩
        rintro (same | right)
        · exact apart same
        · have above := (lawful.swap key x).mp (more x right)
          omega
      · rename_i above
        rw [fromRight rightOrdered]
        refine ⟨fun right => .inr (.inr right), fun either => ?_⟩
        rcases either with left | same | right
        · exact absurd (less x left) above
        · exact absurd same apart
        · exact right

end SearchTree

/-- A tree with its order. -/
structure SearchSet (cmp : α → α → Int) where
  tree : SearchTree α := .leaf
  ordered : tree.Ordered cmp := by exact SearchTree.ordered_leaf
deriving DecidableEq, Repr

namespace SearchSet

variable {cmp : α → α → Int} (lawful : Comparison cmp)

def has (set : SearchSet cmp) (x : α) : Bool := set.tree.has cmp x

def add (set : SearchSet cmp) (x : α) : SearchSet cmp :=
  ⟨set.tree.insert cmp x, set.ordered.insert lawful x⟩

omit lawful in
@[simp]
theorem has_empty (x : α) : ({} : SearchSet cmp).has x = false := rfl

theorem has_add (set : SearchSet cmp) (x y : α)
    : (set.add lawful x).has y = true ↔ y = x ∨ set.has y = true := by
  unfold has
  rw [(set.add lawful x).ordered.has_iff lawful, set.ordered.has_iff lawful]
  exact SearchTree.mem_keys_insert lawful x y set.tree

end SearchSet

end LfuScan.Foundations
