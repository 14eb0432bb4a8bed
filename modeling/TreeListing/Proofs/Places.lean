import TreeListing.Proofs.Subtree

/-!
# The place of a node among its siblings

A node does not keep its place. It looks for its id among the children of its parent, and takes its
field from the place where the id is first met. It always meets itself there, however much its
siblings are like it, because no id stands at two places. Only the root, which has no parent, has
neither a place nor a field.
-/

namespace TreeListing.Tree

variable {t : Tree} {root : Node} {id index : Nat}

theorem exists_child?_of_lt (h : index < t.childCount id) :
    ∃ child, t.child? id index = some child := by
  have slot : (t.children id)[index]? = some (t.children id)[index] := List.getElem?_eq_getElem h
  exact ⟨(t.children id)[index].2, by rw [child?, slot, Option.map_some]⟩

theorem getElem?_children_of_le (h : t.childCount id ≤ index) :
    (t.children id)[index]? = none := List.getElem?_eq_none h

theorem child?_of_le (h : t.childCount id ≤ index) : t.child? id index = none := by
  rw [child?, getElem?_children_of_le h, Option.map_none]

theorem childField?_of_le (h : t.childCount id ≤ index) : t.childField? id index = none := by
  rw [childField?, getElem?_children_of_le h, Option.bind_none]

theorem indexInParent?_of_parent?_eq_none (h : t.parent? id = none) :
    t.indexInParent? id = none := by
  rw [indexInParent?, h, Option.bind_none]

theorem exists_parent_of_ne_zero (inside : id < (ofNode root).size) (ne : id ≠ 0) :
    ∃ parent index, (ofNode root).child? parent index = some id := by
  apply exists_child?_of_mem_preorder _ ne
  rw [(stores_root root).preorder_eq_range, List.mem_range'_1]
  rw [size_ofNode] at inside
  omega

theorem indexInParent?_eq_none_iff (inside : id < (ofNode root).size) :
    (ofNode root).indexInParent? id = none ↔ id = 0 := by
  constructor
  · intro unplaced
    by_contra ne
    obtain ⟨parent, index, child⟩ := exists_parent_of_ne_zero inside ne
    rw [indexInParent?_of_child? child] at unplaced
    cases unplaced
  · rintro rfl
    exact indexInParent?_of_parent?_eq_none (parent?_root root)

/-- Nodes know the places at which their parents have them. -/
structure Placed (t : Tree) : Prop where
  /-- A child finds itself at the place that it has, and has the field of that place. -/
  child : ∀ id index, index < t.childCount id → ∃ child, t.child? id index = some child ∧
    t.parent? child = some id ∧ t.indexInParent? child = some index ∧
    t.field? child = t.childField? id index
  past : ∀ id index, t.childCount id ≤ index →
    t.child? id index = none ∧ t.childField? id index = none
  root : t.parent? 0 = none ∧ t.indexInParent? 0 = none ∧ t.field? 0 = none
  unplaced : ∀ id < t.size, t.indexInParent? id = none ↔ id = 0

theorem placed_ofNode (root : Node) : (ofNode root).Placed := by
  refine ⟨?_, ?_, ?_, ?_⟩
  · intro id index inside
    obtain ⟨child, h⟩ := exists_child?_of_lt inside
    exact ⟨child, h, parent?_of_child? h, indexInParent?_of_child? h, field?_of_child? h⟩
  · intro id index past
    exact ⟨child?_of_le past, childField?_of_le past⟩
  · have orphan := parent?_root root
    exact ⟨orphan, indexInParent?_of_parent?_eq_none orphan, field?_of_parent?_eq_none orphan⟩
  · intro id inside
    exact indexInParent?_eq_none_iff inside

/-- Two children of one kind, with one span and in one field. -/
def twins : Node :=
  .mk "call" ⟨0, 0⟩ ⟨0, 2⟩ true
    [(some "argument", .leaf "error" ⟨0, 1⟩ ⟨0, 1⟩), (some "argument", .leaf "error" ⟨0, 1⟩ ⟨0, 1⟩)]

example : (ofNode twins).indexInParent? 2 = some 1 := by cbv

end TreeListing.Tree
