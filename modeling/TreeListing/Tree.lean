import TreeListing.Tree.Entry

/-!
# Syntax trees by number

A tree is the array of its entries. Nodes are reached through their ids: from the root 0 down
through the children, and up through the parents.
-/

namespace TreeListing

structure Tree where
  entries : Array Entry
  /-- Links lead downwards and stay inside the tree, so every walk ends. -/
  descend : ∀ (id : Nat) (e : Entry), entries[id]? = some e →
    ∀ slot ∈ e.children, id < slot.2 ∧ slot.2 < entries.size

namespace Tree

def ofNode (root : Node) : Tree where
  entries := Node.store #[] [⟨root, none, none⟩]
  descend id e h slot hs := by
    rw [Node.store_root] at h ⊢
    have := Node.entries_descend 0 none root id e (by simpa using h) slot hs
    simpa using this

theorem entries_ofNode (root : Node) : (ofNode root).entries = (root.entries 0 none).toArray :=
  Node.store_root root

variable (t : Tree)

def size : Nat := t.entries.size

@[simp] theorem size_ofNode (root : Node) : (ofNode root).size = root.size := by
  simp [size, entries_ofNode]

theorem size_ofNode_pos (root : Node) : 0 < (ofNode root).size := by
  simpa using root.size_pos

def isEmpty : Bool := t.size == 0

def get? (id : Nat) : Option Entry := t.entries[id]?

@[simp] theorem get?_eq_none_iff {id : Nat} : t.get? id = none ↔ t.size ≤ id := by
  simp [get?, size]

def kind? (id : Nat) : Option String := (t.get? id).map (·.kind)

def children (id : Nat) : List (Option String × Nat) :=
  ((t.get? id).map (·.children)).getD []

theorem lt_of_mem_children {id : Nat} {slot : Option String × Nat} (h : slot ∈ t.children id) :
    id < slot.2 ∧ slot.2 < t.size := by
  unfold children get? at h
  cases he : t.entries[id]? with
  | none => simp [he] at h
  | some e => exact t.descend id e he slot (by simpa [he] using h)

def childCount (id : Nat) : Nat := (t.children id).length

def child? (id index : Nat) : Option Nat := (t.children id)[index]?.map (·.2)

theorem lt_of_child? {id index child : Nat} (h : t.child? id index = some child) :
    id < child ∧ child < t.size := by
  obtain ⟨slot, hs, rfl⟩ := Option.map_eq_some_iff.1 h
  exact t.lt_of_mem_children (List.mem_of_getElem? hs)

def childField? (id index : Nat) : Option String := (t.children id)[index]?.bind (·.1)

def parent? (id : Nat) : Option Nat := (t.get? id).bind (·.parent)

/-- A node's place among its siblings: the first child of its parent with its id. -/
def indexInParent? (id : Nat) : Option Nat :=
  (t.parent? id).bind fun parent => (t.children parent).findIdx? (·.2 = id)

def field? (id : Nat) : Option String :=
  (t.parent? id).bind fun parent =>
    (t.indexInParent? id).bind fun index => t.childField? parent index

@[simp] theorem map_range_children (id : Nat) :
    (List.range (t.childCount id)).map ((t.children id)[·]?) = (t.children id).map some := by
  refine List.ext_getElem (by simp [childCount]) fun i h₁ h₂ => ?_
  simp at h₂
  simp [h₂]

/-- The node reached from another by going to the child at each index in turn. -/
def descendant? (id : Nat) : List Nat → Option Nat
  | [] => some id
  | index :: path => (t.child? id index).bind fun child => descendant? child path

def subtreeSize (id : Nat) : Nat :=
  (t.children id).attach.foldr (fun slot below => subtreeSize slot.1.2 + below) 1
termination_by t.size - id
decreasing_by
  have := t.lt_of_mem_children slot.2
  omega

theorem subtreeSize_eq (id : Nat) :
    t.subtreeSize id =
      (t.children id).foldr (fun slot below => t.subtreeSize slot.2 + below) 1 := by
  rw [subtreeSize]
  exact List.foldr_attach
    (f := fun (slot : Option String × Nat) below => t.subtreeSize slot.2 + below)

theorem subtreeSize_pos (id : Nat) : 0 < t.subtreeSize id := by
  rw [subtreeSize_eq]
  induction t.children id with
  | nil => exact Nat.zero_lt_one
  | cons slot slots ih => exact Nat.lt_add_left _ ih

end Tree

end TreeListing
