import TreeListing.Tree.Node

/-!
# The entries of a tree

A tree stores its nodes in one array, in the order in which a reader meets them from top to
bottom (parents first, children from left to right). A node's id is its place in the array, so
the root is 0. Each entry links to its parent and to its children.

The nodes still to be stored wait on a stack. The one on top takes the next free id, is linked
from its parent's entry, and leaves its own children on the stack. The ids that come out of this
can be said without the stack: a subtree takes as many consecutive ids as it has nodes.
-/

namespace TreeListing

structure Entry where
  kind : String
  start : Position
  stop : Position
  named : Bool
  parent : Option Nat
  children : List (Option String × Nat)
  deriving Inhabited, Repr

def Entry.addChildren (e : Entry) (slots : List (Option String × Nat)) : Entry :=
  { e with children := e.children ++ slots }

namespace Node

structure Waiting where
  node : Node
  parent : Option Nat
  field : Option String

/-- Leaves the children of a stored node on the stack, the last one first, so that the first one
is on top. -/
def await (parent : Nat) (children : List (Option String × Node)) (stack : List Waiting) :
    List Waiting :=
  children.foldr (fun (field, child) stack => ⟨child, some parent, field⟩ :: stack) stack

theorem await_cons (parent : Nat) (field : Option String) (child : Node)
    (rest : List (Option String × Node)) (stack : List Waiting) :
    await parent ((field, child) :: rest) stack =
      ⟨child, some parent, field⟩ :: await parent rest stack := rfl

def waiting : List Waiting → Nat
  | [] => 0
  | top :: rest => top.node.size + waiting rest

@[simp] theorem waiting_await (parent : Nat) (children : List (Option String × Node))
    (stack : List Waiting) :
    waiting (await parent children stack) = sizeAll children + waiting stack := by
  induction children with
  | nil => simp [await, sizeAll]
  | cons slot rest ih =>
    obtain ⟨field, child⟩ := slot
    rw [await_cons, waiting, ih, sizeAll, Nat.add_assoc]

/-- Links stored nodes from their parent's entry, after the children that it has. -/
def link (entries : Array Entry) (slots : List (Option String × Nat)) : Option Nat → Array Entry
  | none => entries
  | some parent => entries.modify parent (·.addChildren slots)

/-- Stores the nodes on a stack and all that is below them. -/
def store (entries : Array Entry) : List Waiting → Array Entry
  | [] => entries
  | ⟨mk kind start stop named children, parent, field⟩ :: rest =>
    let id := entries.size
    let stored := entries.push ⟨kind, start, stop, named, parent, []⟩
    store (link stored [(field, id)] parent) (await id children rest)
termination_by stack => waiting stack
decreasing_by
  rw [waiting_await]
  simp [waiting, size]

/-- The ids of children that are numbered from `next` on, subtree after subtree. -/
def number (next : Nat) : List (Option String × Node) → List (Option String × Nat)
  | [] => []
  | (field, child) :: rest => (field, next) :: number (next + child.size) rest

mutual
def entries (id : Nat) (parent : Option Nat) : Node → List Entry
  | mk kind start stop named children =>
    ⟨kind, start, stop, named, parent, number (id + 1) children⟩ :: entriesAll (id + 1) id children

def entriesAll (next parent : Nat) : List (Option String × Node) → List Entry
  | [] => []
  | (_, child) :: rest =>
    child.entries next (some parent) ++ entriesAll (next + child.size) parent rest
end

mutual
@[simp] theorem length_entries (id : Nat) (parent : Option Nat) :
    ∀ node : Node, (node.entries id parent).length = node.size
  | mk _ _ _ _ children => by simp [entries, size, length_entriesAll _ _ children]

@[simp] theorem length_entriesAll (next parent : Nat) :
    ∀ children, (entriesAll next parent children).length = sizeAll children
  | [] => rfl
  | (_, child) :: rest => by
    simp [entriesAll, sizeAll, length_entries _ _ child, length_entriesAll _ _ rest]
end

theorem mem_number {next : Nat} {children : List (Option String × Node)}
    {slot : Option String × Nat} (h : slot ∈ number next children) :
    next ≤ slot.2 ∧ slot.2 < next + sizeAll children := by
  induction children generalizing next with
  | nil => simp [number] at h
  | cons c rest ih =>
    obtain ⟨field, child⟩ := c
    have pos := child.size_pos
    simp only [number, List.mem_cons] at h
    simp only [sizeAll]
    rcases h with rfl | h
    · exact ⟨Nat.le_refl _, by simp; omega⟩
    · have := ih h
      omega

mutual
/-- Links lead downwards: a child's id is greater than its parent's and within the subtree. -/
theorem entries_descend (id : Nat) (parent : Option Nat) :
    ∀ (node : Node) (k : Nat) (e : Entry), (node.entries id parent)[k]? = some e →
      ∀ slot ∈ e.children, id + k < slot.2 ∧ slot.2 < id + node.size
  | mk _ _ _ _ children, 0, e, h, slot, hs => by
    simp only [entries, List.getElem?_cons_zero, Option.some.injEq] at h
    subst h
    have := mem_number hs
    simp only [size]
    omega
  | mk _ _ _ _ children, k + 1, e, h, slot, hs => by
    simp only [entries, List.getElem?_cons_succ] at h
    have := entriesAll_descend (id + 1) id children k e h slot hs
    simp only [size]
    omega

theorem entriesAll_descend (next parent : Nat) :
    ∀ (children : List (Option String × Node)) (k : Nat) (e : Entry),
      (entriesAll next parent children)[k]? = some e →
      ∀ slot ∈ e.children, next + k < slot.2 ∧ slot.2 < next + sizeAll children
  | [], k, e, h, slot, hs => by simp [entriesAll] at h
  | (_, child) :: rest, k, e, h, slot, hs => by
    simp only [entriesAll] at h
    simp only [sizeAll]
    by_cases hk : k < child.size
    · rw [List.getElem?_append_left (by simpa using hk)] at h
      have := entries_descend next (some parent) child k e h slot hs
      omega
    · rw [List.getElem?_append_right (by simpa using hk)] at h
      have := entriesAll_descend (next + child.size) parent rest _ e h slot hs
      simp only [length_entries] at this
      omega
end

@[simp] theorem size_link (entries : Array Entry) (slots : List (Option String × Nat))
    (parent : Option Nat) : (link entries slots parent).size = entries.size := by
  cases parent <;> simp [link]

theorem link_append {entries : Array Entry} {parent : Option Nat}
    (h : ∀ p, parent = some p → p < entries.size) (more : Array Entry)
    (slots : List (Option String × Nat)) :
    link (entries ++ more) slots parent = link entries slots parent ++ more := by
  cases parent with
  | none => rfl
  | some p =>
    have hp := h p rfl
    refine Array.ext (by simp) fun i h₁ h₂ => ?_
    simp only [link, Array.getElem_modify, Array.getElem_append, Array.size_modify]
    by_cases hi : i < entries.size
    · simp [hi]
    · have : p ≠ i := by omega
      simp [hi, this]

@[simp] theorem link_link (entries : Array Entry) (a b : List (Option String × Nat))
    (parent : Option Nat) :
    link (link entries a parent) b parent = link entries (a ++ b) parent := by
  cases parent with
  | none => rfl
  | some p =>
    refine Array.ext (by simp) fun i h₁ h₂ => ?_
    simp only [link, Array.getElem_modify, Entry.addChildren]
    split <;> simp

@[simp] theorem link_nil (entries : Array Entry) (parent : Option Nat) :
    link entries [] parent = entries := by
  cases parent with
  | none => rfl
  | some p =>
    refine Array.ext (by simp) fun i h₁ h₂ => ?_
    simp [link, Array.getElem_modify, Entry.addChildren]

theorem link_push {entries : Array Entry} {id : Nat} (h : entries.size = id) (e : Entry)
    (slots : List (Option String × Nat)) :
    link (entries.push e) slots (some id) = entries.push (e.addChildren slots) := by
  refine Array.ext (by simp) fun i h₁ h₂ => ?_
  have hi : i ≤ entries.size := by simp at h₁; omega
  simp only [link, Array.getElem_modify, Array.getElem_push]
  by_cases lt : i < entries.size
  · have : id ≠ i := by omega
    simp [lt, this]
  · have : id = i := by omega
    simp [lt, this]

mutual
/-- A node on top of the stack is stored with all that is below it before the rest of the stack
is looked at; of the entries that are there, only its parent's changes. -/
theorem store_node (entries : Array Entry) (parent : Option Nat) (field : Option String)
    (rest : List Waiting) (h : ∀ p, parent = some p → p < entries.size) :
    ∀ node : Node, store entries (⟨node, parent, field⟩ :: rest) =
      store (link entries [(field, entries.size)] parent ++
        (node.entries entries.size parent).toArray) rest
  | mk kind start stop named children => by
    let e : Entry := ⟨kind, start, stop, named, parent, []⟩
    let above := link entries [(field, entries.size)] parent
    have size : above.size = entries.size := size_link ..
    have linked : link (entries.push e) [(field, entries.size)] parent = above.push e := by
      rw [Array.push_eq_append, link_append h, ← Array.push_eq_append]
    rw [store]
    change store (link (entries.push e) _ parent) _ = _
    rw [linked, store_children _ _ _ (by simp [size]) children, link_push size,
      Array.push_eq_append, Array.append_assoc, Array.size_push, size]
    simp [Node.entries, Entry.addChildren, above, e]

theorem store_children (entries : Array Entry) (parent : Nat) (rest : List Waiting)
    (h : parent < entries.size) :
    ∀ children, store entries (await parent children rest) =
      store (link entries (number entries.size children) (some parent) ++
        (entriesAll entries.size parent children).toArray) rest
  | [] => by simp [await, number, entriesAll, link_nil]
  | (field, child) :: others => by
    have hp : ∀ p, some parent = some p → p < entries.size := by rintro p ⟨⟩; exact h
    rw [await_cons, store_node entries (some parent) field _ hp child]
    rw [store_children _ parent rest (by simp; omega) others]
    rw [link_append (by simpa using h), link_link, Array.append_assoc]
    simp [number, entriesAll]
end

theorem store_root (root : Node) :
    store #[] [⟨root, none, none⟩] = (root.entries 0 none).toArray := by
  rw [store_node #[] none none [] (by simp) root, store]
  simp [link]

end Node

end TreeListing
