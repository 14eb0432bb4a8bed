import TreeListing.Record
import TreeListing.Render.Options
import TreeListing.Text
import TreeListing.Tree

/-!
# Listings of a tree

A listing has one record per node, parents before children and children from left to right, each
level indented by two spaces more. Two walks produce it: one calls itself for each child and hands
the indentation down, the other keeps the nodes still to be visited on a stack with their depths.
-/

namespace TreeListing

namespace Entry

def record (e : Entry) (id : Nat) (indent : String) (field : Option String) : Record where
  id := id
  start := e.start
  stop := e.stop
  lead := Lead.make indent field
  name := e.kind
  suffix := Position.spanText e.start e.stop

end Entry

namespace Tree

variable (t : Tree) (o : Options)

def isShown (id : Nat) : Bool :=
  !o.hideUnnamed || (t.get? id).any (·.named)

def shownChildren (id : Nat) : List (Option String × Nat) :=
  (t.children id).filter fun slot => t.isShown o slot.2

theorem lt_of_mem_shownChildren {id : Nat} {slot : Option String × Nat}
    (h : slot ∈ t.shownChildren o id) : id < slot.2 ∧ slot.2 < t.size :=
  t.lt_of_mem_children (List.mem_filter.1 h).1

def visit (id : Nat) (indent : String) (field : Option String) : List Record :=
  match t.get? id with
  | none => []
  | some e =>
    e.record id indent field :: (t.shownChildren o id).attach.flatMap fun slot =>
      visit slot.1.2 (indent ++ String.ofList Indent.unit) (o.shownField slot.1.1)
termination_by t.size - id
decreasing_by
  have := t.lt_of_mem_shownChildren o slot.2
  omega

structure Frame where
  id : Nat
  /-- Levels below the node that the listing starts with. -/
  depth : Nat
  field : Option String

def Frame.push (f : Frame) (index : Nat) (stack : List Frame) : List Frame :=
  match t.child? f.id index with
  | none => stack
  | some child =>
    if t.isShown o child then
      ⟨child, f.depth + 1, o.shownField (t.childField? f.id index)⟩ :: stack
    else stack

/-- Leaves the children of a frame's node on the stack, the last one first, so that the first one
is on top. -/
def Frame.pushChildren (f : Frame) (stack : List Frame) : List Frame :=
  (List.range (t.childCount f.id)).foldr (f.push t o) stack

def Frame.below (f : Frame) : List Frame :=
  (t.shownChildren o f.id).map fun slot => ⟨slot.2, f.depth + 1, o.shownField slot.1⟩

def Frame.pushSlot (f : Frame) (slot : Option String × Nat) (stack : List Frame) : List Frame :=
  if t.isShown o slot.2 then ⟨slot.2, f.depth + 1, o.shownField slot.1⟩ :: stack else stack

theorem push_eq (f : Frame) (index : Nat) (stack : List Frame) :
    f.push t o index stack =
      (t.children f.id)[index]?.elim stack (f.pushSlot t o · stack) := by
  unfold Frame.push child? childField?
  cases (t.children f.id)[index]? <;> rfl

theorem foldr_pushSlot (f : Frame) (slots : List (Option String × Nat)) (stack : List Frame) :
    slots.foldr (f.pushSlot t o) stack =
      (slots.filter fun slot => t.isShown o slot.2).map
        (fun slot => ⟨slot.2, f.depth + 1, o.shownField slot.1⟩) ++ stack := by
  induction slots with
  | nil => rfl
  | cons slot slots ih =>
    rw [List.foldr_cons, ih, Frame.pushSlot, List.filter_cons]
    by_cases shown : t.isShown o slot.2 = true
    · rw [if_pos shown, if_pos shown]
      rfl
    · rw [if_neg shown, if_neg shown]

@[simp] theorem pushChildren_eq (f : Frame) (stack : List Frame) :
    f.pushChildren t o stack = f.below t o ++ stack := by
  -- going through the indices from the last one is going through the slots from the last one
  calc
    _ = (List.range (t.childCount f.id)).foldr
          (fun index stack => (t.children f.id)[index]?.elim stack (f.pushSlot t o · stack))
          stack := by
      unfold Frame.pushChildren
      simp only [← push_eq]
    _ = ((t.children f.id).map some).foldr
          (fun slot stack => slot.elim stack (f.pushSlot t o · stack)) stack := by
      rw [← map_range_children, List.foldr_map]
    _ = (t.children f.id).foldr (f.pushSlot t o) stack := List.foldr_map
    _ = f.below t o ++ stack := foldr_pushSlot t o f _ stack

def pending : List Frame → Nat
  | [] => 0
  | f :: rest => t.subtreeSize f.id + pending rest

@[simp] theorem pending_append (a b : List Frame) :
    t.pending (a ++ b) = t.pending a + t.pending b := by
  induction a with
  | nil => simp [pending]
  | cons f a ih => rw [List.cons_append, pending, pending, ih, Nat.add_assoc]

/-- Fewer nodes are left when a frame gives way to the frames of its children. -/
theorem pending_below_lt (f : Frame) : t.pending (f.below t o) < t.subtreeSize f.id := by
  rw [subtreeSize_eq]
  unfold Frame.below shownChildren
  generalize t.children f.id = slots
  induction slots with
  | nil => exact Nat.zero_lt_one
  | cons slot slots ih =>
    rw [List.filter_cons, List.foldr_cons]
    split
    · rw [List.map_cons, pending]
      exact Nat.add_lt_add_left ih _
    · exact Nat.lt_add_left _ ih

/-- Adds the records of the nodes on a stack, and of all that is listed below them. -/
def walk (written : Array Record) : List Frame → Array Record
  | [] => written
  | f :: rest =>
    match t.get? f.id with
    | none => walk written rest
    | some e =>
      let indent := o.indent ++ String.ofList (Indent.levels f.depth)
      walk (written.push (e.record f.id indent f.field)) (f.pushChildren t o rest)
termination_by stack => t.pending stack
decreasing_by
  · exact Nat.lt_add_of_pos_left (t.subtreeSize_pos f.id)
  · rw [pushChildren_eq, pending_append]
    exact Nat.add_lt_add_right (t.pending_below_lt o f) _

/-- The listing from a node on. The first record is always there, and is annotated with the field
that its node occupies in its parent. -/
def records (start : Nat) : List Record :=
  let field := o.shownField (t.field? start)
  match o.traversal with
  | .recursive => t.visit o start o.indent field
  | .iterative => (t.walk o #[] [⟨start, 0, field⟩]).toList

def listing (start : Nat) : String := Record.listing (t.records o start)

end Tree

inductive Rendered where
  | text (shown : String)
  | records (listed : List Record)
  deriving DecidableEq, Repr

namespace Rendered

def toText : Rendered → String
  | text shown => shown
  | records listed => Record.listing listed

end Rendered

def Tree.render (t : Tree) (o : Options) (start : Nat) : Rendered :=
  match o.shape with
  | .text => .text (t.listing o start)
  | .records => .records (t.records o start)

end TreeListing
