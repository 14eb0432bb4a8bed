import Mathlib.Data.List.Basic
import TreeListing.Render

/-!
# Both walks of a tree list the same records

The walk with a stack keeps a depth with each node and works the indentation out anew, while the
other one lengthens the indentation from call to call. What a stack still has to add to the
listing is, frame after frame, what the calls for its frames return.
-/

namespace TreeListing.Tree

variable (t : Tree) (o : Options)

theorem visit_eq (id : Nat) (indent : String) (field : Option String) :
    t.visit o id indent field =
      match t.get? id with
      | none => []
      | some e => e.record id indent field :: (t.shownChildren o id).flatMap fun slot =>
          t.visit o slot.2 (indent ++ String.ofList Indent.unit) (o.shownField slot.1) := by
  rw [visit]
  cases t.get? id with
  | none => rfl
  | some e =>
    simp only [List.flatMap_subtype, List.unattach_attach]

@[simp] theorem indent_succ (base : String) (level : Nat) :
    base ++ String.ofList (Indent.levels level) ++ String.ofList Indent.unit =
      base ++ String.ofList (Indent.levels (level + 1)) := by
  rw [String.append_assoc, ← String.ofList_append, Indent.levels_add]
  rfl

def Frame.indent (f : Frame) : String :=
  o.indent ++ String.ofList (Indent.levels f.depth)

@[simp] theorem Frame.indent_zero (id : Nat) (field : Option String) :
    Frame.indent o ⟨id, 0, field⟩ = o.indent := by
  simp [Frame.indent, Indent.levels]

def Frame.visit (f : Frame) : List Record :=
  t.visit o f.id (f.indent o) f.field

theorem Frame.visit_of_get? {f : Frame} {e : Entry} (h : t.get? f.id = some e) :
    f.visit t o =
      e.record f.id (f.indent o) f.field :: (f.below t o).flatMap (Frame.visit t o) := by
  have deeper : ∀ id field, f.indent o ++ String.ofList Indent.unit =
      Frame.indent o ⟨id, f.depth + 1, field⟩ := fun id field => indent_succ o.indent f.depth
  unfold Frame.visit Frame.below
  rw [visit_eq, h]
  simp only [List.flatMap_map, ← deeper]

@[simp] theorem walk_eq (written : Array Record) (stack : List Frame) :
    (t.walk o written stack).toList = written.toList ++ stack.flatMap (Frame.visit t o) := by
  fun_induction walk t o written stack with
  | case1 written => simp
  | case2 written f rest missing ih =>
    have : f.visit t o = [] := by rw [Frame.visit, visit_eq, missing]
    simpa [this] using ih
  | case3 written f rest e found indent ih =>
    rw [ih, pushChildren_eq, List.flatMap_append, List.flatMap_cons, Frame.visit_of_get? t o found]
    simp [indent, Frame.indent]

theorem visit_congr (o' : Options) (hides : o'.hideUnnamed = o.hideUnnamed)
    (fields : o'.showFields = o.showFields) (id : Nat) (indent : String) (field : Option String) :
    t.visit o' id indent field = t.visit o id indent field := by
  have shown : t.shownChildren o' = t.shownChildren o := by
    funext id
    simp only [shownChildren, isShown, hides]
  have shown_field : o'.shownField = o.shownField := by
    funext field
    simp only [Options.shownField, fields]
  -- by the recursion of the calls themselves, which know neither traversal nor indentation of
  -- the options
  induction id, indent, field using visit.induct t o with
  | case1 id indent field missing => rw [visit_eq, visit_eq, missing]
  | case2 id indent field e found ih =>
    rw [visit_eq, visit_eq, found, shown, shown_field]
    exact congrArg (_ :: ·) (List.flatMap_congr fun slot hs => ih ⟨slot, hs⟩)

@[simp] theorem visit_withTraversal (traversal : Traversal) (id : Nat) (indent : String)
    (field : Option String) :
    t.visit (o.withTraversal traversal) id indent field = t.visit o id indent field :=
  t.visit_congr o (o.withTraversal traversal) rfl rfl id indent field

theorem records_eq (start : Nat) :
    t.records o start = t.visit o start o.indent (o.shownField (t.field? start)) := by
  unfold records
  cases o.traversal with
  | recursive => rfl
  | iterative =>
    simp [walk_eq, Frame.visit, Frame.indent_zero]

/-- The walk with a stack lists the same records as the walk by calls, in the same order. -/
theorem records_withTraversal_iterative (start : Nat) :
    t.records (o.withTraversal .iterative) start =
      t.records (o.withTraversal .recursive) start := by
  rw [records_eq, records_eq, visit_withTraversal, visit_withTraversal]
  rfl

theorem lt_of_mem_below {f g : Frame} (h : g ∈ f.below t o) : f.id < g.id ∧ g.id < t.size := by
  obtain ⟨slot, hs, rfl⟩ := List.mem_map.1 h
  exact t.lt_of_mem_shownChildren o hs

section

variable {t : Tree} {o : Options} {f g : Frame}

theorem depth_of_mem_below (h : g ∈ f.below t o) : g.depth = f.depth + 1 := by
  obtain ⟨slot, _, rfl⟩ := List.mem_map.1 h
  rfl

theorem exists_child?_of_mem_below (h : g ∈ f.below t o) :
    t.isShown o g.id = true ∧ ∃ index, t.child? f.id index = some g.id := by
  obtain ⟨slot, hs, rfl⟩ := List.mem_map.1 h
  obtain ⟨child, shown⟩ := List.mem_filter.1 hs
  obtain ⟨index, hi⟩ := List.mem_iff_getElem?.1 child
  exact ⟨shown, index, by simp [child?, hi]⟩

end

/-- The frames that are visited from a frame on, one for each record. -/
def frames (f : Frame) : List Frame :=
  f :: (f.below t o).attach.flatMap fun g => frames g.1
termination_by t.size - f.id
decreasing_by
  have := t.lt_of_mem_below o g.2
  omega

theorem frames_eq (f : Frame) : t.frames o f = f :: (f.below t o).flatMap (t.frames o) := by
  rw [frames]
  simp only [List.flatMap_subtype, List.unattach_attach]

/-- A fact of every frame follows from the one it starts with, when it goes down to children. -/
theorem frames_induction {P : Frame → Prop} (down : ∀ f, P f → ∀ g ∈ f.below t o, P g)
    {f : Frame} (hf : P f) : ∀ g ∈ t.frames o f, P g := by
  induction f using frames.induct t o with
  | case1 f ih =>
    intro g hg
    rw [frames_eq, List.mem_cons, List.mem_flatMap] at hg
    rcases hg with rfl | ⟨child, hc, hg⟩
    · exact hf
    · exact ih ⟨child, hc⟩ (down f hf child hc) g hg

def Frame.record (f : Frame) : Record :=
  ((t.get? f.id).getD default).record f.id (f.indent o) f.field

theorem Frame.visit_eq_map {f : Frame} (h : f.id < t.size) :
    f.visit t o = (t.frames o f).map (Frame.record t o) := by
  induction f using frames.induct t o with
  | case1 f ih =>
    obtain ⟨e, he⟩ : ∃ e, t.get? f.id = some e := by
      cases hn : t.get? f.id with
      | none => exact absurd (t.get?_eq_none_iff.1 hn) (by omega)
      | some e => exact ⟨e, rfl⟩
    rw [Frame.visit_of_get? t o he, frames_eq, List.map_cons, List.map_flatMap, Frame.record, he]
    exact congrArg (_ :: ·) (List.flatMap_congr fun g hg =>
      ih ⟨g, hg⟩ (t.lt_of_mem_below o hg).2)

def startFrame (start : Nat) : Frame := ⟨start, 0, o.shownField (t.field? start)⟩

def listed (start : Nat) : List Frame := t.frames o (t.startFrame o start)

theorem listed_eq (start : Nat) :
    t.listed o start =
      t.startFrame o start :: ((t.startFrame o start).below t o).flatMap (t.frames o) :=
  t.frames_eq o _

theorem startFrame_mem_listed (start : Nat) : t.startFrame o start ∈ t.listed o start := by
  rw [listed_eq]
  exact List.mem_cons_self

theorem records_eq_map {start : Nat} (h : start < t.size) :
    t.records o start = (t.listed o start).map (Frame.record t o) := by
  have := Frame.visit_eq_map t o (f := t.startFrame o start) h
  rw [records_eq, listed, ← this]
  simp [Frame.visit, startFrame, Frame.indent_zero]

end TreeListing.Tree
