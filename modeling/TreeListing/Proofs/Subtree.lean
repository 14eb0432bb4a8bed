import Mathlib.Data.List.Induction
import TreeListing.Proofs.Listed

/-!
# The listing of a subtree

The listing from a node on is a part of every listing that shows the node, from its record on to
the last one below it, once it is indented as the node is there. The first record of the part is
the point: in the listing from above, the node's field is that of the place where the walk found
it, while the listing from the node on has to look for it among the children of the parent.
-/

namespace TreeListing.Tree

variable {t : Tree} {root : Node} {o : Options}

theorem descendant?_concat {id index m : Nat} {path : List Nat} :
    t.descendant? id (path ++ [index]) = some m ↔
      ∃ parent, t.descendant? id path = some parent ∧ t.child? parent index = some m := by
  rw [descendant?_append, Option.bind_eq_some_iff]
  simp [descendant?]

theorem add_length_le_of_descendant? {id m : Nat} {path : List Nat}
    (h : t.descendant? id path = some m) : id + path.length ≤ m := by
  induction path generalizing id with
  | nil => exact Nat.le_of_eq (Option.some.inj h)
  | cons index path ih =>
    obtain ⟨child, hc, h⟩ := Option.bind_eq_some_iff.1 h
    have := (t.lt_of_child? hc).1
    have := ih h
    rw [List.length_cons]
    omega

theorem path_unique {id m : Nat} {p q : List Nat} (hp : (ofNode root).descendant? id p = some m)
    (hq : (ofNode root).descendant? id q = some m) : p = q := by
  -- on the last step, since a node determines its parent but not which of its children was taken
  induction p using List.reverseRecOn generalizing q m with
  | nil =>
    have same : id = m := Option.some.inj hp
    have := add_length_le_of_descendant? hq
    exact (List.eq_nil_of_length_eq_zero (by omega)).symm
  | append_singleton p i ih =>
    obtain ⟨x, reach, child⟩ := descendant?_concat.1 hp
    rcases List.eq_nil_or_concat' q with rfl | ⟨q, j, rfl⟩
    · have same : id = m := Option.some.inj hq
      have := add_length_le_of_descendant? hp
      rw [List.length_append, List.length_singleton] at this
      omega
    · obtain ⟨y, reach', child'⟩ := descendant?_concat.1 hq
      have parent : x = y :=
        Option.some.inj ((parent?_of_child? child).symm.trans (parent?_of_child? child'))
      subst parent
      rw [ih reach reach', index_unique child child']

theorem passed_append {id n : Nat} {p : List Nat} (h : t.descendant? id p = some n)
    (q : List Nat) : t.passed id (p ++ q) = t.passed id p ++ t.passed n q := by
  induction p generalizing id with
  | nil =>
    rw [Option.some.inj h]
    rfl
  | cons index p ih =>
    obtain ⟨child, hc, h⟩ := Option.bind_eq_some_iff.1 h
    rw [List.cons_append, passed_cons t hc, passed_cons t hc, ih h, List.cons_append]

section

variable {start n m : Nat} {p q : List Nat} (h : (ofNode root).Shows o start m)
  (reach : (ofNode root).descendant? start p = some n)
  (below : (ofNode root).descendant? n q = some m)
include h reach below

/-- The way to a node that is shown goes through the nodes that it is below. -/
theorem Shows.forall_passed : o.hideUnnamed = false ∨
    ∀ x ∈ (ofNode root).passed start p ++ (ofNode root).passed n q,
      (ofNode root).isNamed x = true := by
  obtain ⟨path, whole, named⟩ := h
  rwa [path_unique whole (descendant?_trans reach below), passed_append reach] at named

theorem Shows.of_descendant? : (ofNode root).Shows o n m :=
  ⟨q, below, (h.forall_passed reach below).imp_right fun all x hx =>
    all x (List.mem_append_right _ hx)⟩

theorem Shows.of_above : (ofNode root).Shows o start n :=
  ⟨p, reach, (h.forall_passed reach below).imp_right fun all x hx =>
    all x (List.mem_append_left _ hx)⟩

end

theorem indexInParent?_of_child? {id index child : Nat}
    (h : (ofNode root).child? id index = some child) :
    (ofNode root).indexInParent? child = some index := by
  obtain ⟨slot, hs, rfl⟩ := Option.map_eq_some_iff.1 h
  obtain ⟨inside, rfl⟩ := List.getElem?_eq_some_iff.1 hs
  rw [indexInParent?, parent?_of_child? h, Option.bind_some, List.findIdx?_eq_some_iff_getElem]
  refine ⟨inside, by simp, fun j earlier same => ?_⟩
  have inside' : j < ((ofNode root).children id).length := Nat.lt_trans earlier inside
  have child' : (ofNode root).child? id j = some ((ofNode root).children id)[index].2 := by
    simpa [child?, inside'] using same
  have := index_unique child' h
  omega

theorem field?_of_child? {id index child : Nat} (h : (ofNode root).child? id index = some child) :
    (ofNode root).field? child = (ofNode root).childField? id index := by
  rw [field?, parent?_of_child? h, indexInParent?_of_child? h]
  rfl

theorem field?_of_parent?_eq_none {id : Nat} (h : t.parent? id = none) : t.field? id = none := by
  rw [field?, h]
  rfl

theorem field_of_mem_listed {start : Nat} {f : Frame} (h : f ∈ (ofNode root).listed o start) :
    f.field = o.shownField ((ofNode root).field? f.id) := by
  refine (ofNode root).frames_induction o
    (P := fun f => f.field = o.shownField ((ofNode root).field? f.id)) ?_ rfl f h
  intro f _ g hg
  obtain ⟨slot, hs, rfl⟩ := List.mem_map.1 hg
  obtain ⟨index, hi⟩ := List.mem_iff_getElem?.1 (List.mem_filter.1 hs).1
  have child : (ofNode root).child? f.id index = some slot.2 := by simp [child?, hi]
  simp [field?_of_child? child, childField?, hi]

theorem frames_infix {f g : Frame} (h : g ∈ t.frames o f) : t.frames o g <:+: t.frames o f := by
  refine t.frames_induction o (P := fun g => t.frames o g <:+: t.frames o f) ?_
    List.infix_rfl g h
  intro p hp c hc
  have among : t.frames o c <:+: (p.below t o).flatMap (t.frames o) := by
    rw [List.flatMap_def]
    exact List.infix_of_mem_flatten (List.mem_map_of_mem hc)
  rw [frames_eq] at hp
  exact among.trans ((List.infix_cons List.infix_rfl).trans hp)

/-- The records of a frame are the listing from its node on, indented as the node is. -/
theorem map_record_frames {start : Nat} {f : Frame} (inside : start < (ofNode root).size)
    (h : f ∈ (ofNode root).listed o start) :
    ((ofNode root).frames o f).map (Frame.record (ofNode root) o) =
      (ofNode root).records
        (o.withIndent (o.indent ++ String.ofList (Indent.levels f.depth))) f.id := by
  have same : ∀ indent field, (ofNode root).visit (o.withIndent (f.indent o)) f.id indent field =
      (ofNode root).visit o f.id indent field :=
    visit_congr _ o (o.withIndent (f.indent o)) rfl rfl f.id
  change _ = (ofNode root).records (o.withIndent (f.indent o)) f.id
  rw [← Frame.visit_eq_map _ _ (lt_size_of_mem_frames inside h), records_eq, same, Frame.visit,
    field_of_mem_listed h]
  rfl

/-- What is listed before and after the part of a node is not below that node: being shown from
above it would be shown from the node on as well, and no node is listed twice. -/
theorem not_below_of_outside {start : Nat} {f : Frame} {before after : List Frame}
    (inside : start < (ofNode root).size) (hf : f ∈ (ofNode root).listed o start)
    (split : before ++ (ofNode root).frames o f ++ after = (ofNode root).listed o start) :
    ∀ g ∈ before ++ after, ¬ ∃ q, (ofNode root).descendant? f.id q = some g.id := by
  rintro g hg ⟨q, below⟩
  have listed : g ∈ (ofNode root).listed o start := by
    rw [← split, List.append_assoc]
    rcases List.mem_append.1 hg with hg | hg
    · exact List.mem_append_left _ hg
    · exact List.mem_append_right _ (List.mem_append_right _ hg)
  obtain ⟨path, reach, _, _⟩ := exists_path_of_mem_frames hf
  -- shown from the node on, it has a frame in the part, and ids of frames do not repeat
  have shown : (ofNode root).Shows o f.id g.id :=
    (mem_ids_frames_iff.1 (List.mem_map_of_mem listed)).of_descendant? reach below
  obtain ⟨g', hg', same⟩ := List.mem_map.1 (mem_ids_frames_iff.2 shown)
  have increasing := pairwise_ids_records (o := o) inside
  rw [ids_records inside, ← split, List.pairwise_map, List.append_assoc, List.pairwise_append,
    List.pairwise_append] at increasing
  obtain ⟨_, ⟨_, _, part_after⟩, before_rest⟩ := increasing
  rcases List.mem_append.1 hg with hg | hg
  · have := before_rest g hg g' (List.mem_append_left _ hg')
    omega
  · have := part_after g' hg' g hg
    omega

/-- The listing from a node on, indented as in a listing that shows the node, is the part of that
listing that begins with the node's record and holds what is shown below the node. -/
theorem records_subtree {start n : Nat} {path : List Nat} (inside : start < (ofNode root).size)
    (reach : (ofNode root).descendant? start path = some n)
    (shown : n ∈ ((ofNode root).records o start).map (·.id)) :
    let indent := o.indent ++ String.ofList (List.replicate (2 * path.length) ' ')
    let part := (ofNode root).records (o.withIndent indent) n
    ∃ before after, (ofNode root).records o start = before ++ part ++ after ∧
      part.head?.map (·.id) = some n ∧
      (∀ r ∈ part, ∃ q, (ofNode root).descendant? n q = some r.id) ∧
      ∀ r ∈ before ++ after, ¬ ∃ q, (ofNode root).descendant? n q = some r.id := by
  intro indent part
  rw [ids_records inside] at shown
  obtain ⟨f, hf, rfl⟩ := List.mem_map.1 shown
  obtain ⟨path', reach', depth, _⟩ := exists_path_of_mem_frames hf
  have depth_eq : f.depth = path.length := by
    rw [depth, path_unique reach' reach]
    exact Nat.zero_add _
  have part_eq : ((ofNode root).frames o f).map (Frame.record (ofNode root) o) = part := by
    rw [map_record_frames inside hf, Indent.levels_eq_replicate, depth_eq]
  obtain ⟨before, after, split⟩ := frames_infix hf
  refine ⟨before.map (Frame.record (ofNode root) o), after.map (Frame.record (ofNode root) o),
    ?_, ?_, ?_, ?_⟩
  · rw [records_eq_map _ o inside, listed, ← split, List.map_append, List.map_append, part_eq]
  · rw [← part_eq, frames_eq]
    rfl
  · rw [← part_eq]
    intro r hr
    obtain ⟨g, hg, rfl⟩ := List.mem_map.1 hr
    obtain ⟨q, below, _, _⟩ := exists_path_of_mem_frames hg
    exact ⟨q, below⟩
  · rw [← List.map_append]
    intro r hr
    obtain ⟨g, hg, rfl⟩ := List.mem_map.1 hr
    exact not_below_of_outside inside hf split g hg

def twoArguments : Node :=
  .mk "call" ⟨0, 0⟩ ⟨0, 9⟩ true
    [(some "function", .leaf "name" ⟨0, 0⟩ ⟨0, 1⟩),
      (some "argument", .mk "list" ⟨0, 2⟩ ⟨0, 5⟩ true
        [(none, .token "[" ⟨0, 2⟩ ⟨0, 3⟩), (some "item", .leaf "number" ⟨0, 3⟩ ⟨0, 4⟩)]),
      (some "argument", .leaf "text" ⟨0, 6⟩ ⟨0, 8⟩)]

/-- The list is the third record of the listing, and its first record has the field "argument". -/
theorem records_subtree_twoArguments :
    let t := ofNode twoArguments
    let o := (Options.fieldAware false).withIndent "> "
    let indent := o.indent ++ String.ofList (List.replicate (2 * [1].length) ' ')
    let part := t.records (o.withIndent indent) 2
    0 < t.size ∧ t.descendant? 0 [1] = some 2 ∧ 2 ∈ (t.records o 0).map (·.id) ∧
    ∃ before after, t.records o 0 = before ++ part ++ after ∧ part.head?.map (·.id) = some 2 ∧
      (∀ r ∈ part, ∃ q, t.descendant? 2 q = some r.id) ∧
      ∀ r ∈ before ++ after, ¬ ∃ q, t.descendant? 2 q = some r.id := by
  intro t o indent part
  have inside : 0 < t.size := size_ofNode_pos _
  have reach : t.descendant? 0 [1] = some 2 := by
    simp only [t, descendant?, child?, Tree.children, Tree.get?, entries_ofNode]
    rfl
  have shown : 2 ∈ (t.records o 0).map (·.id) := by
    rw [ids_records inside]
    exact mem_ids_frames_iff.2 ⟨[1], reach, .inl rfl⟩
  exact ⟨inside, reach, shown, records_subtree inside reach shown⟩

end TreeListing.Tree
