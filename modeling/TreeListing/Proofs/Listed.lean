import Mathlib.Data.List.Flatten
import TreeListing.Proofs.Storage
import TreeListing.Proofs.Traversal
import TreeListing.Record.Outline

/-!
# Which nodes a listing shows

A listing shows the nodes below its start in the order of their ids. When nodes without a name are
left out, a node is shown exactly when none of them is met on the way to it; the start itself is
shown in any case. Order comes from leaving nodes out of the walk over all of them, and which nodes
are shown from following the ways down.
-/

namespace TreeListing.Tree

variable (t : Tree) (o : Options)

def isNamed (id : Nat) : Bool := (t.get? id).any (·.named)

/-- The nodes that a path comes to, one after the other; the one that it starts from is not
among them. -/
def passed (id : Nat) : List Nat → List Nat
  | [] => []
  | index :: path =>
    match t.child? id index with
    | none => []
    | some child => child :: passed child path

theorem passed_cons {id index child : Nat} (h : t.child? id index = some child)
    (path : List Nat) : t.passed id (index :: path) = child :: t.passed child path := by
  rw [passed, h]

/-- A node below the start of a listing is shown, unless nodes without a name are left out and
one of them is on the way to it, or is the node itself. -/
def Shows (start m : Nat) : Prop :=
  ∃ path, t.descendant? start path = some m ∧
    (o.hideUnnamed = false ∨ ∀ x ∈ t.passed start path, t.isNamed x = true)

theorem shows_start (start : Nat) : t.Shows o start start :=
  ⟨[], rfl, .inr fun _ hx => absurd hx List.not_mem_nil⟩

@[simp] theorem isShown_iff {id : Nat} :
    t.isShown o id = true ↔ o.hideUnnamed = false ∨ t.isNamed id = true := by
  simp [isShown, isNamed]

theorem forall_isShown_iff (ids : List Nat) :
    (∀ x ∈ ids, t.isShown o x = true) ↔
      o.hideUnnamed = false ∨ ∀ x ∈ ids, t.isNamed x = true := by
  simp only [isShown_iff]
  cases o.hideUnnamed <;> simp

variable {t o}

theorem exists_mem_below_of_child? {f : Frame} {index child : Nat}
    (h : t.child? f.id index = some child) (shown : t.isShown o child = true) :
    ∃ g ∈ f.below t o, g.id = child := by
  obtain ⟨slot, hs, rfl⟩ := Option.map_eq_some_iff.1 h
  have mem : slot ∈ t.shownChildren o f.id :=
    List.mem_filter.2 ⟨List.mem_of_getElem? hs, shown⟩
  exact ⟨_, List.mem_map.2 ⟨slot, mem, rfl⟩, rfl⟩

theorem exists_path_of_mem_frames {f g : Frame} (h : g ∈ t.frames o f) :
    ∃ path, t.descendant? f.id path = some g.id ∧ g.depth = f.depth + path.length ∧
      ∀ x ∈ t.passed f.id path, t.isShown o x = true := by
  induction f using frames.induct t o with
  | case1 f ih =>
    rw [frames_eq, List.mem_cons, List.mem_flatMap] at h
    rcases h with rfl | ⟨c, hc, hg⟩
    · exact ⟨[], rfl, rfl, by simp [passed]⟩
    · obtain ⟨path, reach, depth, shown⟩ := ih ⟨c, hc⟩ hg
      obtain ⟨shown_child, index, child⟩ := exists_child?_of_mem_below hc
      refine ⟨index :: path, ?_, ?_, ?_⟩
      · rw [descendant?, child]
        exact reach
      · rw [depth, depth_of_mem_below hc, List.length_cons]
        omega
      · rw [passed_cons t child]
        exact List.forall_mem_cons.2 ⟨shown_child, shown⟩

theorem exists_mem_frames_of_path {f : Frame} {m : Nat} {path : List Nat}
    (reach : t.descendant? f.id path = some m)
    (shown : ∀ x ∈ t.passed f.id path, t.isShown o x = true) :
    ∃ g ∈ t.frames o f, g.id = m := by
  induction path generalizing f with
  | nil =>
    refine ⟨f, ?_, Option.some.inj reach⟩
    rw [frames_eq]
    exact List.mem_cons_self
  | cons index path ih =>
    obtain ⟨child, hc, reach⟩ := Option.bind_eq_some_iff.1 reach
    rw [passed_cons t hc, List.forall_mem_cons] at shown
    obtain ⟨c, mem, rfl⟩ := exists_mem_below_of_child? hc shown.1
    obtain ⟨g, hg, rfl⟩ := ih reach shown.2
    refine ⟨g, ?_, rfl⟩
    rw [frames_eq]
    exact List.mem_cons_of_mem _ (List.mem_flatMap.2 ⟨c, mem, hg⟩)

theorem mem_ids_frames_iff {f : Frame} {m : Nat} :
    m ∈ (t.frames o f).map (·.id) ↔ t.Shows o f.id m := by
  constructor
  · intro h
    obtain ⟨g, hg, rfl⟩ := List.mem_map.1 h
    obtain ⟨path, reach, _, shown⟩ := exists_path_of_mem_frames hg
    exact ⟨path, reach, (forall_isShown_iff t o _).1 shown⟩
  · rintro ⟨path, reach, named⟩
    obtain ⟨g, hg, rfl⟩ := exists_mem_frames_of_path reach ((forall_isShown_iff t o _).2 named)
    exact List.mem_map_of_mem hg

theorem ids_frames_sublist (f : Frame) :
    ((t.frames o f).map (·.id)).Sublist (t.preorder f.id) := by
  induction f using frames.induct t o with
  | case1 f ih =>
    rw [frames_eq, preorder_eq, List.map_cons, List.map_flatMap]
    apply List.Sublist.cons_cons
    have all_below : ((f.below t o).flatMap fun g => t.preorder g.id).Sublist
        ((t.children f.id).flatMap fun slot => t.preorder slot.2) := by
      rw [Frame.below, List.flatMap_map]
      exact List.filter_sublist.flatMap _
    exact (List.Sublist.flatMap_right _ fun g hg => ih ⟨g, hg⟩).trans all_below

theorem lt_size_of_mem_frames {f g : Frame} (inside : f.id < t.size) (h : g ∈ t.frames o f) :
    g.id < t.size :=
  t.frames_induction o (P := fun g => g.id < t.size)
    (fun _ _ _ hg => (t.lt_of_mem_below o hg).2) inside g h

theorem ids_records {start : Nat} (h : start < t.size) :
    (t.records o start).map (·.id) = (t.listed o start).map (·.id) := by
  rw [records_eq_map t o h, List.map_map]
  rfl

theorem mem_ids_records_iff {start m : Nat} (h : start < t.size) :
    m ∈ (t.records o start).map (·.id) ↔ t.Shows o start m := by
  rw [ids_records h]
  exact mem_ids_frames_iff

theorem exists_descendant?_of_mem_records {start : Nat} (h : start < t.size) {r : Record}
    (hr : r ∈ t.records o start) : ∃ path, t.descendant? start path = some r.id := by
  obtain ⟨path, reach, _⟩ := (mem_ids_records_iff h).1 (List.mem_map_of_mem hr)
  exact ⟨path, reach⟩

theorem exists_get?_of_mem_records {start : Nat} (h : start < t.size) {r : Record}
    (hr : r ∈ t.records o start) :
    ∃ e, t.get? r.id = some e ∧ r.name = e.kind ∧ r.start = e.start ∧ r.stop = e.stop ∧
      r.suffix = Position.spanText e.start e.stop := by
  rw [records_eq_map t o h] at hr
  obtain ⟨f, hf, rfl⟩ := List.mem_map.1 hr
  have inside : f.id < t.size := lt_size_of_mem_frames h hf
  cases he : t.get? f.id with
  | none =>
    rw [get?_eq_none_iff] at he
    omega
  | some e =>
    have entry : (t.get? f.id).getD default = e := by rw [he]; rfl
    refine ⟨e, he, ?_⟩
    simp only [Frame.record, entry, Entry.record, and_self]

theorem pairwise_preorder {root : Node} {id : Nat} (h : id < (ofNode root).size) :
    ((ofNode root).preorder id).Pairwise (· < ·) := by
  obtain ⟨parent, node, stored⟩ := exists_stores h
  rw [stored.preorder_eq_range]
  exact List.pairwise_lt_range' 1

theorem pairwise_ids_records {root : Node} {start : Nat} (h : start < (ofNode root).size) :
    (((ofNode root).records o start).map (·.id)).Pairwise (· < ·) := by
  rw [ids_records h]
  exact (pairwise_preorder h).sublist (ids_frames_sublist _)

theorem recordOf?_eq_find? (records : List Record) (m : Nat) :
    Outline.recordOf? records m = records.find? (·.id = m) := by
  rw [Outline.recordOf?, Outline.indexOf?, List.find?_eq_bind_findIdx?_getElem?]

/-- A listing has one record for each node that is shown below its start, in the order of the ids,
and a node is looked up among the records by its id. -/
structure Enumerates (t : Tree) (o : Options) (start : Nat) (records : List Record) : Prop where
  increasing : (records.map (·.id)).Pairwise (· < ·)
  head : (records.map (·.id)).head? = some start
  mem_iff : ∀ m, m ∈ records.map (·.id) ↔ t.Shows o start m
  found_iff : ∀ m, (Outline.recordOf? records m).isSome ↔ t.Shows o start m
  found : ∀ m r, Outline.recordOf? records m = some r → r.id = m ∧
    ∃ e, t.get? m = some e ∧ r.name = e.kind ∧ r.start = e.start ∧ r.stop = e.stop ∧
      r.suffix = Position.spanText e.start e.stop

theorem enumerates_records {root : Node} {o : Options} {start : Nat}
    (h : start < (ofNode root).size) :
    (ofNode root).Enumerates o start ((ofNode root).records o start) := by
  have shown : ∀ m, m ∈ ((ofNode root).records o start).map (·.id) ↔
      (ofNode root).Shows o start m := by
    intro m
    rw [ids_records h]
    exact mem_ids_frames_iff
  refine ⟨pairwise_ids_records h, ?_, shown, fun m => ?_, fun m r hr => ?_⟩
  · rw [ids_records h, listed_eq]
    rfl
  · rw [← shown m, recordOf?_eq_find?, List.find?_isSome, List.mem_map]
    simp only [decide_eq_true_eq]
  · rw [recordOf?_eq_find?] at hr
    have same : r.id = m := by simpa using List.find?_some hr
    have entry := exists_get?_of_mem_records h (List.mem_of_find?_eq_some hr)
    rw [same] at entry
    exact ⟨same, entry⟩

def namelessGroup : Node :=
  .mk "program" ⟨0, 0⟩ ⟨1, 0⟩ true
    [(none, .mk "group" ⟨0, 0⟩ ⟨0, 6⟩ false
      [(none, .leaf "number" ⟨0, 0⟩ ⟨0, 1⟩),
        (none, .mk "," ⟨0, 1⟩ ⟨0, 4⟩ false [(none, .leaf "comment" ⟨0, 2⟩ ⟨0, 4⟩)]),
        (none, .leaf "number" ⟨0, 5⟩ ⟨0, 6⟩)])]

theorem enumerates_records_namelessGroup :
    1 < (ofNode namelessGroup).size ∧ (ofNode namelessGroup).Enumerates .plainRecords 1
      ((ofNode namelessGroup).records .plainRecords 1) := by
  have inside : 1 < (ofNode namelessGroup).size := by
    rw [size_ofNode]
    decide
  exact ⟨inside, enumerates_records inside⟩

end TreeListing.Tree
