import Mathlib.Data.List.Basic
import TreeListing.Tree

/-!
# A tree holds its description

Storing a description loses nothing: read back through the ids it is the description again. The
ids are the numbers of the nodes in the order from top to bottom, so that the nodes below a node
have the ids that follow its own, and every node but the root is the child of exactly one node, at
exactly one place.

All of this comes from one relation: the entries of a subtree, as numbered without the stack,
stand in the tree side by side.
-/

namespace TreeListing.Tree

open Node (number sizeAll entriesAll)

variable {t : Tree}

/-- The entries of a node and of all that is below it stand in the tree, from its id on. -/
def Stores (t : Tree) (id : Nat) (parent : Option Nat) (node : Node) : Prop :=
  ∃ before after, t.entries.toList = before ++ node.entries id parent ++ after ∧
    before.length = id

def StoresAll (t : Tree) (next parent : Nat) (below : List (Option String × Node)) : Prop :=
  ∃ before after, t.entries.toList = before ++ entriesAll next parent below ++ after ∧
    before.length = next

theorem stores_root (root : Node) : (ofNode root).Stores 0 none root :=
  ⟨[], [], by simp [entries_ofNode], rfl⟩

section

variable {id next p : Nat} {parent : Option Nat} {kind : String} {start stop : Position}
  {named : Bool} {field : Option String} {child : Node} {below : List (Option String × Node)}

theorem Stores.get? (h : t.Stores id parent (.mk kind start stop named below)) :
    t.get? id = some ⟨kind, start, stop, named, parent, number (id + 1) below⟩ := by
  obtain ⟨before, after, he, rfl⟩ := h
  rw [Tree.get?, ← Array.getElem?_toList, he]
  simp [Node.entries]

theorem Stores.children (h : t.Stores id parent (.mk kind start stop named below)) :
    t.children id = number (id + 1) below := by
  simp [Tree.children, h.get?]

theorem Stores.parent? (h : t.Stores id parent (.mk kind start stop named below)) :
    t.parent? id = parent := by
  simp [Tree.parent?, h.get?]

theorem Stores.all (h : t.Stores id parent (.mk kind start stop named below)) :
    t.StoresAll (id + 1) id below := by
  obtain ⟨before, after, he, rfl⟩ := h
  exact ⟨before ++ [_], after, by simpa [Node.entries] using he, by simp⟩

theorem StoresAll.head (h : t.StoresAll next p ((field, child) :: below)) :
    t.Stores next (some p) child := by
  obtain ⟨before, after, he, rfl⟩ := h
  exact ⟨before, _, by simpa [entriesAll] using he, rfl⟩

theorem StoresAll.tail (h : t.StoresAll next p ((field, child) :: below)) :
    t.StoresAll (next + child.size) p below := by
  obtain ⟨before, after, he, rfl⟩ := h
  exact ⟨before ++ child.entries _ (some p), after, by simpa [entriesAll] using he, by simp⟩

theorem StoresAll.of_getElem? {index : Nat} (h : t.StoresAll next p below)
    {slot : Option String × Nat} (hs : (number next below)[index]? = some slot) :
    ∃ child, below[index]? = some (slot.1, child) ∧ t.Stores slot.2 (some p) child := by
  induction below generalizing next index with
  | nil => simp [number] at hs
  | cons first rest ih =>
    obtain ⟨field, child⟩ := first
    cases index with
    | zero =>
      obtain rfl : (field, next) = slot := by simpa [number] using hs
      exact ⟨child, rfl, h.head⟩
    | succ index => exact ih h.tail (by simpa [number] using hs)

theorem Stores.of_child? {index child : Nat} {node : Node} (h : t.Stores id parent node)
    (hc : t.child? id index = some child) :
    ∃ slot, node.children[index]? = some slot ∧ t.Stores child (some id) slot.2 := by
  obtain ⟨kind, start, stop, named, below⟩ := node
  obtain ⟨slot, hs, rfl⟩ := Option.map_eq_some_iff.1 hc
  rw [h.children] at hs
  obtain ⟨child, mem, stored⟩ := h.all.of_getElem? hs
  exact ⟨(slot.1, child), mem, stored⟩

theorem StoresAll.of_mem_number (h : t.StoresAll next p below) {slot : Option String × Nat}
    (hs : slot ∈ number next below) : ∃ child, t.Stores slot.2 (some p) child := by
  obtain ⟨index, hi⟩ := List.mem_iff_getElem?.1 hs
  obtain ⟨child, _, stored⟩ := h.of_getElem? hi
  exact ⟨child, stored⟩

end

mutual
theorem Stores.exists_of_lt {id : Nat} {parent : Option Nat} :
    ∀ {node : Node}, t.Stores id parent node → ∀ m, id ≤ m → m < id + node.size →
      ∃ p n, t.Stores m p n
  | .mk kind start stop named below, h, m, low, high => by
    rcases Nat.eq_or_lt_of_le low with rfl | low
    · exact ⟨parent, _, h⟩
    · rw [Node.size] at high
      exact h.all.exists_of_lt m (by omega) (by omega)

theorem StoresAll.exists_of_lt {next parent : Nat} :
    ∀ {below : List (Option String × Node)}, t.StoresAll next parent below →
      ∀ m, next ≤ m → m < next + sizeAll below → ∃ p n, t.Stores m p n
  | [], h, m, low, high => by
    simp only [sizeAll] at high
    omega
  | (field, child) :: rest, h, m, low, high => by
    simp only [sizeAll] at high
    by_cases inside : m < next + child.size
    · exact h.head.exists_of_lt m low inside
    · exact h.tail.exists_of_lt m (by omega) (by omega)
end

theorem exists_stores {root : Node} {id : Nat} (h : id < (ofNode root).size) :
    ∃ parent node, (ofNode root).Stores id parent node :=
  (stores_root root).exists_of_lt id (Nat.zero_le _) (by simpa using h)

def describe (t : Tree) (id : Nat) : Node :=
  match t.get? id with
  | none => default
  | some e =>
    .mk e.kind e.start e.stop e.named <| (List.range (t.childCount id)).map fun index =>
      (t.childField? id index,
        match _h : t.child? id index with
        | none => default
        | some child => describe t child)
termination_by t.size - id
decreasing_by
  have := t.lt_of_child? _h
  omega

theorem describe_of_get? {id : Nat} {e : Entry} (h : t.get? id = some e) :
    t.describe id = .mk e.kind e.start e.stop e.named
      ((t.children id).map fun slot => (slot.1, t.describe slot.2)) := by
  let node (slot : Option (Option String × Nat)) : Option String × Node :=
    (slot.bind (·.1), (slot.map fun s => t.describe s.2).getD default)
  have slots : (t.children id).map (fun slot => (slot.1, t.describe slot.2)) =
      (List.range (t.childCount id)).map fun index => node (t.children id)[index]? := by
    change _ = (List.range _).map (node ∘ ((t.children id)[·]?))
    rw [← List.map_map, map_range_children]
    simp [node]
  rw [describe, h, slots]
  refine congrArg _ (List.map_congr_left fun index _ => ?_)
  split
  · next missing =>
    have : (t.children id)[index]? = none := Option.map_eq_none_iff.1 missing
    simp [node, childField?, this]
  · next child found =>
    obtain ⟨slot, hs, rfl⟩ := Option.map_eq_some_iff.1 found
    simp [node, childField?, hs]

mutual
theorem Stores.describe_eq {id : Nat} {parent : Option Nat} :
    ∀ {node : Node}, t.Stores id parent node → t.describe id = node
  | .mk kind start stop named below, h => by
    rw [describe_of_get? h.get?, h.children, h.all.map_describe]

theorem StoresAll.map_describe {next parent : Nat} :
    ∀ {below : List (Option String × Node)}, t.StoresAll next parent below →
      (number next below).map (fun slot => (slot.1, t.describe slot.2)) = below
  | [], _ => rfl
  | (field, child) :: rest, h => by
    rw [number, List.map_cons, h.head.describe_eq, h.tail.map_describe]
end

/-- The ids of a node and of all that is below it, from top to bottom. -/
def preorder (t : Tree) (id : Nat) : List Nat :=
  id :: (t.children id).attach.flatMap fun slot => preorder t slot.1.2
termination_by t.size - id
decreasing_by
  have := t.lt_of_mem_children slot.2
  omega

theorem preorder_eq (id : Nat) :
    t.preorder id = id :: (t.children id).flatMap fun slot => t.preorder slot.2 := by
  rw [preorder]
  simp only [List.flatMap_subtype, List.unattach_attach]

mutual
theorem Stores.preorder_eq_range {id : Nat} {parent : Option Nat} :
    ∀ {node : Node}, t.Stores id parent node → t.preorder id = List.range' id node.size
  | .mk kind start stop named below, h => by
    rw [preorder_eq, h.children, h.all.flatMap_preorder, Node.size, List.range'_succ]

theorem StoresAll.flatMap_preorder {next parent : Nat} :
    ∀ {below : List (Option String × Node)}, t.StoresAll next parent below →
      (number next below).flatMap (fun slot => t.preorder slot.2) =
        List.range' next (sizeAll below)
  | [], _ => rfl
  | (field, child) :: rest, h => by
    rw [number, List.flatMap_cons, h.head.preorder_eq_range, h.tail.flatMap_preorder, sizeAll,
      List.range'_append_1]
end

theorem mem_preorder_iff {id m : Nat} :
    m ∈ t.preorder id ↔ ∃ path, t.descendant? id path = some m := by
  -- ids have no structure to go down by; the children listed below an id have
  induction id using preorder.induct t with
  | case1 id ih =>
    rw [preorder_eq, List.mem_cons, List.mem_flatMap]
    constructor
    · rintro (rfl | ⟨slot, hs, hm⟩)
      · exact ⟨[], rfl⟩
      · obtain ⟨path, hp⟩ := (ih ⟨slot, hs⟩).1 hm
        obtain ⟨index, hi⟩ := List.mem_iff_getElem?.1 hs
        exact ⟨index :: path, by simpa [descendant?, child?, hi] using hp⟩
    · rintro ⟨path, hp⟩
      cases path with
      | nil => exact .inl (by simpa [descendant?] using hp.symm)
      | cons index path =>
        obtain ⟨child, hc, hp⟩ := Option.bind_eq_some_iff.1 hp
        obtain ⟨slot, hs, rfl⟩ := Option.map_eq_some_iff.1 hc
        have mem := List.mem_of_getElem? hs
        exact .inr ⟨slot, mem, (ih ⟨slot, mem⟩).2 ⟨path, hp⟩⟩

theorem stores_slot {root : Node} {id : Nat} {slot : Option String × Nat}
    (hs : slot ∈ (ofNode root).children id) :
    ∃ child, (ofNode root).Stores slot.2 (some id) child := by
  have lt := (ofNode root).lt_of_mem_children hs
  obtain ⟨parent, ⟨kind, start, stop, named, below⟩, h⟩ := exists_stores (Nat.lt_trans lt.1 lt.2)
  rw [h.children] at hs
  exact h.all.of_mem_number hs

theorem parent?_of_child? {root : Node} {id index child : Nat}
    (h : (ofNode root).child? id index = some child) : (ofNode root).parent? child = some id := by
  obtain ⟨slot, hs, rfl⟩ := Option.map_eq_some_iff.1 h
  obtain ⟨⟨kind, start, stop, named, below⟩, stored⟩ := stores_slot (List.mem_of_getElem? hs)
  exact stored.parent?

@[simp] theorem parent?_root (root : Node) : (ofNode root).parent? 0 = none := by
  obtain ⟨kind, start, stop, named, below⟩ := root
  exact (stores_root _).parent?

theorem pairwise_number (next : Nat) (below : List (Option String × Node)) :
    (number next below).Pairwise (·.2 < ·.2) := by
  induction below generalizing next with
  | nil => exact .nil
  | cons first rest ih =>
    refine .cons (fun slot hs => ?_) (ih _)
    have := Node.mem_number hs
    have := first.2.size_pos
    simp only
    omega

theorem index_unique {root : Node} {id i j child : Nat}
    (hi : (ofNode root).child? id i = some child) (hj : (ofNode root).child? id j = some child) :
    i = j := by
  have lt := (ofNode root).lt_of_child? hi
  obtain ⟨parent, ⟨kind, start, stop, named, below⟩, h⟩ := exists_stores (Nat.lt_trans lt.1 lt.2)
  have increasing := pairwise_number (id + 1) below
  rw [← h.children] at increasing
  obtain ⟨a, ha, rfl⟩ := Option.map_eq_some_iff.1 hi
  obtain ⟨b, hb, same⟩ := Option.map_eq_some_iff.1 hj
  obtain ⟨hi', rfl⟩ := List.getElem?_eq_some_iff.1 ha
  obtain ⟨hj', rfl⟩ := List.getElem?_eq_some_iff.1 hb
  rw [List.pairwise_iff_getElem] at increasing
  rcases Nat.lt_trichotomy i j with lt | eq | gt
  · have := increasing i j hi' hj' lt
    omega
  · exact eq
  · have := increasing j i hj' hi' gt
    omega

@[simp] theorem descendant?_append (id : Nat) (p q : List Nat) :
    t.descendant? id (p ++ q) = (t.descendant? id p).bind (t.descendant? · q) := by
  induction p generalizing id with
  | nil => rfl
  | cons index p ih =>
    simp only [List.cons_append, descendant?]
    cases t.child? id index with
    | none => rfl
    | some child => exact ih child

theorem descendant?_trans {id n m : Nat} {p q : List Nat} (reach : t.descendant? id p = some n)
    (below : t.descendant? n q = some m) : t.descendant? id (p ++ q) = some m := by
  rw [descendant?_append, reach]
  exact below

theorem exists_child?_of_mem_preorder {id m : Nat} (h : m ∈ t.preorder id) (ne : m ≠ id) :
    ∃ parent index, t.child? parent index = some m := by
  obtain ⟨path, hp⟩ := mem_preorder_iff.1 h
  rcases List.eq_nil_or_concat path with rfl | ⟨front, index, rfl⟩
  · exact absurd (Option.some.inj hp).symm ne
  · rw [List.concat_eq_append, descendant?_append] at hp
    obtain ⟨parent, _, hc⟩ := Option.bind_eq_some_iff.1 hp
    exact ⟨parent, index, by simpa [descendant?] using hc⟩

/-- A tree holds a description: nothing is lost, ids count from top to bottom, links agree. -/
structure Holds (t : Tree) (root : Node) : Prop where
  describe_root : t.describe 0 = root
  size_eq : t.size = root.size
  preorder_eq : ∀ id < t.size, t.preorder id = List.range' id (t.describe id).size
  /-- The nodes below a node are an interval of ids, as long as its description. -/
  descendant_iff : ∀ id < t.size, ∀ m,
    (∃ path, t.descendant? id path = some m) ↔ id ≤ m ∧ m < id + (t.describe id).size
  parent_child : ∀ id index child, t.child? id index = some child → t.parent? child = some id
  child_once : ∀ id < t.size, id ≠ 0 → ∃! place : Nat × Nat, t.child? place.1 place.2 = some id
  parent_root : t.parent? 0 = none

theorem holds_ofNode (root : Node) : (ofNode root).Holds root := by
  have ordered : ∀ id < (ofNode root).size,
      (ofNode root).preorder id = List.range' id ((ofNode root).describe id).size := by
    intro id h
    obtain ⟨parent, node, stored⟩ := exists_stores h
    rw [stored.describe_eq, stored.preorder_eq_range]
  have root_eq := (stores_root root).describe_eq
  refine ⟨root_eq, size_ofNode root, ordered, ?_, ?_, ?_, parent?_root root⟩
  · intro id h m
    rw [← mem_preorder_iff, ordered id h, List.mem_range'_1]
  · intro id index child h
    exact parent?_of_child? h
  · intro id h ne
    have mem : id ∈ (ofNode root).preorder 0 := by
      rw [ordered 0 (by omega), root_eq, List.mem_range'_1]
      simpa using h
    obtain ⟨parent, index, hc⟩ := exists_child?_of_mem_preorder mem ne
    refine ⟨(parent, index), hc, ?_⟩
    rintro ⟨parent', index'⟩ hc'
    have same : parent' = parent :=
      Option.some.inj ((parent?_of_child? hc').symm.trans (parent?_of_child? hc))
    subst same
    exact congrArg (parent', ·) (index_unique hc' hc)

end TreeListing.Tree

namespace TreeListing.Node

mutual
def fields : Node → List String
  | mk _ _ _ _ children => fieldsAll children

def fieldsAll : List (Option String × Node) → List String
  | [] => []
  | (field, child) :: rest => field.toList ++ child.fields ++ fieldsAll rest
end

theorem mem_fieldsAll_of_mem_number {next : Nat} {below : List (Option String × Node)}
    {slot : Option String × Nat} (hs : slot ∈ number next below) {name : String}
    (hn : slot.1 = some name) : name ∈ fieldsAll below := by
  induction below generalizing next with
  | nil => simp [number] at hs
  | cons first rest ih =>
    obtain ⟨field, child⟩ := first
    rw [fieldsAll, List.mem_append, List.mem_append]
    rcases List.mem_cons.1 hs with rfl | hs
    · exact .inl (.inl (by simpa using hn))
    · exact .inr (ih hs)

mutual
theorem mem_fields_of_mem_entries (id : Nat) (parent : Option Nat) :
    ∀ (node : Node), ∀ e ∈ node.entries id parent, ∀ slot ∈ e.children, ∀ name,
      slot.1 = some name → name ∈ node.fields
  | mk kind start stop named below, e, he, slot, hs, name, hn => by
    rw [fields]
    rw [entries] at he
    rcases List.mem_cons.1 he with rfl | he
    · exact mem_fieldsAll_of_mem_number hs hn
    · exact mem_fieldsAll_of_mem_entriesAll _ _ below e he slot hs name hn

theorem mem_fieldsAll_of_mem_entriesAll (next parent : Nat) :
    ∀ (below : List (Option String × Node)), ∀ e ∈ entriesAll next parent below,
      ∀ slot ∈ e.children, ∀ name, slot.1 = some name → name ∈ fieldsAll below
  | [], e, he, _, _, _, _ => by simp [entriesAll] at he
  | (field, child) :: rest, e, he, slot, hs, name, hn => by
    rw [fieldsAll, List.mem_append, List.mem_append]
    rw [entriesAll] at he
    rcases List.mem_append.1 he with he | he
    · exact .inl (.inr (mem_fields_of_mem_entries _ _ child e he slot hs name hn))
    · exact .inr (mem_fieldsAll_of_mem_entriesAll _ _ rest e he slot hs name hn)
end

end TreeListing.Node

namespace TreeListing.Tree

theorem mem_fields_of_mem_children {root : Node} {id : Nat} {slot : Option String × Nat}
    (hs : slot ∈ (ofNode root).children id) {name : String} (hn : slot.1 = some name) :
    name ∈ root.fields := by
  unfold Tree.children at hs
  cases he : (ofNode root).get? id with
  | none => simp [he] at hs
  | some e =>
    have hs : slot ∈ e.children := by simpa [he] using hs
    rw [Tree.get?, entries_ofNode] at he
    have mem : e ∈ root.entries 0 none := List.mem_of_getElem? (by simpa using he)
    exact Node.mem_fields_of_mem_entries 0 none root e mem slot hs name hn

theorem mem_fields_of_field? {root : Node} {id : Nat} {name : String}
    (h : (ofNode root).field? id = some name) : name ∈ root.fields := by
  obtain ⟨parent, _, h⟩ := Option.bind_eq_some_iff.1 h
  obtain ⟨index, _, h⟩ := Option.bind_eq_some_iff.1 h
  obtain ⟨slot, hs, hn⟩ := Option.bind_eq_some_iff.1 h
  exact mem_fields_of_mem_children (List.mem_of_getElem? hs) hn

end TreeListing.Tree
