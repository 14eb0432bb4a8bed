import Mathlib.Data.List.Sort
import TreeListing.Proofs.Subtree

/-!
# What each option changes

The record of a node is made of the node, the way to it from the start of the listing, and the
options. Since the ids of a listing increase, two listings can be compared id by id: leaving out
nodes without a name takes their records away, with those of all that is below them, annotating
fields lengthens leads at the end, and an indentation lengthens them in front. None of the three
has a say in what another one does.
-/

namespace TreeListing.Tree

variable {root : Node} {o o' : Options} {start : Nat}

theorem records_eq_nil {t : Tree} (outside : t.size ≤ start) : t.records o start = [] := by
  rw [records_eq, visit_eq, t.get?_eq_none_iff.2 outside]

theorem exists_path_of_mem_records {r : Record} (hr : r ∈ (ofNode root).records o start) :
    ∃ path e, (ofNode root).descendant? start path = some r.id ∧
      (ofNode root).get? r.id = some e ∧
      r = e.record r.id (o.indent ++ String.ofList (Indent.levels path.length))
        (o.shownField ((ofNode root).field? r.id)) := by
  rcases Nat.lt_or_ge start (ofNode root).size with inside | outside
  · obtain ⟨e, entry, _⟩ := exists_get?_of_mem_records inside hr
    rw [records_eq_map _ o inside] at hr
    obtain ⟨f, hf, rfl⟩ := List.mem_map.1 hr
    obtain ⟨path, reach, depth, _⟩ := exists_path_of_mem_frames hf
    have level : f.depth = path.length := depth.trans (Nat.zero_add _)
    have entry : (ofNode root).get? f.id = some e := entry
    refine ⟨path, e, reach, entry, ?_⟩
    rw [Frame.record, Frame.indent, entry, level, field_of_mem_listed hf]
    rfl
  · rw [records_eq_nil outside] at hr
    exact absurd hr List.not_mem_nil

/-- The record that a node has under some options, changed, is the one it has under others. -/
def Changes (t : Tree) (o o' : Options) (change : Record → Record) : Prop :=
  ∀ (e : Entry) (id level : Nat),
    e.record id (o'.indent ++ String.ofList (Indent.levels level)) (o'.shownField (t.field? id)) =
      change (e.record id (o.indent ++ String.ofList (Indent.levels level))
        (o.shownField (t.field? id)))

theorem Changes.eq_of_id_eq {change : Record → Record} (h : (ofNode root).Changes o o' change)
    {r r' : Record} (hr : r ∈ (ofNode root).records o start)
    (hr' : r' ∈ (ofNode root).records o' start) (same : r'.id = r.id) : r' = change r := by
  obtain ⟨path, e, reach, entry, eq⟩ := exists_path_of_mem_records hr
  obtain ⟨path', e', reach', entry', eq'⟩ := exists_path_of_mem_records hr'
  rw [same] at reach' entry' eq'
  obtain rfl : path = path' := path_unique reach reach'
  obtain rfl : e = e' := Option.some.inj (entry.symm.trans entry')
  rw [eq', h, ← eq]

theorem eq_map_of_ids_eq {change : Record → Record} :
    ∀ {records records' : List Record}, records'.map (·.id) = records.map (·.id) →
      (∀ r ∈ records, ∀ r' ∈ records', r'.id = r.id → r' = change r) →
      records' = records.map change
  | [], [], _, _ => rfl
  | r :: records, r' :: records', ids, each => by
    rw [List.map_cons, List.map_cons, List.cons.injEq] at ids
    rw [List.map_cons, each r List.mem_cons_self r' List.mem_cons_self ids.1,
      eq_map_of_ids_eq ids.2 fun s hs s' hs' =>
        each s (List.mem_cons_of_mem r hs) s' (List.mem_cons_of_mem r' hs')]

/-- A listing that shows some of the nodes that another one shows, with changed records, is the
other one without the rest, changed throughout. -/
theorem Changes.records_eq {change : Record → Record} (h : (ofNode root).Changes o o' change)
    (keep : Nat → Bool) (shows : ∀ m, (ofNode root).Shows o' start m ↔
      (ofNode root).Shows o start m ∧ keep m = true) :
    (ofNode root).records o' start =
      (((ofNode root).records o start).filter (keep ·.id)).map change := by
  rcases Nat.lt_or_ge start (ofNode root).size with inside | outside
  · refine eq_map_of_ids_eq ?_ fun r hr r' hr' same =>
      h.eq_of_id_eq (List.mem_of_mem_filter hr) hr' same
    have increasing := pairwise_ids_records (o := o) inside
    refine (pairwise_ids_records inside).eq_of_mem_iff
      (increasing.sublist (List.filter_sublist.map _)) fun m => ?_
    have kept : (((ofNode root).records o start).filter (keep ·.id)).map (·.id) =
        (((ofNode root).records o start).map (·.id)).filter keep := List.filter_map.symm
    rw [kept, List.mem_filter, mem_ids_records_iff inside, mem_ids_records_iff inside, shows]
  · rw [records_eq_nil outside, records_eq_nil outside]
    rfl

theorem Changes.records_eq_map {change : Record → Record} (h : (ofNode root).Changes o o' change)
    (same : o'.hideUnnamed = o.hideUnnamed) :
    (ofNode root).records o' start = ((ofNode root).records o start).map change := by
  have shows : ∀ m, (ofNode root).Shows o' start m ↔
      (ofNode root).Shows o start m ∧ true = true := by
    intro m
    simp only [Shows, same, and_true]
  rw [h.records_eq (fun _ => true) shows, List.filter_true]

/-- A node without a name stands below the start, and above a node or in its place. -/
def Hidden (t : Tree) (start m : Nat) : Prop :=
  ∃ x ∈ t.preorder start, x ≠ start ∧ t.isNamed x = false ∧ m ∈ t.preorder x

instance (t : Tree) (start m : Nat) : Decidable (t.Hidden start m) :=
  List.decidableBEx (fun x => x ≠ start ∧ t.isNamed x = false ∧ m ∈ t.preorder x)
    (t.preorder start)

theorem exists_split_of_mem_passed {t : Tree} {id m x : Nat} {path : List Nat}
    (reach : t.descendant? id path = some m) (hx : x ∈ t.passed id path) :
    ∃ p q, p ≠ [] ∧ t.descendant? id p = some x ∧ t.descendant? x q = some m := by
  induction path generalizing id with
  | nil => exact absurd hx List.not_mem_nil
  | cons index path ih =>
    obtain ⟨child, hc, reach⟩ := Option.bind_eq_some_iff.1 reach
    rw [passed_cons t hc, List.mem_cons] at hx
    rcases hx with rfl | hx
    · exact ⟨[index], path, List.cons_ne_nil _ _, by rw [descendant?, hc]; rfl, reach⟩
    · obtain ⟨p, q, _, reach_x, below⟩ := ih reach hx
      exact ⟨index :: p, q, List.cons_ne_nil _ _, by rwa [descendant?, hc], below⟩

/-- The nodes that are passed on the way to a node are those below its beginning which the node is
below, or which it is. -/
theorem mem_passed_iff {m x : Nat} {path : List Nat}
    (reach : (ofNode root).descendant? start path = some m) :
    x ∈ (ofNode root).passed start path ↔
      x ∈ (ofNode root).preorder start ∧ x ≠ start ∧ m ∈ (ofNode root).preorder x := by
  constructor
  · intro hx
    obtain ⟨p, q, steps, reach_x, below⟩ := exists_split_of_mem_passed reach hx
    refine ⟨mem_preorder_iff.2 ⟨p, reach_x⟩, ?_, mem_preorder_iff.2 ⟨q, below⟩⟩
    rintro rfl
    have := List.length_pos_iff.2 steps
    have := add_length_le_of_descendant? reach_x
    omega
  · rintro ⟨hx, ne, hm⟩
    obtain ⟨p, reach_x⟩ := mem_preorder_iff.1 hx
    obtain ⟨q, below⟩ := mem_preorder_iff.1 hm
    rw [path_unique reach (descendant?_trans reach_x below), passed_append reach_x]
    rcases List.eq_nil_or_concat' p with rfl | ⟨front, index, rfl⟩
    · exact absurd (Option.some.inj reach_x).symm ne
    · obtain ⟨parent, reach_parent, child⟩ := descendant?_concat.1 reach_x
      rw [passed_append reach_parent, passed_cons _ child]
      simp

theorem shows_hideUnnamed_iff {m : Nat} :
    (ofNode root).Shows { o with hideUnnamed := true } start m ↔
      (ofNode root).Shows { o with hideUnnamed := false } start m ∧
        ¬ (ofNode root).Hidden start m := by
  constructor
  · rintro ⟨path, reach, hides⟩
    refine ⟨⟨path, reach, .inl rfl⟩, ?_⟩
    rintro ⟨x, hx, ne, anonymous, hm⟩
    have named := hides.resolve_left Bool.noConfusion x ((mem_passed_iff reach).2 ⟨hx, ne, hm⟩)
    rw [named] at anonymous
    exact Bool.noConfusion anonymous
  · rintro ⟨⟨path, reach, _⟩, visible⟩
    refine ⟨path, reach, .inr ?_⟩
    intro x hx
    obtain ⟨hx, ne, hm⟩ := (mem_passed_iff reach).1 hx
    by_contra anonymous
    exact visible ⟨x, hx, ne, Bool.eq_false_iff.2 anonymous, hm⟩

def Occupies (t : Tree) (id : Nat) (name : String) : Prop :=
  ∃ parent index, t.child? parent index = some id ∧ t.childField? parent index = some name

theorem field?_eq_some_iff {id : Nat} {name : String} :
    (ofNode root).field? id = some name ↔ (ofNode root).Occupies id name := by
  constructor
  · intro h
    obtain ⟨parent, hp, h⟩ := Option.bind_eq_some_iff.1 h
    obtain ⟨index, hi, h⟩ := Option.bind_eq_some_iff.1 h
    rw [indexInParent?, hp, Option.bind_some, List.findIdx?_eq_some_iff_getElem] at hi
    obtain ⟨inside, same, _⟩ := hi
    refine ⟨parent, index, ?_, h⟩
    rw [child?, List.getElem?_eq_getElem inside, Option.map_some, of_decide_eq_true same]
  · rintro ⟨parent, index, child, h⟩
    rw [field?_of_child? child, h]

def annotated (t : Tree) (r : Record) : Record :=
  { r with
    lead := match t.field? r.id with
      | none => r.lead
      | some name => r.lead ++ name ++ ": " }

def shifted (indent : String) (r : Record) : Record := { r with lead := indent ++ r.lead }

theorem changes_showFields (t : Tree) (o : Options) :
    t.Changes { o with showFields := false } { o with showFields := true } t.annotated := by
  intro e id level
  simp only [Entry.record, annotated, Options.shownField]
  cases t.field? id <;> rfl

theorem changes_withIndent (t : Tree) (o : Options) (indent : String) :
    t.Changes (o.withIndent "") (o.withIndent indent) (shifted indent) := by
  intro e id level
  have lead : ∀ field, Lead.make (indent ++ String.ofList (Indent.levels level)) field =
      indent ++ Lead.make ("" ++ String.ofList (Indent.levels level)) field := by
    intro field
    cases field <;> simp only [Lead.make, String.append_assoc, String.empty_append]
  exact congrArg (Record.mk id e.start e.stop · e.kind _) (lead _)

/-- The choices do not interfere. Leaving out nodes without a name leaves the other records as they
are, annotating fields adds to the records of the nodes that are in a field, and the indentation
stands in front of all leads, whatever the other options are. -/
theorem records_options_independent (root : Node) (o : Options) (start : Nat) :
    let t := ofNode root
    t.records { o with hideUnnamed := true } start =
      (t.records { o with hideUnnamed := false } start).filter
        (fun r => ¬ t.Hidden start r.id) ∧
    t.records { o with showFields := true } start =
      (t.records { o with showFields := false } start).map t.annotated ∧
    (∀ id name, t.field? id = some name ↔ t.Occupies id name) ∧
    ∀ indent, t.records (o.withIndent indent) start =
      (t.records (o.withIndent "") start).map (shifted indent) := by
  intro t
  have unchanged : t.Changes { o with hideUnnamed := false } { o with hideUnnamed := true } id :=
    fun e id level => rfl
  refine ⟨?_, (changes_showFields t o).records_eq_map rfl, fun id name => field?_eq_some_iff,
    fun indent => (changes_withIndent t o indent).records_eq_map rfl⟩
  have shows : ∀ m, t.Shows { o with hideUnnamed := true } start m ↔
      t.Shows { o with hideUnnamed := false } start m ∧ decide (¬ t.Hidden start m) = true := by
    intro m
    rw [decide_eq_true_iff]
    exact shows_hideUnnamed_iff
  have hides := unchanged.records_eq _ shows
  rwa [List.map_id] at hides

end TreeListing.Tree
