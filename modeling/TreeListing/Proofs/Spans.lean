import TreeListing.Proofs.Outline
import TreeListing.Proofs.Subtree

/-!
# The innermost node at a position

When the spans of a tree are nested as its nodes are, the nodes at a position lie on one way down
from the root: two siblings share no position, so that the way is never left for a branch beside
it. The nodes of a listing that contain a position are therefore the start and nodes further and
further below it, and the deepest record among them is the record of the last one.
-/

namespace TreeListing

/-- Each child's span lies within its parent's, and ends before or where the next one starts. -/
inductive Node.WellNested : Node → Prop
  | mk {kind : String} {start stop : Position} {named : Bool}
      {below : List (Option String × Node)}
      (inside : ∀ slot ∈ below, start ≤ slot.2.start ∧ slot.2.stop ≤ stop)
      (apart : below.Pairwise fun a b => a.2.stop ≤ b.2.start)
      (each : ∀ slot ∈ below, slot.2.WellNested) : WellNested (.mk kind start stop named below)

theorem Node.WellNested.childless (kind : String) (start stop : Position) (named : Bool) :
    (Node.mk kind start stop named []).WellNested :=
  .mk (by simp) .nil (by simp)

namespace Outline

/-- Going through candidates, the deepest of them is kept. -/
theorem exists_foldl_deeper (first : Nat × Nat) (rest : List (Nat × Nat)) :
    ∃ best ∈ first :: rest,
      rest.foldl (fun best c => deeper best c.1 c.2) (some first) = some best ∧
      ∀ c ∈ first :: rest, c.1 ≤ best.1 := by
  induction rest generalizing first with
  | nil => exact ⟨first, by simp, rfl, by simp⟩
  | cons c rest ih =>
    by_cases h : first.1 ≤ c.1
    · obtain ⟨best, mem, eq, most⟩ := ih c
      refine ⟨best, List.mem_cons_of_mem _ mem, ?_, ?_⟩
      · rw [List.foldl_cons, deeper, if_pos h]
        exact eq
      · rw [List.forall_mem_cons]
        exact ⟨Nat.le_trans h (most c List.mem_cons_self), most⟩
    · obtain ⟨best, mem, eq, most⟩ := ih first
      rw [List.forall_mem_cons] at most
      refine ⟨best, ?_, ?_, ?_⟩
      · rw [List.mem_cons] at mem ⊢
        exact mem.imp_right (List.mem_cons_of_mem c)
      · rw [List.foldl_cons, deeper, if_neg h]
        exact eq
      · rw [List.forall_mem_cons, List.forall_mem_cons]
        exact ⟨most.1, Nat.le_trans (Nat.le_of_lt (Nat.not_le.1 h)) most.1, most.2⟩

/-- The record found at a position is one that contains it, and no deeper one does; none is found
only if none contains it. -/
theorem recordAt?_cases (records : List Record) (p : Position) :
    (recordAt? records p = none ∧ ∀ r ∈ records, ¬ r.contains p = true) ∨
    ∃ r ∈ records, recordAt? records p = some r ∧ r.contains p = true ∧
      ∀ s ∈ records, s.contains p = true →
        s.depthBelow (base records) ≤ r.depthBelow (base records) := by
  -- the fold sees of a record its level and its index only, so the records are turned into those
  let candidate (c : Record × Nat) : Nat × Nat := (c.1.depthBelow (base records), c.2)
  have index : indexAt? records p =
      (((records.zipIdx.filter (·.1.contains p)).map candidate).foldl
        (fun best c => deeper best c.1 c.2) none).map (·.2) := by
    rw [List.foldl_map]
    rfl
  have mem_iff : ∀ r i, (r, i) ∈ records.zipIdx.filter (·.1.contains p) ↔
      records[i]? = some r ∧ r.contains p = true := by
    intro r i
    rw [List.mem_filter, List.mem_zipIdx_iff_getElem?]
  cases containing : records.zipIdx.filter (·.1.contains p) with
  | nil =>
    rw [containing] at index mem_iff
    refine .inl ⟨by rw [recordAt?, index]; rfl, fun r hr contains => ?_⟩
    obtain ⟨i, hi⟩ := List.mem_iff_getElem?.1 hr
    exact absurd ((mem_iff r i).2 ⟨hi, contains⟩) List.not_mem_nil
  | cons first rest =>
    rw [containing] at index mem_iff
    obtain ⟨best, mem, found, most⟩ :=
      exists_foldl_deeper (candidate first) (rest.map candidate)
    rw [← List.map_cons] at mem most
    obtain ⟨⟨r, i⟩, among, rfl⟩ := List.mem_map.1 mem
    obtain ⟨hi, contains⟩ := (mem_iff r i).1 among
    refine .inr ⟨r, List.mem_of_getElem? hi, ?_, contains, fun s hs contains' => ?_⟩
    · have index : indexAt? records p = some i := index.trans (congrArg _ found)
      rw [recordAt?, index]
      exact hi
    · obtain ⟨j, hj⟩ := List.mem_iff_getElem?.1 hs
      exact most _ (List.mem_map_of_mem ((mem_iff s j).2 ⟨hj, contains'⟩))

end Outline

namespace Tree

/-- The span of a node contains a position; its end does not count. -/
def Covers (t : Tree) (id : Nat) (p : Position) : Prop :=
  ∃ e, t.get? id = some e ∧ e.start ≤ p ∧ p < e.stop

section

variable {t : Tree} {id : Nat} {p : Position}

theorem Stores.covers_iff {parent : Option Nat} {node : Node} (h : t.Stores id parent node) :
    t.Covers id p ↔ node.start ≤ p ∧ p < node.stop := by
  obtain ⟨kind, start, stop, named, below⟩ := node
  rw [Covers, h.get?]
  constructor
  · rintro ⟨e, entry, covers⟩
    rw [← Option.some.inj entry] at covers
    exact covers
  · exact fun covers => ⟨_, rfl, covers⟩

/-- A node and all that is below it is stored, with nested spans. -/
def Nested (t : Tree) (id : Nat) : Prop :=
  ∃ parent node, t.Stores id parent node ∧ node.WellNested

theorem Nested.child {index child : Nat} (h : t.Nested id)
    (hc : t.child? id index = some child) : t.Nested child := by
  obtain ⟨parent, node, stored, ⟨inside, apart, each⟩⟩ := h
  obtain ⟨slot, mem, stored_child⟩ := stored.of_child? hc
  exact ⟨some id, slot.2, stored_child, each slot (List.mem_of_getElem? mem)⟩

theorem Nested.covers_of_child? {index child : Nat} (h : t.Nested id)
    (hc : t.child? id index = some child) (covers : t.Covers child p) : t.Covers id p := by
  obtain ⟨parent, node, stored, ⟨inside, apart, each⟩⟩ := h
  obtain ⟨slot, mem, stored_child⟩ := stored.of_child? hc
  obtain ⟨start_le, le_stop⟩ := inside slot (List.mem_of_getElem? mem)
  obtain ⟨from_start, to_stop⟩ := stored_child.covers_iff.1 covers
  exact stored.covers_iff.2
    ⟨Position.le_trans start_le from_start, Position.lt_of_lt_of_le to_stop le_stop⟩

theorem Nested.not_covers_later {i j a b : Nat} (h : t.Nested id) (lt : i < j)
    (ha : t.child? id i = some a) (hb : t.child? id j = some b) (covers : t.Covers a p) :
    ¬ t.Covers b p := by
  intro covers'
  obtain ⟨parent, node, stored, ⟨inside, apart, each⟩⟩ := h
  obtain ⟨slot, mem, stored_a⟩ := stored.of_child? ha
  obtain ⟨slot', mem', stored_b⟩ := stored.of_child? hb
  obtain ⟨hi, rfl⟩ := List.getElem?_eq_some_iff.1 mem
  obtain ⟨hj, rfl⟩ := List.getElem?_eq_some_iff.1 mem'
  have stop_le_start := List.pairwise_iff_getElem.1 apart i j hi hj lt
  have lt_stop := (stored_a.covers_iff.1 covers).2
  have start_le := (stored_b.covers_iff.1 covers').1
  have := Position.lt_of_lt_of_le lt_stop (Position.le_trans stop_le_start start_le)
  exact Position.lt_irrefl p this

theorem Nested.of_descendant? {m : Nat} {path : List Nat} (h : t.Nested id)
    (reach : t.descendant? id path = some m) : t.Nested m := by
  induction path generalizing id with
  | nil => exact Option.some.inj reach ▸ h
  | cons index path ih =>
    obtain ⟨child, hc, reach⟩ := Option.bind_eq_some_iff.1 reach
    exact ih (h.child hc) reach

theorem Nested.covers_of_descendant? {m : Nat} {path : List Nat} (h : t.Nested id)
    (reach : t.descendant? id path = some m) (covers : t.Covers m p) : t.Covers id p := by
  induction path generalizing id with
  | nil => exact Option.some.inj reach ▸ covers
  | cons index path ih =>
    obtain ⟨child, hc, reach⟩ := Option.bind_eq_some_iff.1 reach
    exact h.covers_of_child? hc (ih (h.child hc) reach)

/-- Of two nodes at a position one is below the other: two ways down that both lead to the
position do not part until one of them ends. -/
theorem Nested.below_or_below {a b : Nat} {pa pb : List Nat} (h : t.Nested id)
    (ha : t.descendant? id pa = some a) (hb : t.descendant? id pb = some b)
    (covers_a : t.Covers a p) (covers_b : t.Covers b p) :
    (∃ q, t.descendant? a q = some b) ∨ ∃ q, t.descendant? b q = some a := by
  induction pa generalizing id pb with
  | nil => exact .inl ⟨pb, Option.some.inj ha ▸ hb⟩
  | cons i pa ih =>
    cases pb with
    | nil => exact .inr ⟨i :: pa, Option.some.inj hb ▸ ha⟩
    | cons j pb =>
      obtain ⟨c, hc, below_c⟩ := Option.bind_eq_some_iff.1 ha
      obtain ⟨d, hd, below_d⟩ := Option.bind_eq_some_iff.1 hb
      have covers_c := (h.child hc).covers_of_descendant? below_c covers_a
      have covers_d := (h.child hd).covers_of_descendant? below_d covers_b
      rcases Nat.lt_trichotomy i j with lt | rfl | gt
      · exact absurd covers_d (h.not_covers_later lt hc hd covers_c)
      · obtain rfl : c = d := Option.some.inj (hc.symm.trans hd)
        exact ih (h.child hc) below_c below_d
      · exact absurd covers_c (h.not_covers_later gt hd hc covers_d)

end

theorem nested_of_wellNested {root : Node} (nested : root.WellNested) {id : Nat}
    (inside : id < (ofNode root).size) : (ofNode root).Nested id := by
  have mem : id ∈ (ofNode root).preorder 0 := by
    rw [(stores_root root).preorder_eq_range, List.mem_range'_1]
    simpa using inside
  obtain ⟨path, reach⟩ := mem_preorder_iff.1 mem
  have whole : (ofNode root).Nested 0 := ⟨none, root, stores_root root, nested⟩
  exact whole.of_descendant? reach

section

variable {root : Node} {o : Options} {start : Nat}

theorem contains_iff_covers {t : Tree} (inside : start < t.size) {r : Record}
    (hr : r ∈ t.records o start) {p : Position} : r.contains p = true ↔ t.Covers r.id p := by
  obtain ⟨e, entry, _, start_eq, stop_eq, _⟩ := exists_get?_of_mem_records inside hr
  rw [r.contains_iff, start_eq, stop_eq, Covers, entry]
  constructor
  · exact fun covers => ⟨e, rfl, covers⟩
  · rintro ⟨e', same, covers⟩
    rwa [Option.some.inj same]

/-- The levels read back from two records are in the order of the ways to their nodes. -/
theorem depthBelow_base_lt_iff (inside : start < (ofNode root).size)
    (plain : o.showFields = true → ∀ name ∈ root.fields, Text.Unblank name) {r s : Record}
    (hr : r ∈ (ofNode root).records o start) (hs : s ∈ (ofNode root).records o start)
    {p q : List Nat} (reach_r : (ofNode root).descendant? start p = some r.id)
    (reach_s : (ofNode root).descendant? start q = some s.id) :
    r.depthBelow (Outline.base ((ofNode root).records o start)) <
      s.depthBelow (Outline.base ((ofNode root).records o start)) ↔ p.length < q.length := by
  rw [base_records inside]
  rw [records_eq_map _ o inside] at hr hs
  obtain ⟨f, hf, rfl⟩ := List.mem_map.1 hr
  obtain ⟨g, hg, rfl⟩ := List.mem_map.1 hs
  obtain ⟨p', reach_f, depth_f, _⟩ := exists_path_of_mem_frames hf
  obtain ⟨q', reach_g, depth_g, _⟩ := exists_path_of_mem_frames hg
  have order := levelOf_lt_iff plain hf hg
  rw [depth_f, depth_g, path_unique reach_f reach_r, path_unique reach_g reach_s,
    Nat.add_lt_add_iff_left] at order
  exact order

section

variable (inside : start < (ofNode root).size) (nested : root.WellNested) {p : Position}
  {r : Record} (hr : r ∈ (ofNode root).records o start) (contains : r.contains p = true)
include inside nested hr contains

/-- A node between the start and a listed node at a position is itself listed, and at the
position. -/
theorem exists_contains_of_above {x : Nat} (hx : x ∈ (ofNode root).preorder start)
    (below : r.id ∈ (ofNode root).preorder x) :
    ∃ s ∈ (ofNode root).records o start, s.id = x ∧ s.contains p = true := by
  obtain ⟨way, reach_x⟩ := mem_preorder_iff.1 hx
  obtain ⟨path, below⟩ := mem_preorder_iff.1 below
  have shown := (mem_ids_records_iff inside).1 (List.mem_map_of_mem hr)
  have shown_x := shown.of_above reach_x below
  obtain ⟨s, hs, rfl⟩ := List.mem_map.1 ((mem_ids_records_iff inside).2 shown_x)
  have nested_x := (nested_of_wellNested nested inside).of_descendant? reach_x
  have covers := nested_x.covers_of_descendant? below ((contains_iff_covers inside hr).1 contains)
  exact ⟨s, hs, rfl, (contains_iff_covers inside hs).2 covers⟩

/-- A listed node at a position is the one of the deepest record there, or above it: it is not
below, since the levels go down with the nodes. -/
theorem mem_preorder_of_deepest
    (plain : o.showFields = true → ∀ name ∈ root.fields, Text.Unblank name)
    (deepest : ∀ s ∈ (ofNode root).records o start, s.contains p = true →
      s.depthBelow (Outline.base ((ofNode root).records o start)) ≤
        r.depthBelow (Outline.base ((ofNode root).records o start)))
    {s : Record} (hs : s ∈ (ofNode root).records o start) (contains_s : s.contains p = true) :
    r.id ∈ (ofNode root).preorder s.id := by
  obtain ⟨path, reach_r⟩ := exists_descendant?_of_mem_records inside hr
  obtain ⟨way, reach_s⟩ := exists_descendant?_of_mem_records inside hs
  have covers := (contains_iff_covers inside hr).1 contains
  have covers_s := (contains_iff_covers inside hs).1 contains_s
  rcases (nested_of_wellNested nested inside).below_or_below reach_s reach_r covers_s covers with
    above | ⟨q, below⟩
  · exact mem_preorder_iff.2 above
  -- were it further down, its record would be deeper
  · have through := descendant?_trans reach_r below
    have order := depthBelow_base_lt_iff inside plain hr hs reach_r through
    have stays := order.not.1 (Nat.not_lt.2 (deepest s hs contains_s))
    rw [List.length_append] at stays
    obtain rfl : q = [] := List.eq_nil_of_length_eq_zero (by omega)
    exact mem_preorder_iff.2 ⟨[], congrArg some (Option.some.inj below).symm⟩

end

/-- No record is found at a position outside the span of the start. At any other one it is the
record of a node such that the listed nodes at the position are this node and those between it and
the start. -/
theorem recordAt?_records (inside : start < (ofNode root).size) (nested : root.WellNested)
    (plain : o.showFields = true → ∀ name ∈ root.fields, Text.Unblank name) (p : Position) :
    let t := ofNode root
    let records := t.records o start
    (Outline.recordAt? records p = none ↔ ¬ t.Covers start p) ∧
    ∀ r, Outline.recordAt? records p = some r → r ∈ records ∧
      ∀ x, (∃ s ∈ records, s.id = x ∧ s.contains p = true) ↔
        x ∈ t.preorder start ∧ r.id ∈ t.preorder x := by
  intro t records
  have below_start : ∀ s ∈ records, s.id ∈ t.preorder start := by
    intro s hs
    exact mem_preorder_iff.2 (exists_descendant?_of_mem_records inside hs)
  rcases Outline.recordAt?_cases records p with ⟨missing, none_contains⟩ |
    ⟨r, hr, found, contains, deepest⟩
  · have outside : ¬ t.Covers start p := by
      intro covers
      obtain ⟨first, hf, rfl⟩ :=
        List.mem_map.1 ((mem_ids_records_iff inside).2 (t.shows_start o start))
      exact none_contains first hf ((contains_iff_covers inside hf).2 covers)
    refine ⟨iff_of_true missing outside, ?_⟩
    intro r found
    rw [missing] at found
    cases found
  · have covers : t.Covers start p := by
      obtain ⟨path, reach⟩ := exists_descendant?_of_mem_records inside hr
      exact (nested_of_wellNested nested inside).covers_of_descendant? reach
        ((contains_iff_covers inside hr).1 contains)
    refine ⟨iff_of_false (by rw [found]; nofun) (not_not_intro covers), ?_⟩
    intro r' found'
    obtain rfl : r = r' := Option.some.inj (found.symm.trans found')
    refine ⟨hr, fun x => ⟨?_, ?_⟩⟩
    · rintro ⟨s, hs, rfl, contains_s⟩
      exact ⟨below_start s hs,
        mem_preorder_of_deepest inside nested hr contains plain deepest hs contains_s⟩
    · rintro ⟨hx, below⟩
      exact exists_contains_of_above inside nested hr contains hx below

/-- A name and a call that meet at a separator of no length. The call and its argument end where
the pair does. -/
def meetingSpans : Node :=
  .mk "pair" ⟨0, 0⟩ ⟨1, 4⟩ true
    [(some "key", .leaf "name" ⟨0, 0⟩ ⟨0, 3⟩),
      (none, .token ":" ⟨0, 3⟩ ⟨0, 3⟩),
      (some "value", .mk "call" ⟨0, 3⟩ ⟨1, 4⟩ true
        [(none, .leaf "name" ⟨0, 3⟩ ⟨1, 0⟩), (some "argument", .leaf "text" ⟨1, 0⟩ ⟨1, 4⟩)])]

theorem recordAt?_records_meetingSpans :
    let o := (Options.fieldAware false).withIndent "| "
    let t := ofNode meetingSpans
    let records := t.records o 0
    0 < t.size ∧ meetingSpans.WellNested ∧ (∀ name ∈ meetingSpans.fields, Text.Unblank name) ∧
    (Outline.recordAt? records ⟨0, 3⟩ = none ↔ ¬ t.Covers 0 ⟨0, 3⟩) ∧
    ∀ r, Outline.recordAt? records ⟨0, 3⟩ = some r → r ∈ records ∧
      ∀ x, (∃ s ∈ records, s.id = x ∧ s.contains ⟨0, 3⟩ = true) ↔
        x ∈ t.preorder 0 ∧ r.id ∈ t.preorder x := by
  intro o t records
  have inside : 0 < t.size := size_ofNode_pos _
  have nested : meetingSpans.WellNested := by
    refine .mk (by decide) (by decide) ?_
    simp only [List.forall_mem_cons]
    refine ⟨.childless .., .childless .., .mk (by decide) (by decide) ?_, by simp⟩
    simp only [List.forall_mem_cons]
    exact ⟨.childless .., .childless .., by simp⟩
  have plain : ∀ name ∈ meetingSpans.fields, Text.Unblank name := by decide
  exact ⟨inside, nested, plain, recordAt?_records inside nested (fun _ => plain) ⟨0, 3⟩⟩

end

end Tree

end TreeListing
