import TreeListing.Proofs.Lead
import TreeListing.Proofs.Storage
import TreeListing.Proofs.Traversal
import TreeListing.Record.Outline

/-!
# The parents of records

The records that a new one can be below are kept on a stack, from which the deeper ones are
dropped. What is left on top of it is the last record above the new one's level. In a listing
that is the record of the node's parent, since between the two only nodes on the same level or
deeper are listed.
-/

namespace TreeListing.Outline

def lastBelow (bound : Nat) : List Nat → Option Nat
  | [] => none
  | d :: rest =>
    match lastBelow bound rest with
    | some place => some (place + 1)
    | none => if d < bound then some 0 else none

@[simp] theorem lastBelow_concat (bound : Nat) (ds : List Nat) (d : Nat) :
    lastBelow bound (ds ++ [d]) = if d < bound then some ds.length else lastBelow bound ds := by
  induction ds with
  | nil => simp [lastBelow]
  | cons x ds ih =>
    rw [List.cons_append, lastBelow, ih]
    by_cases h : d < bound <;> simp [h, lastBelow]

theorem lastBelow_append_of_le {bound : Nat} (ds : List Nat) {more : List Nat}
    (h : ∀ d ∈ more, bound ≤ d) : lastBelow bound (ds ++ more) = lastBelow bound ds := by
  induction more using List.reverseRecOn with
  | nil => simp
  | append_singleton more d ih =>
    have : ¬ d < bound := Nat.not_lt.2 (h d (by simp))
    rw [← List.append_assoc, lastBelow_concat, if_neg this]
    exact ih fun x hx => h x (by simp [hx])

theorem lastBelow_of_split {bound p : Nat} (above : List Nat) {between : List Nat}
    (higher : p < bound) (deeper : ∀ d ∈ between, bound ≤ d) :
    lastBelow bound (above ++ p :: between) = some above.length := by
  have : above ++ p :: between = (above ++ [p]) ++ between := by simp
  rw [this, lastBelow_append_of_le _ deeper, lastBelow_concat, if_pos higher]

/-- For every level, the stack tells the last of the records read so far that is above it. -/
def Knows (opened : List (Nat × Nat)) (seen : List Nat) : Prop :=
  ∀ bound, (opened.dropWhile fun (d, _) => bound ≤ d).head?.map (·.2) = lastBelow bound seen

theorem knows_nil : Knows [] [] := fun _ => rfl

/-- Records dropped for a level would be dropped for every level above it. -/
theorem dropWhile_dropWhile_of_le {bound d : Nat} (h : bound ≤ d) (opened : List (Nat × Nat)) :
    (opened.dropWhile fun (e, _) => d ≤ e).dropWhile (fun (e, _) => bound ≤ e) =
      opened.dropWhile fun (e, _) => bound ≤ e := by
  induction opened with
  | nil => rfl
  | cons first rest ih =>
    by_cases deep : d ≤ first.1
    · have : bound ≤ first.1 := by omega
      simpa [deep, this] using ih
    · simp [deep]

theorem Knows.push {opened : List (Nat × Nat)} {seen : List Nat} (h : Knows opened seen)
    (d : Nat) :
    Knows ((d, seen.length) :: opened.dropWhile fun (e, _) => d ≤ e) (seen ++ [d]) := by
  intro bound
  rw [lastBelow_concat]
  by_cases lt : d < bound
  · simp [lt]
  · have le : bound ≤ d := Nat.not_lt.1 lt
    simp [le, dropWhile_dropWhile_of_le le, h bound]

theorem getElem?_parentsFrom {opened : List (Nat × Nat)} {seen ds : List Nat}
    (h : Knows opened seen) (i : Nat) :
    (parentsFrom seen.length opened ds)[i]? =
      ds[i]?.map fun d => lastBelow d (seen ++ ds.take i) := by
  induction ds generalizing opened seen i with
  | nil => rfl
  | cons d ds ih =>
    cases i with
    | zero => simp [parentsFrom, h d]
    | succ i =>
      have := ih (h.push d) i
      simpa [parentsFrom] using this

theorem getElem?_parents (records : List Record) (i : Nat) :
    (parents records)[i]? =
      (depths records)[i]?.map fun d => lastBelow d ((depths records).take i) := by
  have : (parentsFrom 0 [] (depths records))[i]? = _ := getElem?_parentsFrom knows_nil i
  simpa [parents] using this

end TreeListing.Outline

namespace TreeListing.Tree

/-- Of the frames seen before a frame, its parent's is the last that is not as deep. -/
def Under (t : Tree) (seen : List Frame) (f : Frame) : Prop :=
  ∃ above p between, seen = above ++ p :: between ∧ t.parent? f.id = some p.id ∧
    f.depth = p.depth + 1 ∧ ∀ g ∈ between, f.depth ≤ g.depth

theorem Under.append {t : Tree} {seen more : List Frame} {f : Frame} (h : t.Under seen f)
    (deep : ∀ g ∈ more, f.depth ≤ g.depth) : t.Under (seen ++ more) f := by
  obtain ⟨above, p, between, rfl, parent, depth, deeper⟩ := h
  refine ⟨above, p, between ++ more, by simp, parent, depth, ?_⟩
  intro g hg
  rcases List.mem_append.1 hg with hg | hg
  · exact deeper g hg
  · exact deep g hg

def Linked (t : Tree) (seen : List Frame) : List Frame → Prop
  | [] => True
  | f :: rest => t.Under seen f ∧ Linked t (seen ++ [f]) rest

theorem Linked.append {t : Tree} {seen a b : List Frame} (ha : t.Linked seen a)
    (hb : t.Linked (seen ++ a) b) : t.Linked seen (a ++ b) := by
  induction a generalizing seen with
  | nil => simpa using hb
  | cons f a ih => exact ⟨ha.1, ih ha.2 (by simpa using hb)⟩

theorem Linked.under {t : Tree} {seen fs : List Frame} (h : t.Linked seen fs) {i : Nat}
    {f : Frame} (hi : fs[i]? = some f) : t.Under (seen ++ fs.take i) f := by
  induction fs generalizing seen i with
  | nil => simp at hi
  | cons first rest ih =>
    cases i with
    | zero =>
      obtain rfl : first = f := by simpa using hi
      simpa using h.1
    | succ i =>
      have := ih h.2 (by simpa using hi)
      simpa using this

theorem depth_le_of_mem_frames {t : Tree} {o : Options} {f g : Frame} (h : g ∈ t.frames o f) :
    f.depth ≤ g.depth := by
  have down : ∀ p : Frame, f.depth ≤ p.depth → ∀ c ∈ p.below t o, f.depth ≤ c.depth := by
    intro p hp c hc
    rw [depth_of_mem_below hc]
    exact Nat.le_succ_of_le hp
  exact t.frames_induction o down le_rfl g h

section

variable {root : Node} {o : Options}

theorem under_of_mem_below {f c : Frame} (hc : c ∈ f.below (ofNode root) o) (seen : List Frame) :
    (ofNode root).Under (seen ++ [f]) c := by
  obtain ⟨_, index, child⟩ := exists_child?_of_mem_below hc
  exact ⟨seen, f, [], rfl, parent?_of_child? child, depth_of_mem_below hc, by simp⟩

/-- Siblings are linked one after the other: what is listed for the earlier ones is on their
level or deeper. -/
theorem linked_siblings (seen : List Frame) {f : Frame} {cs : List Frame}
    (hcs : ∀ c ∈ cs, c ∈ f.below (ofNode root) o)
    (each : ∀ c ∈ cs, ∀ seen, (ofNode root).Linked (seen ++ [c])
      ((c.below (ofNode root) o).flatMap ((ofNode root).frames o)))
    {more : List Frame} (deep : ∀ g ∈ more, f.depth + 1 ≤ g.depth) :
    (ofNode root).Linked (seen ++ [f] ++ more) (cs.flatMap ((ofNode root).frames o)) := by
  induction cs generalizing more with
  | nil => trivial
  | cons c cs ih =>
    have hc := hcs c (by simp)
    have depth := depth_of_mem_below hc
    -- a sibling is linked to the node itself, the nodes below the sibling to the sibling
    rw [List.flatMap_cons]
    apply Linked.append
    · rw [frames_eq]
      constructor
      · apply (under_of_mem_below hc seen).append
        intro g hg
        rw [depth]
        exact deep g hg
      · exact each c (by simp) _
    · rw [List.append_assoc (seen ++ [f])]
      apply ih (fun c' h => hcs c' (by simp [h])) (fun c' h => each c' (by simp [h]))
      intro g hg
      rcases List.mem_append.1 hg with hg | hg
      · exact deep g hg
      · rw [← depth]
        exact depth_le_of_mem_frames hg

variable (root o) in
theorem linked_below (seen : List Frame) (f : Frame) :
    (ofNode root).Linked (seen ++ [f])
      ((f.below (ofNode root) o).flatMap ((ofNode root).frames o)) := by
  induction f using frames.induct (ofNode root) o generalizing seen with
  | case1 f ih =>
    have none : ∀ g ∈ ([] : List Frame), f.depth + 1 ≤ g.depth := by simp
    have := linked_siblings seen (fun c h => h) (fun c h seen => ih ⟨c, h⟩ seen) none
    simpa using this

/-- Every frame of a listing but the first is under those before it. -/
theorem under_of_listed {start i : Nat} {f : Frame} (pos : 0 < i)
    (hi : ((ofNode root).listed o start)[i]? = some f) :
    (ofNode root).Under (((ofNode root).listed o start).take i) f := by
  rw [listed_eq] at hi ⊢
  cases i with
  | zero => omega
  | succ i =>
    have linked := linked_below root o [] ((ofNode root).startFrame o start)
    simpa using linked.under (by simpa using hi)

end

theorem eq_or_lt_of_mem_frames {t : Tree} {o : Options} {f g : Frame} (h : g ∈ t.frames o f) :
    g = f ∨ f.depth < g.depth := by
  rw [frames_eq, List.mem_cons, List.mem_flatMap] at h
  rcases h with rfl | ⟨c, hc, hg⟩
  · exact .inl rfl
  · have := depth_of_mem_below hc
    have := depth_le_of_mem_frames hg
    exact .inr (by omega)

def levelOf (t : Tree) (o : Options) (start : Nat) (f : Frame) : Nat :=
  (f.record t o).depthBelow ((t.startFrame o start).record t o).indent

theorem base_records {t : Tree} {o : Options} {start : Nat} (h : start < t.size) :
    Outline.base (t.records o start) = ((t.startFrame o start).record t o).indent := by
  rw [records_eq_map _ o h, listed_eq]
  rfl

theorem depths_records {t : Tree} {o : Options} {start : Nat} (h : start < t.size) :
    Outline.depths (t.records o start) = (t.listed o start).map (t.levelOf o start) := by
  rw [Outline.depths, base_records h, records_eq_map _ o h, List.map_map]
  rfl

section

variable {root : Node} {o : Options} {start : Nat}
  (plain : o.showFields = true → ∀ name ∈ root.fields, Text.Unblank name)
include plain

theorem unblank_of_mem_listed {f : Frame} (hf : f ∈ (ofNode root).listed o start) {name : String}
    (hn : f.field = some name) : Text.Unblank name := by
  revert name
  refine (ofNode root).frames_induction o
    (P := fun f => ∀ {name}, f.field = some name → Text.Unblank name) ?_ ?_ f hf
  · intro f _ g hg name hn
    obtain ⟨slot, hs, rfl⟩ := List.mem_map.1 hg
    obtain ⟨shown, hn⟩ := Options.shownField_eq_some_iff.1 hn
    exact plain shown name (mem_fields_of_mem_children (List.mem_filter.1 hs).1 hn)
  · intro name hn
    obtain ⟨shown, hn⟩ := Options.shownField_eq_some_iff.1 hn
    exact plain shown name (mem_fields_of_field? hn)

/-- The level of a record below a base that is not longer than the indentation of the listing. -/
theorem depthBelow_record {f : Frame} (hf : f ∈ (ofNode root).listed o start) (pos : 0 < f.depth)
    {base : String} (short : base.utf8ByteSize ≤ o.indent.utf8ByteSize) :
    (f.record (ofNode root) o).depthBelow base =
      f.depth + (o.indent.utf8ByteSize - base.utf8ByteSize) / 2 := by
  have indent : (f.record (ofNode root) o).indent = f.indent o := by
    obtain ⟨depth, hd⟩ : ∃ depth, f.depth = depth + 1 := ⟨f.depth - 1, by omega⟩
    have := Lead.indent_make_deeper o.indent (fun _ => unblank_of_mem_listed plain hf) depth
    simpa [Record.indent, Frame.record, Entry.record, Frame.indent, hd] using this
  rw [Record.depthBelow, indent, Frame.indent, String.utf8ByteSize_append, Indent.size_levels]
  omega

theorem size_indent_startFrame_le :
    (((ofNode root).startFrame o start).record (ofNode root) o).indent.utf8ByteSize ≤
      o.indent.utf8ByteSize := by
  have mem := (ofNode root).startFrame_mem_listed o start
  have := Lead.size_indent_make_le o.indent fun _ => unblank_of_mem_listed plain mem
  simpa [Record.indent, Frame.record, Entry.record, startFrame, Frame.indent_zero] using this

/-- The first record is on a level of its own; below it, the levels follow the depths. -/
theorem levelOf_cases {f : Frame} (hf : f ∈ (ofNode root).listed o start) :
    (f.depth = 0 ∧ (ofNode root).levelOf o start f = 0) ∨
    (0 < f.depth ∧ (ofNode root).levelOf o start f = f.depth + (o.indent.utf8ByteSize -
      (((ofNode root).startFrame o start).record (ofNode root) o).indent.utf8ByteSize) / 2) := by
  rcases eq_or_lt_of_mem_frames hf with rfl | lt
  · exact .inl ⟨rfl, by simp [levelOf, Record.depthBelow]⟩
  · have pos : 0 < f.depth := by simpa [startFrame] using lt
    exact .inr ⟨pos, depthBelow_record plain hf pos (size_indent_startFrame_le plain)⟩

theorem levelOf_lt_iff {f g : Frame} (hf : f ∈ (ofNode root).listed o start)
    (hg : g ∈ (ofNode root).listed o start) :
    (ofNode root).levelOf o start f < (ofNode root).levelOf o start g ↔ f.depth < g.depth := by
  rcases levelOf_cases plain hf with ⟨hf, hf'⟩ | ⟨hf, hf'⟩ <;>
    rcases levelOf_cases plain hg with ⟨hg, hg'⟩ | ⟨hg, hg'⟩ <;> omega

/-- Of the frames listed before a frame, its parent's is the last on a level above its own. -/
theorem lastBelow_listed {i : Nat} {f : Frame} (pos : 0 < i)
    (hf : ((ofNode root).listed o start)[i]? = some f) :
    ∃ j p, Outline.lastBelow ((ofNode root).levelOf o start f)
        ((((ofNode root).listed o start).take i).map ((ofNode root).levelOf o start)) = some j ∧
      ((ofNode root).listed o start)[j]? = some p ∧ (ofNode root).parent? f.id = some p.id := by
  -- the frames between a frame and its parent are on its level or deeper, and so are their records
  obtain ⟨above, p, between, split, parent, depth, deeper⟩ := under_of_listed pos hf
  have whole : (ofNode root).listed o start =
      above ++ p :: between ++ ((ofNode root).listed o start).drop i := by
    rw [← split]
    exact (List.take_append_drop i _).symm
  have order : ∀ g ∈ above ++ p :: between,
      (ofNode root).levelOf o start g < (ofNode root).levelOf o start f ↔ g.depth < f.depth := by
    intro g hg
    rw [← split] at hg
    exact levelOf_lt_iff plain (List.mem_of_mem_take hg) (List.mem_of_getElem? hf)
  have higher := (order p (by simp)).2 (by omega)
  have others : ∀ d ∈ between.map ((ofNode root).levelOf o start),
      (ofNode root).levelOf o start f ≤ d := by
    intro d hd
    obtain ⟨g, hg, rfl⟩ := List.mem_map.1 hd
    have := deeper g hg
    exact Nat.not_lt.1 ((order g (by simp [hg])).not.2 (by omega))
  refine ⟨above.length, p, ?_, ?_, parent⟩
  · rw [split, List.map_append, List.map_cons, Outline.lastBelow_of_split _ higher others,
      List.length_map]
  · rw [whole]
    simp

end

/-- The parents found from the indentation of the records are those of the tree: the first record
has none, and the parent of every other one is the record of its node's parent. -/
theorem parents_records {root : Node} {o : Options} {start : Nat}
    (h : start < (ofNode root).size)
    (plain : o.showFields = true → ∀ name ∈ root.fields, Text.Unblank name) :
    let records := (ofNode root).records o start
    (Outline.parents records).length = records.length ∧
    (Outline.parents records)[0]? = some none ∧
    ∀ i r, 0 < i → records[i]? = some r → ∃ j p,
      (Outline.parents records)[i]? = some (some j) ∧ records[j]? = some p ∧
      (ofNode root).parent? r.id = some p.id := by
  refine ⟨Outline.length_parents _, ?_, fun i r pos hr => ?_⟩
  · rw [Outline.getElem?_parents, depths_records h, listed_eq]
    rfl
  · rw [records_eq_map _ o h, List.getElem?_map] at hr
    obtain ⟨f, hf, rfl⟩ := Option.map_eq_some_iff.1 hr
    obtain ⟨j, p, last, hp, parent⟩ := lastBelow_listed plain pos hf
    refine ⟨j, p.record (ofNode root) o, ?_, ?_, parent⟩
    · rw [Outline.getElem?_parents, depths_records h, List.getElem?_map, hf, Option.map_some,
        Option.map_some, ← List.map_take, last]
    · rw [records_eq_map _ o h, List.getElem?_map, hp, Option.map_some]

def nestedFields : Node :=
  .mk "program" ⟨0, 0⟩ ⟨1, 0⟩ true
    [(some "body", .mk "block" ⟨0, 0⟩ ⟨0, 3⟩ true
      [(none, .token ";" ⟨0, 0⟩ ⟨0, 1⟩), (some "value", .leaf "number" ⟨0, 2⟩ ⟨0, 3⟩)])]

/-- The indentation is neither blank nor of even length, and looks like an annotation. -/
theorem parents_records_nestedFields :
    let o := { Options.fieldAware false with indent := "é: " }
    let records := (ofNode nestedFields).records o 1
    1 < (ofNode nestedFields).size ∧ (∀ name ∈ nestedFields.fields, Text.Unblank name) ∧
    (Outline.parents records).length = records.length ∧
    (Outline.parents records)[0]? = some none ∧
    ∀ i r, 0 < i → records[i]? = some r → ∃ j p,
      (Outline.parents records)[i]? = some (some j) ∧ records[j]? = some p ∧
      (ofNode nestedFields).parent? r.id = some p.id := by
  intro o records
  have inside : 1 < (ofNode nestedFields).size := by
    rw [size_ofNode]
    decide
  have plain : ∀ name ∈ nestedFields.fields, Text.Unblank name := by decide
  exact ⟨inside, plain, parents_records inside fun _ => plain⟩

end TreeListing.Tree
