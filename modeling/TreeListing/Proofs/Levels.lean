import Mathlib.Data.List.Chain
import Mathlib.Order.Bounds.Basic
import TreeListing.Proofs.Outline
import TreeListing.Proofs.Subtree

/-!
# Levels

Any list of records has an outline, whatever its levels are: the parent of a record is the last of
the records before it that are on a level above its own. Levels may be skipped on the way down, and
a record that is indented less than the first one counts as being on the first one's level.

Neither happens in the listing of a tree. The level of a record below the indentation of the
listing is the number of steps from the start down to the record's node, also when that indentation
looks like an annotation and is not read back as a whole from the first record.
-/

namespace TreeListing.Outline

def placesBelow (bound : Nat) (ds : List Nat) : Set Nat :=
  {place | ∃ d, ds[place]? = some d ∧ d < bound}

theorem isGreatest_placesBelow_concat {bound d : Nat} (ds : List Nat) (h : d < bound) :
    IsGreatest (placesBelow bound (ds ++ [d])) ds.length := by
  refine ⟨⟨d, List.getElem?_concat_length, h⟩, ?_⟩
  rintro place ⟨e, he, _⟩
  have inside := (List.getElem?_eq_some_iff.1 he).1
  rw [List.length_append, List.length_singleton] at inside
  exact Nat.le_of_lt_succ inside

theorem placesBelow_concat_of_le {bound d : Nat} (ds : List Nat) (h : bound ≤ d) :
    placesBelow bound (ds ++ [d]) = placesBelow bound ds := by
  ext place
  constructor
  · rintro ⟨e, he, lt⟩
    have inside := (List.getElem?_eq_some_iff.1 he).1
    rw [List.length_append, List.length_singleton] at inside
    rcases Nat.lt_succ_iff_lt_or_eq.1 inside with inside | rfl
    · rw [List.getElem?_append_left inside] at he
      exact ⟨e, he, lt⟩
    · rw [List.getElem?_concat_length, Option.some_inj] at he
      omega
  · rintro ⟨e, he, lt⟩
    have inside := (List.getElem?_eq_some_iff.1 he).1
    exact ⟨e, by rw [List.getElem?_append_left inside, he], lt⟩

theorem lastBelow_cases (bound : Nat) (ds : List Nat) :
    (∃ place, lastBelow bound ds = some place ∧ IsGreatest (placesBelow bound ds) place) ∨
      lastBelow bound ds = none ∧ placesBelow bound ds = ∅ := by
  induction ds using List.reverseRecOn with
  | nil => exact .inr ⟨rfl, by ext; simp [placesBelow]⟩
  | append_singleton ds d ih =>
    rw [lastBelow_concat]
    by_cases h : d < bound
    · rw [if_pos h]
      exact .inl ⟨ds.length, rfl, isGreatest_placesBelow_concat ds h⟩
    · rw [if_neg h, placesBelow_concat_of_le ds (Nat.not_lt.1 h)]
      exact ih

theorem lastBelow_eq_some_iff {bound place : Nat} {ds : List Nat} :
    lastBelow bound ds = some place ↔ IsGreatest (placesBelow bound ds) place := by
  rcases lastBelow_cases bound ds with ⟨last, eq, greatest⟩ | ⟨eq, empty⟩
  · rw [eq, Option.some_inj]
    constructor
    · rintro rfl
      exact greatest
    · exact greatest.unique
  · rw [eq, empty]
    exact ⟨nofun, fun h => absurd h.1 (Set.notMem_empty place)⟩

theorem lastBelow_eq_none_iff {bound : Nat} {ds : List Nat} :
    lastBelow bound ds = none ↔ placesBelow bound ds = ∅ := by
  rcases lastBelow_cases bound ds with ⟨last, eq, greatest⟩ | ⟨eq, empty⟩
  · rw [eq]
    exact ⟨nofun, fun empty => absurd (empty ▸ greatest.1) (Set.notMem_empty last)⟩
  · exact ⟨fun _ => empty, fun _ => eq⟩

/-- The numbers of the records before a record that are on a level above its own. -/
def above (records : List Record) (i : Nat) : Set Nat :=
  {j | j < i ∧ ∃ r s, records[j]? = some r ∧ records[i]? = some s ∧
    r.depthBelow (base records) < s.depthBelow (base records)}

theorem placesBelow_take {records : List Record} {i : Nat} {r : Record}
    (h : records[i]? = some r) :
    placesBelow (r.depthBelow (base records)) ((depths records).take i) = above records i := by
  ext j
  by_cases lt : j < i <;> simp [placesBelow, above, depths, List.getElem?_take, h, lt]

/-- The parent of a record is the last one before it that is on a level above its own; it has none
only if there is no such record. -/
theorem parents_eq_nearest (records : List Record) :
    (parents records).length = records.length ∧
    ∀ i, (∀ j, (parents records)[i]? = some (some j) ↔ IsGreatest (above records i) j) ∧
      ((parents records)[i]? = some none ↔ i < records.length ∧ above records i = ∅) := by
  refine ⟨length_parents records, ?_⟩
  intro i
  have depth : (depths records)[i]? = records[i]?.map (·.depthBelow (base records)) :=
    List.getElem?_map
  rw [getElem?_parents, depth]
  cases h : records[i]? with
  | none =>
    have outside : ¬ i < records.length := Nat.not_lt.2 (List.getElem?_eq_none_iff.1 h)
    have empty : above records i = ∅ := by
      ext j
      simp [above, h]
    simp [empty, outside, IsGreatest]
  | some r =>
    have inside : i < records.length := (List.getElem?_eq_some_iff.1 h).1
    simp only [Option.map_some, Option.some_inj, ← placesBelow_take h, inside, true_and]
    exact ⟨fun j => lastBelow_eq_some_iff, lastBelow_eq_none_iff⟩

end TreeListing.Outline

namespace TreeListing.Tree

variable {root : Node} {o : Options} {start : Nat}

theorem depth_next_le {i : Nat} {f g : Frame} (hf : ((ofNode root).listed o start)[i]? = some f)
    (hg : ((ofNode root).listed o start)[i + 1]? = some g) : g.depth ≤ f.depth + 1 := by
  obtain ⟨above, p, between, split, _, depth, deeper⟩ := under_of_listed (Nat.succ_pos i) hg
  have last : (above ++ p :: between).getLast? = some f := by
    rw [← split, List.take_add_one, hf]
    exact List.getLast?_concat
  -- the frame before is the parent's or one between, which is at least as deep
  rcases List.eq_nil_or_concat' between with rfl | ⟨front, q, rfl⟩
  · obtain rfl : p = f := by simpa using last
    exact Nat.le_of_eq depth
  · rw [← List.cons_append, ← List.append_assoc, List.getLast?_concat] at last
    obtain rfl : q = f := Option.some.inj last
    exact Nat.le_succ_of_le (deeper q (by simp))

theorem depthBelow_indent (plain : o.showFields = true → ∀ name ∈ root.fields, Text.Unblank name)
    {f : Frame} (hf : f ∈ (ofNode root).listed o start) :
    (f.record (ofNode root) o).depthBelow o.indent = f.depth := by
  rcases eq_or_lt_of_mem_frames hf with rfl | lt
  · -- What is read back as the first record's indentation may be too short, but not too long.
    rw [Record.depthBelow, Nat.sub_eq_zero_of_le (size_indent_startFrame_le plain)]
    rfl
  · rw [depthBelow_record plain hf (Nat.zero_lt_of_lt lt) (Nat.le_refl _), Nat.sub_self]
    rfl

/-- The level of a record below the indentation of the listing is the number of steps from the
start down to its node, so the first record is on level 0 and each other one at most one level
below the record before it. -/
theorem depthBelow_records (inside : start < (ofNode root).size)
    (plain : o.showFields = true → ∀ name ∈ root.fields, Text.Unblank name) :
    let records := (ofNode root).records o start
    (∀ r ∈ records, (∃ path, (ofNode root).descendant? start path = some r.id) ∧
      ∀ path, (ofNode root).descendant? start path = some r.id →
        r.depthBelow o.indent = path.length) ∧
    records.head?.map (·.depthBelow o.indent) = some 0 ∧
    records.IsChain fun r s => s.depthBelow o.indent ≤ r.depthBelow o.indent + 1 := by
  intro records
  have records_eq : records = _ := records_eq_map _ o inside
  rw [records_eq]
  refine ⟨?_, ?_, ?_⟩
  · intro r hr
    obtain ⟨f, hf, rfl⟩ := List.mem_map.1 hr
    obtain ⟨way, reach, depth, _⟩ := exists_path_of_mem_frames hf
    refine ⟨⟨way, reach⟩, ?_⟩
    intro path reach'
    rw [depthBelow_indent plain hf, depth, path_unique reach' reach]
    exact Nat.zero_add _
  · have first := depthBelow_indent plain ((ofNode root).startFrame_mem_listed o start)
    rw [listed_eq, List.map_cons, List.head?_cons, Option.map_some, first]
    rfl
  · rw [List.isChain_map, List.isChain_iff_getElem]
    intro i hi
    have hf := List.getElem?_eq_getElem (Nat.lt_of_succ_lt hi)
    have hg := List.getElem?_eq_getElem hi
    rw [depthBelow_indent plain (List.mem_of_getElem? hf),
      depthBelow_indent plain (List.mem_of_getElem? hg)]
    exact depth_next_le hf hg

/-- A loop in a field, whose body is a block in a field with two statements in it. -/
def loopBody : Node :=
  .mk "program" ⟨0, 0⟩ ⟨3, 0⟩ true
    [(some "statement", .mk "loop" ⟨0, 0⟩ ⟨2, 1⟩ true
      [(some "condition", .leaf "name" ⟨0, 6⟩ ⟨0, 7⟩),
        (some "body", .mk "block" ⟨0, 8⟩ ⟨2, 1⟩ true
          [(none, .leaf "call" ⟨1, 2⟩ ⟨1, 5⟩), (some "last", .leaf "break" ⟨1, 7⟩ ⟨1, 12⟩)])])]

/-- From the first record, which has a field, only a part of the indentation is read back. -/
theorem depthBelow_records_loopBody :
    let o := { Options.fieldAware true with indent := "→ note: " }
    let records := (ofNode loopBody).records o 1
    1 < (ofNode loopBody).size ∧ (∀ name ∈ loopBody.fields, Text.Unblank name) ∧
    (∀ r ∈ records, (∃ path, (ofNode loopBody).descendant? 1 path = some r.id) ∧
      ∀ path, (ofNode loopBody).descendant? 1 path = some r.id →
        r.depthBelow o.indent = path.length) ∧
    records.head?.map (·.depthBelow o.indent) = some 0 ∧
    records.IsChain fun r s => s.depthBelow o.indent ≤ r.depthBelow o.indent + 1 := by
  intro o records
  have inside : 1 < (ofNode loopBody).size := by
    rw [size_ofNode]
    decide
  have plain : ∀ name ∈ loopBody.fields, Text.Unblank name := by decide
  exact ⟨inside, plain, depthBelow_records inside fun _ => plain⟩

end TreeListing.Tree
