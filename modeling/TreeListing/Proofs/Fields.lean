import TreeListing.Proofs.Annotation
import TreeListing.Proofs.Lines
import TreeListing.Proofs.Subtree

/-!
# Fields in a listing

When fields are shown, each record of a listing tells the field that its node occupies, and no
record tells a field that is not there. It takes an indentation that an annotation can be told
from and that does not look like one itself. One level further down every indentation is like that,
since it ends with two spaces. So all depends on the indentation that the listing starts with.
-/

namespace TreeListing

namespace Lead

/-- An indentation that is read back, whether an annotation follows it or not. -/
structure Readable (base : String) : Prop where
  closed : Closed base
  plain : ¬ separator.toList <:+ base.toList

namespace Readable

variable {base : String} (h : Readable base)
include h

/-- On every level below, an indentation is read back as well. -/
theorem deeper (level : Nat) : Readable (base ++ String.ofList (Indent.levels level)) := by
  cases level with
  | zero => simpa [Indent.levels] using h
  | succ level =>
    have ends : (base ++ String.ofList (Indent.levels (level + 1))).toList =
        base.toList ++ Indent.levels level ++ [' ', ' '] := by
      rw [Indent.levels_add]
      simp [Indent.levels, Indent.unit]
    constructor
    · refine .inr ⟨' ', ?_, by decide⟩
      simp [ends]
    · -- Where the separator has its colon there is a space.
      rw [ends]
      rintro ⟨front, same⟩
      have := congrArg List.reverse same
      simp [separator] at this

theorem read_make {field : Option String} (word : ∀ name, field = some name → Text.IsWord name) :
    indent (make base field) = base ∧ field? (make base field) = field := by
  cases field with
  | none =>
    have other := not_separator_suffix_iff.1 h.plain
    exact ⟨indent_of_ne other, field?_of_ne other⟩
  | some name =>
    obtain ⟨nonempty, unblank⟩ := word name rfl
    have cut := trim_append_eq_iff.2 ⟨h.closed, unblank⟩
    have run := lastRun_append_eq_iff.2 ⟨h.closed, unblank⟩
    rw [make, indent_append_separator, field?_append_separator, cut, run, if_neg nonempty]
    exact ⟨rfl, rfl⟩

end Readable

end Lead

namespace Tree

variable {root : Node} {o : Options} {start : Nat}

theorem read_record (words : ∀ name ∈ root.fields, Text.IsWord name)
    (readable : Lead.Readable o.indent) {f : Frame} (hf : f ∈ (ofNode root).listed o start) :
    (f.record (ofNode root) o).indent = f.indent o ∧
      (f.record (ofNode root) o).field? = f.field := by
  apply (readable.deeper f.depth).read_make
  intro name shown
  rw [field_of_mem_listed hf] at shown
  exact words name (mem_fields_of_field? (Options.shownField_eq_some_iff.1 shown).2)

theorem depth_eq_length {f : Frame} (hf : f ∈ (ofNode root).listed o start) {path : List Nat}
    (reach : (ofNode root).descendant? start path = some f.id) : f.depth = path.length := by
  obtain ⟨way, reach', depth, _⟩ := exists_path_of_mem_frames hf
  rw [depth, path_unique reach' reach]
  exact Nat.zero_add _

/-- With fields shown, a record tells the field that its node occupies in the tree, and its
indentation is that of the listing with two spaces more for each level. With fields left out, no
record tells a field. -/
theorem fields_records (inside : start < (ofNode root).size)
    (words : ∀ name ∈ root.fields, Text.IsWord name) (readable : Lead.Readable o.indent) :
    (o.showFields = true → ∀ r ∈ (ofNode root).records o start,
      r.field? = (ofNode root).field? r.id ∧
      ((ofNode root).parent? r.id = none → r.field? = none) ∧
      (∀ parent index, (ofNode root).child? parent index = some r.id →
        r.field? = (ofNode root).childField? parent index) ∧
      (∃ path, (ofNode root).descendant? start path = some r.id) ∧
      ∀ path, (ofNode root).descendant? start path = some r.id →
        r.indent = o.indent ++ String.ofList (List.replicate (2 * path.length) ' ')) ∧
    (o.showFields = false → ∀ r ∈ (ofNode root).records o start, r.field? = none) := by
  rw [records_eq_map _ o inside]
  constructor
  · intro shown r hr
    obtain ⟨f, hf, rfl⟩ := List.mem_map.1 hr
    obtain ⟨indent, field⟩ := read_record words readable hf
    have occupied : (f.record (ofNode root) o).field? = (ofNode root).field? f.id := by
      rw [field, field_of_mem_listed hf]
      exact if_pos shown
    refine ⟨occupied, ?_, ?_, ?_, ?_⟩
    · intro orphan
      rw [occupied]
      exact field?_of_parent?_eq_none orphan
    · intro parent index child
      rw [occupied]
      exact field?_of_child? child
    · obtain ⟨way, reach, _⟩ := exists_path_of_mem_frames hf
      exact ⟨way, reach⟩
    · intro path reach
      rw [indent, Frame.indent, Indent.levels_eq_replicate, depth_eq_length hf reach]
  · intro hidden r hr
    obtain ⟨f, hf, rfl⟩ := List.mem_map.1 hr
    rw [(read_record words readable hf).2, field_of_mem_listed hf]
    exact if_neg (by simp [hidden])

/-- The listing starts with the second of three children. Its indentation has words of its own and
ends with a blank character that is not a space. -/
theorem fields_records_twoArguments :
    let t := ofNode twoArguments
    let o := { Options.fieldAware false with indent := "→ see: b\u3000" }
    2 < t.size ∧ (∀ name ∈ twoArguments.fields, Text.IsWord name) ∧ Lead.Readable o.indent ∧
    (o.showFields = true → ∀ r ∈ t.records o 2,
      r.field? = t.field? r.id ∧
      (t.parent? r.id = none → r.field? = none) ∧
      (∀ parent index, t.child? parent index = some r.id →
        r.field? = t.childField? parent index) ∧
      (∃ path, t.descendant? 2 path = some r.id) ∧
      ∀ path, t.descendant? 2 path = some r.id →
        r.indent = o.indent ++ String.ofList (List.replicate (2 * path.length) ' ')) ∧
    (o.showFields = false → ∀ r ∈ t.records o 2, r.field? = none) := by
  intro t o
  have inside : 2 < t.size := by
    rw [size_ofNode]
    decide
  have words : ∀ name ∈ twoArguments.fields, Text.IsWord name := by decide
  have readable : Lead.Readable o.indent := ⟨by decide, by decide⟩
  exact ⟨inside, words, readable, fields_records inside words readable⟩

end Tree

end TreeListing
