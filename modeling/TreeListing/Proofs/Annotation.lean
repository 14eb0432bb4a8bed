import TreeListing.Proofs.Lead
import TreeListing.Record

/-!
# Which leads are read back

Any lead can be read. If it ends with the separator, the annotation is the run of characters behind
the last blank one, and the indentation is what stands in front of that run. Nothing else is looked
at, so that an indentation and a field come back as they were written exactly when the text in
front of the separator is cut between the two.
-/

namespace TreeListing

def Text.EndsBlank (text : String) : Prop :=
  ∃ c, text.toList.getLast? = some c ∧ isBlank c = true

instance (text : String) : Decidable (Text.EndsBlank text) :=
  decidable_of_iff _ (Option.any_eq_true Text.isBlank text.toList.getLast?)

namespace Lead

/-- What follows the last blank character of a text. -/
def lastRun (text : String) : String :=
  String.ofList (text.toList.rtakeWhile (!Text.isBlank ·))

@[simp] theorem trim_append_lastRun (text : String) : trim text ++ lastRun text = text := by
  rw [trim, lastRun, ← String.ofList_append, List.rdropWhile_append_rtakeWhile,
    String.ofList_toList]

theorem unblank_lastRun (text : String) : Text.Unblank (lastRun text) := by
  intro c hc
  rw [lastRun, String.toList_ofList] at hc
  simpa using List.mem_rtakeWhile_imp hc

/-- The text is empty or ends with a blank character, so that no run goes on behind it. -/
def Closed (text : String) : Prop := text = "" ∨ Text.EndsBlank text

instance (text : String) : Decidable (Closed text) :=
  inferInstanceAs (Decidable (_ ∨ _))

theorem trim_eq_self_iff {text : String} : trim text = text ↔ Closed text := by
  rw [trim, ← String.toList_inj, String.toList_ofList, List.rdropWhile_eq_self_iff, Closed,
    Text.EndsBlank, ← String.toList_eq_nil_iff]
  cases text.toList using List.reverseRecOn <;> simp

theorem closed_trim (text : String) : Closed (trim text) := by
  rw [← trim_eq_self_iff, trim, trim, String.toList_ofList, List.rdropWhile_idempotent]

/-- A text is cut where something without blank characters follows a closed text, and nowhere
else. -/
theorem trim_append_eq_iff {front back : String} :
    trim (front ++ back) = front ↔ Closed front ∧ Text.Unblank back := by
  constructor
  · intro cut
    have whole := trim_append_lastRun (front ++ back)
    rw [cut, String.append_right_inj] at whole
    constructor
    · rw [← cut]
      exact closed_trim _
    · rw [← whole]
      exact unblank_lastRun _
  · rintro ⟨closed, plain⟩
    rw [trim_append_of_unblank front plain, trim_eq_self_iff]
    exact closed

theorem lastRun_append_eq_iff {front back : String} :
    lastRun (front ++ back) = back ↔ Closed front ∧ Text.Unblank back := by
  rw [← trim_append_eq_iff]
  have whole := trim_append_lastRun (front ++ back)
  constructor
  · intro run
    rwa [run, String.append_left_inj] at whole
  · intro cut
    rwa [cut, String.append_right_inj] at whole

theorem not_separator_suffix_iff {lead : String} :
    ¬ separator.toList <:+ lead.toList ↔ ∀ front, lead ≠ front ++ separator := by
  constructor
  · rintro h front rfl
    exact h ⟨front.toList, by simp⟩
  · rintro h ⟨front, same⟩
    apply h (String.ofList front)
    simp [← String.toList_inj, same]

@[simp] theorem dropBytes?_indent (front : String) :
    Text.dropBytes? front (indent (front ++ separator)).utf8ByteSize = some (lastRun front) := by
  rw [indent_append_separator, Text.dropBytes?_eq_some_iff]
  exact ⟨trim front, (trim_append_lastRun front).symm, rfl⟩

@[simp] theorem field?_append_separator (front : String) :
    field? (front ++ separator) = if lastRun front = "" then none else some (lastRun front) := by
  simp only [field?, stripReversed?_append_separator, Option.bind_some, List.reverse_reverse,
    String.ofList_toList, dropBytes?_indent]
  by_cases empty : lastRun front = "" <;> simp [empty]

theorem field?_of_ne {lead : String} (h : ∀ front, lead ≠ front ++ separator) :
    field? lead = none := by
  rw [field?, stripReversed?_of_ne h]
  rfl

/-- Taking an annotation off leaves less than the lead. -/
theorem indent_append_separator_ne (front : String) :
    indent (front ++ separator) ≠ front ++ separator := by
  intro same
  have size := congrArg String.utf8ByteSize same
  have le := size_trim_le front
  rw [indent_append_separator, String.utf8ByteSize_append] at size
  have : separator.utf8ByteSize = 2 := rfl
  omega

theorem read_cases (lead : String) :
    (indent lead = lead ∧ field? lead = none) ∨
    ∃ name, lead = indent lead ++ name ++ separator ∧ Closed (indent lead) ∧
      Text.Unblank name ∧ field? lead = if name = "" then none else some name := by
  by_cases ends : ∃ front, lead = front ++ separator
  · obtain ⟨front, rfl⟩ := ends
    refine .inr ⟨lastRun front, ?_, ?_, unblank_lastRun front, field?_append_separator front⟩
    · simp
    · rw [indent_append_separator]
      exact closed_trim front
  · have other : ∀ front, lead ≠ front ++ separator := fun front eq => ends ⟨front, eq⟩
    exact .inl ⟨indent_of_ne other, field?_of_ne other⟩

end Lead

namespace Record

variable (r : Record) (base field : String)

/-- An annotated line gives its indentation back exactly when that is closed and no character of
the field's name is blank, and the name as well when it is not empty. A line without an annotation
gives its indentation back exactly when that does not end like an annotation. -/
theorem reads_make_iff :
    let annotated := { r with lead := Lead.make base (some field) }
    let unannotated := { r with lead := Lead.make base none }
    (annotated.indent = base ↔ Lead.Closed base ∧ Text.Unblank field) ∧
    (annotated.field? = some field ↔
      (Lead.Closed base ∧ Text.Unblank field) ∧ field ≠ "") ∧
    (unannotated.indent = base ↔ ¬ Lead.separator.toList <:+ base.toList) := by
  intro annotated unannotated
  -- both readings cut the text at the same place, in front of its last run without blanks
  refine ⟨?_, ?_, ?_⟩
  · change Lead.indent (base ++ field ++ Lead.separator) = base ↔ _
    simp [Lead.trim_append_eq_iff]
  · change Lead.field? (base ++ field ++ Lead.separator) = some field ↔ _
    rw [Lead.field?_append_separator, ← Lead.lastRun_append_eq_iff]
    constructor
    · intro h
      split at h
      · cases h
      · next nonempty =>
        have run := Option.some.inj h
        exact ⟨run, run ▸ nonempty⟩
    · rintro ⟨run, nonempty⟩
      rw [run, if_neg nonempty]
  · change Lead.indent base = base ↔ _
    rw [Lead.not_separator_suffix_iff]
    constructor
    · rintro same front rfl
      exact Lead.indent_append_separator_ne front same
    · exact Lead.indent_of_ne

/-- Every lead is read without cutting it inside a character or behind its end. What is read as
its indentation is a part at its beginning, and closed unless it is all of the lead. What is read
as a field's name is not empty and has no blank character, and the lead is what is made of the
two. Where no name is read, the lead is the indentation, or that and the separator. -/
theorem reads_lead :
    (∀ rest, r.lead = rest ++ Lead.separator →
      ∃ name, Text.dropBytes? rest r.indent.utf8ByteSize = some name ∧
        r.field? = if name = "" then none else some name) ∧
    (∃ tail, r.lead = r.indent ++ tail) ∧
    (r.indent.utf8ByteSize < r.lead.utf8ByteSize → r.indent = "" ∨ Text.EndsBlank r.indent) ∧
    (∀ name, r.field? = some name →
      name ≠ "" ∧ Text.Unblank name ∧ Lead.make r.indent r.field? = r.lead) ∧
    (r.field? = none → r.lead = r.indent ∨ r.lead = r.indent ++ Lead.separator) := by
  unfold Record.indent Record.field?
  refine ⟨?_, ?_⟩
  · intro rest split
    rw [split]
    exact ⟨_, Lead.dropBytes?_indent rest, Lead.field?_append_separator rest⟩
  · rcases Lead.read_cases r.lead with ⟨whole, unnamed⟩ | ⟨name, split, closed, plain, read⟩
    · refine ⟨⟨"", ?_⟩, ?_⟩
      · rw [whole, String.append_empty]
      · simp [whole, unnamed]
    · refine ⟨⟨name ++ Lead.separator, ?_⟩, fun _ => closed, ?_, ?_⟩
      · rw [← String.append_assoc]
        exact split
      · intro name' named
        rw [read] at named ⊢
        split at named
        · cases named
        · next nonempty =>
          obtain rfl := Option.some.inj named
          rw [if_neg nonempty]
          exact ⟨nonempty, plain, split.symm⟩
      · intro unnamed
        rw [read] at unnamed
        split at unnamed
        · next empty =>
          rw [empty, String.append_empty] at split
          exact .inr split
        · cases unnamed

end Record

end TreeListing
