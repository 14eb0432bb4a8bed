import TreeListing.Text

/-!
# What stands before a node's name

The lead of a line is its indentation, and after it, when the node occupies a field that is shown,
the field's name and a colon. Read back, the annotation is the last run of characters that are not
blank, provided that the lead ends with the separator.
-/

namespace TreeListing.Lead

def separator : String := ": "

def make (indent : String) : Option String → String
  | none => indent
  | some field => indent ++ field ++ separator

/-- The lead without the separator at its end, last character first. -/
def stripReversed? (lead : String) : Option (List Char) :=
  match lead.toList.reverse with
  | ' ' :: ':' :: rest => some rest
  | _ => none

/-- The indentation: all of the lead, or what stands before its annotation. -/
def indent (lead : String) : String :=
  match stripReversed? lead with
  | none => lead
  | some rest => String.ofList (rest.dropWhile (!Text.isBlank ·)).reverse

/-- The field's name in the annotation, if there is one and it is not empty: what is left between
the indentation, which is counted in bytes, and the separator. -/
def field? (lead : String) : Option String :=
  (stripReversed? lead).bind fun rest =>
    (Text.dropBytes? (String.ofList rest.reverse) (indent lead).utf8ByteSize).filter (· ≠ "")

theorem stripReversed?_eq_some_iff {lead : String} {rest : List Char} :
    stripReversed? lead = some rest ↔ lead.toList = rest.reverse ++ separator.toList := by
  unfold stripReversed?
  constructor
  · intro h
    split at h
    · next r hr =>
      have := congrArg List.reverse hr
      simp only [List.reverse_reverse, List.reverse_cons, List.append_assoc] at this
      simpa [separator, ← Option.some.inj h] using this
    · cases h
  · intro h
    have : lead.toList.reverse = ' ' :: ':' :: rest := by simp [h, separator]
    rw [this]
    rfl

end TreeListing.Lead
