import TreeListing.Position
import TreeListing.Record.Lead

/-!
# Records

One line of a listing: a node's id and span, and the text shown for it in three parts, the lead,
the name and the span. The id and the span lead from a line that is shown to the source.
-/

namespace TreeListing

@[ext]
structure Record where
  id : Nat
  start : Position
  stop : Position
  /-- The indentation, and the annotation with a field's name if there is one. -/
  lead : String
  name : String
  suffix : String
  deriving DecidableEq, Inhabited, Repr

namespace Record

variable (r : Record)

def indent : String := Lead.indent r.lead

def field? : Option String := Lead.field? r.lead

/-- The level below a base indentation, of which each level below takes two bytes more. -/
def depthBelow (base : String) : Nat :=
  (r.indent.utf8ByteSize - base.utf8ByteSize) / 2

def depth : Nat := r.depthBelow ""

/-- Whether a position lies in the span; its end does not. -/
def contains (p : Position) : Bool := r.start ≤ p && p < r.stop

def text : String := r.lead ++ r.name ++ r.suffix

@[simp] theorem contains_iff {p : Position} : r.contains p = true ↔ r.start ≤ p ∧ p < r.stop := by
  simp [contains]

def listing (records : List Record) : String :=
  String.join (records.map fun r => r.text ++ "\n")

end Record

end TreeListing
