/-!
# Positions in source text

A position is a zero-based line and a zero-based column. Positions are ordered by line first,
and written `[row, column]`.
-/

namespace TreeListing

@[ext]
structure Position where
  row : Nat
  column : Nat
  deriving DecidableEq, Inhabited, Repr

namespace Position

/-- Lexicographic: the row decides, the column breaks ties. -/
def compare (a b : Position) : Ordering :=
  (Ord.compare a.row b.row).then (Ord.compare a.column b.column)

instance : Ord Position := ⟨compare⟩

instance : LT Position :=
  ⟨fun a b => a.row < b.row ∨ a.row = b.row ∧ a.column < b.column⟩

instance : LE Position :=
  ⟨fun a b => a.row < b.row ∨ a.row = b.row ∧ a.column ≤ b.column⟩

theorem lt_iff {a b : Position} :
    a < b ↔ a.row < b.row ∨ a.row = b.row ∧ a.column < b.column := Iff.rfl

theorem le_iff {a b : Position} :
    a ≤ b ↔ a.row < b.row ∨ a.row = b.row ∧ a.column ≤ b.column := Iff.rfl

instance : DecidableRel (α := Position) (· < ·) := fun _ _ => decidable_of_iff _ lt_iff.symm

instance : DecidableRel (α := Position) (· ≤ ·) := fun _ _ => decidable_of_iff _ le_iff.symm

def text (p : Position) : String :=
  "[" ++ toString p.row ++ ", " ++ toString p.column ++ "]"

def spanText (start stop : Position) : String :=
  " " ++ start.text ++ " - " ++ stop.text

/-- The position after a text that starts at a position. Columns count bytes. -/
def advance (p : Position) : List Char → Position
  | [] => p
  | c :: rest =>
    advance (if c = '\n' then ⟨p.row + 1, 0⟩ else ⟨p.row, p.column + c.utf8Size⟩) rest

@[simp] theorem advance_append (p : Position) (a b : List Char) :
    p.advance (a ++ b) = (p.advance a).advance b := by
  induction a generalizing p with
  | nil => rfl
  | cons c a ih => exact ih _

theorem not_le {a b : Position} : ¬ a ≤ b ↔ b < a := by
  simp only [lt_iff, le_iff]
  omega

theorem lt_irrefl (a : Position) : ¬ a < a := by
  simp only [lt_iff]
  omega

theorem le_trans {a b c : Position} (h : a ≤ b) (h' : b ≤ c) : a ≤ c := by
  simp only [le_iff] at h h' ⊢
  omega

theorem lt_of_lt_of_le {a b c : Position} (h : a < b) (h' : b ≤ c) : a < c := by
  simp only [lt_iff, le_iff] at h h' ⊢
  omega

end Position

end TreeListing
