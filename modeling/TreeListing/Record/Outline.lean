import TreeListing.Record

/-!
# Queries on a listing

The records of a listing, without the tree they come from, still tell its shape: each record's
level is its indentation beyond that of the first record, and a record's parent is the nearest
earlier one on a smaller level.
-/

namespace TreeListing.Outline

def base : List Record → String
  | [] => ""
  | first :: _ => first.indent

def depths (records : List Record) : List Nat :=
  records.map (·.depthBelow (base records))

/-- The parents of records with the given depths, the first of which has number `index`.
`opened` holds the records a new one can be below, each with its depth, the deepest first. -/
def parentsFrom (index : Nat) (opened : List (Nat × Nat)) : List Nat → List (Option Nat)
  | [] => []
  | depth :: rest =>
    let enclosing := opened.dropWhile fun (d, _) => depth ≤ d
    enclosing.head?.map (·.2) :: parentsFrom (index + 1) ((depth, index) :: enclosing) rest

def parents (records : List Record) : List (Option Nat) :=
  parentsFrom 0 [] (depths records)

@[simp] theorem length_parentsFrom (index : Nat) (opened : List (Nat × Nat)) (depths : List Nat) :
    (parentsFrom index opened depths).length = depths.length := by
  induction depths generalizing index opened with
  | nil => rfl
  | cons d rest ih => simp [parentsFrom, ih]

@[simp] theorem length_parents (records : List Record) :
    (parents records).length = records.length := by
  simp [parents, depths]

/-- Of two candidates with their depths the deeper one; of equal ones the later. -/
def deeper (best : Option (Nat × Nat)) (depth index : Nat) : Option (Nat × Nat) :=
  match best with
  | none => some (depth, index)
  | some (d, i) => if d ≤ depth then some (depth, index) else some (d, i)

/-- The number of the deepest record whose span contains a position. -/
def indexAt? (records : List Record) (p : Position) : Option Nat :=
  let containing := records.zipIdx.filter fun (r, _) => r.contains p
  let deepest := containing.foldl
    (fun best (r, index) => deeper best (r.depthBelow (base records)) index) none
  deepest.map (·.2)

def indexOf? (records : List Record) (id : Nat) : Option Nat :=
  records.findIdx? (·.id = id)

def recordAt? (records : List Record) (p : Position) : Option Record :=
  (indexAt? records p).bind (records[·]?)

def recordOf? (records : List Record) (id : Nat) : Option Record :=
  (indexOf? records id).bind (records[·]?)

end TreeListing.Outline
