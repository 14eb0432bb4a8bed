import Mathlib.Data.List.Basic
import TreeListing.Proofs.Storage
import TreeListing.Proofs.Traversal

/-!
# The rows of a tree

The row of a node holds what a line of a listing shows of it, with the depth in place of the
indentation. The rows of a tree, from top to bottom, determine the tree but for the flags that say
which nodes are named: what is below a node goes on up to the first row that is not deeper. A
listing that shows all nodes and all fields has one line for each row.
-/

namespace TreeListing

/-- What a line of a listing shows of a node. -/
@[ext]
structure Row where
  depth : Nat
  field : Option String
  kind : String
  start : Position
  stop : Position

namespace Node

mutual
/-- The rows of a node at a depth and of all that is below it, from top to bottom. -/
def rows (depth : Nat) (field : Option String) : Node → List Row
  | mk kind start stop _ children =>
    ⟨depth, field, kind, start, stop⟩ :: rowsAll (depth + 1) children

def rowsAll (depth : Nat) : List (Option String × Node) → List Row
  | [] => []
  | (field, child) :: rest => child.rows depth field ++ rowsAll depth rest
end

mutual
/-- The same tree with no regard to which nodes are named: all of them are. -/
def unflagged : Node → Node
  | mk kind start stop _ children => mk kind start stop true (unflaggedAll children)

def unflaggedAll : List (Option String × Node) → List (Option String × Node)
  | [] => []
  | (field, child) :: rest => (field, child.unflagged) :: unflaggedAll rest
end

mutual
@[simp] theorem rows_unflagged (depth : Nat) (field : Option String) :
    ∀ node : Node, node.unflagged.rows depth field = node.rows depth field
  | mk kind start stop named children => by
    simp [unflagged, rows, rowsAll_unflaggedAll (depth + 1) children]

@[simp] theorem rowsAll_unflaggedAll (depth : Nat) :
    ∀ children, rowsAll depth (unflaggedAll children) = rowsAll depth children
  | [] => rfl
  | (field, child) :: rest => by
    rw [unflaggedAll, rowsAll, rowsAll, rows_unflagged depth field child,
      rowsAll_unflaggedAll depth rest]
end

/-- The rows that follow a list of subtrees go on above its depth. -/
def Above (depth : Nat) (rest : List Row) : Prop := ∀ r ∈ rest.head?, r.depth < depth

theorem above_nil (depth : Nat) : Above depth [] := by
  intro r hr
  cases hr

theorem Above.succ {depth : Nat} {rest : List Row} (h : Above depth rest) :
    Above (depth + 1) rest := fun r hr => Nat.lt_succ_of_lt (h r hr)

/-- A subtree goes on up to the row of its next sibling, or to the end of all siblings. -/
theorem above_rowsAll_append {depth : Nat} {children : List (Option String × Node)}
    {rest : List Row} (h : Above depth rest) :
    Above (depth + 1) (rowsAll depth children ++ rest) := by
  cases children with
  | nil => exact h.succ
  | cons slot children =>
    obtain ⟨field, kind, start, stop, named, below⟩ := slot
    intro r hr
    rw [rowsAll, rows, List.cons_append, List.cons_append, List.head?_cons,
      Option.mem_some_iff] at hr
    rw [← hr]
    exact Nat.lt_succ_self depth

theorem not_above_rows {depth : Nat} {field : Option String} {node : Node} {rest : List Row} :
    ¬ Above depth (node.rows depth field ++ rest) := by
  obtain ⟨kind, start, stop, named, below⟩ := node
  intro h
  have := h _ (by rw [rows, List.cons_append]; exact rfl)
  exact absurd this (Nat.lt_irrefl depth)

mutual
theorem rows_append_inj {depth : Nat} {field field' : Option String} {rest rest' : List Row}
    (above : Above (depth + 1) rest) (above' : Above (depth + 1) rest') :
    ∀ {node node' : Node},
      node.rows depth field ++ rest = node'.rows depth field' ++ rest' →
      field = field' ∧ node.unflagged = node'.unflagged ∧ rest = rest'
  | mk kind start stop named below, mk kind' start' stop' named' below', h => by
    rw [rows, rows, List.cons_append, List.cons_append] at h
    obtain ⟨row, h⟩ := List.cons.inj h
    obtain ⟨_, field_eq, kind_eq, start_eq, stop_eq⟩ := Row.mk.inj row
    obtain ⟨below_eq, rest_eq⟩ := rowsAll_append_inj above above' h
    rw [unflagged, unflagged, kind_eq, start_eq, stop_eq, below_eq]
    exact ⟨field_eq, rfl, rest_eq⟩

theorem rowsAll_append_inj {depth : Nat} {rest rest' : List Row} (above : Above depth rest)
    (above' : Above depth rest') :
    ∀ {below below' : List (Option String × Node)},
      rowsAll depth below ++ rest = rowsAll depth below' ++ rest' →
      unflaggedAll below = unflaggedAll below' ∧ rest = rest'
  | [], [], h => ⟨rfl, h⟩
  | [], (_, child') :: _, h => by
    rw [rowsAll, rowsAll, List.nil_append, List.append_assoc] at h
    exact absurd (h ▸ above) not_above_rows
  | (_, child) :: _, [], h => by
    rw [rowsAll, rowsAll, List.nil_append, List.append_assoc] at h
    exact absurd (h ▸ above') not_above_rows
  | (field, child) :: below, (field', child') :: below', h => by
    rw [rowsAll, rowsAll, List.append_assoc, List.append_assoc] at h
    obtain ⟨field_eq, child_eq, h⟩ := rows_append_inj (above_rowsAll_append above)
      (above_rowsAll_append above') h
    obtain ⟨below_eq, rest_eq⟩ := rowsAll_append_inj above above' h
    rw [unflaggedAll, unflaggedAll, field_eq, child_eq, below_eq]
    exact ⟨rfl, rest_eq⟩
end

/-- The rows determine the tree, but for which of its nodes are named. -/
theorem rows_eq_iff {a b : Node} :
    a.rows 0 none = b.rows 0 none ↔ a.unflagged = b.unflagged := by
  constructor
  · intro h
    have rows : a.rows 0 none ++ [] = b.rows 0 none ++ [] := by rw [h]
    exact (rows_append_inj (above_nil 1) (above_nil 1) rows).2.1
  · intro h
    rw [← rows_unflagged, h, rows_unflagged]

mutual
def words : Node → List String
  | mk kind _ _ _ children => kind :: wordsAll children

def wordsAll : List (Option String × Node) → List String
  | [] => []
  | (field, child) :: rest => field.toList ++ child.words ++ wordsAll rest
end

mutual
theorem mem_words_of_mem_rows {depth : Nat} {field : Option String} :
    ∀ {node : Node} {r : Row}, r ∈ node.rows depth field →
      r.kind ∈ node.words ∧ ∀ name, r.field = some name → field = some name ∨ name ∈ node.words
  | mk kind start stop named below, r, h => by
    rw [rows, List.mem_cons] at h
    rw [words]
    rcases h with rfl | h
    · exact ⟨List.mem_cons_self, fun name hn => .inl hn⟩
    · obtain ⟨kind_mem, field_mem⟩ := mem_wordsAll_of_mem_rowsAll h
      exact ⟨List.mem_cons_of_mem _ kind_mem, fun name hn =>
        .inr (List.mem_cons_of_mem _ (field_mem name hn))⟩

theorem mem_wordsAll_of_mem_rowsAll {depth : Nat} :
    ∀ {below : List (Option String × Node)} {r : Row}, r ∈ rowsAll depth below →
      r.kind ∈ wordsAll below ∧ ∀ name, r.field = some name → name ∈ wordsAll below
  | (field, child) :: rest, r, h => by
    rw [rowsAll, List.mem_append] at h
    simp only [wordsAll, List.mem_append]
    rcases h with h | h
    · obtain ⟨kind_mem, field_mem⟩ := mem_words_of_mem_rows h
      refine ⟨.inl (.inr kind_mem), fun name hn => ?_⟩
      rcases field_mem name hn with rfl | mem
      · exact .inl (.inl (List.mem_singleton_self name))
      · exact .inl (.inr mem)
    · obtain ⟨kind_mem, field_mem⟩ := mem_wordsAll_of_mem_rowsAll h
      exact ⟨.inr kind_mem, fun name hn => .inr (field_mem name hn)⟩
end

end Node

end TreeListing
