/-!
# Structured values

The values that settings, trees and records are written as and read from, whatever the notation.
A structure is written as an object with its fields as members, or as the list of its fields in
the order in which they are declared.
-/

namespace TreeListing

inductive Value where
  | null
  | bool (value : Bool)
  | integer (value : Int)
  /-- A number that is not written as a whole one. -/
  | fraction (written : String)
  | string (value : String)
  | list (items : List Value)
  | object (members : List (String × Value))
  deriving Inhabited, Repr

namespace Value

/-- The points in which notations differ when a structure is read. -/
structure Conventions where
  /-- Whether a structure written as a list may have more items than fields. -/
  surplus : Bool
  /-- The values that may stand beside the name of an alternative that carries no data. -/
  empty : Value → Bool

namespace Conventions

/-- Lists have no surplus items, and only `null` is empty. -/
def strict : Conventions where
  surplus := false
  empty
    | null => true
    | _ => false

/-- Surplus items of a list are passed over; a list or an object without members is empty. -/
def lenient : Conventions where
  surplus := true
  empty
    | list [] => true
    | object [] => true
    | _ => false

end Conventions

/-- The members of a structure with the given fields, by name. -/
def structure? (c : Conventions) (fields : List String) : Value → Option (List (String × Value))
  | object members => some members
  | list items =>
    if c.surplus || items.length ≤ fields.length then some (fields.zip items) else none
  | _ => none

def field? (members : List (String × Value)) (name : String) (read : Value → Option α) : Option α :=
  (members.lookup name).bind read

def fieldOr? (members : List (String × Value)) (name : String) (default : α)
    (read : Value → Option α) : Option α :=
  match members.lookup name with
  | none => some default
  | some value => read value

def string? : Value → Option String
  | string value => some value
  | _ => none

def bool? : Value → Option Bool
  | bool value => some value
  | _ => none

def wordLimit : Nat := 0x10000000000000000

def natural? : Value → Option Nat
  | integer value => if 0 ≤ value ∧ value < wordLimit then some value.toNat else none
  | _ => none

def optionalString? : Value → Option (Option String)
  | null => some none
  | string value => some (some value)
  | _ => none

def list? (read : Value → Option α) : Value → Option (List α)
  | list items => items.mapM read
  | _ => none

/-- One of several alternatives by its name, alone or as the only member of an object. -/
def choice? (c : Conventions) (alternatives : List (String × α)) : Value → Option α
  | string name => alternatives.lookup name
  | object [(name, data)] => if c.empty data then alternatives.lookup name else none
  | _ => none

theorem natural?_integer {n : Nat} (h : n < wordLimit) : natural? (integer n) = some n := by
  simp [natural?]
  omega

theorem mem_of_lookup {members : List (String × Value)} {name : String} {value : Value}
    (h : members.lookup name = some value) : (name, value) ∈ members := by
  induction members with
  | nil => simp at h
  | cons m rest ih =>
    obtain ⟨key, v⟩ := m
    rw [List.lookup_cons] at h
    split at h
    · next heq =>
      rw [beq_iff_eq] at heq
      simp only [Option.some.injEq] at h
      simp [heq, h]
    · exact List.mem_cons_of_mem _ (ih h)

/-- A member is smaller than its structure, so that readers of nested structures end. -/
theorem sizeOf_lt_of_structure? {c : Conventions} {fields : List String} {v w : Value}
    {members : List (String × Value)} {name : String} (h : v.structure? c fields = some members)
    (hw : members.lookup name = some w) : sizeOf w < sizeOf v := by
  have hmem := mem_of_lookup hw
  cases v with
  | object ms =>
    simp only [structure?, Option.some.injEq] at h
    subst h
    have := List.sizeOf_lt_of_mem hmem
    simp only [Prod.mk.sizeOf_spec, object.sizeOf_spec] at *
    omega
  | list items =>
    simp only [structure?] at h
    split at h
    · simp only [Option.some.injEq] at h
      subst h
      have := List.sizeOf_lt_of_mem (List.of_mem_zip hmem).2
      simp only [list.sizeOf_spec]
      omega
    · cases h
  | _ => simp [structure?] at h

theorem sizeOf_lt_of_mem {items : List Value} {item : Value} (h : item ∈ items) :
    sizeOf item < sizeOf (list items) := by
  have := List.sizeOf_lt_of_mem h
  simp only [list.sizeOf_spec]
  omega

end Value

end TreeListing
