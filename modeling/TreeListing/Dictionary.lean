/-!
# Dictionaries

Values under names, each name once, in the order in which the names were first given.
-/

namespace TreeListing

structure Dictionary (α : Type) where
  entries : List (String × α)
  distinct : (entries.map Prod.fst).Nodup
  deriving DecidableEq

namespace Dictionary

variable {α : Type}

def empty : Dictionary α := ⟨[], .nil⟩

instance : Inhabited (Dictionary α) := ⟨empty⟩

/-- The entries with a value under a name, in place of the one that was there or at the end. -/
def put (name : String) (value : α) : List (String × α) → List (String × α)
  | [] => [(name, value)]
  | entry :: rest =>
    if entry.1 = name then (name, value) :: rest else entry :: put name value rest

theorem mem_names_put {name other : String} {value : α} {entries : List (String × α)} :
    other ∈ (put name value entries).map Prod.fst ↔
      other = name ∨ other ∈ entries.map Prod.fst := by
  induction entries with
  | nil => simp [put]
  | cons entry rest ih => by_cases h : entry.1 = name <;> grind [put]

theorem nodup_put {name : String} {value : α} {entries : List (String × α)}
    (h : (entries.map Prod.fst).Nodup) : ((put name value entries).map Prod.fst).Nodup := by
  induction entries with
  | nil => simp [put]
  | cons entry rest ih =>
    rw [List.map_cons, List.nodup_cons] at h
    by_cases hn : entry.1 = name
    · rw [put, if_pos hn, List.map_cons, List.nodup_cons]
      exact ⟨hn ▸ h.1, h.2⟩
    · rw [put, if_neg hn, List.map_cons, List.nodup_cons, mem_names_put, not_or]
      exact ⟨⟨hn, h.1⟩, ih h.2⟩

def insert (d : Dictionary α) (name : String) (value : α) : Dictionary α :=
  ⟨put name value d.entries, nodup_put d.distinct⟩

/-- Of several values for a name, the last one is kept. -/
def ofList (entries : List (String × α)) : Dictionary α :=
  entries.foldl (fun d entry => d.insert entry.1 entry.2) empty

def find? (d : Dictionary α) (name : String) : Option α := d.entries.lookup name

@[simp] theorem lookup_put (name other : String) (value : α) (entries : List (String × α)) :
    (put name value entries).lookup other =
      if other = name then some value else entries.lookup other := by
  induction entries with
  | nil => grind [put]
  | cons entry rest ih => by_cases h : entry.1 = name <;> grind [put]

@[simp] theorem find?_insert (d : Dictionary α) (name other : String) (value : α) :
    (d.insert name value).find? other = if other = name then some value else d.find? other :=
  lookup_put name other value d.entries

end Dictionary

end TreeListing
