import Mathlib.Data.List.Induction
import Mathlib.Data.List.Nodup
import TreeListing.Dictionary

/-!
# Lookups in entries of any order

What is looked up under a name does not depend on the order of the entries, as long as all entries
with that name have one value.
-/

namespace TreeListing

variable {α : Type}

theorem mem_of_lookup_eq_some {entries : List (String × α)} {name : String} {value : α}
    (h : entries.lookup name = some value) : (name, value) ∈ entries := by
  obtain ⟨before, after, rfl, _⟩ := List.lookup_eq_some_iff.1 h
  exact List.mem_append_right _ List.mem_cons_self

theorem lookup_eq_none_iff_not_mem {entries : List (String × α)} {name : String} :
    entries.lookup name = none ↔ name ∉ entries.map Prod.fst := by
  rw [List.lookup_eq_none_iff]
  constructor
  · intro absent mem
    obtain ⟨entry, he, rfl⟩ := List.mem_map.1 mem
    simpa using absent entry he
  · intro absent entry he
    rw [bne_iff_ne]
    rintro rfl
    exact absent (List.mem_map_of_mem he)

def Agrees (entries : List (String × α)) (name : String) : Prop :=
  ∀ v w, (name, v) ∈ entries → (name, w) ∈ entries → v = w

theorem Agrees.of_nodup {entries : List (String × α)} (h : (entries.map Prod.fst).Nodup)
    (name : String) : Agrees entries name := by
  intro v w hv hw
  have same := List.inj_on_of_nodup_map h hv hw rfl
  exact (Prod.mk.inj same).2

theorem Agrees.lookup_eq_some {entries : List (String × α)} {name : String} {value : α}
    (agrees : Agrees entries name) (mem : (name, value) ∈ entries) :
    entries.lookup name = some value := by
  cases found : entries.lookup name with
  | none =>
    rw [lookup_eq_none_iff_not_mem] at found
    exact absurd (List.mem_map_of_mem mem) found
  | some v => rw [agrees v value (mem_of_lookup_eq_some found) mem]

theorem lookup_eq_of_perm {a b : List (String × α)} {name : String} (perm : a.Perm b)
    (agrees : Agrees a name) : a.lookup name = b.lookup name := by
  cases hb : b.lookup name with
  | none =>
    rw [lookup_eq_none_iff_not_mem] at hb ⊢
    exact fun mem => hb ((perm.map Prod.fst).subset mem)
  | some w => exact agrees.lookup_eq_some (perm.symm.subset (mem_of_lookup_eq_some hb))

namespace Dictionary

theorem find?_of_perm {d d' : Dictionary α} (perm : d.entries.Perm d'.entries) (name : String) :
    d.find? name = d'.find? name :=
  lookup_eq_of_perm perm (.of_nodup d.distinct name)

@[simp] theorem find?_ofList (entries : List (String × α)) (name : String) :
    (ofList entries).find? name = entries.reverse.lookup name := by
  induction entries using List.reverseRecOn with
  | nil => rfl
  | append_singleton rest entry ih =>
    rw [ofList, List.foldl_append, List.foldl_cons, List.foldl_nil, ← ofList, find?_insert, ih,
      List.reverse_append, List.reverse_singleton, List.singleton_append, List.lookup_cons]
    by_cases h : name = entry.1
    · simp [h]
    · rw [if_neg h, beq_false_of_ne h]

theorem find?_ofList_of_mem {entries : List (String × α)} {name : String} {value : α}
    (agrees : Agrees entries name) (mem : (name, value) ∈ entries) :
    (ofList entries).find? name = some value := by
  rw [find?_ofList, ← lookup_eq_of_perm (List.reverse_perm _).symm agrees]
  exact agrees.lookup_eq_some mem

theorem find?_ofList_eq_none_iff {entries : List (String × α)} {name : String} :
    (ofList entries).find? name = none ↔ name ∉ entries.map Prod.fst := by
  rw [find?_ofList, lookup_eq_none_iff_not_mem, List.map_reverse, List.mem_reverse]

@[simp] theorem find?_ofList_concat (entries : List (String × α)) (entry : String × α) :
    (ofList (entries ++ [entry])).find? entry.1 = some entry.2 := by
  rw [find?_ofList, List.reverse_append, List.reverse_singleton, List.singleton_append,
    List.lookup_cons_self]

theorem find?_ofList_of_perm {a b : List (String × α)} {name : String} (perm : a.Perm b)
    (agrees : Agrees a name) : (ofList a).find? name = (ofList b).find? name := by
  have reversed : a.reverse.Perm b.reverse :=
    (a.reverse_perm.trans perm).trans b.reverse_perm.symm
  rw [find?_ofList, find?_ofList]
  apply lookup_eq_of_perm reversed
  intro v w hv hw
  exact agrees v w (List.mem_reverse.1 hv) (List.mem_reverse.1 hw)

end Dictionary

end TreeListing
