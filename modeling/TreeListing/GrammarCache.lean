import TreeListing.Error

/-!
# Grammars that are kept

A grammar is loaded when it is first asked for and kept under its number, in a table with a slot for
each number. Asking takes two steps, so that callers can share a cache: a look, and where nothing
was found a settling step, which looks again before it makes a slot and loads.

Numbers are words of the machine. A settling step breaks off if there can be no slot for the number,
and leaves the lock of the cache poisoned; every later call is refused.
-/

namespace TreeListing

/-- What a cache relies on. -/
structure Machine where
  /-- Whether a call breaks off at a sum that is beyond the greatest word. Otherwise the sum starts
  again from zero. -/
  checksSums : Bool
  /-- The most slots that a table can have. -/
  room : Nat
  deriving DecidableEq, Repr

namespace Machine

variable (machine : Machine)

def next? (word : UInt64) : Option UInt64 :=
  if machine.checksSums ∧ word + 1 = 0 then none else some (word + 1)

/-- Whether a table can have a slot with a number. -/
def HasSlot (index : UInt64) : Prop :=
  index.toNat + 1 < UInt64.size ∧ index.toNat + 1 ≤ machine.room

instance : DecidablePred machine.HasSlot :=
  fun index =>
    inferInstanceAs (Decidable (index.toNat + 1 < UInt64.size ∧ index.toNat + 1 ≤ machine.room))

variable {index : UInt64}

theorem next?_of_lt (isWord : index.toNat + 1 < UInt64.size) :
    ∃ word, machine.next? index = some word ∧ word.toNat = index.toNat + 1 := by
  have succ : (index + 1).toNat = index.toNat + 1 := by
    simpa [UInt64.toNat_add] using isWord
  have ne : index + 1 ≠ 0 := fun zero => by simp [zero] at succ
  exact ⟨index + 1, by simp [next?, ne], succ⟩

theorem succ_eq_zero (greatest : UInt64.size ≤ index.toNat + 1) : index + 1 = 0 := by
  apply UInt64.toNat_inj.1
  have bound := index.toNat_lt_size
  simp only [UInt64.toNat_add, UInt64.toNat_one, UInt64.toNat_zero, UInt64.size] at *
  omega

end Machine

structure GrammarCache (α : Type) where
  /-- What is kept, by number; numbers beyond the end have nothing. -/
  slots : List (Option α)
  poisoned : Bool
  deriving DecidableEq, Repr

namespace GrammarCache

/-- What a call comes to. -/
inductive Outcome (α : Type) where
  | got (grammar : α)
  | refused (e : Error)
  | brokeOff
  deriving DecidableEq, Repr

variable {α : Type} (cache : GrammarCache α)

def empty : GrammarCache α := ⟨[], false⟩

def find? (index : UInt64) : Option α := cache.slots[index.toNat]?.join

/-- The number of grammars that are kept, as far as the lock lets them be counted. -/
def size : Nat := if cache.poisoned then 0 else cache.slots.countP Option.isSome

def isEmpty : Bool := cache.size == 0

def poisonedLock : Error :=
  .grammar "Cache lock poisoned: poisoned lock: another task failed inside"

/-- What a call comes to if a look is enough for it. -/
def look (index : UInt64) : Option (Outcome α) :=
  if cache.poisoned then some (.refused poisonedLock) else (cache.find? index).map .got

/-- The slots after one with a number is asked for. They get the length that the machine finds,
which is less than before if the sum started again from zero. -/
def resize? (machine : Machine) (index : UInt64) : Option (List (Option α)) :=
  if index.toNat < cache.slots.length then some cache.slots
  else
    match machine.next? index with
    | none => none
    | some length =>
      if length.toNat ≤ machine.room then
        some ((cache.slots.take length.toNat).rightpad length.toNat none)
      else none

/-- A grammar that was loaded is put into its slot, if there is one. -/
def put (slots : List (Option α)) (index : UInt64) (grammar : α) : Outcome α × GrammarCache α :=
  if index.toNat < slots.length then
    (.got grammar, ⟨slots.set index.toNat (some grammar), false⟩)
  else (.brokeOff, ⟨slots, true⟩)

/-- The step after a look that was not enough. Loading has its effects only in the last case. -/
def settle {m : Type → Type} [Monad m] (machine : Machine) (index : UInt64) (load : Unit → m α) :
    m (Outcome α × GrammarCache α) :=
  match cache.look index with
  | some outcome => return (outcome, cache)
  | none =>
    match cache.resize? machine index with
    | none => return (.brokeOff, { cache with poisoned := true })
    | some slots => return put slots index (← load ())

/-- The grammar with a number, which is loaded if it is not kept yet. -/
def getOrLoad {m : Type → Type} [Monad m] (machine : Machine) (index : UInt64)
    (load : Unit → m α) : m (Outcome α × GrammarCache α) :=
  match cache.look index with
  | some outcome => return (outcome, cache)
  | none => cache.settle machine index load

variable {cache} {machine : Machine} {index : UInt64} {slots : List (Option α)}

@[simp] theorem look_eq_none_iff :
    cache.look index = none ↔ cache.poisoned = false ∧ cache.find? index = none := by
  cases locked : cache.poisoned <;> simp [look, locked]

@[simp] theorem look_eq_got_iff {grammar : α} :
    cache.look index = some (.got grammar) ↔
      cache.poisoned = false ∧ cache.find? index = some grammar := by
  cases locked : cache.poisoned <;> simp [look, locked]

theorem exists_of_resize? (resized : cache.resize? machine index = some slots)
    (inside : index.toNat < slots.length) :
    ∃ count, slots = cache.slots ++ List.replicate count none := by
  unfold resize? at resized
  split at resized
  · exact ⟨0, by simpa using resized.symm⟩
  · split at resized
    · cases resized
    · split at resized
      · cases resized
        simp only [List.length_rightpad, List.length_take] at inside
        exact ⟨_, congrArg (· ++ _) (List.take_of_length_le (by omega))⟩
      · cases resized

variable (cache) in
/-- The machine gives a slot to every number that can have one. -/
theorem exists_slot (has : machine.HasSlot index) :
    ∃ slots, cache.resize? machine index = some slots ∧ index.toNat < slots.length := by
  by_cases inside : index.toNat < cache.slots.length
  · exact ⟨cache.slots, if_pos inside, inside⟩
  · obtain ⟨isWord, fits⟩ := has
    obtain ⟨length, next, length_eq⟩ := machine.next?_of_lt isWord
    refine ⟨(cache.slots.take length.toNat).rightpad length.toNat none, ?_, ?_⟩
    · rw [resize?, if_neg inside]
      simp only [next, length_eq, if_pos fits]
    · simp only [List.length_rightpad]
      omega

/-- Where sums are not checked, a slot for the greatest number costs all the others. -/
theorem resize?_greatest (unchecked : machine.checksSums = false)
    (greatest : UInt64.size ≤ index.toNat + 1) (outside : cache.slots.length ≤ index.toNat) :
    cache.resize? machine index = some [] := by
  have next : machine.next? index = some 0 := by
    simp [Machine.next?, unchecked, Machine.succ_eq_zero greatest]
  rw [resize?, if_neg (Nat.not_lt.2 outside)]
  simp [next]

end GrammarCache

end TreeListing
