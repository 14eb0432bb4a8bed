import Mathlib.Data.Finset.Card
import TreeListing.GrammarCache

/-!
# Callers that share a cache

Any number of calls ask one cache for grammars. Each looks, and if that is not enough, it settles
later; between the two steps the others may do anything. Whatever the order of the steps, no number
is loaded twice, and every call that gets a grammar gets what the one loader for its number gave. As
long as the lock is not poisoned, the cache holds exactly what the loaders have given. Only a call
whose number can have no slot poisons it.
-/

namespace TreeListing.GrammarCache

variable {α : Type} {machine : Machine}

section Slots

variable {cache : GrammarCache α} {index other : UInt64} {slots : List (Option α)} {grammar : α}

@[simp] theorem find?_set_self (inside : index.toNat < slots.length) :
    (⟨slots.set index.toNat (some grammar), false⟩ : GrammarCache α).find? index =
      some grammar := by
  simp [find?, inside]

theorem find?_set_of_ne (resized : cache.resize? machine index = some slots)
    (inside : index.toNat < slots.length) (ne : other ≠ index) :
    (⟨slots.set index.toNat (some grammar), false⟩ : GrammarCache α).find? other =
      cache.find? other := by
  obtain ⟨count, rfl⟩ := exists_of_resize? resized inside
  have apart : index.toNat ≠ other.toNat := fun same => ne (UInt64.toNat_inj.1 same.symm)
  simp only [find?, List.getElem?_set_ne apart, List.getElem?_append]
  split
  · rfl
  · next outside =>
    rw [List.getElem?_eq_none (Nat.not_lt.1 outside), List.getElem?_replicate]
    split <;> rfl

theorem size_set (absent : cache.look index = none)
    (resized : cache.resize? machine index = some slots) (inside : index.toNat < slots.length) :
    (⟨slots.set index.toNat (some grammar), false⟩ : GrammarCache α).size = cache.size + 1 := by
  obtain ⟨unlocked, absent⟩ := look_eq_none_iff.1 absent
  obtain ⟨count, rfl⟩ := exists_of_resize? resized inside
  have free : (cache.slots ++ List.replicate count none)[index.toNat].isSome = false := by
    simp only [find?] at absent
    rw [List.getElem_append]
    split
    · next kept => simpa [List.getElem?_eq_getElem kept] using absent
    · simp
  simp [size, unlocked, List.countP_set inside, free, List.countP_append, List.countP_replicate]

end Slots

structure Call (α : Type) where
  index : UInt64
  grammar : α

inductive Progress (α : Type) where
  | waiting
  /-- A look was not enough. -/
  | missed
  | done (outcome : Outcome α)

namespace Progress

def left : Progress α → Nat
  | waiting => 2
  | missed => 1
  | done _ => 0

end Progress

/-- A cache with the calls that share it. -/
structure Sharing (ι α : Type) where
  cache : GrammarCache α
  progress : ι → Progress α
  /-- The calls whose loaders have run, the latest first. -/
  loads : List ι

namespace Sharing

variable {ι : Type} [DecidableEq ι]

def start : Sharing ι α := ⟨.empty, fun _ => .waiting, []⟩

section Steps

variable (machine : Machine) (calls : ι → Call α) (s : Sharing ι α) (i j : ι)

def advance (p : Progress α) : Sharing ι α :=
  { s with progress := Function.update s.progress i p }

/-- The end of a call: what it comes to, the cache that it leaves and the loaders run by then. -/
def finish (r : (Outcome α × GrammarCache α) × List ι) : Sharing ι α :=
  { s.advance i (.done r.1.1) with cache := r.1.2, loads := r.2 }

@[simp] theorem cache_advance (p : Progress α) : (s.advance i p).cache = s.cache := rfl

@[simp] theorem loads_advance (p : Progress α) : (s.advance i p).loads = s.loads := rfl

@[simp] theorem progress_advance (p : Progress α) :
    (s.advance i p).progress j = if j = i then p else s.progress j :=
  Function.update_apply _ _ _ _

@[simp] theorem cache_finish (r : (Outcome α × GrammarCache α) × List ι) :
    (s.finish i r).cache = r.1.2 := rfl

@[simp] theorem loads_finish (r : (Outcome α × GrammarCache α) × List ι) :
    (s.finish i r).loads = r.2 := rfl

@[simp] theorem progress_finish (r : (Outcome α × GrammarCache α) × List ι) :
    (s.finish i r).progress j = if j = i then .done r.1.1 else s.progress j :=
  progress_advance s i j _

@[simp] theorem finish_advance (p : Progress α) (r : (Outcome α × GrammarCache α) × List ι) :
    (s.advance i p).finish i r = s.finish i r := by
  simp [finish, advance]

/-- The loader of a call, which leaves a note that it has run. -/
def load : Unit → StateM (List ι) α := fun _ => do
  modify (i :: ·)
  return (calls i).grammar

/-- The next step of a call: a look, then a settling step. -/
def step : Sharing ι α :=
  match s.progress i with
  | .waiting =>
    match s.cache.look (calls i).index with
    | some outcome => s.advance i (.done outcome)
    | none => s.advance i .missed
  | .missed => s.finish i ((s.cache.settle machine (calls i).index (load calls i)).run s.loads)
  | .done _ => s

/-- The calls take their steps in the order of a schedule. -/
def run (schedule : List ι) : Sharing ι α := schedule.foldl (step machine calls) s

/-- What the next step of a call can be. -/
inductive Moves : Sharing ι α → Prop
  | rest {outcome : Outcome α} : s.progress i = .done outcome → Moves s
  | answer {outcome : Outcome α} : s.progress i = .waiting ∨ s.progress i = .missed →
      s.cache.look (calls i).index = some outcome → Moves (s.advance i (.done outcome))
  | miss : s.progress i = .waiting → s.cache.look (calls i).index = none →
      Moves (s.advance i .missed)
  | full : s.progress i = .missed → s.cache.look (calls i).index = none →
      s.cache.resize? machine (calls i).index = none →
      Moves (s.finish i ((.brokeOff, { s.cache with poisoned := true }), s.loads))
  | load {slots : List (Option α)} : s.progress i = .missed →
      s.cache.look (calls i).index = none →
      s.cache.resize? machine (calls i).index = some slots →
      (calls i).index.toNat < slots.length →
      Moves (s.finish i ((.got (calls i).grammar,
        ⟨slots.set (calls i).index.toNat (some (calls i).grammar), false⟩), i :: s.loads))
  | lose {slots : List (Option α)} : s.progress i = .missed →
      s.cache.look (calls i).index = none →
      s.cache.resize? machine (calls i).index = some slots →
      slots.length ≤ (calls i).index.toNat →
      Moves (s.finish i ((.brokeOff, ⟨slots, true⟩), i :: s.loads))

omit [DecidableEq ι] in
@[simp] theorem run_settle {index : UInt64} {slots : List (Option α)}
    (look : s.cache.look index = none) (resized : s.cache.resize? machine index = some slots) :
    (s.cache.settle machine index (load calls i)).run s.loads =
      (put slots index (calls i).grammar, i :: s.loads) := by
  simp only [settle, look, resized]
  rfl

theorem moves_step : Moves machine calls s i (step machine calls s i) := by
  unfold step
  split
  · next waiting =>
    split
    · next look => exact .answer (.inl waiting) look
    · next look => exact .miss waiting look
  · next missed =>
    cases look : s.cache.look (calls i).index with
    | some outcome =>
      simp only [settle, look]
      exact .answer (.inr missed) look
    | none =>
      cases resized : s.cache.resize? machine (calls i).index with
      | none =>
        simp only [settle, look, resized]
        exact .full missed look resized
      | some slots =>
        rw [run_settle machine calls s i look resized]
        by_cases inside : (calls i).index.toNat < slots.length
        · simpa [put, inside] using Moves.load missed look resized inside
        · simpa [put, inside] using Moves.lose missed look resized (Nat.not_lt.1 inside)
  · next finished => exact .rest finished

end Steps

variable {calls : ι → Call α} {s s' : Sharing ι α} {i j : ι}

theorem Moves.progress_of_ne (h : Moves machine calls s i s') (ne : j ≠ i) :
    s'.progress j = s.progress j := by
  cases h <;> simp [ne]

theorem Moves.ended {outcome : Outcome α} (h : Moves machine calls s i s')
    (ended : s.progress j = .done outcome) : s'.progress j = .done outcome := by
  by_cases same : j = i
  · subst same
    cases h <;> simp_all
  · exact (h.progress_of_ne same).trans ended

theorem Moves.loads_subset (h : Moves machine calls s i s') : s.loads ⊆ s'.loads := by
  cases h <;> simp

theorem Moves.poisoned (h : Moves machine calls s i s') (poisoned : s.cache.poisoned = true) :
    s'.cache.poisoned = true := by
  cases h with
  | rest _ => exact poisoned
  | answer _ _ => exact poisoned
  | miss _ _ => exact poisoned
  | full _ _ _ => rfl
  | load _ look _ _ =>
    rw [(look_eq_none_iff.1 look).1] at poisoned
    cases poisoned
  | lose _ _ _ _ => rfl

variable (machine calls s i) in
/-- What there is to say of a call that has come to an outcome. -/
def Accounts : Outcome α → Prop
  | .got grammar => ∃ j ∈ s.loads, (calls j).index = (calls i).index ∧ (calls j).grammar = grammar
  | .refused _ => s.cache.poisoned = true
  | .brokeOff => s.cache.poisoned = true ∧ ¬ machine.HasSlot (calls i).index

theorem Accounts.move {outcome : Outcome α} (h : Accounts machine calls s j outcome)
    (move : Moves machine calls s i s') : Accounts machine calls s' j outcome := by
  cases outcome with
  | got grammar =>
    obtain ⟨k, mem, same⟩ := h
    exact ⟨k, move.loads_subset mem, same⟩
  | refused e => exact move.poisoned h
  | brokeOff => exact ⟨move.poisoned h.1, h.2⟩

variable (machine calls s) in
/-- The loaders that have run were those of different numbers, and what calls have come to can be
accounted for by them and by the lock. Unless it is poisoned, the cache holds what they gave. -/
structure Consistent : Prop where
  once : (s.loads.map fun i => (calls i).index).Nodup
  accounts : ∀ i outcome, s.progress i = .done outcome → Accounts machine calls s i outcome
  brokeOff : s.cache.poisoned = true → ∃ i, s.progress i = .done .brokeOff
  kept_iff : s.cache.poisoned = false → ∀ number grammar,
    s.cache.find? number = some grammar ↔
      ∃ i ∈ s.loads, (calls i).index = number ∧ (calls i).grammar = grammar
  size_eq : s.cache.poisoned = false → s.cache.size = s.loads.length

omit [DecidableEq ι] in
theorem consistent_start : Consistent machine calls start where
  once := .nil
  accounts _ _ ended := by cases ended
  brokeOff poisoned := by cases poisoned
  kept_iff _ _ _ := by simp [start, empty, find?]
  size_eq _ := rfl

omit [DecidableEq ι] in
theorem Consistent.once_cons (h : Consistent machine calls s)
    (look : s.cache.look (calls i).index = none) :
    ((i :: s.loads).map fun i => (calls i).index).Nodup := by
  obtain ⟨unlocked, absent⟩ := look_eq_none_iff.1 look
  refine List.nodup_cons.2 ⟨fun mem => ?_, h.once⟩
  obtain ⟨j, hj, same⟩ := List.mem_map.1 mem
  have found := (h.kept_iff unlocked (calls i).index (calls j).grammar).2 ⟨j, hj, same, rfl⟩
  rw [absent] at found
  cases found

theorem Consistent.once_move (h : Consistent machine calls s) (move : Moves machine calls s i s') :
    (s'.loads.map fun i => (calls i).index).Nodup := by
  cases move with
  | rest _ => exact h.once
  | answer _ _ => exact h.once
  | miss _ _ => exact h.once
  | full _ _ _ => exact h.once
  | load _ look _ _ => exact h.once_cons look
  | lose _ look _ _ => exact h.once_cons look

omit [DecidableEq ι] in
theorem Consistent.accounts_look {outcome : Outcome α} (h : Consistent machine calls s)
    (look : s.cache.look (calls i).index = some outcome) : Accounts machine calls s i outcome := by
  cases poisoned : s.cache.poisoned with
  | true =>
    simp only [GrammarCache.look, poisoned, if_true, Option.some.injEq] at look
    subst look
    exact poisoned
  | false =>
    simp only [GrammarCache.look, poisoned] at look
    obtain ⟨grammar, found, rfl⟩ := Option.map_eq_some_iff.1 look
    exact (h.kept_iff poisoned _ _).1 found

/-- The call that took the step can be accounted for, if that was its last one. -/
theorem Consistent.accounts_self {outcome : Outcome α} (h : Consistent machine calls s)
    (move : Moves machine calls s i s') (ended : s'.progress i = .done outcome) :
    Accounts machine calls s' i outcome := by
  cases move with
  | rest _ => exact h.accounts i outcome ended
  | answer _ look =>
    rw [progress_advance, if_pos rfl] at ended
    cases ended
    exact h.accounts_look look
  | miss _ _ => simp at ended
  -- a number that can have a slot is given one, so the calls that break off had none
  | full _ _ resized =>
    rw [progress_finish, if_pos rfl] at ended
    cases ended
    refine ⟨rfl, fun has => ?_⟩
    obtain ⟨slots, found, _⟩ := s.cache.exists_slot has
    cases resized.symm.trans found
  | load _ _ _ _ =>
    rw [progress_finish, if_pos rfl] at ended
    cases ended
    exact ⟨i, List.mem_cons_self, rfl, rfl⟩
  | lose _ _ resized outside =>
    rw [progress_finish, if_pos rfl] at ended
    cases ended
    refine ⟨rfl, fun has => ?_⟩
    obtain ⟨slots, found, inside⟩ := s.cache.exists_slot has
    cases resized.symm.trans found
    exact absurd inside (Nat.not_lt.2 outside)

theorem Consistent.brokeOff_move (h : Consistent machine calls s)
    (move : Moves machine calls s i s') (poisoned : s'.cache.poisoned = true) :
    ∃ j, s'.progress j = .done .brokeOff := by
  have before (poisoned : s.cache.poisoned = true) : ∃ j, s'.progress j = .done .brokeOff := by
    obtain ⟨j, brokeOff⟩ := h.brokeOff poisoned
    exact ⟨j, move.ended brokeOff⟩
  cases move with
  | rest _ => exact before poisoned
  | answer _ _ => exact before poisoned
  | miss _ _ => exact before poisoned
  | full _ _ _ => exact ⟨i, by simp⟩
  | load _ _ _ _ => cases poisoned
  | lose _ _ _ _ => exact ⟨i, by simp⟩

theorem Consistent.kept_iff_move (h : Consistent machine calls s)
    (move : Moves machine calls s i s') (unlocked : s'.cache.poisoned = false) (number : UInt64)
    (grammar : α) : s'.cache.find? number = some grammar ↔
      ∃ i ∈ s'.loads, (calls i).index = number ∧ (calls i).grammar = grammar := by
  cases move with
  | rest _ => exact h.kept_iff unlocked number grammar
  | answer _ _ => exact h.kept_iff unlocked number grammar
  | miss _ _ => exact h.kept_iff unlocked number grammar
  | full _ _ _ => cases unlocked
  | load _ look resized inside =>
    obtain ⟨unlocked, absent⟩ := look_eq_none_iff.1 look
    simp only [cache_finish, loads_finish, List.exists_mem_cons_iff, ← h.kept_iff unlocked]
    by_cases same : number = (calls i).index
    · subst same
      simp [find?_set_self inside, absent]
    · simp [find?_set_of_ne resized inside same, Ne.symm same]
  | lose _ _ _ _ => cases unlocked

theorem Consistent.size_eq_move (h : Consistent machine calls s)
    (move : Moves machine calls s i s') (unlocked : s'.cache.poisoned = false) :
    s'.cache.size = s'.loads.length := by
  cases move with
  | rest _ => exact h.size_eq unlocked
  | answer _ _ => exact h.size_eq unlocked
  | miss _ _ => exact h.size_eq unlocked
  | full _ _ _ => cases unlocked
  | load _ look resized inside =>
    have before := h.size_eq (look_eq_none_iff.1 look).1
    simp [size_set look resized inside, before]
  | lose _ _ _ _ => cases unlocked

theorem Consistent.move (h : Consistent machine calls s) (move : Moves machine calls s i s') :
    Consistent machine calls s' where
  once := h.once_move move
  accounts j outcome ended := by
    by_cases same : j = i
    · subst same
      exact h.accounts_self move ended
    · rw [move.progress_of_ne same] at ended
      exact (h.accounts j outcome ended).move move
  brokeOff := h.brokeOff_move move
  kept_iff := h.kept_iff_move move
  size_eq := h.size_eq_move move

theorem Consistent.run (h : Consistent machine calls s) (schedule : List ι) :
    Consistent machine calls (run machine calls s schedule) := by
  induction schedule generalizing s with
  | nil => exact h
  | cons i schedule ih => exact ih (h.move (moves_step machine calls s i))

/-- On a machine that does not check sums, a call for the greatest number drops what is kept and
leaves the lock poisoned, so that the call for 3 that looks afterwards is refused. -/
example :
    let calls (i : Fin 3) : Call String := if i = 1 then ⟨18446744073709551615, "go"⟩ else ⟨3, "c"⟩
    let s := run ⟨false, 8⟩ calls start [0, 0, 1, 1, 2]
    s.cache = ⟨[], true⟩ ∧ s.loads = [1, 0] ∧ s.progress 2 matches .done (.refused _) := by
  decide +kernel

end Sharing

end TreeListing.GrammarCache
