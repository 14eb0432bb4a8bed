import TreeListing.Proofs.SharedCache
import TreeListing.Source

/-!
# Reading with cached grammars

That grammars are kept in a cache, which many readers share, does not show in what they read: it is
what a reader gives who has all grammars at hand. It takes a machine that has room for a slot for
every language.
-/

namespace TreeListing

variable {machine : Machine} {grammars : Language → Grammar}

namespace Language

theorem toNat_index (l : Language) : l.index.toNat = l.ctorIdx := by cases l <;> rfl

theorem index_inj {l l' : Language} (h : l.index = l'.index) : l = l' := by
  have same : l.ctorIdx = l'.ctorIdx := by
    rw [← toNat_index, ← toNat_index, h]
  cases l <;> cases l' <;> first | rfl | cases same

theorem hasSlot_index (room : all.length ≤ machine.room) (l : Language) :
    machine.HasSlot l.index := by
  have bound : l.ctorIdx < all.length := by cases l <;> decide
  have word : all.length < UInt64.size := by decide
  rw [Machine.HasSlot, toNat_index]
  omega

end Language

namespace GrammarCache.Sharing

variable {ι : Type} [DecidableEq ι]

def callFor (grammars : Language → Grammar) (l : Language) : Call Grammar := ⟨l.index, grammars l⟩

/-- A reader gets the grammar of the language, whatever the others read in the meantime. -/
theorem got_of_done (room : Language.all.length ≤ machine.room) {languages : ι → Language}
    {schedule : List ι} {i : ι} {outcome : Outcome Grammar}
    (ended : (run machine (fun i => callFor grammars (languages i)) start schedule).progress i =
      .done outcome) :
    outcome = .got (grammars (languages i)) := by
  have consistent : Consistent machine (fun i => callFor grammars (languages i))
      (run machine _ start schedule) := consistent_start.run schedule
  -- only a number without a slot breaks a call off, and every language's number has one
  have unlocked :
      (run machine (fun i => callFor grammars (languages i)) start schedule).cache.poisoned ≠
        true := by
    intro poisoned
    obtain ⟨j, brokeOff⟩ := consistent.brokeOff poisoned
    exact (consistent.accounts j _ brokeOff).2 (Language.hasSlot_index room _)
  have accounts := consistent.accounts i outcome ended
  cases outcome with
  | got grammar =>
    obtain ⟨j, _, same, rfl⟩ := accounts
    exact congrArg (fun l => Outcome.got (grammars l)) (Language.index_inj same)
  | refused e => exact absurd accounts unlocked
  | brokeOff => exact absurd accounts.1 unlocked

end GrammarCache.Sharing

namespace Source

@[simp] theorem readWith_got (l : Language) (text : String) :
    readWith l text (.got (grammars l)) = .got (Reader.ofGrammars grammars l text) := rfl

/-- A cache that is not poisoned and has under the number of a language its grammar or none. -/
structure Holds (grammars : Language → Grammar) (cache : GrammarCache Grammar) : Prop where
  unlocked : cache.poisoned = false
  own : ∀ l grammar, cache.find? l.index = some grammar → grammar = grammars l

theorem holds_empty : Holds grammars .empty := ⟨rfl, fun _ _ found => by cases found⟩

variable {cache : GrammarCache Grammar}

theorem Holds.getOrLoad {m : Type → Type} [Monad m] [LawfulMonad m] (h : Holds grammars cache)
    (room : Language.all.length ≤ machine.room) (l : Language) :
    ∃ after, (cache.getOrLoad machine l.index fun _ => (pure (grammars l) : m Grammar)) =
      pure (.got (grammars l), after) ∧ Holds grammars after := by
  cases found : cache.find? l.index with
  | some grammar =>
    have look := GrammarCache.look_eq_got_iff.2 ⟨h.unlocked, found⟩
    obtain rfl := h.own l grammar found
    exact ⟨cache, by simp [GrammarCache.getOrLoad, look], h⟩
  | none =>
    have look := GrammarCache.look_eq_none_iff.2 ⟨h.unlocked, found⟩
    obtain ⟨slots, resized, inside⟩ := cache.exists_slot (Language.hasSlot_index room l)
    refine ⟨⟨slots.set l.index.toNat (some (grammars l)), false⟩, ?_, rfl, ?_⟩
    · simp [GrammarCache.getOrLoad, GrammarCache.settle, look, resized, GrammarCache.put, inside]
    · intro other grammar found
      by_cases same : other = l
      · subst same
        rw [GrammarCache.find?_set_self inside] at found
        exact (Option.some.inj found).symm
      · have ne : other.index ≠ l.index := fun h => same (Language.index_inj h)
        have kept := (GrammarCache.find?_set_of_ne resized inside ne).symm.trans found
        exact h.own other grammar kept

theorem run_readCached (h : Holds grammars cache) (room : Language.all.length ≤ machine.room)
    (l : Language) (text : String) :
    ∃ after, (readCached machine grammars l text).run cache =
      (.got (Reader.ofGrammars grammars l text), after) ∧ Holds grammars after := by
  obtain ⟨after, got, holds⟩ := h.getOrLoad (m := StateM (GrammarCache Grammar)) room l
  have read : (readCached machine grammars l text).run cache =
      pure (.got (Reader.ofGrammars grammars l text), after) := by
    simp [readCached, got]
  exact ⟨after, read, holds⟩

/-- Texts that are read one after the other are read as by one who has all grammars at hand. -/
theorem run_mapM_readCached (h : Holds grammars cache)
    (room : Language.all.length ≤ machine.room) (texts : List (Language × String)) :
    ∃ after, (texts.mapM fun text => readCached machine grammars text.1 text.2).run cache =
      (texts.map fun text => .got (Reader.ofGrammars grammars text.1 text.2), after) ∧
        Holds grammars after := by
  induction texts generalizing cache with
  | nil => exact ⟨cache, rfl, h⟩
  | cons text texts ih =>
    -- the cache that the first text leaves behind is not empty, so the induction is on any
    -- that holds
    obtain ⟨between, first, holds⟩ := run_readCached h room text.1 text.2
    obtain ⟨after, rest, holds⟩ := ih holds
    refine ⟨after, ?_, holds⟩
    rw [List.mapM_cons, StateT.run_bind, first]
    change (StateT.run (_ >>= _) between : Id _) = _
    rw [StateT.run_bind, rest]
    rfl

end Source

end TreeListing
