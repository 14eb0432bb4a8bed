import TreeListing.Batch
import TreeListing.Proofs.Lookup
import TreeListing.Proofs.LowerCase
import TreeListing.Settings

/-!
# Aliases in any order

The aliases of settings are resolved one after the other, and their order is not said by the
settings. It decides two things: which of several aliases with an unknown language is reported, and
which of several aliases that meet in one key counts. Where there is no such choice, the order does
not matter, neither for what the aliases are resolved to nor for the languages of files.
-/

namespace TreeListing

namespace Settings

def Reordered (s s' : Settings) : Prop := s.aliases.entries.Perm s'.aliases.entries

def reorder (s : Settings) (entries : List (String × String))
    (perm : s.aliases.entries.Perm entries) : Settings :=
  { s with aliases := ⟨entries, (perm.map Prod.fst).nodup_iff.1 s.aliases.distinct⟩ }

/-- What an extension, in the form in which it is looked up, is resolved to. -/
def meaning (s : Settings) (key : String) : Except SettingsError (Option Language) :=
  s.resolveAliases.map (·.find? key)

/-- A dictionary of what the aliases are resolved to, whatever the order of its entries. -/
def Resolves (s : Settings) (d : Dictionary Language) : Prop :=
  ∃ resolved, s.resolveAliases = .ok resolved ∧ resolved.entries.Perm d.entries

def IsUnknown (entry : String × String) : Prop := Language.ofName? entry.2 = none

def AllKnown (s : Settings) : Prop := ∀ entry ∈ s.aliases.entries, ¬ IsUnknown entry

/-- There is no choice in what a key is resolved to. -/
structure Clear (s : Settings) (key : String) : Prop where
  unknown : ∀ e ∈ s.aliases.entries, ∀ e' ∈ s.aliases.entries,
    IsUnknown e → IsUnknown e' → e = e'
  agree : s.AllKnown → ∀ e ∈ s.aliases.entries, ∀ e' ∈ s.aliases.entries,
    aliasKey e.1 = key → aliasKey e'.1 = key → Language.ofName? e.2 = Language.ofName? e'.2

/-- The language of an alias under its key, if the language is known. -/
def resolved? (entry : String × String) : Option (String × Language) :=
  (Language.ofName? entry.2).map fun l => (aliasKey entry.1, l)

@[simp] theorem resolved?_eq_some_iff {entry : String × String} {key : String} {l : Language} :
    resolved? entry = some (key, l) ↔
      aliasKey entry.1 = key ∧ Language.ofName? entry.2 = some l := by
  simp only [resolved?, Option.map_eq_some_iff, Prod.mk.injEq]
  constructor
  · rintro ⟨_, name, rfl, rfl⟩
    exact ⟨rfl, name⟩
  · rintro ⟨rfl, name⟩
    exact ⟨l, name, rfl, rfl⟩

theorem resolveAlias_of_resolved? {entry : String × String} {resolved : String × Language}
    (h : resolved? entry = some resolved) : resolveAlias entry = .ok resolved := by
  obtain ⟨l, name, rfl⟩ := Option.map_eq_some_iff.1 h
  unfold resolveAlias
  rw [name]

/-- The first alias with an unknown language is reported; without one, all are resolved. -/
theorem mapM_resolveAlias (entries : List (String × String)) :
    entries.mapM resolveAlias =
      match entries.find? fun entry => (Language.ofName? entry.2).isNone with
      | some entry => .error (.unknownLanguage entry.2 entry.1)
      | none => .ok (entries.filterMap resolved?) := by
  induction entries with
  | nil => rfl
  | cons entry rest ih =>
    rw [List.mapM_cons, List.find?_cons, ih]
    cases name : Language.ofName? entry.2 with
    | none =>
      unfold resolveAlias
      rw [name]
      rfl
    | some l =>
      have resolved : resolved? entry = some (aliasKey entry.1, l) :=
        resolved?_eq_some_iff.2 ⟨rfl, name⟩
      rw [resolveAlias_of_resolved? resolved, List.filterMap_cons, resolved]
      cases rest.find? fun entry => (Language.ofName? entry.2).isNone <;> rfl

variable {s s' : Settings}

theorem resolveAliases_of_allKnown (known : s.AllKnown) :
    s.resolveAliases = .ok (.ofList (s.aliases.entries.filterMap resolved?)) := by
  have none_unknown : s.aliases.entries.find? (fun e => (Language.ofName? e.2).isNone) = none := by
    rw [List.find?_eq_none]
    intro entry he
    rw [Option.isNone_iff_eq_none]
    exact known entry he
  rw [resolveAliases, mapM_resolveAlias, none_unknown]
  rfl

theorem exists_of_not_allKnown (unknown : ¬ s.AllKnown) :
    ∃ entry ∈ s.aliases.entries, IsUnknown entry ∧
      s.resolveAliases = .error (.unknownLanguage entry.2 entry.1) := by
  cases found : s.aliases.entries.find? fun entry => (Language.ofName? entry.2).isNone with
  | none =>
    refine absurd (fun entry he => ?_) unknown
    have := List.find?_eq_none.1 found entry he
    rwa [Option.isNone_iff_eq_none] at this
  | some entry =>
    refine ⟨entry, List.mem_of_find?_eq_some found, ?_, ?_⟩
    · have := List.find?_some found
      rwa [Option.isNone_iff_eq_none] at this
    · rw [resolveAliases, mapM_resolveAlias, found]
      rfl

theorem resolveAliases_of_head {entry : String × String} {rest : List (String × String)}
    (head : s.aliases.entries = entry :: rest) (unknown : IsUnknown entry) :
    s.resolveAliases = .error (.unknownLanguage entry.2 entry.1) := by
  have first : (Language.ofName? entry.2).isNone = true := by
    rw [unknown]
    rfl
  rw [resolveAliases, mapM_resolveAlias, head, List.find?_cons, first]
  rfl

theorem Reordered.allKnown_iff (h : s.Reordered s') : s.AllKnown ↔ s'.AllKnown :=
  ⟨fun known entry he => known entry (h.symm.subset he),
    fun known entry he => known entry (h.subset he)⟩

theorem Clear.agrees {key : String} (clear : s.Clear key) (known : s.AllKnown) :
    Agrees (s.aliases.entries.filterMap resolved?) key := by
  intro v w hv hw
  obtain ⟨e, he, hv⟩ := List.mem_filterMap.1 hv
  obtain ⟨e', he', hw⟩ := List.mem_filterMap.1 hw
  obtain ⟨here, name⟩ := resolved?_eq_some_iff.1 hv
  obtain ⟨there, name'⟩ := resolved?_eq_some_iff.1 hw
  have same := clear.agree known e he e' he' here there
  rw [name, name'] at same
  exact Option.some.inj same

theorem find?_resolved {key : String} (clear : s.Clear key) (known : s.AllKnown)
    (h : s.Reordered s') :
    (Dictionary.ofList (s.aliases.entries.filterMap resolved?)).find? key =
      (Dictionary.ofList (s'.aliases.entries.filterMap resolved?)).find? key :=
  Dictionary.find?_ofList_of_perm (h.filterMap resolved?) (clear.agrees known)

theorem meaning_of_clear {key : String} (clear : s.Clear key) (h : s.Reordered s') :
    s'.meaning key = s.meaning key := by
  by_cases known : s.AllKnown
  · rw [meaning, meaning, resolveAliases_of_allKnown known,
      resolveAliases_of_allKnown (h.allKnown_iff.1 known)]
    exact congrArg Except.ok (find?_resolved clear known h).symm
  · obtain ⟨e, he, unknown, reported⟩ := exists_of_not_allKnown known
    obtain ⟨e', he', unknown', reported'⟩ :=
      exists_of_not_allKnown fun known' => known (h.allKnown_iff.2 known')
    have same : e = e' := clear.unknown e he e' (h.symm.subset he') unknown unknown'
    rw [meaning, meaning, reported, reported', same]

/-- Any alias can be the first one that is resolved. -/
theorem meaning_of_unknown {key : String} {e : String × String}
    (h : ∀ s', s.Reordered s' → s'.meaning key = s.meaning key) (he : e ∈ s.aliases.entries)
    (unknown : IsUnknown e) : s.meaning key = .error (.unknownLanguage e.2 e.1) := by
  have perm : s.aliases.entries.Perm (e :: s.aliases.entries.erase e) := List.perm_cons_erase he
  rw [← h (s.reorder _ perm) perm, meaning, resolveAliases_of_head rfl unknown]
  rfl

/-- Any alias can be the last one that is resolved, which then counts. -/
theorem meaning_of_known {key : String} {e : String × String}
    (h : ∀ s', s.Reordered s' → s'.meaning key = s.meaning key) (known : s.AllKnown)
    (he : e ∈ s.aliases.entries) (here : aliasKey e.1 = key) :
    s.meaning key = .ok (Language.ofName? e.2) := by
  have perm : s.aliases.entries.Perm (s.aliases.entries.erase e ++ [e]) :=
    (List.perm_cons_erase he).trans (List.perm_append_singleton e _).symm
  have reordered : s.Reordered (s.reorder _ perm) := perm
  obtain ⟨l, name⟩ := Option.ne_none_iff_exists'.1 (known e he)
  have resolved : resolved? e = some (key, l) := resolved?_eq_some_iff.2 ⟨here, name⟩
  have entries : (s.reorder _ perm).aliases.entries.filterMap resolved? =
      (s.aliases.entries.erase e).filterMap resolved? ++ [(key, l)] := by
    change (s.aliases.entries.erase e ++ [e]).filterMap resolved? = _
    rw [List.filterMap_append, List.filterMap_cons, resolved, List.filterMap_nil]
  rw [← h _ reordered, meaning, resolveAliases_of_allKnown (reordered.allKnown_iff.1 known),
    entries, name]
  exact congrArg Except.ok (Dictionary.find?_ofList_concat _ (key, l))

theorem meaning_eq_iff_clear {key : String} :
    (∀ s', s.Reordered s' → s'.meaning key = s.meaning key) ↔ s.Clear key := by
  constructor
  · intro h
    constructor
    · intro e he e' he' unknown unknown'
      have same := (meaning_of_unknown h he unknown).symm.trans (meaning_of_unknown h he' unknown')
      obtain ⟨name, ext⟩ := SettingsError.unknownLanguage.inj (Except.error.inj same)
      exact Prod.ext ext name
    · intro known e he e' he' here here'
      exact Except.ok.inj
        ((meaning_of_known h known he here).symm.trans (meaning_of_known h known he' here'))
  · intro clear s' reordered
    exact meaning_of_clear clear reordered

/-- The keys that aliases are resolved under are in lower case. -/
@[simp] theorem lower_aliasKey (ext : String) : Text.lower (aliasKey ext) = aliasKey ext :=
  Text.lower_lower _

theorem Resolves.allKnown {d : Dictionary Language} (h : s.Resolves d) : s.AllKnown := by
  by_contra unknown
  obtain ⟨entry, _, _, reported⟩ := exists_of_not_allKnown unknown
  obtain ⟨resolved, ok, _⟩ := h
  rw [reported] at ok
  cases ok

theorem Resolves.find?_eq {d : Dictionary Language} (h : s.Resolves d) (key : String) :
    d.find? key = (Dictionary.ofList (s.aliases.entries.filterMap resolved?)).find? key := by
  have known := h.allKnown
  obtain ⟨resolved, ok, perm⟩ := h
  rw [resolveAliases_of_allKnown known] at ok
  rw [Except.ok.inj ok, Dictionary.find?_of_perm perm]

theorem Resolves.isSome_iff {d : Dictionary Language} (h : s.Resolves d) {key : String} :
    (d.find? key).isSome = true ↔ ∃ e ∈ s.aliases.entries, aliasKey e.1 = key := by
  have known := h.allKnown
  rw [h.find?_eq, ← Option.ne_none_iff_isSome, Ne, Dictionary.find?_ofList_eq_none_iff, not_not,
    List.mem_map]
  constructor
  · rintro ⟨⟨_, l⟩, mem, rfl⟩
    obtain ⟨e, he, resolved⟩ := List.mem_filterMap.1 mem
    exact ⟨e, he, (resolved?_eq_some_iff.1 resolved).1⟩
  · rintro ⟨e, he, here⟩
    obtain ⟨l, name⟩ := Option.ne_none_iff_exists'.1 (known e he)
    exact ⟨(key, l), List.mem_filterMap.2 ⟨e, he, resolved?_eq_some_iff.2 ⟨here, name⟩⟩, rfl⟩

/-- Lower-casing the keys once more changes none of them, so that none meet that did not. -/
theorem Resolves.find?_withAliases {d : Dictionary Language} (h : s.Resolves d) (b : Batch)
    (key : String) : (b.withAliases d).aliases.find? key = d.find? key := by
  have lower (entry : String × Language) (he : entry ∈ d.entries) :
      (Text.lower entry.1, entry.2) = entry := by
    have found : (d.find? entry.1).isSome = true := by
      rw [Dictionary.find?, List.lookup_isSome_iff]
      exact ⟨entry, he, beq_self_eq_true _⟩
    obtain ⟨e, _, key_eq⟩ := h.isSome_iff.1 found
    rw [← key_eq, lower_aliasKey, key_eq]
  have entries : d.entries.map (fun entry => (Text.lower entry.1, entry.2)) = d.entries := by
    rw [List.map_congr_left lower, List.map_id']
  rw [Batch.withAliases, entries, Dictionary.find?_ofList]
  exact (lookup_eq_of_perm (List.reverse_perm _).symm (.of_nodup d.distinct key)).symm

theorem languageOf?_reordered {d d' : Dictionary Language} {b : Batch} {path : String}
    (h : s.Reordered s') (hd : s.Resolves d) (hd' : s'.Resolves d')
    (clear : b.language = none →
      ∀ ext, Path.extension? path = some ext → s.Clear (Text.lower ext)) :
    (b.withAliases d').languageOf? path = (b.withAliases d).languageOf? path := by
  have same_language (d : Dictionary Language) : (b.withAliases d).language = b.language := rfl
  rw [Batch.languageOf?, Batch.languageOf?, same_language, same_language]
  cases forced : b.language with
  | some l => rfl
  | none =>
    cases extension : Path.extension? path with
    | none => rfl
    | some ext =>
      have same := find?_resolved (clear forced ext extension) hd.allKnown h
      simp only [Option.bind_some, hd.find?_withAliases, hd'.find?_withAliases, hd.find?_eq,
        hd'.find?_eq, same]

/-- What the order of the aliases has no part in. -/
structure OrderFree (s s' : Settings) : Prop where
  succeeds : s'.resolveAliases.isOk = s.resolveAliases.isOk
  keys : ∀ {d d'}, s.Resolves d → s'.Resolves d' →
    ∀ key, (d'.find? key).isSome = (d.find? key).isSome
  languages : ∀ {d d'}, s.Resolves d → s'.Resolves d' → ∀ (b : Batch) (path : String),
    (b.language = none → ∀ ext, Path.extension? path = some ext → s.Clear (Text.lower ext)) →
      (b.withAliases d').languageOf? path = (b.withAliases d).languageOf? path

theorem Reordered.orderFree (h : s.Reordered s') : s.OrderFree s' := by
  constructor
  · by_cases known : s.AllKnown
    · rw [resolveAliases_of_allKnown known,
        resolveAliases_of_allKnown (h.allKnown_iff.1 known)]
      rfl
    · obtain ⟨e, _, _, reported⟩ := exists_of_not_allKnown known
      obtain ⟨e', _, _, reported'⟩ :=
        exists_of_not_allKnown fun known' => known (h.allKnown_iff.2 known')
      rw [reported, reported']
      rfl
  · intro d d' hd hd' key
    rw [Bool.eq_iff_iff, hd.isSome_iff, hd'.isSome_iff]
    simp only [h.mem_iff]
  · intro d d' hd hd' b path clear
    exact languageOf?_reordered h hd hd' clear

/-- Aliases give the same outcome for a key in every order exactly if there is no choice in it. -/
theorem resolveAliases_reordered (s : Settings) :
    (∀ key, (∀ s', s.Reordered s' → s'.meaning key = s.meaning key) ↔ s.Clear key) ∧
      ∀ s', s.Reordered s' → s.OrderFree s' :=
  ⟨fun _ => meaning_eq_iff_clear, fun _ h => h.orderFree⟩

def bothCases : Settings where
  aliases := { entries := [("a", "python"), ("A", "javascript")], distinct := by decide }

def bothCasesSwapped : Settings where
  aliases := { entries := [("A", "javascript"), ("a", "python")], distinct := by decide }

/-- Where there is a choice, the order makes it. -/
theorem bothCases_reordered :
    bothCases.Reordered bothCasesSwapped ∧
      bothCases.meaning "a" = .ok (some .javaScript) ∧
      bothCasesSwapped.meaning "a" = .ok (some .python) ∧
      bothCasesSwapped.meaning "a" ≠ bothCases.meaning "a" := by
  have python : Language.ofName? "python" = some .python := by decide +kernel
  have javaScript : Language.ofName? "javascript" = some .javaScript := by decide +kernel
  have keys : aliasKey "a" = "a" ∧ aliasKey "A" = "a" := by decide +kernel
  have small : resolveAlias ("a", "python") = .ok ("a", .python) :=
    resolveAlias_of_resolved? (resolved?_eq_some_iff.2 ⟨keys.1, python⟩)
  have capital : resolveAlias ("A", "javascript") = .ok ("a", .javaScript) :=
    resolveAlias_of_resolved? (resolved?_eq_some_iff.2 ⟨keys.2, javaScript⟩)
  have last : bothCases.meaning "a" = .ok (some .javaScript) := by
    simp only [meaning, resolveAliases, bothCases, List.mapM_cons, small, capital]
    exact congrArg Except.ok
      (Dictionary.find?_ofList_concat [("a", Language.python)] ("a", Language.javaScript))
  have swapped : bothCasesSwapped.meaning "a" = .ok (some .python) := by
    simp only [meaning, resolveAliases, bothCasesSwapped, List.mapM_cons, small, capital]
    exact congrArg Except.ok
      (Dictionary.find?_ofList_concat [("a", Language.javaScript)] ("a", Language.python))
  refine ⟨List.Perm.swap _ _ [], last, swapped, ?_⟩
  rw [last, swapped]
  rintro ⟨⟩

end Settings

end TreeListing
