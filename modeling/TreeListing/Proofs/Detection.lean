import TreeListing.Proofs.AliasOrder

/-!
# Which language a file has

The language of a file comes from the extension of its name, and what an extension stands for is
asked in three places: for a path, for a file of a batch, and for a name that may be an extension.
They give one answer, because an extension belongs to one language and is no name of another.

The aliases of settings come first. They are resolved to keys in lower case, the batch lowers the
keys again, and a file's extension is lowered before it is looked up, so a file finds the alias
whose extension is its own up to case and leading dots.
-/

namespace TreeListing

namespace Language

theorem find?_all_eq_some {p : Language → Bool} {l : Language} (holds : p l = true)
    (unique : ∀ l', p l' = true → l' = l) : all.find? p = some l := by
  cases found : all.find? p with
  | none => exact absurd holds (List.find?_eq_none.1 found l (mem_all l))
  | some l' => rw [unique l' (List.find?_some found)]

theorem eq_of_mem_extensions {l l' : Language} {ext : String} (h : ext ∈ l.extensions)
    (h' : ext ∈ l'.extensions) : l = l' := by
  have disjoint : ∀ l ∈ all, ∀ l' ∈ all, ∀ ext ∈ l.extensions, ext ∈ l'.extensions → l = l' := by
    decide +kernel
  exact disjoint l (mem_all l) l' (mem_all l') ext h h'

theorem eq_of_lower_name_mem_extensions {l l' : Language}
    (h : Text.lower l'.name ∈ l.extensions) : l' = l := by
  have own : ∀ l ∈ all, ∀ l' ∈ all, Text.lower l'.name ∈ l.extensions → l' = l := by
    decide +kernel
  exact own l (mem_all l) l' (mem_all l') h

theorem lookup_otherNames_of_mem_extensions {l : Language} {ext : String}
    (h : ext ∈ l.extensions) : otherNames.lookup ext = none := by
  have apart : ∀ l ∈ all, ∀ ext ∈ l.extensions, otherNames.lookup ext = none := by
    decide +kernel
  exact apart l (mem_all l) ext h

theorem ofExtension?_eq_some_iff {ext : String} {l : Language} :
    ofExtension? ext = some l ↔ Text.lower ext ∈ l.extensions := by
  constructor
  · intro found
    simpa using List.find?_some found
  · intro mem
    apply find?_all_eq_some
    · simpa using mem
    · intro l' mem'
      exact eq_of_mem_extensions (by simpa using mem') mem

@[simp] theorem ofExtension?_lower (ext : String) :
    ofExtension? (Text.lower ext) = ofExtension? ext := by
  simp [ofExtension?]

theorem ofName?_of_ofExtension? {name : String} {l : Language} (h : ofExtension? name = some l) :
    ofName? name = some l := by
  have mem : Text.lower name ∈ l.extensions := ofExtension?_eq_some_iff.1 h
  rw [ofName?]
  cases found : all.find? fun l' => Text.lower l'.name == Text.lower name with
  | none =>
    simp [lookup_otherNames_of_mem_extensions mem, h]
  | some l' =>
    have same : Text.lower l'.name = Text.lower name := by simpa using List.find?_some found
    rw [← same] at mem
    rw [eq_of_lower_name_mem_extensions mem, Option.some_or, Option.some_or]

theorem parse_of_ofName? {name : String} {l : Language} (h : ofName? name = some l) :
    parse name = .ok l := by
  rw [parse, h]

theorem ofName?_congr {name name' : String} (h : Text.lower name = Text.lower name') :
    ofName? name = ofName? name' := by
  rw [ofName?, ofName?, h]

end Language

namespace Batch

variable {b : Batch} {path ext : String}

theorem languageOf?_of_language {l : Language} (forced : b.language = some l) (path : String) :
    b.languageOf? path = some l := by
  rw [languageOf?, forced, Option.some_or]

theorem languageOf?_of_extension?_eq_none (free : b.language = none)
    (h : Path.extension? path = none) : b.languageOf? path = none := by
  rw [languageOf?, free, h, Option.bind_none, Option.none_or]

theorem languageOf?_of_extension? (free : b.language = none)
    (h : Path.extension? path = some ext) :
    b.languageOf? path = (b.aliases.find? (Text.lower ext)).or (Language.ofExtension? ext) := by
  rw [languageOf?, free, h, Option.none_or, Option.bind_some]
  simp only [Language.ofExtension?_lower]

theorem languageOf?_of_aliases_eq_empty (free : b.language = none) (plain : b.aliases = .empty)
    (path : String) : b.languageOf? path = Language.ofPath? path := by
  cases extension : Path.extension? path with
  | none =>
    rw [languageOf?_of_extension?_eq_none free extension, Language.ofPath?, extension,
      Option.bind_none]
  | some ext =>
    have nothing : b.aliases.find? (Text.lower ext) = none := by
      rw [plain]
      rfl
    rw [languageOf?_of_extension? free extension, nothing, Option.none_or, Language.ofPath?,
      extension, Option.bind_some]

/-- A batch without aliases, a path, and a name or an extension in any case are given a language in
one way. -/
theorem languageOf?_agrees :
    (∀ (b : Batch) (path : String), b.language = none → b.aliases = .empty →
      b.languageOf? path = Language.ofPath? path) ∧
    (∀ (ext : String) (l : Language), Language.ofExtension? ext = some l →
      Language.ofName? ext = some l ∧ Language.parse ext = .ok l) ∧
    ∀ name name' : String, Text.lower name = Text.lower name' →
      Language.ofName? name = Language.ofName? name' := by
  refine ⟨?_, ?_, ?_⟩
  · intro b path free plain
    exact languageOf?_of_aliases_eq_empty free plain path
  · intro ext l known
    have named := Language.ofName?_of_ofExtension? known
    exact ⟨named, Language.parse_of_ofName? named⟩
  · intro name name' same
    exact Language.ofName?_congr same

theorem languageOf?_agrees_capitals :
    ({} : Batch).languageOf? "site.old/index.PHP" = some .php ∧ Language.parse "PHP" = .ok .php ∧
    Language.ofName? "pHp" = some .php ∧ Language.ofName? "Csharp" = Language.ofName? "CSHARP" := by
  obtain ⟨files, extensions, names⟩ := languageOf?_agrees
  have known : Language.ofExtension? "PHP" = some .php :=
    Language.ofExtension?_eq_some_iff.2 (by decide +kernel)
  have extension : Path.extension? "site.old/index.PHP" = some "PHP" := by decide +kernel
  have same : Text.lower "pHp" = Text.lower "PHP" := by decide +kernel
  obtain ⟨named, parsed⟩ := extensions "PHP" .php known
  refine ⟨?_, parsed, ?_, names _ _ (by decide +kernel)⟩
  · rw [files {} "site.old/index.PHP" rfl rfl, Language.ofPath?, extension, Option.bind_some, known]
  · rw [names _ _ same, named]

end Batch

namespace Settings

def DistinctKeys (s : Settings) : Prop :=
  (s.aliases.entries.map fun entry => aliasKey entry.1).Nodup

/-- A batch gives files the languages that the aliases of settings ask for. -/
structure Directs (s : Settings) (b : Batch) : Prop where
  unmarked : ∀ path, Path.extension? path = none → b.languageOf? path = none
  /-- An alias is found by its extension without leading dots, in either case. -/
  aliased : ∀ path ext, Path.extension? path = some ext → ∀ entry ∈ s.aliases.entries,
    aliasKey entry.1 = Text.lower ext →
      ∃ l, Language.ofName? entry.2 = some l ∧ b.languageOf? path = some l
  other : ∀ path ext, Path.extension? path = some ext →
    (∀ entry ∈ s.aliases.entries, aliasKey entry.1 ≠ Text.lower ext) →
      b.languageOf? path = Language.ofExtension? ext

variable {s : Settings} {d : Dictionary Language}

theorem exists_error_iff :
    (∃ e, s.resolveAliases = .error e) ↔ ∃ entry ∈ s.aliases.entries, IsUnknown entry := by
  constructor
  · rintro ⟨e, failed⟩
    by_contra none_unknown
    have known : s.AllKnown := fun entry he unknown => none_unknown ⟨entry, he, unknown⟩
    rw [resolveAliases_of_allKnown known] at failed
    cases failed
  · rintro ⟨entry, he, unknown⟩
    obtain ⟨_, _, _, failed⟩ := exists_of_not_allKnown fun known => known entry he unknown
    exact ⟨_, failed⟩

/-- Where no two aliases meet in one key, no key has a choice. -/
theorem DistinctKeys.clear (distinct : s.DistinctKeys) (known : s.AllKnown) (key : String) :
    s.Clear key where
  unknown e he _ _ unknown _ := absurd unknown (known e he)
  agree _ e he e' he' here there := by
    have same : e = e' := List.inj_on_of_nodup_map distinct he he' (here.trans there.symm)
    rw [same]

theorem Resolves.find?_of_mem (h : s.Resolves d) (distinct : s.DistinctKeys)
    {entry : String × String} (he : entry ∈ s.aliases.entries) :
    ∃ l, Language.ofName? entry.2 = some l ∧ d.find? (aliasKey entry.1) = some l := by
  obtain ⟨l, name⟩ := Option.ne_none_iff_exists'.1 (h.allKnown entry he)
  refine ⟨l, name, ?_⟩
  rw [h.find?_eq]
  apply Dictionary.find?_ofList_of_mem ((distinct.clear h.allKnown _).agrees h.allKnown)
  exact List.mem_filterMap.2 ⟨entry, he, resolved?_eq_some_iff.2 ⟨rfl, name⟩⟩

theorem Resolves.find?_eq_none (h : s.Resolves d) {key : String}
    (other : ∀ entry ∈ s.aliases.entries, aliasKey entry.1 ≠ key) : d.find? key = none := by
  rw [← Option.not_isSome_iff_eq_none, h.isSome_iff]
  rintro ⟨entry, he, same⟩
  exact other entry he same

theorem Resolves.directs (h : s.Resolves d) (distinct : s.DistinctKeys) {b : Batch}
    (free : (b.withAliases d).language = none) : s.Directs (b.withAliases d) where
  unmarked _ extension := Batch.languageOf?_of_extension?_eq_none free extension
  aliased path ext extension entry he same := by
    obtain ⟨l, name, found⟩ := h.find?_of_mem distinct he
    refine ⟨l, name, ?_⟩
    rw [Batch.languageOf?_of_extension? free extension, h.find?_withAliases, ← same, found,
      Option.some_or]
  other path ext extension other := by
    rw [Batch.languageOf?_of_extension? free extension, h.find?_withAliases,
      h.find?_eq_none other, Option.none_or]

/-- Aliases are resolved unless one of them has an unknown language. When no two of them meet in one
key, files are given languages by them, and by what is known of extensions where no alias is for
the extension, unless all files are given one language. -/
theorem resolveAliases_directs (s : Settings) :
    ((∃ e, s.resolveAliases = .error e) ↔
      ∃ entry ∈ s.aliases.entries, Language.ofName? entry.2 = none) ∧
    (s.AllKnown → s.DistinctKeys → (∃ d, s.resolveAliases = .ok d) ∧
      ∀ d, s.Resolves d → ∀ b : Batch,
        (b.language = none → s.Directs (b.withAliases d)) ∧
        ∀ l, b.language = some l → ∀ path, (b.withAliases d).languageOf? path = some l) := by
  refine ⟨exists_error_iff, fun known distinct => ⟨⟨_, resolveAliases_of_allKnown known⟩, ?_⟩⟩
  intro d h b
  constructor
  · intro free
    exact h.directs distinct free
  · intro l forced path
    have kept : (b.withAliases d).language = some l := forced
    exact Batch.languageOf?_of_language kept path

/-- Aliases for an extension with a dot in capital letters, for the extension of a name that ends
with a dot, and for one whose last letter has another form at the end of a word. -/
def dottedAliases : Settings where
  aliases := {
    entries := [(".BUILD", "python"), ("..", "Hxx"), ("ΟΔΟΣ", "SH")]
    distinct := by decide }

theorem resolveAliases_directs_dotted :
    dottedAliases.AllKnown ∧ dottedAliases.DistinctKeys ∧
    (∃ d, dottedAliases.resolveAliases = .ok d) ∧
    ∀ d, dottedAliases.Resolves d → ∀ b : Batch, b.language = none →
      ["a.Build", "b.", "c.οδος", "d.RS", "Makefile"].map (b.withAliases d).languageOf? =
        [some .python, some .cpp, some .bash, some .rust, none] := by
  have python : Language.ofName? "python" = some .python := by decide +kernel
  have cpp : Language.ofName? "Hxx" = some .cpp :=
    Language.ofName?_of_ofExtension? (by decide +kernel)
  have bash : Language.ofName? "SH" = some .bash :=
    Language.ofName?_of_ofExtension? (by decide +kernel)
  have known : dottedAliases.AllKnown := by
    simp [AllKnown, IsUnknown, dottedAliases, python, cpp, bash]
  have keys : aliasKey ".BUILD" = "build" ∧ aliasKey ".." = "" ∧ aliasKey "ΟΔΟΣ" = "οδος" := by
    decide +kernel
  have distinct : dottedAliases.DistinctKeys := by
    simp [DistinctKeys, dottedAliases, keys]
  obtain ⟨done, directs⟩ := (resolveAliases_directs dottedAliases).2 known distinct
  refine ⟨known, distinct, done, fun d h b free => ?_⟩
  obtain ⟨unmarked, aliased, other⟩ := (directs d h b).1 free
  have build : (b.withAliases d).languageOf? "a.Build" = some .python := by
    obtain ⟨l, name, given⟩ := aliased "a.Build" "Build" (by decide +kernel)
      (".BUILD", "python") (by decide) (by decide +kernel)
    rw [given, ← name, python]
  have dot : (b.withAliases d).languageOf? "b." = some .cpp := by
    obtain ⟨l, name, given⟩ := aliased "b." "" (by decide +kernel)
      ("..", "Hxx") (by decide) (by decide +kernel)
    rw [given, ← name, cpp]
  have sigma : (b.withAliases d).languageOf? "c.οδος" = some .bash := by
    obtain ⟨l, name, given⟩ := aliased "c.οδος" "οδος" (by decide +kernel)
      ("ΟΔΟΣ", "SH") (by decide) (by decide +kernel)
    rw [given, ← name, bash]
  have known_for : (b.withAliases d).languageOf? "d.RS" = some .rust := by
    rw [other "d.RS" "RS" (by decide +kernel) (by decide +kernel)]
    decide +kernel
  have none_for : (b.withAliases d).languageOf? "Makefile" = none :=
    unmarked "Makefile" (by decide +kernel)
  simp only [List.map_cons, List.map_nil, build, dot, sigma, known_for, none_for]

end Settings

end TreeListing
