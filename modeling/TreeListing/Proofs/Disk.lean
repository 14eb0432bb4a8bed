import Mathlib.Data.List.Basic
import TreeListing.FileSystem.Disk

/-!
# What is written can be read

A file system keeps what is written if each text that has been written to a path is then there, and
is what is read from the path. A disk does: a file takes no directory's place, so that the way to it
stays as it was.
-/

namespace TreeListing

/-- After a text has been written to a path, a file is there from which the text is read; looking
changes nothing. -/
structure FileSystem.Keeps (σ : Type) [FileSystem (StateM σ)] : Prop where
  present : ∀ {path text : String} {d d' : σ},
    (writeText (m := StateM σ) path text).run d = (.ok (), d') →
      (isPresent (m := StateM σ) path).run d' = (true, d')
  read : ∀ {path text : String} {d d' : σ},
    (writeText (m := StateM σ) path text).run d = (.ok (), d') →
      (readText (m := StateM σ) path).run d' = (.ok text, d')

theorem run_bind {σ α β : Type} (x : StateM σ α) (f : α → StateM σ β) (d : σ) :
    (x >>= f).run d = (f (x.run d).1).run (x.run d).2 := rfl

theorem exists_of_bind_eq_ok {ε α β : Type} {x : Except ε α} {f : α → Except ε β} {b : β}
    (h : (x >>= f) = .ok b) : ∃ a, x = .ok a ∧ f a = .ok b := by
  cases x with
  | error e => cases h
  | ok a => exact ⟨a, rfl, h⟩

namespace Disk

variable {d d' : Disk} {file : Place} {content : Content}

theorem content?_put_directory (free : d.content? file ≠ some .directory) {place : Place}
    (h : d.content? place = some .directory) :
    (d.put file content).content? place = some .directory := by
  have other : place ≠ file := fun same => free (same ▸ h)
  simp [other, h]

theorem content?_put_self (free : d.content? file ≠ some .directory) :
    (d.put file content).content? file = some content := by
  have outside : file.isPrefixOf d.home ≠ true := fun above => free (if_pos above)
  simp_all

theorem follow_put (free : d.content? file ≠ some .directory) {parts : List (List Char)}
    {place target : Place} (h : d.follow place parts = .ok target) :
    (d.put file content).follow place parts = .ok target := by
  induction parts generalizing place with
  | nil => exact h
  | cons part rest ih =>
    rw [follow] at h ⊢
    split at h
    · cases h
    · cases h
    · next directory =>
      rw [content?_put_directory free directory]
      simp only
      split at h
      · cases h
      · next long =>
        rw [if_neg long]
        exact ih h

theorem place_put (free : d.content? file ≠ some .directory) {path : String} {target : Place}
    (h : d.place path = .ok target) : (d.put file content).place path = .ok target := by
  obtain ⟨_, checked, way⟩ := exists_of_bind_eq_ok h
  split at way
  · cases way
  · next nonempty =>
    rw [place, checked]
    exact (if_neg nonempty).trans (follow_put free way)

theorem place_of_writeBytes {path : String} {bytes : ByteArray}
    (h : d.writeBytes path bytes = .ok d') :
    ∃ file, d'.place path = .ok file ∧ d'.content? file = some (.file bytes) := by
  obtain ⟨file, found, put⟩ := exists_of_bind_eq_ok h
  split at put
  · cases put
  · next free =>
    rw [← Except.ok.inj put]
    exact ⟨file, place_put free found, content?_put_self free⟩

@[simp] theorem fromUTF8?_toUTF8 (text : String) : String.fromUTF8? text.toUTF8 = some text :=
  dif_pos text.isValidUTF8

theorem isPresent_of_content? {path : String} (found : d.place path = .ok file)
    (there : d.content? file = some content) : d.isPresent path = true := by
  rw [isPresent, found]
  simp only [there, Option.isSome_some]

theorem readText_of_content? {path text : String} (found : d.place path = .ok file)
    (there : d.content? file = some (.file text.toUTF8)) : d.readText path = .ok text := by
  have bytes : d.readBytes path = .ok text.toUTF8 := by
    simp only [readBytes, found, there, bind, Except.bind, pure, Except.pure]
  simp only [readText, bytes, fromUTF8?_toUTF8, bind, Except.bind, pure, Except.pure]

theorem keeps : FileSystem.Keeps Disk := by
  have exists_file {path text : String} {d d' : Disk}
      (h : (FileSystem.writeText (m := StateM Disk) path text).run d = (.ok (), d')) :
      ∃ file, d'.place path = .ok file ∧ d'.content? file = some (.file text.toUTF8) := by
    have changed : change (·.writeText path text) d = (.ok (), d') := h
    unfold change at changed
    split at changed
    · next d'' written =>
      obtain ⟨_, rfl⟩ := Prod.mk.inj changed
      exact place_of_writeBytes written
    · cases changed
  constructor
  · intro path text d d' h
    obtain ⟨file, found, there⟩ := exists_file h
    exact congrArg (·, d') (isPresent_of_content? found there)
  · intro path text d d' h
    obtain ⟨file, found, there⟩ := exists_file h
    exact congrArg (·, d') (readText_of_content? found there)

end Disk

end TreeListing
