import Mathlib.Data.List.Induction
import TreeListing.Proofs.Regions

/-!
# What stand-ins hide

Stand-ins take the place of parentheses and spaces inside quoted runs and of nothing else. A place
is outside runs if the text in front of it is made up of whole runs and of characters that are no
quotes; where a run is open, each place up to its end is inside, and if nothing closes the run, each
place up to the end of the text.

Putting back what the stand-ins stand for undoes the protection, but it also changes the stand-ins
that are in the text already.
-/

namespace TreeListing.Sexp

open TreeListing.Bracket (Structural)

/-- What stands in a run that has not been closed, behind its opening quote: characters other than
quotes and backslashes, and any characters that have a backslash in front. -/
inductive RunBody : List Char → Prop
  | nil : RunBody []
  | plain {body : List Char} {c : Char} :
      RunBody body → c ≠ '"' → c ≠ '\\' → RunBody (body ++ [c])
  | escaped {body : List Char} (c : Char) : RunBody body → RunBody (body ++ ['\\', c])

inductive Closed : List Char → Prop
  | nil : Closed []
  | plain {text : List Char} {c : Char} : Closed text → c ≠ '"' → Closed (text ++ [c])
  | run {text body : List Char} :
      Closed text → RunBody body → Closed (text ++ ('"' :: body ++ ['"']))

/-- What a text is made up of that leads to a region from outside. -/
def Region.Describes : Region → List Char → Prop
  | outside, text => Closed text
  | inside, text => ∃ front body, Closed front ∧ RunBody body ∧ text = front ++ '"' :: body
  | escaping, text =>
    ∃ front body, Closed front ∧ RunBody body ∧ text = front ++ '"' :: (body ++ ['\\'])

theorem Region.Describes.next {region : Region} {text : List Char} (h : region.Describes text)
    (c : Char) : (region.next c).Describes (text ++ [c]) := by
  cases region with
  | outside =>
    rw [Region.next]
    split
    · next quote =>
      subst quote
      exact ⟨text, [], h, .nil, rfl⟩
    · next other => exact Closed.plain h other
  | inside =>
    obtain ⟨front, body, closed, inner, rfl⟩ := h
    rw [Region.next]
    split
    · next escape =>
      subst escape
      exact ⟨front, body, closed, inner, by simp⟩
    · split
      · next quote =>
        subst quote
        have whole : Closed (front ++ '"' :: body ++ ['"']) := by simpa using closed.run inner
        exact whole
      · next escape quote =>
        exact ⟨front, body ++ [c], closed, inner.plain quote escape, by simp⟩
  | escaping =>
    obtain ⟨front, body, closed, inner, rfl⟩ := h
    exact ⟨front, body ++ ['\\', c], closed, inner.escaped c, by simp⟩

theorem describes_after (text : List Char) : (Region.outside.after text).Describes text := by
  induction text using List.reverseRecOn with
  | nil => exact Closed.nil
  | append_singleton text c ih =>
    rw [after_append]
    exact ih.next c

theorem RunBody.after_eq {body : List Char} (h : RunBody body) :
    Region.inside.after body = .inside := by
  induction h with
  | nil => rfl
  | plain _ quote escape ih =>
    rw [after_append, ih]
    exact (stays_inside (by simpa using quote.symm) (by simpa using escape.symm)).after_eq
  | escaped c _ ih =>
    rw [after_append, ih]
    rfl

theorem Closed.after_eq {text : List Char} (h : Closed text) :
    Region.outside.after text = .outside := by
  induction h with
  | nil => rfl
  | plain _ quote ih =>
    rw [after_append, ih]
    exact (stays_outside (by simpa using quote.symm)).after_eq
  | @run text body _ inner ih =>
    have opening : Region.outside.after ('"' :: body) = Region.inside.after body := rfl
    rw [after_append, ih, after_append, opening, inner.after_eq]
    rfl

theorem closed_iff {text : List Char} : Closed text ↔ Region.outside.after text = .outside := by
  constructor
  · exact Closed.after_eq
  · intro outside
    have described := describes_after text
    rwa [outside] at described

instance (text : List Char) : Decidable (Closed text) := decidable_of_iff _ closed_iff.symm

/-- An escaped quote closes no run, but a quote behind an escaped backslash does. -/
example : ¬ Closed "(a \"\\\"".toList ∧ Closed "(a \"\\\\\"".toList := by decide

theorem getElem?_protectFrom (region : Region) (text : List Char) (i : Nat) :
    (protectFrom region text)[i]? = text[i]?.map fun c =>
      if region.after (text.take i) = .outside then c else standIn c := by
  induction text generalizing region i with
  | nil => rfl
  | cons c rest ih =>
    cases i with
    | zero => rfl
    | succ i => exact ih (region.next c) i

theorem getElem?_protectFrom_structural {text : List Char} {i : Nat} {c : Char} :
    (protectFrom .outside text)[i]? = some c ∧ Structural c ↔
      text[i]? = some c ∧ Structural c ∧ Closed (text.take i) := by
  rw [getElem?_protectFrom, closed_iff]
  by_cases outside : Region.outside.after (text.take i) = .outside
  · simp [outside]
  · simp only [outside, if_false, and_false, iff_false, not_and]
    intro hidden
    obtain ⟨d, _, rfl⟩ := Option.map_eq_some_iff.1 hidden
    exact not_structural_standIn d

@[simp] theorem length_protectFrom (region : Region) (text : List Char) :
    (protectFrom region text).length = text.length := by
  induction text generalizing region with
  | nil => rfl
  | cons c rest ih => rw [protectFrom, List.length_cons, List.length_cons, ih]

@[simp] theorem restored_eq_self_iff {c : Char} : restored c = c ↔ c ∉ standIns := by
  constructor
  · intro same mark
    simp only [standIns, List.mem_cons, List.not_mem_nil, or_false] at mark
    rcases mark with rfl | rfl | rfl
    · exact absurd same (by decide)
    · exact absurd same (by decide)
    · exact absurd same (by decide)
  · exact restored_of_not_mem

@[simp] theorem map_restored_eq_self_iff {text : List Char} :
    text.map restored = text ↔ Unmarked text := by
  constructor
  · intro same c hc
    have fixed : ∀ c ∈ text, restored c = id c := List.map_inj_left.1 (by rw [same, List.map_id])
    exact restored_eq_self_iff.1 (fixed c hc)
  · exact map_restored

@[simp] theorem restore_eq_self_iff {text : String} :
    restore text = text ↔ Unmarked text.toList := by
  rw [restore, ← String.toList_inj, String.toList_ofList, map_restored_eq_self_iff]

/-- What is restored is the same with and without protection, and it is the text exactly if there
are no stand-ins in the text. The parentheses and spaces that are left in the protected text are
those outside runs, each at its place. -/
theorem restore_protect (text : String) :
    restore (protect text) = restore text ∧
    (restore (protect text) = text ↔ Unmarked text.toList) ∧
    (protect text).toList.length = text.toList.length ∧
    ∀ i c, (protect text).toList[i]? = some c ∧ Structural c ↔
      text.toList[i]? = some c ∧ Structural c ∧ Closed (text.toList.take i) := by
  have same : restore (protect text) = restore text := by
    simp [restore]
  refine ⟨same, ?_, ?_, ?_⟩
  · simp [same]
  · simp
  · intro i c
    rw [toList_protect]
    exact getElem?_protectFrom_structural

/-- A run with an escaped quote, and one that is not closed. -/
example : protect "(a \"\\\" (\") \"( " = "(a \"\\\"\ue002\ue000\") \"\ue000\ue002" := rfl

end TreeListing.Sexp
