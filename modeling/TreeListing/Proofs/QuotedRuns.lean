import TreeListing.Proofs.Balance
import TreeListing.Proofs.Insertion
import TreeListing.Sexp

/-!
# Quoted runs in an indented s-expression

A text falls into quoted runs and the characters outside of them. An s-expression has an indented
form exactly when the parentheses outside runs balance. In this form blanks are inserted around
characters outside runs only: every run stands in it as it stood in the text, in one piece.

The runs are cut off one by one, each from its opening quote to its end. What is done with them
while a text is protected depends on where the reader stands in a run; that this comes to the same
is the first fact here.
-/

namespace TreeListing.Sexp

open TreeListing.Bracket (Balanced Blanks Spaced Structural isParen layoutFrom)

/-- The rest of a run, and what follows the run. The run is closed by the first quote that no
backslash escapes; without one it goes on to the end. -/
def splitRun : List Char → List Char × List Char
  | [] => ([], [])
  | [c] => ([c], [])
  | c :: d :: rest =>
    if c = '"' then ([c], d :: rest)
    else if c = '\\' then (c :: d :: (splitRun rest).1, (splitRun rest).2)
    else (c :: (splitRun (d :: rest)).1, (splitRun (d :: rest)).2)

@[simp] theorem splitRun_append (text : List Char) :
    (splitRun text).1 ++ (splitRun text).2 = text := by
  fun_induction splitRun text with
  | case1 => rfl
  | case2 => rfl
  | case3 => rfl
  | case4 d rest _ ih => rw [List.cons_append, List.cons_append, ih]
  | case5 c d rest _ _ ih => rw [List.cons_append, ih]

theorem length_splitRun_le (text : List Char) : (splitRun text).2.length ≤ text.length := by
  have length := congrArg List.length (splitRun_append text)
  rw [List.length_append] at length
  omega

inductive Part where
  | plain (c : Char)
  /-- A run with the quote that opens it, and the one that closes it if there is one. -/
  | run (text : List Char)

/-- The runs of a text and the characters outside of them, one after the other. -/
def parts (text : List Char) : List Part :=
  match text with
  | [] => []
  | c :: rest =>
    if c = '"' then .run (c :: (splitRun rest).1) :: parts (splitRun rest).2
    else .plain c :: parts rest
termination_by text.length
decreasing_by
  · have := length_splitRun_le rest
    rw [List.length_cons]
    omega
  · simp

namespace Part

def text : Part → List Char
  | plain c => [c]
  | run text => text

def guarded : Part → List Char
  | plain c => [c]
  | run text => text.map standIn

def plain? : Part → Option Char
  | plain c => some c
  | run _ => none

/-- What is written for a part: a run as it is, a character with blanks around it. -/
inductive Written : Part → List Char → Prop
  | plain {c : Char} {written : List Char} : Spaced c written → Written (.plain c) written
  | run (text : List Char) : Written (.run text) text

end Part

def outside (text : List Char) : List Char := (parts text).filterMap Part.plain?

/-- Parts that are written one after the other. -/
inductive Written : List Part → List Char → Prop
  | nil : Written [] []
  | cons {p : Part} {ps : List Part} {written out : List Char} :
      p.Written written → Written ps out → Written (p :: ps) (written ++ out)

/-- The text is the row of its parts. -/
@[simp] theorem flatMap_parts (text : List Char) : (parts text).flatMap Part.text = text := by
  fun_induction parts text with
  | case1 => rfl
  | case2 rest ih =>
    simp [ih, Part.text]
  | case3 c rest _ ih =>
    rw [List.flatMap_cons, ih]
    rfl

def standIns : List Char := ['\ue000', '\ue001', '\ue002']

theorem not_structural_standIn (c : Char) : ¬ Structural (standIn c) := by
  unfold standIn
  split
  · decide
  · decide
  · decide
  · next opens closes space =>
    rintro (rfl | rfl | rfl)
    · exact opens rfl
    · exact closes rfl
    · exact space rfl

theorem restored_of_not_mem {c : Char} (h : c ∉ standIns) : restored c = c := by
  unfold restored
  split
  · exact absurd (by decide) h
  · exact absurd (by decide) h
  · exact absurd (by decide) h
  · rfl

theorem map_restored {text : List Char} (h : ∀ c ∈ text, c ∉ standIns) :
    text.map restored = text := by
  rw [List.map_congr_left fun c hc => restored_of_not_mem (h c hc), List.map_id']

theorem map_restored_standIn {text : List Char} (h : ∀ c ∈ text, c ∉ standIns) :
    (text.map standIn).map restored = text := by
  rw [List.map_map]
  calc
    text.map (restored ∘ standIn) = text.map restored :=
      List.map_congr_left fun c _ => restored_standIn c
    _ = text := map_restored h

theorem protectFrom_inside (text : List Char) :
    protectFrom .inside text =
      (splitRun text).1.map standIn ++ protectFrom .outside (splitRun text).2 := by
  fun_induction splitRun text with
  | case1 => rfl
  | case2 => rfl
  | case3 => rfl
  | case4 d rest _ ih =>
    have escaped : protectFrom .inside ('\\' :: d :: rest) =
        '\\' :: standIn d :: protectFrom .inside rest := rfl
    rw [escaped, ih]
    rfl
  | case5 c d rest notQuote notEscape ih =>
    have stays : Region.inside.next c = .inside := by
      rw [Region.next, if_neg notEscape, if_neg notQuote]
    rw [protectFrom, stays, ih]
    rfl

theorem protectFrom_outside (text : List Char) :
    protectFrom .outside text = (parts text).flatMap Part.guarded := by
  fun_induction parts text with
  | case1 => rfl
  | case2 rest ih =>
    have opening : protectFrom .outside ('"' :: rest) = '"' :: protectFrom .inside rest := rfl
    rw [opening, protectFrom_inside, ih]
    rfl
  | case3 c rest notQuote ih =>
    have stays : Region.outside.next c = .outside := by rw [Region.next, if_neg notQuote]
    rw [protectFrom, stays, ih]
    rfl

@[simp] theorem filter_guarded (p : Part) :
    p.guarded.filter isParen = p.plain?.toList.filter isParen := by
  cases p with
  | plain c => rfl
  | run text =>
    apply List.filter_eq_nil_iff.2
    intro x hx
    obtain ⟨c, _, rfl⟩ := List.mem_map.1 hx
    have plain := not_structural_standIn c
    rw [Structural, not_or, not_or] at plain
    simp [isParen, plain]

theorem balanced_protectFrom_iff (text : List Char) :
    Balanced (protectFrom .outside text) ↔ Balanced (outside text) := by
  have same : (protectFrom .outside text).filter isParen = (outside text).filter isParen := by
    rw [protectFrom_outside, outside, List.filter_flatMap, List.filterMap_eq_flatMap_toList,
      List.filter_flatMap]
    exact congrArg (parts text).flatMap (funext filter_guarded)
  rw [← Bracket.balanced_filter_iff, same, Bracket.balanced_filter_iff]

theorem Part.written_of_spaced {c : Char} {written : List Char} (unmarked : c ∉ standIns)
    (h : Spaced c written) : (Part.plain c).Written (written.map restored) := by
  have blank : ∀ {text : List Char}, Blanks text → text.map restored = text := by
    intro text hb
    apply map_restored
    intro x hx
    rcases hb x hx with rfl | rfl <;> decide
  cases h with
  | intro before after =>
    rw [List.map_append, List.map_cons, blank before, blank after, restored_of_not_mem unmarked]
    exact .plain (.intro before after)

/-- Part by part, the layout of what is guarded stands for the text itself. -/
theorem written_of_layoutFrom {s : Bracket.State} {ps : List Part} {out : List Char}
    (unmarked : ∀ c ∈ ps.flatMap Part.text, c ∉ standIns)
    (done : layoutFrom s (ps.flatMap Part.guarded) = .ok out) :
    Written ps (out.map restored) := by
  induction ps generalizing s out with
  | nil =>
    rw [(Bracket.layoutFrom_nil_eq_ok done).2]
    exact .nil
  | cons p ps ih =>
    rw [List.flatMap_cons, List.forall_mem_append] at unmarked
    rw [List.flatMap_cons] at done
    -- a plain character has blanks put around it, a run is a row that the layout copies
    cases p with
    | plain c =>
      obtain ⟨s', written, more, reads, read, rfl⟩ := Bracket.layoutFrom_cons_eq_ok done
      rw [List.map_append]
      apply Written.cons
      · exact Part.written_of_spaced (unmarked.1 c List.mem_cons_self) reads.spaced
      · exact ih unmarked.2 read
    | run text =>
      have plain : ∀ x ∈ text.map standIn, ¬ Structural x := by
        intro x hx
        obtain ⟨c, _, rfl⟩ := List.mem_map.1 hx
        exact not_structural_standIn c
      obtain ⟨s', more, read, rfl⟩ := Bracket.layoutFrom_append_eq_ok plain done
      have back : (text.map standIn).map restored = text := map_restored_standIn unmarked.1
      rw [List.map_append, back]
      exact .cons (.run text) (ih unmarked.2 read)

@[simp] theorem toList_protect (text : String) :
    (protect text).toList = protectFrom .outside text.toList := String.toList_ofList

theorem layout_eq_ok_iff {text out : String} :
    layout text = .ok out ↔
      ∃ laid, Bracket.layout (protect text) = .ok laid ∧ restore laid = out := by
  rw [layout]
  cases Bracket.layout (protect text) with
  | error e => simp [Except.map]
  | ok laid => simp [Except.map]

/-- An s-expression has an indented form exactly when its parentheses outside runs balance. In the
indented form its parts stand one after the other: each run as it is, each other character with
nothing but spaces and line breaks around it. -/
theorem layout_runs {text : String} (unmarked : ∀ c ∈ text.toList, c ∉ standIns) :
    (parts text.toList).flatMap Part.text = text.toList ∧
    ((∃ out, layout text = .ok out) ↔ Balanced (outside text.toList)) ∧
    ∀ out, layout text = .ok out → Written (parts text.toList) out.toList := by
  refine ⟨flatMap_parts _, ?_, ?_⟩
  · rw [← balanced_protectFrom_iff, ← toList_protect, ← Bracket.exists_layout_iff]
    constructor
    · rintro ⟨out, done⟩
      obtain ⟨laid, done, _⟩ := layout_eq_ok_iff.1 done
      exact ⟨laid, done⟩
    · rintro ⟨laid, done⟩
      exact ⟨restore laid, layout_eq_ok_iff.2 ⟨laid, done, rfl⟩⟩
  · intro out done
    obtain ⟨laid, laidOut, rfl⟩ := layout_eq_ok_iff.1 done
    rw [Bracket.layout_eq_ok_iff, toList_protect, protectFrom_outside] at laidOut
    rw [restore, String.toList_ofList]
    apply written_of_layoutFrom _ laidOut
    rwa [flatMap_parts]

/-- A run with an escaped quote and a parenthesis in it, right behind it one that ends with an
escaped backslash, and one that is not closed. -/
theorem layout_runs_unclosed :
    let text := "((a \"\\\" (\"\"\\\\\") b) \") ("
    let out := "((\n  a \n   \"\\\" (\"\"\\\\\"\n) \n b) \n \") ("
    layout text = .ok out ∧
    (∀ c ∈ text.toList, c ∉ standIns) ∧
    (parts text.toList).flatMap Part.text = text.toList ∧
    ((∃ out, layout text = .ok out) ↔ Balanced (outside text.toList)) ∧
    ∀ out, layout text = .ok out → Written (parts text.toList) out.toList := by
  intro text out
  have done : layout text = .ok out := by
    subst text out
    rfl
  have absent : '\ue000' ∉ text.toList ∧ '\ue001' ∉ text.toList ∧ '\ue002' ∉ text.toList := by
    decide
  have unmarked : ∀ c ∈ text.toList, c ∉ standIns := by
    intro c hc mark
    simp only [standIns, List.mem_cons, List.not_mem_nil, or_false] at mark
    rcases mark with rfl | rfl | rfl
    · exact absent.1 hc
    · exact absent.2.1 hc
    · exact absent.2.2 hc
  exact ⟨done, unmarked, layout_runs unmarked⟩

end TreeListing.Sexp
