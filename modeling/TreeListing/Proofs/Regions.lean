import TreeListing.Proofs.QuotedRuns

/-!
# Quoted runs read piece by piece

What stands in a text behind a piece of it depends on the piece only through the region that the
piece leads to. So a text is protected piece by piece, as it is laid out character by character, and
once the characters behind the stand-ins are put back, the indented form is the text itself with
spaces and line breaks inserted.
-/

namespace TreeListing.Sexp

open TreeListing.Bracket (Balanced Inserted)

def Region.after (region : Region) (text : List Char) : Region := text.foldl Region.next region

theorem after_append (region : Region) (a b : List Char) :
    region.after (a ++ b) = (region.after a).after b := List.foldl_append

@[simp] theorem protectFrom_append (region : Region) (a b : List Char) :
    protectFrom region (a ++ b) = protectFrom region a ++ protectFrom (region.after a) b := by
  induction a generalizing region with
  | nil => rfl
  | cons c rest ih =>
    rw [List.cons_append, protectFrom, ih (region.next c)]
    rfl

@[simp] theorem protectFrom_quote (region : Region) : protectFrom region ['"'] = ['"'] := by
  cases region <;> rfl

def Region.Stays (region : Region) (text : List Char) : Prop := ∀ c ∈ text, region.next c = region

theorem stays_outside {text : List Char} (quote : '"' ∉ text) : Region.outside.Stays text := by
  intro c hc
  have other : c ≠ '"' := fun same => quote (same ▸ hc)
  rw [Region.next, if_neg other]

theorem stays_inside {text : List Char} (quote : '"' ∉ text) (escape : '\\' ∉ text) :
    Region.inside.Stays text := by
  intro c hc
  have notQuote : c ≠ '"' := fun same => quote (same ▸ hc)
  have notEscape : c ≠ '\\' := fun same => escape (same ▸ hc)
  rw [Region.next, if_neg notEscape, if_neg notQuote]

theorem Region.Stays.after_eq {region : Region} {text : List Char} (h : region.Stays text) :
    region.after text = region := by
  induction text with
  | nil => rfl
  | cons c rest ih =>
    obtain ⟨here, later⟩ := List.forall_mem_cons.1 h
    rw [Region.after, List.foldl_cons, here]
    exact ih later

theorem Region.Stays.protectFrom_eq {region : Region} {text : List Char} (h : region.Stays text) :
    protectFrom region text = text.map fun c => if region = .outside then c else standIn c := by
  induction text with
  | nil => rfl
  | cons c rest ih =>
    obtain ⟨here, later⟩ := List.forall_mem_cons.1 h
    rw [protectFrom, here, ih later, List.map_cons]

@[simp] theorem map_restored_protectFrom (region : Region) (text : List Char) :
    (protectFrom region text).map restored = text.map restored := by
  induction text generalizing region with
  | nil => rfl
  | cons c rest ih =>
    rw [protectFrom, List.map_cons, List.map_cons, ih]
    split
    · rfl
    · simp

def Unmarked (text : List Char) : Prop := ∀ c ∈ text, c ∉ standIns

instance (text : List Char) : Decidable (Unmarked text) :=
  List.decidableBAll _ text

theorem Unmarked.append {a b : List Char} (ha : Unmarked a) (hb : Unmarked b) :
    Unmarked (a ++ b) := List.forall_mem_append.2 ⟨ha, hb⟩

theorem inserted_map_restored {text out : List Char} (h : Inserted text out) :
    Inserted (text.map restored) (out.map restored) := by
  induction h with
  | nil => exact .nil
  | kept c _ ih => exact .kept (restored c) ih
  | blank blank _ ih =>
    rcases blank with rfl | rfl
    · exact .blank (.inl rfl) ih
    · exact .blank (.inr rfl) ih

/-- The indented form is the text with blanks inserted. -/
theorem inserted_of_layout {text out : String} (unmarked : Unmarked text.toList)
    (done : layout text = .ok out) : Inserted text.toList out.toList := by
  obtain ⟨laid, laidOut, rfl⟩ := layout_eq_ok_iff.1 done
  rw [Bracket.layout_eq_ok_iff, toList_protect] at laidOut
  have inserted := inserted_map_restored (Bracket.inserted_layoutFrom laidOut)
  rw [map_restored_protectFrom, map_restored unmarked] at inserted
  rwa [restore, String.toList_ofList]

theorem exists_layout_iff {text : String} :
    (∃ out, layout text = .ok out) ↔ Balanced (protectFrom .outside text.toList) := by
  rw [← toList_protect, ← Bracket.exists_layout_iff]
  constructor
  · rintro ⟨out, done⟩
    obtain ⟨laid, done, _⟩ := layout_eq_ok_iff.1 done
    exact ⟨laid, done⟩
  · rintro ⟨laid, done⟩
    exact ⟨restore laid, layout_eq_ok_iff.2 ⟨laid, done, rfl⟩⟩

end TreeListing.Sexp
