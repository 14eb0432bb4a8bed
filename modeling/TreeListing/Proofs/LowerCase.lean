import Mathlib.Data.Nat.Bitwise
import TreeListing.Text.LowerCase

/-!
# Lower case is final

Nothing that comes out of lower-casing has another lower-case form, so a text in lower case stays as
it is. For the characters of the table this is a fact about two sets of code points, those that are
changed and those that they are changed to; as the sets are large, they are compared as the bits of
two numbers.
-/

namespace TreeListing.Text

def bits (codes : List Nat) : Nat := codes.foldr (fun n set => 1 <<< n ||| set) 0

@[simp] theorem testBit_bits {codes : List Nat} {n : Nat} :
    (bits codes).testBit n = true ↔ n ∈ codes := by
  induction codes with
  | nil => simp [bits]
  | cons code rest ih =>
    rw [bits, List.foldr_cons, ← bits, Nat.testBit_or, Bool.or_eq_true, ih, Nat.one_shiftLeft,
      Nat.testBit_two_pow, decide_eq_true_eq, List.mem_cons, eq_comm]

theorem disjoint_of_bits {a b : List Nat} (h : bits a &&& bits b = 0) {n : Nat} (ha : n ∈ a) :
    n ∉ b := by
  intro hb
  have both : (bits a &&& bits b).testBit n = true := by
    rw [Nat.testBit_and, testBit_bits.2 ha, testBit_bits.2 hb]
    rfl
  rw [h, Nat.zero_testBit] at both
  cases both

def codesOfRun (first last step : Nat) : List Nat :=
  ((List.range (last + 1 - first)).filter (· % step == 0)).map (first + ·)

@[simp] theorem mem_codesOfRun {first last step n : Nat} :
    n ∈ codesOfRun first last step ↔
      first ≤ n ∧ n ≤ last ∧ (n - first) % step = 0 := by
  simp only [codesOfRun, List.mem_map, List.mem_filter, List.mem_range, beq_iff_eq]
  constructor
  · rintro ⟨i, ⟨inside, stepped⟩, rfl⟩
    rw [Nat.add_sub_cancel_left]
    exact ⟨by omega, by omega, stepped⟩
  · rintro ⟨lower, upper, stepped⟩
    exact ⟨n - first, ⟨by omega, stepped⟩, by omega⟩

def changedCodes : List Nat :=
  0x130 :: lowerCaseRuns.flatMap fun (first, last, step, _) => codesOfRun first last step

def loweredCodes : List Nat :=
  0x69 :: 0x307 :: lowerCaseRuns.flatMap fun (first, last, step, distance) =>
    (codesOfRun first last step).map fun (n : Nat) => ((n : Int) + distance).toNat

theorem disjoint_loweredCodes : bits (0 :: loweredCodes) &&& bits changedCodes = 0 := by
  decide +kernel

theorem mem_of_lowerCaseRun? {c : Char} {first last step : Nat} {distance : Int}
    (h : lowerCaseRun? c = some (first, last, step, distance)) :
    (first, last, step, distance) ∈ lowerCaseRuns ∧ c.toNat ∈ codesOfRun first last step := by
  have inside := List.find?_some h
  simp only [Bool.and_eq_true, decide_eq_true_eq, beq_iff_eq] at inside
  exact ⟨List.mem_of_find?_eq_some h, mem_codesOfRun.2 ⟨inside.1.1, inside.1.2, inside.2⟩⟩

theorem not_mem_of_lowerCaseRun?_eq_none {c : Char} (h : lowerCaseRun? c = none)
    (not_dotted : c ≠ '\u0130') : c.toNat ∉ changedCodes := by
  rw [changedCodes, List.mem_cons, not_or, List.mem_flatMap]
  constructor
  · intro same
    exact not_dotted (Char.toNat_inj.1 same)
  · rintro ⟨⟨first, last, step, distance⟩, mem, code⟩
    have outside := List.find?_eq_none.1 h _ mem
    simp only [Bool.and_eq_true, decide_eq_true_eq, beq_iff_eq, and_assoc] at outside
    exact outside (mem_codesOfRun.1 code)

/-- Whether lower-casing leaves a character alone, wherever it stands. -/
def IsLower (c : Char) : Prop := c.toNat ∉ changedCodes

theorem IsLower.lowerChar_eq {c : Char} (h : IsLower c) : lowerChar c = [c] := by
  rw [IsLower, changedCodes, List.mem_cons, not_or, List.mem_flatMap] at h
  have not_dotted : c ≠ '\u0130' := by
    rintro rfl
    exact h.1 rfl
  rw [lowerChar, if_neg not_dotted]
  split
  · rfl
  · next run =>
    obtain ⟨mem, code⟩ := mem_of_lowerCaseRun? run
    exact absurd ⟨_, mem, code⟩ h.2

theorem IsLower.ne_sigma {c : Char} (h : IsLower c) : c ≠ 'Σ' := by
  rintro rfl
  have run : (0x03A3, 0x03AB, 1, 32) ∈ lowerCaseRuns := by decide
  exact h (List.mem_cons_of_mem _ (List.mem_flatMap.2 ⟨_, run, mem_codesOfRun.2 (by decide)⟩))

theorem isLower_of_mem_loweredCodes {c : Char} (h : c.toNat ∈ loweredCodes) : IsLower c :=
  disjoint_of_bits disjoint_loweredCodes (List.mem_cons_of_mem _ h)

/-- A number that is no code point gives the character 0. -/
theorem isLower_ofNat {n : Nat} (h : n ∈ loweredCodes) : IsLower (Char.ofNat n) := by
  by_cases valid : n.isValidChar
  · apply isLower_of_mem_loweredCodes
    rw [Char.ofNat, dif_pos valid]
    exact h
  · rw [Char.ofNat, dif_neg valid]
    exact disjoint_of_bits disjoint_loweredCodes List.mem_cons_self

theorem isLower_of_mem_lowerChar {c d : Char} (h : d ∈ lowerChar c) : IsLower d := by
  unfold lowerChar at h
  split at h
  · rcases List.mem_cons.1 h with rfl | h
    · exact isLower_of_mem_loweredCodes List.mem_cons_self
    · rw [List.mem_singleton.1 h]
      exact isLower_of_mem_loweredCodes (List.mem_cons_of_mem _ List.mem_cons_self)
  · next not_dotted =>
    split at h
    · next none =>
      rw [List.mem_singleton.1 h]
      exact not_mem_of_lowerCaseRun?_eq_none none not_dotted
    · next run =>
      obtain ⟨mem, code⟩ := mem_of_lowerCaseRun? run
      rw [List.mem_singleton.1 h]
      apply isLower_ofNat
      exact List.mem_cons_of_mem _ <| List.mem_cons_of_mem _ <|
        List.mem_flatMap.2 ⟨_, mem, List.mem_map.2 ⟨_, code, rfl⟩⟩

theorem lowerFrom_eq_self {before cs : List Char} (h : ∀ c ∈ cs, IsLower c) :
    lowerFrom before cs = cs := by
  induction cs generalizing before with
  | nil => rfl
  | cons c after ih =>
    obtain ⟨first, rest⟩ := List.forall_mem_cons.1 h
    rw [lowerFrom, if_neg first.ne_sigma, first.lowerChar_eq, ih rest]
    rfl

theorem isLower_of_mem_lowerFrom {before cs : List Char} {d : Char} (h : d ∈ lowerFrom before cs) :
    IsLower d := by
  induction cs generalizing before with
  | nil => cases h
  | cons c after ih =>
    rw [lowerFrom, List.mem_append] at h
    rcases h with here | later
    · split at here
      · have final : IsLower 'ς' := isLower_of_mem_lowerChar (c := 'ς') (by decide)
        have inner : IsLower 'σ' := isLower_of_mem_lowerChar (c := 'σ') (by decide)
        rw [List.mem_singleton.1 here]
        split
        · exact final
        · exact inner
      · exact isLower_of_mem_lowerChar here
    · exact ih later

@[simp] theorem lower_lower (s : String) : lower (lower s) = lower s := by
  rw [lower, lower, String.toList_ofList,
    lowerFrom_eq_self fun c h => isLower_of_mem_lowerFrom h]

end TreeListing.Text
