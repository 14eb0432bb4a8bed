/-!
# Characters and texts

What listings, layouts and documents need of texts: blank characters (the 25 with the Unicode
property `White_Space`), hexadecimal digits, texts that are cut at a byte, and indentation. One
level of nesting is two spaces, in tree listings and in bracket layouts alike.
-/

namespace TreeListing

namespace Text

def inRanges (ranges : List (Nat × Nat)) (c : Char) : Bool :=
  ranges.any fun (first, last) => first ≤ c.toNat && c.toNat ≤ last

def blankRanges : List (Nat × Nat) :=
  [(0x09, 0x0D), (0x20, 0x20), (0x85, 0x85), (0xA0, 0xA0), (0x1680, 0x1680), (0x2000, 0x200A),
    (0x2028, 0x2029), (0x202F, 0x202F), (0x205F, 0x205F), (0x3000, 0x3000)]

def isBlank (c : Char) : Bool :=
  blankRanges.any fun (first, last) => first ≤ c.toNat && c.toNat ≤ last

def hexDigit (n : Nat) : Char :=
  if n < 10 then Char.ofNat (48 + n) else Char.ofNat (87 + n)

def hexDigits (n : Nat) : List Char :=
  if n < 16 then [hexDigit n] else hexDigits (n / 16) ++ [hexDigit (n % 16)]

def hexValue? (c : Char) : Option Nat :=
  if '0' ≤ c ∧ c ≤ '9' then some (c.toNat - 48)
  else if 'a' ≤ c ∧ c ≤ 'f' then some (c.toNat - 87)
  else if 'A' ≤ c ∧ c ≤ 'F' then some (c.toNat - 55)
  else none

/-- The text without its first bytes. There is none if the text has fewer bytes, or if the last of
them is not the last one of a character. -/
def dropBytes? (text : String) (count : Nat) : Option String :=
  if h : String.Pos.Raw.IsValid text ⟨count⟩ then
    some (text.sliceFrom (text.pos ⟨count⟩ h)).copy
  else none

theorem dropBytes?_eq_some_iff {text rest : String} {count : Nat} :
    dropBytes? text count = some rest ↔
      ∃ front, text = front ++ rest ∧ front.utf8ByteSize = count := by
  constructor
  · intro h
    unfold dropBytes? at h
    split at h
    · next valid =>
      have splits := (text.pos ⟨count⟩ valid).splits
      rw [Option.some.inj h] at splits
      have offset := splits.offset_eq_rawEndPos
      rw [String.offset_pos] at offset
      exact ⟨_, splits.eq_append, congrArg String.Pos.Raw.byteIdx offset.symm⟩
    · cases h
  · rintro ⟨front, rfl, rfl⟩
    have valid : String.Pos.Raw.IsValid (front ++ rest) ⟨front.utf8ByteSize⟩ :=
      String.Pos.Raw.isValid_rawEndPos.append_right rest
    have splits : ((front ++ rest).pos ⟨front.utf8ByteSize⟩ valid).Splits front rest :=
      ⟨rfl, String.offset_pos⟩
    rw [dropBytes?, dif_pos valid, splits.copy_sliceFrom_eq]

end Text

namespace Indent

def unit : List Char := [' ', ' ']

def levels : Nat → List Char
  | 0 => []
  | level + 1 => unit ++ levels level

@[simp] theorem length_levels (level : Nat) : (levels level).length = 2 * level := by
  induction level with
  | zero => rfl
  | succ level ih => simp [levels, unit, ih]; omega

theorem levels_eq_replicate (level : Nat) : levels level = List.replicate (2 * level) ' ' := by
  induction level with
  | zero => rfl
  | succ level ih =>
    rw [levels, ih, Nat.mul_succ, Nat.add_comm, ← List.replicate_append_replicate]
    rfl

theorem levels_add (m n : Nat) : levels (m + n) = levels m ++ levels n := by
  simp [levels_eq_replicate, Nat.mul_add]

end Indent

end TreeListing
