import TreeListing.Text
import TreeListing.Toml.Character

/-!
# Strings of a TOML document

There are four forms. Double quotes admit escapes, single quotes do not; three of either kind admit
line breaks, the first of which is dropped if the string begins with it, and every one of which is
read as a line feed.
-/

namespace TreeListing.Toml

def codePoint? (count : Nat) (cs : List Char) : Option (Char × List Char) := do
  let digits ← (cs.take count).mapM Text.hexValue?
  let value := digits.foldl (fun n d => 16 * n + d) 0
  if digits.length = count ∧ value.isValidChar then some (Char.ofNat value, cs.drop count) else none

/-- What an escape stands for, from the character after its backslash on. -/
def escape? : Reader Char
  | [] => none
  | c :: rest =>
    match c with
    | 'b' => some ('\x08', rest)
    | 't' => some ('\t', rest)
    | 'n' => some ('\n', rest)
    | 'f' => some ('\x0c', rest)
    | 'r' => some ('\r', rest)
    | '"' => some ('"', rest)
    | '\\' => some ('\\', rest)
    | 'u' => codePoint? 4 rest
    | 'U' => codePoint? 8 rest
    | _ => none

theorem length_le_of_codePoint? {count : Nat} {cs rest : List Char} {x : Char}
    (h : codePoint? count cs = some (x, rest)) : rest.length ≤ cs.length := by
  simp only [codePoint?, Option.bind_eq_bind, Option.bind_eq_some_iff] at h
  obtain ⟨digits, _, h⟩ := h
  split at h
  · simp only [Option.some.injEq, Prod.mk.injEq] at h
    rw [← h.2, List.length_drop]
    omega
  · cases h

theorem length_lt_of_escape? {cs rest : List Char} {x : Char} (h : escape? cs = some (x, rest)) :
    rest.length < cs.length := by
  cases cs with
  | nil => simp [escape?] at h
  | cons c cs =>
    simp only [escape?] at h
    split at h
    all_goals first
      | (simp only [Option.some.injEq, Prod.mk.injEq] at h; simp [← h.2])
      | (have shorter := length_le_of_codePoint? h; simp only [List.length_cons]; omega)
      | cases h

def prepend (c : Char) (found : Option (List Char × List Char)) : Option (List Char × List Char) :=
  found.map fun (text, rest) => (c :: text, rest)

def basic (cs : List Char) : Option (List Char × List Char) :=
  match cs with
  | [] => none
  | c :: rest =>
    if c = '"' then some ([], rest)
    else if c = '\\' then
      match _h : escape? rest with
      | none => none
      | some (x, rest) => prepend x (basic rest)
    else if isText c then prepend c (basic rest)
    else none
termination_by cs.length
decreasing_by
  · have := length_lt_of_escape? _h
    simp only [List.length_cons]
    omega
  · simp

def literal (cs : List Char) : Option (List Char × List Char) :=
  let isInside (c : Char) : Bool := isText c && c ≠ '\''
  match cs.dropWhile isInside with
  | '\'' :: rest => some (cs.takeWhile isInside, rest)
  | _ => none

/-- The closing quotes of a string in triple quotes, before which up to two more may stand. -/
def closing? (quote : Char) : List Char → Option (List Char × List Char)
  | a :: b :: c :: rest =>
    if a = quote ∧ b = quote ∧ c = quote then
      match rest with
      | d :: e :: rest' =>
        if d = quote ∧ e = quote then some ([quote, quote], rest')
        else if d = quote then some ([quote], e :: rest')
        else some ([], rest)
      | [d] => if d = quote then some ([quote], []) else some ([], [d])
      | [] => some ([], [])
    else none
  | _ => none

theorem length_lt_of_newline? {cs rest : List Char} (h : newline? cs = some rest) :
    rest.length < cs.length := by
  unfold newline? at h
  split at h
  · simp only [Option.some.injEq] at h; simp [h]
  · simp only [Option.some.injEq] at h; simp only [List.length_cons, h]; omega
  · cases h

theorem length_skipSpaces_le (cs : List Char) : (skipSpaces cs).length ≤ cs.length :=
  (List.dropWhile_sublist isSpace).length_le

theorem length_skipBlankLines_le (cs : List Char) : (skipBlankLines cs).length ≤ cs.length := by
  fun_induction skipBlankLines cs with
  | case1 rest ih => simp only [List.length_cons]; omega
  | case2 c rest _ _ ih => simp only [List.length_cons]; omega
  | case3 => simp
  | case4 => simp

/-- A string in triple double quotes, after the opening ones and the line break that may follow
them. A backslash at the end of a line hides the break and all blanks after it. -/
def multilineBasic (cs : List Char) : Option (List Char × List Char) :=
  match closing? '"' cs with
  | some found => some found
  | none =>
    match cs with
    | [] => none
    | c :: rest =>
      if c = '\\' then
        match _hn : newline? (skipSpaces rest) with
        | some below => multilineBasic (skipBlankLines below)
        | none =>
          match _he : escape? rest with
          | none => none
          | some (x, rest) => prepend x (multilineBasic rest)
      else if isText c then prepend c (multilineBasic rest)
      else
        match _hb : newline? (c :: rest) with
        | none => none
        | some below => prepend '\n' (multilineBasic below)
termination_by cs.length
decreasing_by
  · have := length_skipBlankLines_le below
    have := length_lt_of_newline? _hn
    have := length_skipSpaces_le rest
    simp only [List.length_cons]
    omega
  · have := length_lt_of_escape? _he
    simp only [List.length_cons]
    omega
  · simp
  · exact length_lt_of_newline? _hb

/-- A string in triple single quotes, after the opening ones and the line break that may follow
them. -/
def multilineLiteral (cs : List Char) : Option (List Char × List Char) :=
  match closing? '\'' cs with
  | some found => some found
  | none =>
    match cs with
    | [] => none
    | c :: rest =>
      if isText c then prepend c (multilineLiteral rest)
      else
        match _hb : newline? (c :: rest) with
        | none => none
        | some below => prepend '\n' (multilineLiteral below)
termination_by cs.length
decreasing_by
  · simp
  · exact length_lt_of_newline? _hb

def quoted? : Reader (List Char)
  | '"' :: '"' :: '"' :: rest => multilineBasic ((newline? rest).getD rest)
  | '"' :: rest => basic rest
  | '\'' :: '\'' :: '\'' :: rest => multilineLiteral ((newline? rest).getD rest)
  | '\'' :: rest => literal rest
  | _ => none

end TreeListing.Toml
