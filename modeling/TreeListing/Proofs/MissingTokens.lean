import Mathlib.Data.Set.Insert
import TreeListing.Proofs.Regions

/-!
# S-expressions with missing tokens

The tree of a source text with errors can have nodes for tokens that are missing in the text. In an
s-expression such a node is written with the token between quotes, and nothing in the token is
escaped. A run, on the other hand, is taken to end at the first quote that no backslash escapes. So
the quote behind a token need not be the one that ends the run: a quote in the token ends it before,
and a backslash at the end of the token hides the quote behind it.

Main statement: an s-expression has an indented form whatever tokens are missing, as long as each
of them is harmless, which all are that have neither quotes nor backslashes. With a token that is
not harmless, there are s-expressions that have none.
-/

namespace TreeListing.Sexp

open TreeListing.Bracket (Balanced Keeps Structural withoutBlanks)

/-- What an s-expression is written from: nodes with their kinds and children, each of which may
occupy a field, and missing tokens. -/
inductive Expr where
  | node (kind : String) (children : List (Option String × Expr))
  | missing (token : String)

namespace Expr

mutual
def text : Expr → String
  | node kind children => "(" ++ kind ++ textAll children ++ ")"
  | missing token => "(MISSING \"" ++ token ++ "\")"

def textAll : List (Option String × Expr) → String
  | [] => ""
  | (field, e) :: rest => " " ++ field.elim "" (· ++ ": ") ++ e.text ++ textAll rest
end

mutual
def names : Expr → List String
  | node kind children => kind :: namesAll children
  | missing _ => []

def namesAll : List (Option String × Expr) → List String
  | [] => []
  | (field, e) :: rest => field.toList ++ e.names ++ namesAll rest
end

mutual
def tokens : Expr → List String
  | node _ children => tokensAll children
  | missing token => [token]

def tokensAll : List (Option String × Expr) → List String
  | [] => []
  | (_, e) :: rest => e.tokens ++ tokensAll rest
end

end Expr

/-- Read from outside runs, with some parentheses open, a text leads outside again and closes the
parentheses that it opens. -/
structure Whole (opened : Nat) (text : List Char) : Prop where
  after_eq : Region.outside.after text = .outside
  keeps : Keeps opened (protectFrom .outside text)

/-- The text of a missing token does not disturb what is around it: with the quotes it leads outside
runs again, and the parentheses that are outside runs although they belong to the token are closed
in it. -/
structure Harmless (token : List Char) : Prop where
  after_eq : Region.inside.after (token ++ ['"']) = .outside
  keeps : Keeps 1 (protectFrom .inside token)

namespace Whole

variable {opened : Nat} {a b : List Char}

theorem append (ha : Whole opened a) (hb : Whole opened b) : Whole opened (a ++ b) where
  after_eq := by rw [after_append, ha.after_eq, hb.after_eq]
  keeps := by
    rw [protectFrom_append, ha.after_eq]
    exact ha.keeps.append hb.keeps

theorem mono {opened' : Nat} (h : Whole opened a) (le : opened ≤ opened') : Whole opened' a :=
  ⟨h.after_eq, h.keeps.mono le⟩

theorem of_not_mem (quote : '"' ∉ a) (opens : '(' ∉ a) (closes : ')' ∉ a) : Whole opened a := by
  have stays := stays_outside quote
  have same : protectFrom .outside a = a := by simp [stays.protectFrom_eq]
  refine ⟨stays.after_eq, ?_⟩
  rw [same]
  exact Bracket.keeps_of_not_mem opens closes

theorem enclosed (h : Whole (opened + 1) a) : Whole opened ('(' :: a ++ [')']) where
  after_eq := by
    have opening : Region.outside.after ('(' :: a) = Region.outside.after a := rfl
    rw [after_append, opening, h.after_eq]
    rfl
  keeps := by
    have opening : protectFrom .outside ('(' :: a) = '(' :: protectFrom .outside a := rfl
    have behind : Region.outside.after ('(' :: a) = .outside := h.after_eq
    rw [protectFrom_append, opening, behind]
    exact h.keeps.enclosed

end Whole

theorem Harmless.whole {token : List Char} (h : Harmless token) :
    Whole 1 ('"' :: token ++ ['"']) where
  after_eq := h.after_eq
  keeps := by
    have opening : protectFrom .outside ('"' :: (token ++ ['"'])) =
        '"' :: protectFrom .inside (token ++ ['"']) := rfl
    have quote : Keeps 1 ['"'] := Bracket.keeps_of_not_mem (by decide) (by decide)
    rw [List.cons_append, opening, protectFrom_append, protectFrom_quote]
    exact quote.append (h.keeps.append quote)

theorem harmless_of_not_mem {token : List Char} (quote : '"' ∉ token) (escape : '\\' ∉ token) :
    Harmless token := by
  have stays := stays_inside quote escape
  refine ⟨?_, ?_⟩
  · rw [after_append, stays.after_eq]
    rfl
  · have hidden : protectFrom .inside token = token.map standIn := by simp [stays.protectFrom_eq]
    have plain (c : Char) (hc : c ∈ token.map standIn) : ¬ Structural c := by
      obtain ⟨x, _, rfl⟩ := List.mem_map.1 hc
      exact not_structural_standIn x
    rw [hidden]
    apply Bracket.keeps_of_not_mem
    · intro opens
      exact plain _ opens (.inl rfl)
    · intro closes
      exact plain _ closes (.inr (.inl rfl))

/-- A name without quotes, parentheses, blanks and stand-ins, as all identifiers are. -/
def IsBare (name : String) : Prop :=
  ∀ c ∈ name.toList, c ≠ '"' ∧ ¬ Structural c ∧ c ∉ standIns

instance (name : String) : Decidable (IsBare name) :=
  List.decidableBAll _ name.toList

theorem IsBare.whole {name : String} (h : IsBare name) (opened : Nat) :
    Whole opened name.toList := by
  apply Whole.of_not_mem
  · intro hc
    exact (h _ hc).1 rfl
  · intro hc
    exact (h _ hc).2.1 (.inl rfl)
  · intro hc
    exact (h _ hc).2.1 (.inr (.inl rfl))

theorem toList_text_node (kind : String) (children : List (Option String × Expr)) :
    (Expr.node kind children).text.toList =
      '(' :: (kind.toList ++ (Expr.textAll children).toList) ++ [')'] := by
  simp [Expr.text]

theorem toList_text_missing (token : String) :
    (Expr.missing token).text.toList =
      '(' :: ("MISSING ".toList ++ ('"' :: token.toList ++ ['"'])) ++ [')'] := by
  simp [Expr.text]

theorem whole_field {field : Option String} (bare : ∀ name ∈ field, IsBare name) :
    Whole 0 (field.elim "" (· ++ ": ")).toList := by
  cases field with
  | none => exact .of_not_mem (by decide) (by decide) (by decide)
  | some name =>
    have colon : Whole 0 ": ".toList := .of_not_mem (by decide) (by decide) (by decide)
    rw [Option.elim_some, String.toList_append]
    exact ((bare name rfl).whole 0).append colon

mutual
theorem whole_text : ∀ e : Expr, (∀ name ∈ e.names, IsBare name) →
    (∀ token ∈ e.tokens, Harmless token.toList) → Whole 0 e.text.toList
  | .node kind children, bare, harmless => by
    rw [Expr.names, List.forall_mem_cons] at bare
    rw [Expr.tokens] at harmless
    have inner := whole_textAll children bare.2 harmless
    rw [toList_text_node]
    exact ((bare.1.whole 1).append (inner.mono (Nat.zero_le 1))).enclosed
  | .missing token, _, harmless => by
    rw [Expr.tokens, List.forall_mem_singleton] at harmless
    have word : Whole 1 "MISSING ".toList := .of_not_mem (by decide) (by decide) (by decide)
    rw [toList_text_missing]
    exact (word.append harmless.whole).enclosed

theorem whole_textAll : ∀ children, (∀ name ∈ Expr.namesAll children, IsBare name) →
    (∀ token ∈ Expr.tokensAll children, Harmless token.toList) →
    Whole 0 (Expr.textAll children).toList
  | [], _, _ => .of_not_mem (by decide) (by decide) (by decide)
  | (field, e) :: rest, bare, harmless => by
    simp only [Expr.namesAll, List.forall_mem_append, Option.mem_toList] at bare
    rw [Expr.tokensAll, List.forall_mem_append] at harmless
    have space : Whole 0 " ".toList := .of_not_mem (by decide) (by decide) (by decide)
    have child := whole_text e bare.1.2 harmless.1
    have others := whole_textAll rest bare.2 harmless.2
    simp only [Expr.textAll, String.toList_append]
    exact ((space.append (whole_field bare.1.1)).append child).append others
end

namespace Expr

mutual
/-- The expression of a tree in which no token is missing: of its named nodes. -/
def ofNode : Node → Expr
  | .mk kind _ _ _ children => .node kind (ofNodes children)

def ofNodes : List (Option String × Node) → List (Option String × Expr)
  | [] => []
  | (field, child) :: rest =>
    if child.named then (field, ofNode child) :: ofNodes rest else ofNodes rest
end

mutual
theorem text_ofNode : ∀ node : Node, (ofNode node).text = node.sexp
  | .mk kind _ _ _ children => by rw [ofNode, text, textAll_ofNodes children, Node.sexp]

theorem textAll_ofNodes : ∀ children, textAll (ofNodes children) = Node.sexpAll children
  | [] => rfl
  | (field, child) :: rest => by
    have head := text_ofNode child
    have tail := textAll_ofNodes rest
    rw [ofNodes, Node.sexpAll]
    split
    · rw [textAll, head, tail]
    · rw [tail, String.empty_append]
end

mutual
theorem tokens_ofNode : ∀ node : Node, (ofNode node).tokens = []
  | .mk _ _ _ _ children => by rw [ofNode, tokens, tokensAll_ofNodes children]

theorem tokensAll_ofNodes : ∀ children, tokensAll (ofNodes children) = []
  | [] => rfl
  | (field, child) :: rest => by
    have head := tokens_ofNode child
    have tail := tokensAll_ofNodes rest
    rw [ofNodes]
    split
    · rw [tokensAll, head, tail, List.append_nil]
    · exact tail
end

end Expr

theorem exists_layout_sexp {node : Node} (bare : ∀ name ∈ (Expr.ofNode node).names, IsBare name) :
    ∃ out, layout node.sexp = .ok out := by
  have none_missing : ∀ token ∈ (Expr.ofNode node).tokens, Harmless token.toList := by
    rw [Expr.tokens_ofNode]
    exact List.forall_mem_nil _
  rw [← Expr.text_ofNode, exists_layout_iff]
  exact Bracket.keeps_zero_iff.1 (whole_text _ bare none_missing).keeps

theorem IsBare.unmarked {name : String} (h : IsBare name) : Unmarked name.toList :=
  fun c hc => (h c hc).2.2

theorem unmarked_field {field : Option String} (bare : ∀ name ∈ field, IsBare name) :
    Unmarked (field.elim "" (· ++ ": ")).toList := by
  cases field with
  | none => exact List.forall_mem_nil _
  | some name =>
    have colon : Unmarked ": ".toList := by decide
    rw [Option.elim_some, String.toList_append]
    exact (bare name rfl).unmarked.append colon

mutual
theorem unmarked_text : ∀ e : Expr, (∀ name ∈ e.names, IsBare name) →
    (∀ token ∈ e.tokens, Unmarked token.toList) → Unmarked e.text.toList
  | .node kind children, bare, unmarked => by
    rw [Expr.names, List.forall_mem_cons] at bare
    rw [Expr.tokens] at unmarked
    have opening : Unmarked "(".toList := by decide
    have closing : Unmarked ")".toList := by decide
    have inner := unmarked_textAll children bare.2 unmarked
    simp only [Expr.text, String.toList_append]
    exact ((opening.append bare.1.unmarked).append inner).append closing
  | .missing token, _, unmarked => by
    rw [Expr.tokens, List.forall_mem_singleton] at unmarked
    have opening : Unmarked "(MISSING \"".toList := by decide
    have closing : Unmarked "\")".toList := by decide
    simp only [Expr.text, String.toList_append]
    exact (opening.append unmarked).append closing

theorem unmarked_textAll : ∀ children, (∀ name ∈ Expr.namesAll children, IsBare name) →
    (∀ token ∈ Expr.tokensAll children, Unmarked token.toList) →
    Unmarked (Expr.textAll children).toList
  | [], _, _ => List.forall_mem_nil _
  | (field, e) :: rest, bare, unmarked => by
    simp only [Expr.namesAll, List.forall_mem_append, Option.mem_toList] at bare
    rw [Expr.tokensAll, List.forall_mem_append] at unmarked
    have space : Unmarked " ".toList := by decide
    have child := unmarked_text e bare.1.2 unmarked.1
    have others := unmarked_textAll rest bare.2 unmarked.2
    simp only [Expr.textAll, String.toList_append]
    exact ((space.append (unmarked_field bare.1.1)).append child).append others
end

theorem protectFrom_closing {region : Region} (goesOn : region ≠ .outside) :
    protectFrom region [')'] = ['\ue001'] ∧
      protectFrom region [')', ')'] = ['\ue001', '\ue001'] := by
  cases region with
  | outside => exact absurd rfl goesOn
  | inside => exact ⟨rfl, rfl⟩
  | escaping => exact ⟨rfl, rfl⟩

theorem protectFrom_around {before token : List Char}
    (opens : Region.outside.after before = .inside)
    (kept : protectFrom .outside before = before) (behind : List Char) :
    protectFrom .outside (before ++ (token ++ ['"'] ++ behind)) =
      before ++ (protectFrom .inside token ++
        '"' :: protectFrom (Region.inside.after (token ++ ['"'])) behind) := by
  rw [protectFrom_append, opens, kept, protectFrom_append, protectFrom_append, protectFrom_quote]
  simp

/-- A token that leaves a run open leaves all parentheses around it open as well. It cannot have
closed them itself both where there is one and where there are two. -/
theorem harmless_of_exists_layout {token : String}
    (alone : ∃ out, layout (Expr.missing token).text = .ok out)
    (below : ∃ out, layout (Expr.node "a" [(none, .missing token)]).text = .ok out) :
    Harmless token.toList := by
  have text : (Expr.missing token).text.toList =
      "(MISSING \"".toList ++ (token.toList ++ ['"'] ++ [')']) := by simp [Expr.text]
  have text' : (Expr.node "a" [(none, .missing token)]).text.toList =
      "(a (MISSING \"".toList ++ (token.toList ++ ['"'] ++ [')', ')']) := by
    simp [Expr.text, Expr.textAll]
  rw [exists_layout_iff, text, protectFrom_around rfl rfl] at alone
  rw [exists_layout_iff, text', protectFrom_around rfl rfl] at below
  -- the parentheses that the run would hide have to be closed by the token itself
  have ends : Region.inside.after (token.toList ++ ['"']) = .outside := by
    by_contra goesOn
    obtain ⟨hidden, hidden'⟩ := protectFrom_closing goesOn
    have one : (protectFrom .inside token.toList).count '(' + 1 =
        (protectFrom .inside token.toList).count ')' := by simpa [hidden] using alone.2
    have two : (protectFrom .inside token.toList).count '(' + 2 =
        (protectFrom .inside token.toList).count ')' := by simpa [hidden'] using below.2
    omega
  refine ⟨ends, ?_⟩
  rw [ends] at alone
  exact (Bracket.keeps_zero_iff.2 alone).of_enclosed "MISSING \"".toList ['"', ')'] (by decide)
    (by decide) (by decide) (by decide)

/-- Names are bare, and the missing tokens are among some that are allowed. -/
def Expr.WrittenWith (allowed : Set String) (e : Expr) : Prop :=
  (∀ name ∈ e.names, IsBare name) ∧ ∀ token ∈ e.tokens, token ∈ allowed

/-- There is an indented form, and it is the text up to spaces and line breaks. -/
def Expr.IsLaidOut (e : Expr) : Prop :=
  ∃ out, layout e.text = .ok out ∧ withoutBlanks out.toList = withoutBlanks e.text.toList

theorem Expr.isLaidOut_iff {allowed : Set String} {e : Expr} (written : e.WrittenWith allowed)
    (unmarked : ∀ token ∈ allowed, Unmarked token.toList) :
    e.IsLaidOut ↔ ∃ out, layout e.text = .ok out := by
  constructor
  · rintro ⟨out, done, _⟩
    exact ⟨out, done⟩
  · rintro ⟨out, done⟩
    have text := unmarked_text e written.1 fun token ht => unmarked token (written.2 token ht)
    exact ⟨out, done, (inserted_of_layout text done).withoutBlanks_eq⟩

theorem Expr.writtenWith_missing {allowed : Set String} {token : String} (h : token ∈ allowed) :
    (Expr.missing token).WrittenWith allowed ∧
      (Expr.node "a" [(none, .missing token)]).WrittenWith allowed := by
  constructor
  · exact ⟨List.forall_mem_nil _, List.forall_mem_singleton.2 h⟩
  · exact ⟨List.forall_mem_singleton.2 (by decide), List.forall_mem_singleton.2 h⟩

/-- An s-expression is laid out exactly when its parentheses outside runs balance. All that are
written with some tokens are laid out exactly when each of the tokens is harmless, and a token
without quotes and backslashes is. -/
theorem isLaidOut_iff_harmless {allowed : Set String}
    (unmarked : ∀ token ∈ allowed, Unmarked token.toList) :
    (∀ e : Expr, e.WrittenWith allowed → (e.IsLaidOut ↔ Balanced (outside e.text.toList))) ∧
    ((∀ e : Expr, e.WrittenWith allowed → e.IsLaidOut) ↔ ∀ token ∈ allowed, Harmless token.toList) ∧
    ∀ token : String, '"' ∉ token.toList → '\\' ∉ token.toList → Harmless token.toList := by
  refine ⟨?_, ⟨?_, ?_⟩, ?_⟩
  · intro e written
    rw [Expr.isLaidOut_iff written unmarked, exists_layout_iff, balanced_protectFrom_iff]
  · intro all token ht
    obtain ⟨alone, below⟩ := Expr.writtenWith_missing ht
    exact harmless_of_exists_layout ((Expr.isLaidOut_iff alone unmarked).1 (all _ alone))
      ((Expr.isLaidOut_iff below unmarked).1 (all _ below))
  · intro harmless e written
    have whole := whole_text e written.1 fun token ht => harmless token (written.2 token ht)
    rw [Expr.isLaidOut_iff written unmarked, exists_layout_iff]
    exact Bracket.keeps_zero_iff.1 whole.keeps
  · intro token quote escape
    exact harmless_of_not_mem quote escape

/-- Parentheses and a space are harmless, and so are two quotes, which are two runs with the quotes
around them. -/
def parameterList : Expr :=
  .node "parameters"
    [(none, .missing ")"),
      (some "body", .node "block" [(none, .missing "( "), (none, .missing "\"\"")])]

theorem isLaidOut_iff_harmless_parameterList :
    let allowed : Set String := {")", "( ", "\"\""}
    (∀ token ∈ allowed, Unmarked token.toList) ∧ parameterList.WrittenWith allowed ∧
    (∀ token ∈ allowed, Harmless token.toList) ∧ parameterList.IsLaidOut := by
  intro allowed
  have unmarked : ∀ token ∈ allowed, Unmarked token.toList := by
    rintro token (rfl | rfl | rfl) <;> decide
  have written : parameterList.WrittenWith allowed :=
    ⟨by decide, by simp [parameterList, Expr.tokens, Expr.tokensAll, allowed]⟩
  have twoQuotes : Harmless "\"\"".toList :=
    ⟨rfl, Bracket.keeps_of_not_mem (by decide) (by decide)⟩
  have harmless : ∀ token ∈ allowed, Harmless token.toList := by
    rintro token (rfl | rfl | rfl)
    · exact harmless_of_not_mem (by decide) (by decide)
    · exact harmless_of_not_mem (by decide) (by decide)
    · exact twoQuotes
  exact ⟨unmarked, written, harmless, (isLaidOut_iff_harmless unmarked).2.1.2 harmless _ written⟩

def unclosedString : Expr :=
  .node "document"
    [(none, .node "string" [(none, .node "string_content" []), (none, .missing "\"")])]

/-- The quote behind the missing one opens a run, which hides the parentheses behind it. -/
theorem not_isLaidOut_unclosedString :
    unclosedString.WrittenWith {"\""} ∧ Unmarked "\"".toList ∧
    unclosedString.text = "(document (string (string_content) (MISSING \"\"\")))" ∧
    layout unclosedString.text = .error (.unclosed 3) ∧ ¬ unclosedString.IsLaidOut := by
  have text : unclosedString.text = "(document (string (string_content) (MISSING \"\"\")))" := by
    decide
  have failed : layout unclosedString.text = .error (.unclosed 3) := by
    rw [text]
    rfl
  refine ⟨⟨by decide, by simp [unclosedString, Expr.tokens, Expr.tokensAll]⟩, by decide,
    text, failed, ?_⟩
  rintro ⟨out, done, _⟩
  rw [failed] at done
  cases done

end TreeListing.Sexp
