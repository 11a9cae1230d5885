import Calculator.Blank
import Calculator.Token

/-!
# Lexemes

The first step in reading a text cuts it into lexemes: single blank characters, single
characters that stand for themselves, numerals and names.  The cut never fails and
loses nothing: every text is the concatenation of its lexemes
(`flatMap_text_lexemes`).  What is wrong with a text is found afterwards, when the
lexemes are read as tokens.

## The cut

A lexeme is as long as it can be.  A numeral is a run of ASCII digits; a comma directly
after it belongs to it exactly when another digit follows, and then so do all digits
that follow.  A comma anywhere else stands for itself.  A name starts with any other
character and goes on to the next blank character or symbol, so that digits and commas
inside it belong to it.
-/

namespace Calculator

/-- A part of a text that is read as a whole. -/
inductive Lexeme where
  | blank (c : Char)
  | mark (c : Char)
  | integer (digits : List Char)
  | real (whole fraction : List Char)
  | name (cs : List Char)
deriving DecidableEq, Repr

namespace Lexeme

/-- The characters of a lexeme. -/
def text : Lexeme → List Char
  | blank c => [c]
  | mark c => [c]
  | integer digits => digits
  | real whole fraction => whole ++ decimalSeparator :: fraction
  | name cs => cs

/-- Whether a character stands for itself wherever it begins a lexeme. -/
def isMark (c : Char) : Bool := c == decimalSeparator || (Token.ofSymbol? c).isSome

/-- Whether a character goes on with a name. -/
def isNamePart (c : Char) : Bool := !isBlank c && (Token.ofSymbol? c).isNone

/-- The numeral that a text begins with, when its first character is a digit. -/
def numeral (first : Char) (rest : List Char) : Lexeme :=
  let digits := first :: rest.takeWhile Char.isDigit
  match rest.dropWhile Char.isDigit with
  | ',' :: more =>
    match more.takeWhile Char.isDigit with
    | [] => integer digits
    | fraction => real digits fraction
  | _ => integer digits

/-- The lexeme that a text begins with. -/
def ofStart (first : Char) (rest : List Char) : Lexeme :=
  if isBlank first then blank first
  else if isMark first then mark first
  else if first.isDigit then numeral first rest
  else name (first :: rest.takeWhile isNamePart)

/-- The lexemes of a text, each cut off the front of what the ones before it leave. -/
def lexemes : List Char → List Lexeme
  | [] => []
  | first :: rest =>
    let lexeme := ofStart first rest
    lexeme :: lexemes (rest.drop (lexeme.text.length - 1))
termination_by text => text.length
decreasing_by simp only [List.length_drop, List.length_cons]; omega

@[simp] theorem lexemes_nil : lexemes [] = [] := by rw [lexemes]

theorem lexemes_cons (first : Char) (rest : List Char) :
    lexemes (first :: rest) =
      ofStart first rest :: lexemes (rest.drop ((ofStart first rest).text.length - 1)) := by
  rw [lexemes]

/-- A text begins with the numeral that is cut off it. -/
theorem text_numeral_isPrefix (first : Char) (rest : List Char) :
    (numeral first rest).text <+: first :: rest := by
  have whole := List.takeWhile_append_dropWhile (p := Char.isDigit) (l := rest)
  unfold numeral
  dsimp only
  split
  case h_1 more hmore =>
    split
    · exact List.cons_prefix_cons.2 ⟨rfl, List.takeWhile_prefix _⟩
    · rw [hmore] at whole
      rw [text, List.cons_append, List.cons_prefix_cons]
      refine ⟨rfl, ?_⟩
      conv => rhs; rw [← whole]
      rw [List.prefix_append_right_inj, List.cons_prefix_cons]
      exact ⟨rfl, List.takeWhile_prefix _⟩
  case h_2 => exact List.cons_prefix_cons.2 ⟨rfl, List.takeWhile_prefix _⟩

/-- A text begins with the lexeme that is cut off it. -/
theorem text_ofStart_isPrefix (first : Char) (rest : List Char) :
    (ofStart first rest).text <+: first :: rest := by
  unfold ofStart
  split
  · simp [text]
  · split
    · simp [text]
    · split
      · exact text_numeral_isPrefix first rest
      · exact List.cons_prefix_cons.2 ⟨rfl, List.takeWhile_prefix _⟩

/-- A lexeme holds at least the first character of the text it is cut off. -/
theorem text_ofStart_ne_nil (first : Char) (rest : List Char) :
    (ofStart first rest).text ≠ [] := by
  unfold ofStart numeral
  dsimp only
  repeat' split
  all_goals simp [text]

/-- A lexeme and what is left after it make up the text. -/
theorem text_ofStart_append (first : Char) (rest : List Char) :
    (ofStart first rest).text ++ rest.drop ((ofStart first rest).text.length - 1) =
      first :: rest := by
  have split := List.prefix_iff_eq_append.1 (text_ofStart_isPrefix first rest)
  have positive := List.length_pos_iff.2 (text_ofStart_ne_nil first rest)
  obtain ⟨n, hn⟩ := Nat.exists_eq_add_of_lt positive
  rw [hn] at split ⊢
  simpa using split

/-- The lexemes of a text make up the text. -/
theorem flatMap_text_lexemes (cs : List Char) : (lexemes cs).flatMap text = cs := by
  fun_induction lexemes cs with
  | case1 => rfl
  | case2 first rest lexeme ih =>
    rw [List.flatMap_cons, ih]
    exact text_ofStart_append first rest

end Lexeme
end Calculator
