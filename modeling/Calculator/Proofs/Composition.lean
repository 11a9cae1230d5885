import Calculator.Proofs.ParseErrors

/-!
# Texts put together from texts

What is read from a text in parentheses is read from the text alone.  `(a)`, `-(a)`, `f(a)` and
`(a) o (b)` have the trees that the trees of `a` and `b` make up, whatever the two texts are,
and so the value of `(a) o (b)` is given by the values of `a` and `b`.

## Seams

Reading looks at no more than two neighbours, so a text inside of a larger one is spelled as
before when nothing changes at its ends.  At its front it now touches an opening parenthesis,
which is a symbol, and every token may touch a symbol in front of it
(`SpellsAfter.behind_symbol`).  What follows it begins with a closing parenthesis, which may
touch every token in front of it, and `SpellsAfter.append` puts the two together.

## Trees

The tree of a text stands at the loosest level of the grammar, and parentheses take it to the
tightest one.  From there it goes to every level, as an operand of every operator and behind a
sign.
-/

namespace Calculator

/-- The text of an operator is a lexeme of it. -/
theorem lexemeOf_operator (o : Operator) : LexemeOf o.symbol.toList (.operator o) := by
  cases o with
  | add => exact .symbol (c := '+') (by decide)
  | sub => exact .symbol (c := '-') (by decide)
  | mul => exact .symbol (c := '*') (by decide)
  | div => exact .symbol (c := '/') (by decide)
  | pow => exact .symbol (c := '^') (by decide)
  | mod => exact .name (by decide)
  | logBase => exact .name (by decide)
  | root => exact .name (by decide)

/-- The name of a function is a lexeme of it. -/
theorem lexemeOf_function (f : Function) : LexemeOf f.name.toList (.function f) := by
  cases f <;> exact .name (by decide)

/-! ## Seams -/

/-- Every token may touch a symbol in front of it. -/
theorem mayTouch_of_isSymbol {before after : Token} (symbol : before.isSymbol = true) :
    MayTouch before after := by
  refine ⟨.inl symbol, ?_⟩
  rintro ⟨⟨c, rfl⟩, -⟩
  cases symbol

section Seams

variable {touching : Option Token} {cs : List Char} {ts : List Token}

/-- Spelling goes on with an opening parenthesis behind a symbol or a function. -/
theorem SpellsAfter.opening
    (before : ∀ t ∈ touching, t.isSymbol = true ∨ t.isFunction = true)
    (rest : SpellsAfter (some .opening) cs ts) :
    SpellsAfter touching ('(' :: cs) (.opening :: ts) := by
  refine .token (.symbol (c := '(') (by decide)) (fun t h => ⟨.inr rfl, ?_⟩) rest
  rintro ⟨⟨c, rfl⟩, -⟩
  rcases before _ h with symbol | function
  · cases symbol
  · cases function

/-- Spelling goes on with a closing parenthesis behind every token. -/
theorem SpellsAfter.closing (rest : SpellsAfter (some .closing) cs ts) :
    SpellsAfter touching (')' :: cs) (.closing :: ts) := by
  refine .token (.symbol (c := ')') (by decide)) (fun t _ => ⟨.inr rfl, ?_⟩) rest
  rintro ⟨-, h⟩
  cases h

/-- Spelling goes on with an operator between blanks behind every token. -/
theorem SpellsAfter.spacedOperator (o : Operator) (rest : SpellsAfter none cs ts) :
    SpellsAfter touching (' ' :: (o.symbol.toList ++ ' ' :: cs)) (.operator o :: ts) :=
  .blank (by decide) (.token (lexemeOf_operator o) (fun _ h => nomatch h)
    (.blank (by decide) rest))

/-- What is spelled behind nothing is spelled behind a symbol. -/
theorem SpellsAfter.behind_symbol {b : Token} (symbol : b.isSymbol = true)
    (spells : SpellsAfter none cs ts) : SpellsAfter (some b) cs ts := by
  cases spells with
  | nil => exact .nil
  | blank blank rest => exact .blank blank rest
  | token lexeme _ rest =>
    refine .token lexeme ?_ rest
    rintro t ⟨⟩
    exact mayTouch_of_isSymbol symbol

/-- What may be spelled behind everything may be spelled behind a spelling. -/
theorem SpellsAfter.append {ds : List Char} {us : List Token} (spells : SpellsAfter touching cs ts)
    (rest : ∀ touching, SpellsAfter touching ds us) :
    SpellsAfter touching (cs ++ ds) (ts ++ us) := by
  induction spells with
  | nil => exact rest _
  | blank blank _ ih => exact .blank blank ih
  | token lexeme may _ ih =>
    rw [List.append_assoc]
    exact .token lexeme may ih

/-- **A spelling in parentheses**, behind a symbol or a function and in front of everything that
may be spelled behind everything. -/
theorem SpellsAfter.group {ds : List Char} {us : List Token} (spells : SpellsAfter none cs ts)
    (before : ∀ t ∈ touching, t.isSymbol = true ∨ t.isFunction = true)
    (rest : ∀ touching, SpellsAfter touching ds us) :
    SpellsAfter touching ('(' :: (cs ++ ')' :: ds)) (.opening :: (ts ++ .closing :: us)) :=
  .opening before ((spells.behind_symbol rfl).append fun _ => (rest _).closing)

end Seams

/-! ## Texts -/

section Texts

variable {a b : String} {ta tb : Expr}

/-- A text that is spelled from left to right as tokens of a tree has this tree. -/
theorem parse_of_spellsAfter {text : String} {cs : List Char} {ts : List Token} {t : Expr}
    (characters : text.toList = cs) (spells : SpellsAfter none cs ts)
    (derives : Grammar.Derives .expression ts t) : parse text = .ok t := by
  subst characters
  exact parse_eq_ok_iff.mpr ⟨ts, spells_iff_spellsAfter.mpr spells, derives⟩

/-- The tokens of a text that has a tree. -/
theorem exists_spellsAfter_of_parse (read : parse a = .ok ta) :
    ∃ ts, SpellsAfter none a.toList ts ∧ Grammar.Derives .expression ts ta := by
  obtain ⟨ts, spells, derives⟩ := parse_eq_ok_iff.mp read
  exact ⟨ts, spells_iff_spellsAfter.mp spells, derives⟩

/-- A text in parentheses has the tree of the text. -/
theorem parse_group (read : parse a = .ok ta) : parse ("(" ++ a ++ ")") = .ok ta := by
  obtain ⟨ts, spells, derives⟩ := exists_spellsAfter_of_parse read
  have whole : SpellsAfter none _ _ := spells.group nofun fun _ => .nil
  have tree := Grammar.Derives.group derives
  exact parse_of_spellsAfter (by simp) whole tree.toExpression

/-- A sign in front of a text in parentheses is a subtraction from zero. -/
theorem parse_negated_group (read : parse a = .ok ta) :
    parse ("-(" ++ a ++ ")") = .ok (.binary (.number (.integer 0)) .sub ta) := by
  obtain ⟨ts, spells, derives⟩ := exists_spellsAfter_of_parse read
  have sign : LexemeOf ['-'] (.operator .sub) := .symbol (by decide)
  have inside : SpellsAfter (some (.operator .sub)) _ _ :=
    spells.group (by rintro t ⟨⟩; exact .inl rfl) fun _ => .nil
  have whole : SpellsAfter none _ _ := .token sign nofun inside
  have tree := Grammar.Derives.negated (.ofOperand' (.group derives) _)
  exact parse_of_spellsAfter (by simp) whole tree

/-- A function in front of a text in parentheses is applied to the tree of the text. -/
theorem parse_call_group (f : Function) (read : parse a = .ok ta) :
    parse (f.name ++ "(" ++ a ++ ")") = .ok (.call f ta) := by
  obtain ⟨ts, spells, derives⟩ := exists_spellsAfter_of_parse read
  have inside : SpellsAfter (some (.function f)) _ _ :=
    spells.group (by rintro t ⟨⟩; exact .inr rfl) fun _ => .nil
  have whole : SpellsAfter none _ _ := .token (lexemeOf_function f) nofun inside
  have tree := Grammar.Derives.call f (.group derives)
  exact parse_of_spellsAfter (by simp) whole tree.toExpression

/-- An operator between two texts in parentheses is applied to the trees of the texts. -/
theorem parse_binary_groups (o : Operator) (readLeft : parse a = .ok ta)
    (readRight : parse b = .ok tb) :
    parse ("(" ++ a ++ ") " ++ o.symbol ++ " (" ++ b ++ ")") = .ok (.binary ta o tb) := by
  obtain ⟨ls, left, derivesLeft⟩ := exists_spellsAfter_of_parse readLeft
  obtain ⟨rs, right, derivesRight⟩ := exists_spellsAfter_of_parse readRight
  have second : SpellsAfter none _ _ := right.group nofun fun _ => .nil
  have whole : SpellsAfter none _ _ := left.group nofun fun _ => second.spacedOperator o
  have tree := Grammar.Derives.binary o (.ofOperand' (.group derivesLeft) _)
    (.ofOperand' (.group derivesRight) _)
  exact parse_of_spellsAfter (by simp) whole (by simpa using tree.toExpression)

/-- The value of such a text is the result of the operator for the values of the two texts, in
this order. -/
theorem calculate_binary_groups (o : Operator) (readLeft : parse a = .ok ta)
    (readRight : parse b = .ok tb) :
    calculate ("(" ++ a ++ ") " ++ o.symbol ++ " (" ++ b ++ ")") = (do
      let l ← calculate a
      let r ← calculate b
      (o.eval l r).mapError .evaluation) := by
  rw [calculate_of_parse (parse_binary_groups o readLeft readRight), calculate_of_parse readLeft,
    calculate_of_parse readRight, Expr.value]
  simp only [mapError_bind]

/-- **Texts that have a tree can be put together.**  In parentheses, behind a sign, behind a
function and on both sides of an operator they keep their trees, and the value of the whole is
that of the operator for the values of the two texts, or the first error of the two. -/
theorem parse_composed {a b : String} {ta tb : Expr} (readLeft : parse a = .ok ta)
    (readRight : parse b = .ok tb) (f : Function) (o : Operator) :
    parse ("(" ++ a ++ ")") = .ok ta ∧
    parse ("-(" ++ a ++ ")") = .ok (.binary (.number (.integer 0)) .sub ta) ∧
    parse (f.name ++ "(" ++ a ++ ")") = .ok (.call f ta) ∧
    parse ("(" ++ a ++ ") " ++ o.symbol ++ " (" ++ b ++ ")") = .ok (.binary ta o tb) ∧
    calculate ("(" ++ a ++ ") " ++ o.symbol ++ " (" ++ b ++ ")") = (do
      let l ← calculate a
      let r ← calculate b
      (o.eval l r).mapError .evaluation) :=
  ⟨parse_group readLeft, parse_negated_group readLeft, parse_call_group f readLeft,
    parse_binary_groups o readLeft readRight, calculate_binary_groups o readLeft readRight⟩

end Texts

/-- A text that begins with a sign, and one with a word that touches a parenthesis. -/
theorem parse_composed_sign_word :
    parse "-2 ^ 2" = .ok (.binary (.number (.integer 0)) .sub
      (.binary (.number (.integer 2)) .pow (.number (.integer 2)))) ∧
    parse "7 mod(5 - 3)" = .ok (.binary (.number (.integer 7)) .mod
      (.binary (.number (.integer 5)) .sub (.number (.integer 3)))) ∧
    parse "abs(-2 ^ 2)" = .ok (.call .abs (.binary (.number (.integer 0)) .sub
      (.binary (.number (.integer 2)) .pow (.number (.integer 2))))) ∧
    calculate "(-2 ^ 2) - (7 mod(5 - 3))" = .ok (.integer (-5)) := by
  have left : parse "-2 ^ 2" = .ok (.binary (.number (.integer 0)) .sub
      (.binary (.number (.integer 2)) .pow (.number (.integer 2)))) := by decide +kernel
  have right : parse "7 mod(5 - 3)" = .ok (.binary (.number (.integer 7)) .mod
      (.binary (.number (.integer 5)) .sub (.number (.integer 3)))) := by decide +kernel
  obtain ⟨-, -, call, -, value⟩ := parse_composed left right .abs .sub
  refine ⟨left, right, call, value.trans ?_⟩
  rw [calculate_of_parse left, calculate_of_parse right]
  decide +kernel

end Calculator
