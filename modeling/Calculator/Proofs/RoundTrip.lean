import Calculator.Proofs.Binary64.Bits
import Calculator.Proofs.Composition
import Calculator.Proofs.Numeral

/-!
# Reading what is shown

A tree that is shown is read back as the tree it is.  The trees are those whose leaves can be
written as literals: a literal has no sign, and a real one has no exponent.

## The tokens of a tree

`Expr.tokens` are the tokens that a tree is shown with.  They are between the text and the
tree, and the two halves of the argument meet there.  The text spells them
(`spellsAfter_text`): this is where the blanks around an operator and the parentheses around
an argument are needed.  They make up the tree as an operand (`derives_tokens`), because all
parentheses are there, so the precedences of the operators are not asked for.

## What may stand behind a tree

A text is spelled from left to right, but a tree inside of a tree is spelled in the middle.
What is spelled behind it is therefore part of the induction.  It has to be something that may
touch every token: the blank before an operator, a closing parenthesis or the end.  What
stands before a tree may touch it when it is a symbol, or a function in front of a tree that
brings its own parentheses.
-/

namespace Calculator

/-- A number that can be written as a literal: an integer that is not negative, or a finite
real number with a positive sign that is shown without an exponent. -/
def Number.IsLiteral : Number → Prop
  | .integer n => 0 ≤ n.toInt
  | .real x => Numeral.IsPlain x

namespace Expr

/-- All numbers in a tree have a property. -/
def AllNumbers (p : Number → Prop) : Expr → Prop
  | number n => p n
  | call _ argument => argument.AllNumbers p
  | binary left _ right => left.AllNumbers p ∧ right.AllNumbers p

/-- The tokens that a tree is shown with. -/
def tokens : Expr → List Token
  | number n => [.number n]
  | call f argument =>
    if argument.isBinary then .function f :: argument.tokens
    else .function f :: .opening :: (argument.tokens ++ [.closing])
  | binary left o right =>
    .opening :: (left.tokens ++ .operator o :: right.tokens ++ [.closing])

/-- **The tokens that a tree is shown with make up the tree as an operand.** -/
theorem derives_tokens (t : Expr) : Grammar.Derives .operand t.tokens t := by
  induction t with
  | number n => exact .number n
  | call f argument ih =>
    rw [tokens]
    split
    · exact .call f ih
    · exact .call f (.group ih.toExpression)
  | binary left o right ihl ihr =>
    exact .group (Grammar.Derives.binary o (ihl.ofOperand' _) (ihr.ofOperand' _)).toExpression

end Expr

/-! ## Literals -/

/-- A literal is shown as a lexeme of its token. -/
theorem Number.IsLiteral.lexemeOf {n : Number} (literal : n.IsLiteral) :
    LexemeOf n.toList (.number n) := by
  cases n with
  | integer n =>
    have digits : Numeral.integerText n.toInt = Nat.toDigits 10 n.toInt.natAbs := by
      rw [Numeral.integerText, if_neg (Int.not_lt.mpr literal), List.nil_append]
    rw [toList, digits]
    refine .integer Nat.toDigits_ne_nil (Numeral.isDigit_toDigits _) ?_
    rw [Nat.ofDigitChars_ten_toDigits]
    exact (Int.natAbs_of_nonneg literal).symm
  | real x =>
    obtain ⟨whole, fraction, shown, whole', fraction', digits, places, near⟩ :=
      Numeral.exists_digits_of_isPlain literal
    have same : Binary64.ofCode false (Binary64.code x) = x := by
      rw [← literal.positive, Binary64.ofCode_code]
    rw [toList, shown]
    exact same ▸ .real whole' fraction' digits places near

/-! ## Spelling a tree -/

/-- **A tree is shown as a spelling of its tokens**, in front of everything that may touch any
token, and behind a symbol or, when the tree has its own parentheses, a function. -/
theorem spellsAfter_text {t : Expr} (literals : t.AllNumbers Number.IsLiteral)
    {touching : Option Token} {cs : List Char} {ts : List Token}
    (before : ∀ b ∈ touching, b.isSymbol = true ∨ t.isBinary = true ∧ b.isFunction = true)
    (rest : ∀ touching, SpellsAfter touching cs ts) :
    SpellsAfter touching (t.text.toList ++ cs) (t.tokens ++ ts) := by
  induction t generalizing touching cs ts with
  | number n =>
    rw [Expr.text, Number.toList_text]
    refine .token literals.lexemeOf (fun b h => mayTouch_of_isSymbol ?_) (rest _)
    exact (before b h).resolve_right fun binary => by cases binary.1
  | call f argument ih =>
    have may : ∀ b ∈ touching, MayTouch b (.function f) := by
      intro b h
      refine mayTouch_of_isSymbol ?_
      exact (before b h).resolve_right fun binary => by cases binary.1
    rw [Expr.text, Expr.tokens]
    split
    case isTrue binary =>
      rw [String.toList_append, List.append_assoc]
      refine .token (lexemeOf_function f) may (ih literals ?_ rest)
      rintro b ⟨⟩
      exact .inr ⟨binary, rfl⟩
    case isFalse =>
      have inside : SpellsAfter (some .opening) (argument.text.toList ++ ')' :: cs)
          (argument.tokens ++ .closing :: ts) :=
        ih literals (by rintro b ⟨⟩; exact .inl rfl) fun _ => (rest _).closing
      have whole := SpellsAfter.token (lexemeOf_function f) may
        (inside.opening (by rintro b ⟨⟩; exact .inr rfl))
      simpa using whole
  | binary left o right ihl ihr =>
    have before' : ∀ b ∈ touching, b.isSymbol = true ∨ b.isFunction = true :=
      fun b h => (before b h).imp_right And.right
    have second : SpellsAfter none (right.text.toList ++ ')' :: cs)
        (right.tokens ++ .closing :: ts) :=
      ihr literals.2 (by simp) fun _ => (rest _).closing
    have first : SpellsAfter (some .opening)
        (left.text.toList ++ ' ' :: (o.symbol.toList ++ ' ' :: (right.text.toList ++ ')' :: cs)))
        (left.tokens ++ .operator o :: (right.tokens ++ .closing :: ts)) :=
      ihl literals.1 (by rintro b ⟨⟩; exact .inl rfl) fun _ => second.spacedOperator o
    simpa [Expr.text, Expr.tokens] using first.opening before'

/-- **What is shown is read.**  A tree whose leaves are literals is read from its text. -/
theorem parse_text (t : Expr) (literals : t.AllNumbers Number.IsLiteral) :
    parse t.text = .ok t := by
  have spells : SpellsAfter none t.text.toList t.tokens := by
    have whole : SpellsAfter none (t.text.toList ++ []) (t.tokens ++ []) :=
      spellsAfter_text literals (by simp) fun _ => .nil
    rwa [List.append_nil, List.append_nil] at whole
  exact parse_eq_ok_iff.mpr
    ⟨t.tokens, spells_iff_spellsAfter.mpr spells, t.derives_tokens.toExpression⟩

/-- A word between blanks inside of the parentheses of a function, and a real number. -/
theorem parse_text_sin_logBase :
    parse "sin(2 log_base abs(2,5))" =
      .ok (.call .sin (.binary (.number (.integer 2)) .logBase
        (.call .abs (.number (.real (Binary64.ofFraction 5 2)))))) := by
  have plain : Numeral.IsPlain (Binary64.ofFraction 5 2) :=
    ⟨by decide +kernel, by decide +kernel, .inr (by decide +kernel)⟩
  have shown : (Expr.call .sin (.binary (.number (.integer 2)) .logBase
      (.call .abs (.number (.real (Binary64.ofFraction 5 2)))))).text =
        "sin(2 log_base abs(2,5))" := by decide +kernel
  rw [← shown]
  have integer : 0 ≤ (2 : Int64).toInt := by decide
  exact parse_text _ ⟨integer, plain⟩

end Calculator
