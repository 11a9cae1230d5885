import Calculator.Expr
import Calculator.Token

/-!
# The grammar of expressions

A grammar that says which tokens are an expression, and of which tree, without a word about
how they are read.  There is one level for every binding strength of operators:

    expression  ->  term  |  '-' term  |  expression ('+' | '-') term
    term        ->  power  |  term ('*' | '/') power
    power       ->  factor  |  factor '^' power
    factor      ->  operand  |  factor ('mod' | 'log_base' | 'yth_root') operand
    operand     ->  number  |  constant  |  '(' expression ')'  |  function operand

`Derives level ts t` says that the tokens `ts` make up the tree `t` at a level.  The place of
an operator's own level among its operands is what decides how a chain groups: the left
operand of `+` is again an expression, the right operand of `^` again a power.  The
productions name their operators, so that the grammar does not know the precedences by which
a reader decides.

## The levels of an operator

The four productions with an operator differ only in three levels: that of the whole, that of
the left operand and that of the right operand.  `level`, `leftLevel` and `rightLevel` name
them, and `Derives.binary` is the four productions at once.  The levels are ordered from loose
to tight, and what makes up a tree at a level does so at every looser one (`Derives.of_le`).
-/

namespace Calculator
namespace Grammar

/-- The levels of the grammar, from the loosest to the tightest. -/
inductive Level where
  | expression
  | term
  | power
  | factor
  | operand
deriving DecidableEq, Repr

/-- Some tokens make up a tree at a level of the grammar. -/
inductive Derives : Level → List Token → Expr → Prop
  | ofTerm {ts : List Token} {t : Expr} : Derives .term ts t → Derives .expression ts t
  | negated {ts : List Token} {t : Expr} : Derives .term ts t →
      Derives .expression (.operator .sub :: ts) (.binary (.number (.integer 0)) .sub t)
  | sum {ls rs : List Token} {l r : Expr} {o : Operator} : o = .add ∨ o = .sub →
      Derives .expression ls l → Derives .term rs r →
      Derives .expression (ls ++ .operator o :: rs) (.binary l o r)
  | ofPower {ts : List Token} {t : Expr} : Derives .power ts t → Derives .term ts t
  | product {ls rs : List Token} {l r : Expr} {o : Operator} : o = .mul ∨ o = .div →
      Derives .term ls l → Derives .power rs r →
      Derives .term (ls ++ .operator o :: rs) (.binary l o r)
  | ofFactor {ts : List Token} {t : Expr} : Derives .factor ts t → Derives .power ts t
  | pow {ls rs : List Token} {l r : Expr} : Derives .factor ls l → Derives .power rs r →
      Derives .power (ls ++ .operator .pow :: rs) (.binary l .pow r)
  | ofOperand {ts : List Token} {t : Expr} : Derives .operand ts t → Derives .factor ts t
  | word {ls rs : List Token} {l r : Expr} {o : Operator} :
      o = .mod ∨ o = .logBase ∨ o = .root → Derives .factor ls l → Derives .operand rs r →
      Derives .factor (ls ++ .operator o :: rs) (.binary l o r)
  | number (n : Number) : Derives .operand [.number n] (.number n)
  | constant (c : Constant) : Derives .operand [.constant c] (.number (.real c.value))
  | group {ts : List Token} {t : Expr} : Derives .expression ts t →
      Derives .operand (.opening :: (ts ++ [.closing])) t
  | call {ts : List Token} {t : Expr} (f : Function) : Derives .operand ts t →
      Derives .operand (.function f :: ts) (.call f t)

/-! ## Levels and operators -/

/-- The place of a level in the order from loose to tight. -/
def Level.rank : Level → Nat
  | .expression => 0
  | .term => 1
  | .power => 2
  | .factor => 3
  | .operand => 4

instance : LE Level := ⟨fun L M => L.rank ≤ M.rank⟩

instance (L M : Level) : Decidable (L ≤ M) := inferInstanceAs (Decidable (L.rank ≤ M.rank))

/-- The level of an operator together with its operands. -/
def level : Operator → Level
  | .add | .sub => .expression
  | .mul | .div => .term
  | .pow => .power
  | .mod | .logBase | .root => .factor

/-- The level of the left operand of an operator. -/
def leftLevel : Operator → Level
  | .add | .sub => .expression
  | .mul | .div => .term
  | .pow | .mod | .logBase | .root => .factor

/-- The level of the right operand of an operator. -/
def rightLevel : Operator → Level
  | .add | .sub => .term
  | .mul | .div | .pow => .power
  | .mod | .logBase | .root => .operand

theorem level_le_leftLevel (o : Operator) : level o ≤ leftLevel o := by
  cases o <;> decide

theorem level_le_rightLevel (o : Operator) : level o ≤ rightLevel o := by
  cases o <;> decide

/-- The left operand of every operator but `^` is at the level of the operator. -/
theorem leftLevel_eq_level {o : Operator} (h : level o ≠ .power) : leftLevel o = level o := by
  cases o <;> first | rfl | exact absurd rfl h

namespace Derives

variable {L M : Level} {ls rs ts : List Token} {l r t : Expr}

/-- What makes up a tree at a level does so at every looser one. -/
theorem of_le (d : Derives L ts t) (h : M ≤ L) : Derives M ts t := by
  cases M with
  | operand =>
    cases L with
    | operand => exact d
    | _ => exact absurd h (by decide)
  | factor =>
    cases L with
    | factor => exact d
    | operand => exact d.ofOperand
    | _ => exact absurd h (by decide)
  | power =>
    cases L with
    | power => exact d
    | factor => exact d.ofFactor
    | operand => exact d.ofOperand.ofFactor
    | _ => exact absurd h (by decide)
  | term =>
    cases L with
    | term => exact d
    | power => exact d.ofPower
    | factor => exact d.ofFactor.ofPower
    | operand => exact d.ofOperand.ofFactor.ofPower
    | expression => exact absurd h (by decide)
  | expression =>
    cases L with
    | expression => exact d
    | term => exact d.ofTerm
    | power => exact d.ofPower.ofTerm
    | factor => exact d.ofFactor.ofPower.ofTerm
    | operand => exact d.ofOperand.ofFactor.ofPower.ofTerm

/-- What makes up a tree at any level is an expression. -/
theorem toExpression (d : Derives L ts t) : Derives .expression ts t :=
  d.of_le (by cases L <;> decide)

/-- An operand makes up its tree at every level. -/
theorem ofOperand' (d : Derives .operand ts t) (M : Level) : Derives M ts t :=
  d.of_le (by cases M <;> decide)

/-- The productions with an operator, all at once. -/
theorem binary (o : Operator) (dl : Derives (leftLevel o) ls l)
    (dr : Derives (rightLevel o) rs r) :
    Derives (level o) (ls ++ .operator o :: rs) (.binary l o r) := by
  cases o with
  | add => exact sum (.inl rfl) dl dr
  | sub => exact sum (.inr rfl) dl dr
  | mul => exact product (.inl rfl) dl dr
  | div => exact product (.inr rfl) dl dr
  | pow => exact pow dl dr
  | mod => exact word (.inl rfl) dl dr
  | logBase => exact word (.inr (.inl rfl)) dl dr
  | root => exact word (.inr (.inr rfl)) dl dr

end Derives
end Grammar
end Calculator
