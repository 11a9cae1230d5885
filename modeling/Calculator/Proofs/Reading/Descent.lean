import Calculator.Proofs.Reading.Frames
import Calculator.Proofs.Reading.Places

/-!
# Reading by descent

An expression can also be read without a stack, by calls of functions that call each other.  An
operand with its operators is a head and what goes on behind it.  A head is a literal, a group, or
a function in front of an operand, and to read an operand with its operators inside of it is
another call.  Operators are read one after the other, each with a call for its right operand.
`Descent.Returns` states these rules, with every error that a call can make or pass on.

## Why the calls come to an end

A derivation by the rules is a finite tree of calls, so that a call comes to an end when it has one.
This is not a matter of course.  A head that is a sign takes up no token, and the operators are then
read from the place where the head was read from.  What holds is that an operator takes up its own
token before it calls for its right operand, and a head that calls has taken up a token too.  So an
operand is called for only further on in the tokens than the call that asks for it
(`Descent.ends`).

## The calls are the reading

The frames of a reading are the calls that have not come to an end.  What is read above a frame is
what the call for its operand returns (`run_wanting_frame`), and for each rule there is an equation
for `readOperand` or `readOperators` that says the same.  Hence the rules have one result, that of
the reading (`Descent.returns_operand_iff`), and `readOperand_advances` says what is known of it:
where it ends, what stands there, and where its errors are.
-/

namespace Calculator
namespace Descent

open Calculator.Expr Calculator.Reading

/-! ## The rules -/

/-- What can be called for: an operand with the operators that go on with it, the head of an
operand up to its first operator, or the operators behind a tree. -/
inductive Call where
  | operand (start : Nat) (least : Precedence)
  | head (start : Nat)
  | operators (tree : Expr) (index : Nat) (least : Precedence)
deriving DecidableEq, Repr

/-- The operator that goes on with an operand at a place, if there is one. -/
def operator? (tokens : List Token) (least : Precedence) (index : Nat) : Option Operator :=
  match tokens[index]? with
  | some (.operator o) => if least.admits o then some o else none
  | _ => none

/-- Ends a group at a closing parenthesis. -/
def close (tokens : List Token) (inner : Expr) (index : Nat) :
    Except GrammarError (Expr × Nat) :=
  match tokens[index]? with
  | some .closing => .ok (inner, index + 1)
  | some token => .error (.unexpectedToken token index)
  | none => .error .unexpectedEnd

/-- A call comes to an end with a tree and the place behind it, or with an error. -/
inductive Returns (tokens : List Token) : Call → Except GrammarError (Expr × Nat) → Prop
  -- an operand is its head and what goes on behind it
  | operand {start next : Nat} {least : Precedence} {left : Expr}
      {result : Except GrammarError (Expr × Nat)} :
      Returns tokens (.head start) (.ok (left, next)) →
      Returns tokens (.operators left next least) result →
      Returns tokens (.operand start least) result
  | headError {start : Nat} {least : Precedence} {e : GrammarError} :
      Returns tokens (.head start) (.error e) → Returns tokens (.operand start least) (.error e)
  -- the head of an operand begins with a token of which each kind has a rule
  | number {start : Nat} {n : Number} : tokens[start]? = some (.number n) →
      Returns tokens (.head start) (.ok (.number n, start + 1))
  | constant {start : Nat} {c : Constant} : tokens[start]? = some (.constant c) →
      Returns tokens (.head start) (.ok (.number (.real c.value), start + 1))
  | function {start : Nat} {f : Function} {result : Except GrammarError (Expr × Nat)} :
      tokens[start]? = some (.function f) → Returns tokens (.operand (start + 1) .call) result →
      Returns tokens (.head start) (do
        let (argument, next) ← result
        pure (.call f argument, next))
  | group {start : Nat} {result : Except GrammarError (Expr × Nat)} :
      tokens[start]? = some .opening → Returns tokens (.operand (start + 1) .lowest) result →
      Returns tokens (.head start) (do
        let (inner, next) ← result
        close tokens inner next)
  | sign {start : Nat} : tokens[start]? = some (.operator .sub) →
      isOpening tokens start = true →
      Returns tokens (.head start) (.ok (.number (.integer 0), start))
  | misplaced {start : Nat} {token : Token} : tokens[start]? = some token →
      token.startsOperand = false → (token = .operator .sub → isOpening tokens start = false) →
      Returns tokens (.head start) (.error (.unexpectedToken token start))
  | missing {start : Nat} : tokens[start]? = none →
      Returns tokens (.head start) (.error .unexpectedEnd)
  -- operators are read until there is none that goes on
  | last {tree : Expr} {index : Nat} {least : Precedence} : operator? tokens least index = none →
      Returns tokens (.operators tree index least) (.ok (tree, index))
  | operator {tree right : Expr} {index next : Nat} {least : Precedence} {o : Operator}
      {result : Except GrammarError (Expr × Nat)} : operator? tokens least index = some o →
      Returns tokens (.operand (index + 1) o.precedence) (.ok (right, next)) →
      Returns tokens (.operators (.binary tree o right) next least) result →
      Returns tokens (.operators tree index least) result
  | rightError {tree : Expr} {index : Nat} {least : Precedence} {o : Operator}
      {e : GrammarError} : operator? tokens least index = some o →
      Returns tokens (.operand (index + 1) o.precedence) (.error e) →
      Returns tokens (.operators tree index least) (.error e)

variable {tokens : List Token} {start index next : Nat} {least : Precedence} {token : Token}
  {tree : Expr} {o : Operator} {result : Except GrammarError (Expr × Nat)}

theorem operator?_eq_some_iff : operator? tokens least index = some o ↔
    tokens[index]? = some (.operator o) ∧ least.admits o = true := by
  rw [operator?]
  split
  · next p here =>
    by_cases admitted : least.admits p = true
    · rw [if_pos admitted, Option.some_inj, here, Option.some_inj, Token.operator.injEq]
      exact ⟨fun same => ⟨same, same ▸ admitted⟩, And.left⟩
    · rw [if_neg admitted, here, Option.some_inj, Token.operator.injEq]
      refine iff_of_false nofun ?_
      rintro ⟨rfl, admits⟩
      exact admitted admits
  · next other => exact iff_of_false nofun fun here => other o here.1

/-! ## The equations of the reading -/

/-- Behind an opening parenthesis, and only there, a sign may stand at the next place. -/
theorem isOpening_succ (here : tokens[index]? = some token) :
    isOpening tokens (index + 1) = decide (token = .opening) := by
  rw [isOpening, Nat.add_sub_cancel, here, Option.some_beq_some]
  rfl

/-- **What is read above a frame is an operand of its own**, at the least precedence that the frame
asks for. -/
theorem run_wanting_frame (here : tokens[index]? = some token) (least : Precedence)
    (frame : Frame) :
    run least (index + 1) (.wanting (decide (token = .opening)) [frame])
        (tokens.drop (index + 1)) = (do
      let (tree, next) ← readOperand tokens (index + 1) (Grammar.innermost least [frame])
      run least next (.holding tree [frame]) (tokens.drop next)) := by
  rw [readOperand, isOpening_succ here]
  exact run_under_drop (fun _ admitted => admitted) (index + 1)
    (.wanting (decide (token = .opening)) []) tokens

theorem readOperand_of_function {f : Function} (here : tokens[start]? = some (.function f))
    (least : Precedence) :
    readOperand tokens start least = (do
      let (argument, next) ← readOperand tokens (start + 1) .call
      readOperators tokens (.call f argument) next least) := by
  rw [readOperand, drop_of_getElem? here]
  refine (run_wanting_frame here least (.call f)).trans ?_
  simp only [Grammar.run_holding_call]
  rfl

/-- Behind an expression between parentheses only the closing one does not fail. -/
theorem run_holding_group (least : Precedence) (inner : Expr)
    (ended : ∀ o, tokens[next]? ≠ some (.operator o)) :
    run least next (.holding inner [.group]) (tokens.drop next) = (do
      let (tree, next) ← close tokens inner next
      readOperators tokens tree next least) := by
  cases here : tokens[next]? with
  | none =>
    rw [close, here, drop_of_getElem?_eq_none here]
    rfl
  | some token =>
    rw [close, here, drop_of_getElem? here]
    cases token with
    | operator o => exact absurd here (ended o)
    | _ => rfl

theorem readOperand_of_opening (here : tokens[start]? = some .opening) (least : Precedence) :
    readOperand tokens start least = (do
      let (inner, next) ← readOperand tokens (start + 1) .lowest
      let (tree, next) ← close tokens inner next
      readOperators tokens tree next least) := by
  rw [readOperand, drop_of_getElem? here]
  refine (run_wanting_frame here least .group).trans ?_
  show (readOperand tokens (start + 1) .lowest >>= _) = _
  cases read : readOperand tokens (start + 1) .lowest with
  | error e => rfl
  | ok found =>
    refine run_holding_group least found.1 fun o after => ?_
    -- the lowest precedence admits every operator, so that none ends the group
    have refused := admits_eq_false_of_readOperand read after
    rw [Precedence.lowest_admits] at refused
    cases refused

theorem readOperand_of_sign (here : tokens[start]? = some (.operator .sub))
    (opening : isOpening tokens start = true) (least : Precedence) :
    readOperand tokens start least =
      readOperators tokens (.number (.integer 0)) start least := by
  rw [readOperand, readOperators, opening, drop_of_getElem? here]
  rfl

theorem readOperand_of_misplaced (here : tokens[start]? = some token)
    (starts : token.startsOperand = false)
    (sign : token = .operator .sub → isOpening tokens start = false) (least : Precedence) :
    readOperand tokens start least = .error (.unexpectedToken token start) := by
  rw [readOperand, drop_of_getElem? here]
  cases token with
  | operator o =>
    cases o with
    | sub =>
      rw [sign rfl]
      rfl
    | _ => rfl
  | closing => rfl
  | _ => cases starts

theorem readOperand_of_missing (here : tokens[start]? = none) (least : Precedence) :
    readOperand tokens start least = .error .unexpectedEnd := by
  rw [readOperand, drop_of_getElem?_eq_none here]
  rfl

theorem readOperators_of_none (last : operator? tokens least index = none) (tree : Expr) :
    readOperators tokens tree index least = .ok (tree, index) := by
  rw [readOperators]
  cases here : tokens[index]? with
  | none =>
    rw [drop_of_getElem?_eq_none here]
    rfl
  | some token =>
    rw [drop_of_getElem? here]
    cases token with
    | operator o =>
      have refused : ¬ least.admits o = true := fun admitted => by
        cases last.symm.trans (operator?_eq_some_iff.mpr ⟨here, admitted⟩)
      rw [run, step, afterOperand_operator rfl, if_neg (by simpa [Frame.closeFor] using refused)]
      rfl
    | _ => rfl

theorem readOperators_of_operator (going : operator? tokens least index = some o)
    (tree : Expr) :
    readOperators tokens tree index least = (do
      let (right, next) ← readOperand tokens (index + 1) o.precedence
      readOperators tokens (.binary tree o right) next least) := by
  obtain ⟨here, admitted⟩ := operator?_eq_some_iff.mp going
  have alone : (Grammar.innermost least []).admits o = true := admitted
  rw [readOperators, drop_of_getElem? here, Grammar.run_operator alone]
  refine (run_wanting_frame here least (.operand tree o)).trans ?_
  show (readOperand tokens (index + 1) o.precedence >>= _) = _
  cases read : readOperand tokens (index + 1) o.precedence with
  | error e => rfl
  | ok found =>
    refine Grammar.run_holding_operand (fun p after => ?_) least found.2 tree found.1 []
    rw [List.head?_drop] at after
    exact admits_eq_false_of_readOperand read after

/-! ## What a call returns -/

/-- What the result of a call has to do with the readings.  A head is read as a part of any operand
that begins with it. -/
def Call.Gives (tokens : List Token) : Call → Except GrammarError (Expr × Nat) → Prop
  | operand start least, result => readOperand tokens start least = result
  | head start, result => ∀ least, readOperand tokens start least = (do
      let (tree, next) ← result
      readOperators tokens tree next least)
  | operators tree index least, result => readOperators tokens tree index least = result

/-- **What a call returns is what is read**, by one equation for each rule. -/
theorem gives_of_returns {call : Call} (returns : Returns tokens call result) :
    call.Gives tokens result := by
  induction returns with
  | operand _ _ head operators => exact (head _).trans operators
  | headError _ head => exact head _
  | number here =>
    intro least
    rw [readOperand, drop_of_getElem? here]
    rfl
  | constant here =>
    intro least
    rw [readOperand, drop_of_getElem? here]
    rfl
  | function here _ argument =>
    intro least
    have argument : readOperand tokens _ .call = _ := argument
    rw [readOperand_of_function here, argument, bind_assoc]
    rfl
  | group here _ inner =>
    intro least
    have inner : readOperand tokens _ .lowest = _ := inner
    rw [readOperand_of_opening here, inner, bind_assoc]
  | sign here opening => exact readOperand_of_sign here opening
  | misplaced here starts sign => exact readOperand_of_misplaced here starts sign
  | missing here => exact readOperand_of_missing here
  | last none => exact readOperators_of_none none _
  | @operator tree right index next least o result going _ _ operand operators =>
    have operand : readOperand tokens (index + 1) o.precedence = _ := operand
    refine (readOperators_of_operator going tree).trans ?_
    rw [operand]
    exact operators
  | @rightError tree index least o e going _ operand =>
    have operand : readOperand tokens (index + 1) o.precedence = _ := operand
    refine (readOperators_of_operator going tree).trans ?_
    rw [operand]
    rfl

/-! ## The calls come to an end -/

/-- A head ends behind the place where it begins, or there. -/
theorem bounds_of_returns_head (returns : Returns tokens (.head start) (.ok (tree, next))) :
    start < tokens.length ∧ start ≤ next := by
  -- with no operator to go on with it, the head is an operand
  have alone : operator? tokens .call next = none := by
    cases going : operator? tokens .call next with
    | none => rfl
    | some o => simpa using (operator?_eq_some_iff.mp going).2
  have read : readOperand tokens start .call = .ok (tree, next) :=
    (gives_of_returns returns .call).trans (readOperators_of_none alone tree)
  exact ⟨(bounds_of_readOperand read).1, (bounds_of_readOperand read).2.1⟩

/-- Every call at a place comes to an end. -/
structure Ends (tokens : List Token) (index : Nat) : Prop where
  operand : ∀ least, ∃ result, Returns tokens (.operand index least) result
  head : ∃ result, Returns tokens (.head index) result
  operators : ∀ tree least, ∃ result, Returns tokens (.operators tree index least) result

section

variable (later : index < tokens.length → ∀ next, index < next → Ends tokens next)

include later

/-- Operators call only for what stands behind them. -/
theorem exists_returns_operators (tree : Expr) (least : Precedence) :
    ∃ result, Returns tokens (.operators tree index least) result := by
  cases going : operator? tokens least index with
  | none => exact ⟨_, .last going⟩
  | some o =>
    obtain ⟨inside, -⟩ := List.getElem?_eq_some_iff.mp (operator?_eq_some_iff.mp going).1
    obtain ⟨result, operand⟩ := (later inside _ (Nat.lt_succ_self index)).operand o.precedence
    cases result with
    | error e => exact ⟨_, .rightError going operand⟩
    | ok found =>
      obtain ⟨right, next⟩ := found
      have ahead : index + 1 ≤ next := (bounds_of_readOperand (gives_of_returns operand)).2.1
      obtain ⟨result, operators⟩ :=
        (later inside next ahead).operators (.binary tree o right) least
      exact ⟨result, .operator going operand operators⟩

/-- A head calls only for what stands behind its first token. -/
theorem exists_returns_head : ∃ result, Returns tokens (.head index) result := by
  cases here : tokens[index]? with
  | none => exact ⟨_, .missing here⟩
  | some token =>
    obtain ⟨inside, -⟩ := List.getElem?_eq_some_iff.mp here
    have behind := later inside _ (Nat.lt_succ_self index)
    cases token with
    | number n => exact ⟨_, .number here⟩
    | constant c => exact ⟨_, .constant here⟩
    | function f =>
      obtain ⟨result, argument⟩ := behind.operand .call
      exact ⟨_, .function here argument⟩
    | opening =>
      obtain ⟨result, inner⟩ := behind.operand .lowest
      exact ⟨_, .group here inner⟩
    | closing => exact ⟨_, .misplaced here rfl nofun⟩
    | operator o =>
      by_cases sign : o = .sub ∧ isOpening tokens index = true
      · obtain ⟨rfl, opening⟩ := sign
        exact ⟨_, .sign here opening⟩
      · refine ⟨_, .misplaced here rfl ?_⟩
        rintro ⟨⟩
        simpa using sign

/-- An operand calls for its head, and for the operators behind it, which may begin at the same
place. -/
theorem exists_returns_operand (least : Precedence) :
    ∃ result, Returns tokens (.operand index least) result := by
  obtain ⟨result, head⟩ := exists_returns_head later
  cases result with
  | error e => exact ⟨_, .headError head⟩
  | ok found =>
    obtain ⟨left, next⟩ := found
    obtain ⟨inside, ahead⟩ := bounds_of_returns_head head
    have operators : ∃ result, Returns tokens (.operators left next least) result := by
      rcases Nat.eq_or_lt_of_le ahead with rfl | ahead
      · exact exists_returns_operators later left least
      · exact (later inside next ahead).operators left least
    obtain ⟨result, operators⟩ := operators
    exact ⟨result, .operand head operators⟩

end

/-- **Every call comes to an end**, by induction on the number of tokens that are left. -/
theorem ends (tokens : List Token) (index : Nat) : Ends tokens index := by
  induction left : tokens.length - index using Nat.strongRecOn generalizing index with
  | ind n ih =>
    have later (inside : index < tokens.length) (next : Nat) (ahead : index < next) :
        Ends tokens next := ih (tokens.length - next) (by omega) next rfl
    exact ⟨exists_returns_operand later, exists_returns_head later,
      exists_returns_operators later⟩

/-- **The descent has one result, that of the reading.** -/
theorem returns_operand_iff :
    Returns tokens (.operand start least) result ↔ readOperand tokens start least = result := by
  refine ⟨gives_of_returns, ?_⟩
  rintro rfl
  obtain ⟨result, returns⟩ := (ends tokens start).operand least
  have same : readOperand tokens start least = result := gives_of_returns returns
  rwa [same]

end Descent

namespace Expr

/-- **Reading an operand comes to an end, goes ahead, and stops where it has to.**

* The descent has a result, and just one, from every place and at every least precedence.
* What is read ends within the tokens, further on than it began.  Only in front of a sign that is
  too loose for the least precedence nothing is taken up, and the operand is the zero that is
  subtracted from.
* Behind what is read no operator stands that goes on with it.
* A token that an error names stands in the tokens at its index, not before the start, and the
  message shows it as it is written. -/
theorem readOperand_advances (tokens : List Token) (start : Nat) (least : Precedence) :
    (∀ result, Descent.Returns tokens (.operand start least) result ↔
      readOperand tokens start least = result) ∧
    (∀ tree next, readOperand tokens start least = .ok (tree, next) →
      next ≤ tokens.length ∧
      (start < next ∨ next = start ∧ tree = .number (.integer 0)) ∧
      ∀ o, tokens[next]? = some (.operator o) →
        o.precedence < least ∨ o.precedence = least ∧ o ≠ .pow) ∧
    (readOperand tokens start least = .ok (.number (.integer 0), start) ↔
      tokens[start]? = some (.operator .sub) ∧
        (start = 0 ∨ tokens[start - 1]? = some .opening) ∧ .sum ≤ least) ∧
    ∀ token index, readOperand tokens start least = .error (.unexpectedToken token index) →
      start ≤ index ∧ ∃ inside : index < tokens.length, token = tokens[index] ∧
        (GrammarError.unexpectedToken token index).message =
          "Unexpected '" ++ tokens[index].text ++ "' at index " ++ toString index ++ "." := by
  refine ⟨fun result => Descent.returns_operand_iff, ?_, ?_, ?_⟩
  · intro tree next read
    obtain ⟨-, later, last⟩ := bounds_of_readOperand read
    refine ⟨last, ?_, fun o here => ?_⟩
    · rcases Nat.eq_or_lt_of_le later with rfl | ahead
      · exact .inr ⟨rfl, (readOperand_eq_start_iff.mp read).1⟩
      · exact .inl ahead
    · exact Precedence.admits_eq_false_iff.mp (admits_eq_false_of_readOperand read here)
  · rw [readOperand_eq_start_iff, isOpening_eq_true_iff, Precedence.admits_sub_eq_false_iff]
    exact and_iff_right rfl
  · intro token index failed
    obtain ⟨later, here⟩ := getElem?_of_readOperand_eq_error failed
    obtain ⟨inside, rfl⟩ := List.getElem?_eq_some_iff.mp here
    exact ⟨later, inside, rfl, rfl⟩

end Expr
end Calculator
