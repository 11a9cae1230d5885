import Calculator.Proofs.Reading.Faults
import Calculator.Proofs.Results

/-!
# Places in the tokens

The tokens are a list, and a reading that starts somewhere in it speaks of places in the whole
list: the place behind what was read, and the place of a token that takes no part.  This file says
what stands at these places, and that nothing else depends on them.

## What stands there

A run stops only in front of a token that cannot go on with an operand, and if this is an operator,
the least precedence of the run does not admit it (`admits_eq_false_of_run`).  A token that an error
names stands at the index that the error names (`getElem?_of_run_eq_error`).

## Tokens in front

A reading that starts at an index takes no account of the tokens before it, with one exception: it
asks whether a sign may stand where it starts.  At the beginning of the tokens it may, and so it may
behind an opening parenthesis.  Tokens in front of all others therefore make no difference if the
last of them is an opening parenthesis.  They move every place by their number
(`run_add`, `readOperand_append_opening`).
-/

namespace Calculator

/-- The operators that do not go on with an operand bind less tightly than its least precedence,
or as tightly, and then they do not group to the right. -/
theorem Precedence.admits_eq_false_iff {least : Precedence} {o : Operator} :
    least.admits o = false ↔ o.precedence < least ∨ o.precedence = least ∧ o ≠ .pow := by
  cases least <;> cases o <;> decide

/-- A subtraction does not go on with operands from the precedence of sums on. -/
theorem Precedence.admits_sub_eq_false_iff {least : Precedence} :
    least.admits .sub = false ↔ .sum ≤ least := by
  cases least <;> decide

/-- The same error about tokens that stand some places further on. -/
def GrammarError.shift (places : Nat) : GrammarError → GrammarError
  | unexpectedToken token index => unexpectedToken token (index + places)
  | unexpectedEnd => unexpectedEnd

namespace Reading

variable {least : Precedence} {index : Nat} {token : Token} {r : Reading} {tree : Expr}

/-! ## What stands at a place -/

/-- No operator that is admitted stops a reading. -/
theorem admits_eq_false_of_step {o : Operator}
    (stop : r.step least index (.operator o) = .ok (.stop tree)) : least.admits o = false := by
  obtain ⟨held, frames, -, behind⟩ := exists_looks_of_stop stop
  rcases of_afterOperand_eq_stop behind with ⟨_, ⟨⟩, -, refused⟩ | ⟨other, -⟩
  · exact refused
  · exact absurd rfl (other o)

/-- Where an operand has to come, a reading without frames stops only in front of a sign, and what
it has read is the zero that is subtracted from. -/
theorem sign_of_step_eq_stop {opening : Bool}
    (stop : (wanting opening []).step least index token = .ok (.stop tree)) :
    opening = true ∧ token = .operator .sub ∧ tree = .number (.integer 0) := by
  obtain ⟨zero, frames, looks, behind⟩ := exists_looks_of_stop stop
  cases looks
  rcases of_afterOperand_eq_stop behind with ⟨o, -, close, -⟩ | ⟨other, -⟩
  · cases close
    exact ⟨rfl, rfl, rfl⟩
  · exact absurd rfl (other .sub)

/-- **Where a run ends, no operator stands that it admits.** -/
theorem admits_eq_false_of_run {ts : List Token} {next : Nat} {o : Operator}
    (read : run least index r ts = .ok (tree, next))
    (here : ts[next - index]? = some (.operator o)) : least.admits o = false := by
  induction ts generalizing index r with
  | nil => cases here
  | cons token ts ih =>
    rw [run] at read
    split at read
    · cases read
    · next stop =>
      cases read
      rw [Nat.sub_self] at here
      cases here
      exact admits_eq_false_of_step stop
    · have later := (next_bounds_of_run read).1
      have place : next - index = next - (index + 1) + 1 := by omega
      rw [place, List.getElem?_cons_succ] at here
      exact ih read here

/-- **Where an error says that a token stands, there it stands.** -/
theorem getElem?_of_run_eq_error {ts : List Token} {i : Nat}
    (failed : run least index r ts = .error (.unexpectedToken token i)) :
    index ≤ i ∧ ts[i - index]? = some token := by
  induction ts generalizing index r with
  | nil =>
    rw [run, map_eq_error_iff] at failed
    rcases finish_eq_ok_or_error r with ⟨t, done⟩ | missing
    · cases done.symm.trans failed
    · cases missing.symm.trans failed
  | cons first ts ih =>
    rw [run] at failed
    split at failed
    · next e failing =>
      cases failed
      cases eq_unexpectedToken_of_step failing
      exact ⟨Nat.le_refl _, by rw [Nat.sub_self, List.getElem?_cons_zero]⟩
    · cases failed
    · obtain ⟨later, here⟩ := ih failed
      have place : i - index = i - (index + 1) + 1 := by omega
      rw [place, List.getElem?_cons_succ]
      exact ⟨by omega, here⟩

/-! ## Runs that start further on -/

/-- The index of a token behind an operand is found in errors only. -/
theorem afterOperand_add (least : Precedence) (index places : Nat) (tree : Expr)
    (frames : List Frame) (token : Token) :
    afterOperand least (index + places) tree frames token =
      (afterOperand least index tree frames token).mapError (GrammarError.shift places) := by
  cases token with
  | operator o =>
    rw [afterOperand_operator rfl, afterOperand_operator rfl]
    split <;> rfl
  | _ =>
    simp only [afterOperand]
    split <;> rfl

theorem step_add (least : Precedence) (index places : Nat) (r : Reading) (token : Token) :
    r.step least (index + places) token =
      (r.step least index token).mapError (GrammarError.shift places) := by
  rcases step_cases r token with ⟨tree, frames, looks⟩ | ⟨r', goes⟩ | fails
  · rw [looks.step_eq, looks.step_eq, afterOperand_add]
  · rw [goes, goes]
    rfl
  · rw [fails, fails]
    rfl

/-- **A run that starts some places further on ends as many places further on.** -/
theorem run_add (least : Precedence) (index places : Nat) (r : Reading) (ts : List Token) :
    run least (index + places) r ts = (do
      let (tree, next) ← (run least index r ts).mapError (GrammarError.shift places)
      pure (tree, next + places)) := by
  induction ts generalizing index r with
  | nil =>
    rw [run, run]
    rcases finish_eq_ok_or_error r with ⟨t, done⟩ | missing
    · rw [done]
      rfl
    · rw [missing]
      rfl
  | cons token ts ih =>
    rw [run, run, step_add]
    cases r.step least index token with
    | error e => rfl
    | ok result =>
      cases result with
      | stop t => rfl
      | goOn r' =>
        show run least (index + places + 1) r' ts = _
        rw [Nat.add_right_comm, ih]

end Reading

namespace Expr

/-! ## Operands somewhere in the tokens -/

section

variable {tokens : List Token} {start next index : Nat} {least : Precedence} {tree : Expr}
  {token : Token}

/-- The tokens from a place on begin with the token there. -/
theorem drop_of_getElem? (here : tokens[index]? = some token) :
    tokens.drop index = token :: tokens.drop (index + 1) := by
  obtain ⟨inside, rfl⟩ := List.getElem?_eq_some_iff.mp here
  exact List.drop_eq_getElem_cons inside

/-- From a place without a token on there are none. -/
theorem drop_of_getElem?_eq_none (here : tokens[index]? = none) : tokens.drop index = [] :=
  List.drop_eq_nil_of_le (List.getElem?_eq_none_iff.mp here)

/-- An operand is read from a token on, and ends within the tokens. -/
theorem bounds_of_readOperand (read : readOperand tokens start least = .ok (tree, next)) :
    start < tokens.length ∧ start ≤ next ∧ next ≤ tokens.length := by
  have inside : start < tokens.length := by
    refine Nat.lt_of_not_le fun beyond => ?_
    rw [readOperand, List.drop_of_length_le beyond] at read
    cases read
  obtain ⟨later, last⟩ := Reading.next_bounds_of_run read
  rw [List.length_drop] at last
  exact ⟨inside, later, by omega⟩

/-- **Reading goes ahead.**  It comes to an end where it began only in front of a sign that the
least precedence does not admit. -/
theorem readOperand_eq_start_iff : readOperand tokens start least = .ok (tree, start) ↔
    tree = .number (.integer 0) ∧ tokens[start]? = some (.operator .sub) ∧
      isOpening tokens start = true ∧ least.admits .sub = false := by
  constructor
  · intro read
    obtain ⟨inside, -, -⟩ := bounds_of_readOperand read
    rw [readOperand, List.drop_eq_getElem_cons inside, Reading.run] at read
    split at read
    · cases read
    · next stop =>
      cases read
      obtain ⟨opening, sign, zero⟩ := Reading.sign_of_step_eq_stop stop
      rw [sign] at stop
      refine ⟨zero, ?_, opening, Reading.admits_eq_false_of_step stop⟩
      rw [List.getElem?_eq_getElem inside, sign]
    · have later := (Reading.next_bounds_of_run read).1
      omega
  · rintro ⟨rfl, here, opening, refused⟩
    rw [readOperand, opening, drop_of_getElem? here, Reading.run, Reading.step,
      Reading.forOperand, if_pos rfl, Reading.afterOperand_operator rfl,
      if_neg (by simpa [Frame.closeFor] using refused)]
    rfl

/-- Behind an operand that is read no operator stands that goes on with it. -/
theorem admits_eq_false_of_readOperand {o : Operator}
    (read : readOperand tokens start least = .ok (tree, next))
    (here : tokens[next]? = some (.operator o)) : least.admits o = false := by
  refine Reading.admits_eq_false_of_run read ?_
  rw [List.getElem?_drop, Nat.add_sub_cancel' (bounds_of_readOperand read).2.1, here]

/-- The token of an error stands where the error says. -/
theorem getElem?_of_readOperand_eq_error
    (failed : readOperand tokens start least = .error (.unexpectedToken token index)) :
    start ≤ index ∧ tokens[index]? = some token := by
  obtain ⟨later, here⟩ := Reading.getElem?_of_run_eq_error failed
  rw [List.getElem?_drop, Nat.add_sub_cancel' later] at here
  exact ⟨later, here⟩

end

/-! ## Operands behind more tokens -/

theorem isOpening_eq_true_iff {tokens : List Token} {index : Nat} :
    isOpening tokens index = true ↔ index = 0 ∨ tokens[index - 1]? = some .opening := by
  simp [isOpening]

/-- Whether a sign may stand at a place is the same behind more tokens, if they end with an opening
parenthesis. -/
theorem isOpening_append {before : List Token} (opens : before.getLast? = some .opening)
    (tokens : List Token) (start : Nat) :
    isOpening (before ++ tokens) (start + before.length) = isOpening tokens start := by
  have nonempty : before ≠ [] := by
    rintro rfl
    cases opens
  have positive : 0 < before.length := List.length_pos_iff.mpr nonempty
  cases start with
  | zero =>
    have last : (before ++ tokens)[before.length - 1]? = some .opening := by
      rw [List.getElem?_append_left (by omega), ← List.getLast?_eq_getElem?, opens]
    simp [isOpening, last]
  | succ start =>
    have place : start + 1 + before.length - 1 = before.length + start := by omega
    have here : (before ++ tokens)[before.length + start]? = tokens[start]? := by
      rw [List.getElem?_append_right (by omega), Nat.add_sub_cancel_left]
    simp [isOpening, place, here]

/-- **A reading does not depend on what stands in front**, if this ends with an opening parenthesis.
The same tree is read and the same error is made, and the place of either is as many places further
on as there are tokens in front. -/
theorem readOperand_append_opening {before : List Token}
    (opens : before.getLast? = some .opening) (tokens : List Token) (start : Nat)
    (least : Precedence) :
    readOperand (before ++ tokens) (before.length + start) least = (do
      let (tree, next) ←
        (readOperand tokens start least).mapError (GrammarError.shift before.length)
      pure (tree, next + before.length)) := by
  rw [readOperand, List.drop_length_add_append, Nat.add_comm before.length,
    isOpening_append opens]
  exact Reading.run_add least start before.length _ _

/-- The tokens of `-2)` and of `(3 4` behind those of `sin (`.  The sign is one of the group, and
the `4` is the fifth of all tokens. -/
theorem readOperand_append_opening_sign :
    [Token.function .sin, .opening].getLast? = some .opening ∧
    readOperand ([.function .sin, .opening] ++
        [.operator .sub, .number (.integer 2), .closing]) 2 .lowest =
      .ok (.binary (.number (.integer 0)) .sub (.number (.integer 2)), 4) ∧
    readOperand ([.function .sin, .opening] ++
        [.opening, .number (.integer 3), .number (.integer 4)]) 2 .lowest =
      .error (.unexpectedToken (.number (.integer 4)) 4) := by
  have opens : [Token.function .sin, .opening].getLast? = some .opening := rfl
  exact ⟨opens, (readOperand_append_opening opens _ 0 .lowest).trans rfl,
    (readOperand_append_opening opens _ 0 .lowest).trans rfl⟩

end Expr
end Calculator
