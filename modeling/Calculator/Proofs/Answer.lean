import Calculator.Calculation
import Calculator.Proofs.Numeral.Distinct

/-!
# What an answer tells

The text shown for an input is its value or what is wrong with it, and nothing marks which of
the two it is.  Nothing has to: from the text it can be seen whether there is a value, and then
which one, and otherwise what is wrong.  Only the texts that cannot be read are all answered
alike.

## Spaces

What is said about an error is made of several words, and so it has a space in it
(`CalculationError.space_mem_message`).  No number is written with a space, whatever its kind.
This keeps the two apart, also where a message begins like a number, as `0 ^ 0 is undefined`
does.
-/

namespace Calculator

/-! ## Values -/

/-- **A number is given by its text**, its kind included. -/
@[simp] theorem Number.text_inj {m n : Number} : m.text = n.text ↔ m = n := by
  refine ⟨fun same => ?_, congrArg Number.text⟩
  have characters : m.toList = n.toList := String.ofList_injective same
  cases m with
  | integer m =>
    cases n with
    | integer n => rw [Int64.toInt_inj.mp (Numeral.eq_of_integerText_eq characters)]
    | real y => exact absurd characters (Numeral.integerText_ne_realText _ y)
  | real x =>
    cases n with
    | integer n => exact absurd characters.symm (Numeral.integerText_ne_realText _ x)
    | real y => rw [Numeral.eq_of_realText_eq characters]

/-- No number is written with a blank. -/
theorem Number.isBlank_of_mem_toList (n : Number) : ∀ c ∈ n.toList, isBlank c = false := by
  intro c member
  cases n with
  | integer n => exact (Numeral.isNumeric_integerText _ c member).isBlank
  | real x => exact (Numeral.isNumeric_realText x c member).isBlank

/-! ## Errors -/

theorem CalculationError.space_mem_message (e : CalculationError) : ' ' ∈ e.message.toList := by
  cases e with
  | parse =>
    show ' ' ∈ invalidExpression.toList
    decide
  | evaluation e => cases e <;> decide

/-- **No value is shown as an error.** -/
theorem Number.text_ne_message (n : Number) (e : CalculationError) : n.text ≠ e.message := by
  intro same
  have space := e.space_mem_message
  rw [← same, toList_text] at space
  cases n.isBlank_of_mem_toList ' ' space

/-- Each error of evaluation has its own message. -/
@[simp] theorem EvaluationError.message_inj {e f : EvaluationError} :
    e.message = f.message ↔ e = f := by
  cases e <;> cases f <;> decide

/-- It is not the one that is shown for a text that cannot be read. -/
theorem EvaluationError.message_ne_invalidExpression (e : EvaluationError) :
    e.message ≠ invalidExpression := by
  cases e <;> decide

/-- Errors with the same message are the same, or both are about texts that cannot be read. -/
theorem CalculationError.message_eq_iff {e f : CalculationError} :
    e.message = f.message ↔
      (∃ g, e = .evaluation g ∧ f = .evaluation g) ∨ ∃ p q, e = .parse p ∧ f = .parse q := by
  cases e with
  | parse p =>
    cases f with
    | parse q => exact iff_of_true rfl (.inr ⟨p, q, rfl, rfl⟩)
    | evaluation g => simpa [message] using g.message_ne_invalidExpression.symm
  | evaluation e =>
    cases f with
    | parse q => simpa [message] using e.message_ne_invalidExpression
    | evaluation g => simp [message, eq_comm]

/-! ## Answers -/

theorem answer_of_ok {a : String} {n : Number} (value : calculate a = .ok n) :
    answer a = n.text := by
  rw [answer, value]

theorem answer_of_error {a : String} {e : CalculationError} (failed : calculate a = .error e) :
    answer a = e.message := by
  rw [answer, failed]

/-- **An answer tells everything but why a text cannot be read.**  Inputs are answered alike
exactly when they have the same value, of the same kind, when their evaluations fail for the same
reason, or when neither of them can be read.  The text of a number is no message, it shows the
kind of the number, and for a zero its sign. -/
theorem answer_distinguishes :
    (∀ a b, answer a = answer b ↔
      (∃ n, calculate a = .ok n ∧ calculate b = .ok n) ∨
      (∃ e, calculate a = .error (.evaluation e) ∧ calculate b = .error (.evaluation e)) ∨
      (∃ e f, calculate a = .error (.parse e) ∧ calculate b = .error (.parse f))) ∧
    (∀ (n : Number) (e : CalculationError), n.text ≠ e.message) ∧
    (∀ (n : Int64) (x : Float), (Number.integer n).text ≠ (Number.real x).text) ∧
    (Number.real 0.0).text = "0,0" ∧ (Number.real (-0.0)).text = "-0,0" := by
  refine ⟨fun a b => ?_, Number.text_ne_message, fun n x => ?_, ?_, ?_⟩
  · cases left : calculate a with
    | ok m =>
      cases right : calculate b with
      | ok n => simp [answer_of_ok left, answer_of_ok right, eq_comm]
      | error f => simp [answer_of_ok left, answer_of_error right, m.text_ne_message f]
    | error e =>
      cases right : calculate b with
      | ok n => simp [answer_of_error left, answer_of_ok right, (n.text_ne_message e).symm]
      | error f => simp [answer_of_error left, answer_of_error right,
          CalculationError.message_eq_iff]
  · simp
  · decide +kernel
  · decide +kernel

end Calculator
