import Calculator.Proofs.Answer
import Calculator.Proofs.ParseErrors
import Calculator.Proofs.Separation

/-!
# What is shown for an input

`respond` shows the value of an input or its tree.  The two ways share nothing but the reading of
the text, and each decides by itself what to show for an input without a value or without a tree.

## The same inputs are rejected

A text that cannot be read is answered by one message, and so the text itself has to tell that it
is this message.  No value is shown like that, because a message has a space in it and a number
has not.  No other message is the same one.  A tree is shown with spaces, but where it begins
like the message it is a number (`Expr.text_ne_invalidExpression`).  Hence what is shown tells
whether the input was rejected, and value and tree agree about it (`respond_rejects`).

## One line

Nothing that is shown has a line feed in it (`lineFeed_notMem_respond`), so that answers which are
written one below the other can be told apart.

## Blanks at the end

Blanks at the end of an input are not read, whether the input is a calculation or not, and hence
the same is shown without them (`respond_append_of_isBlank`).
-/

namespace Calculator

/-! ## Trees -/

theorem head_invalidExpression : invalidExpression.toList.head? = some 'i' := by
  decide

/-- The name of a function does not begin like the message for texts that cannot be read. -/
theorem Function.exists_toList_name (f : Function) :
    ∃ c cs, f.name.toList = c :: cs ∧ c ≠ 'i' := by
  cases f <;> exact ⟨_, _, rfl, by decide⟩

/-- **No tree is shown as the message for texts that cannot be read**, whatever numbers are in
it. -/
theorem Expr.text_ne_invalidExpression (t : Expr) : t.text ≠ invalidExpression := by
  cases t with
  | number n => exact n.text_ne_message (.parse (.grammar .unexpectedEnd))
  | call f argument =>
    intro same
    obtain ⟨c, cs, name, other⟩ := f.exists_toList_name
    have first : (call f argument).text.toList.head? = some c := by
      rw [text]
      split <;> simp [String.toList_append, name]
    rw [same, head_invalidExpression] at first
    exact other (Option.some_inj.mp first).symm
  | binary left o right =>
    intro same
    have first : (binary left o right).text.toList.head? = some '(' := by
      simp [text, String.toList_append]
    rw [same, head_invalidExpression] at first
    cases first

/-! ## Answers and outlines -/

theorem answer_of_isBlankText {text : String} (blank : isBlankText text = true) :
    answer text = "0" := by
  rw [answer, calculate, if_pos blank]
  decide +kernel

theorem outline_of_isBlankText {text : String} (blank : isBlankText text = true) :
    outline text = "0" := by
  rw [outline, if_pos blank]

/-- The answer is the message exactly for a text that is not blank and has no tree. -/
theorem answer_eq_invalidExpression_iff {text : String} :
    answer text = invalidExpression ↔
      isBlankText text = false ∧ ∃ e, parse text = .error e := by
  cases value : calculate text with
  | ok n =>
    rw [answer_of_ok value]
    refine iff_of_false (n.text_ne_message (.parse (.grammar .unexpectedEnd))) ?_
    rintro ⟨visible, e, failed⟩
    cases value.symm.trans (calculate_eq_error_parse_iff.mpr ⟨visible, failed⟩)
  | error e =>
    rw [answer_of_error value]
    cases e with
    | parse e =>
      obtain ⟨visible, failed⟩ := calculate_eq_error_parse_iff.mp value
      exact iff_of_true rfl ⟨visible, e, failed⟩
    | evaluation e =>
      refine iff_of_false e.message_ne_invalidExpression ?_
      rintro ⟨visible, e', failed⟩
      cases value.symm.trans (calculate_eq_error_parse_iff.mpr ⟨visible, failed⟩)

/-- The outline is the message exactly for the same texts. -/
theorem outline_eq_invalidExpression_iff {text : String} :
    outline text = invalidExpression ↔
      isBlankText text = false ∧ ∃ e, parse text = .error e := by
  cases blank : isBlankText text with
  | true =>
    rw [outline_of_isBlankText blank]
    exact iff_of_false (by decide) nofun
  | false =>
    rw [outline, blank, if_neg Bool.false_ne_true]
    cases read : parse text with
    | ok t => exact iff_of_false t.text_ne_invalidExpression fun failed => nomatch failed.2
    | error e => exact iff_of_true rfl ⟨rfl, e, rfl⟩

/-- **Value and tree are refused for the same inputs**, those that are not blank and cannot be
read.  Blank ones are shown as zero either way.  No tree, no value and no message of an evaluation
is the text that is shown for a refusal. -/
theorem respond_rejects :
    (∀ text, respond true text = invalidExpression ↔ respond false text = invalidExpression) ∧
    (∀ showTree text, respond showTree text = invalidExpression ↔
      isBlankText text = false ∧ ∃ e, parse text = .error e) ∧
    (∀ showTree text, isBlankText text = true → respond showTree text = "0") ∧
    (∀ t : Expr, t.text ≠ invalidExpression) ∧ (∀ n : Number, n.text ≠ invalidExpression) ∧
    ∀ e : EvaluationError, e.message ≠ invalidExpression := by
  refine ⟨fun text => ?_, fun showTree text => ?_, fun showTree text blank => ?_,
    Expr.text_ne_invalidExpression, fun n => ?_, EvaluationError.message_ne_invalidExpression⟩
  · exact outline_eq_invalidExpression_iff.trans answer_eq_invalidExpression_iff.symm
  · cases showTree with
    | true => exact outline_eq_invalidExpression_iff
    | false => exact answer_eq_invalidExpression_iff
  · cases showTree with
    | true => exact outline_of_isBlankText blank
    | false => exact answer_of_isBlankText blank
  · exact n.text_ne_message (.parse (.grammar .unexpectedEnd))

/-- A text with an ideographic space and a line feed in it, which is blank. -/
theorem respond_rejects_blank :
    isBlankText "\u3000\n" = true ∧ respond true "\u3000\n" = "0" ∧
      respond false "\u3000\n" = "0" := by
  have blank : isBlankText "\u3000\n" = true := by decide
  obtain ⟨-, -, zero, -⟩ := respond_rejects
  exact ⟨blank, zero true _ blank, zero false _ blank⟩

/-! ## One line -/

theorem Number.lineFeed_notMem_text (n : Number) : '\n' ∉ n.text.toList := by
  rw [toList_text]
  intro member
  cases n.isBlank_of_mem_toList '\n' member

theorem Function.lineFeed_notMem_name (f : Function) : '\n' ∉ f.name.toList := by
  cases f <;> decide

theorem Operator.lineFeed_notMem_symbol (o : Operator) : '\n' ∉ o.symbol.toList := by
  cases o <;> decide

theorem Expr.lineFeed_notMem_text (t : Expr) : '\n' ∉ t.text.toList := by
  induction t with
  | number n => exact n.lineFeed_notMem_text
  | call f argument ih =>
    rw [text]
    split <;> simp [String.toList_append, f.lineFeed_notMem_name, ih]
  | binary left o right ihl ihr =>
    rw [text]
    simp [String.toList_append, o.lineFeed_notMem_symbol, ihl, ihr]

theorem CalculationError.lineFeed_notMem_message (e : CalculationError) :
    '\n' ∉ e.message.toList := by
  cases e with
  | parse =>
    show '\n' ∉ invalidExpression.toList
    decide
  | evaluation e => cases e <;> decide

/-- **What is shown is one line.** -/
theorem lineFeed_notMem_respond (showTree : Bool) (text : String) :
    '\n' ∉ (respond showTree text).toList := by
  cases showTree with
  | true =>
    show '\n' ∉ (outline text).toList
    unfold outline
    split
    · decide
    · split
      · next t _ => exact t.lineFeed_notMem_text
      · exact CalculationError.lineFeed_notMem_message (.parse (.grammar .unexpectedEnd))
  | false =>
    show '\n' ∉ (answer text).toList
    cases value : calculate text with
    | ok n =>
      rw [answer_of_ok value]
      exact n.lineFeed_notMem_text
    | error e =>
      rw [answer_of_error value]
      exact e.lineFeed_notMem_message

/-! ## Blanks at the end -/

theorem isBlankText_append_of_isBlank {text gap : String}
    (blank : ∀ c ∈ gap.toList, isBlank c = true) :
    isBlankText (text ++ gap) = isBlankText text := by
  rw [isBlankText, isBlankText, String.toList_append, List.all_append,
    List.all_eq_true.mpr blank, Bool.and_true]

theorem parse_append_of_isBlank {text gap : String}
    (blank : ∀ c ∈ gap.toList, isBlank c = true) : parse (text ++ gap) = parse text := by
  rw [parse, parse, tokenize_append_of_isBlank blank]

/-- **Blanks at the end of an input do not change what is shown.** -/
theorem respond_append_of_isBlank {gap : String} (blank : ∀ c ∈ gap.toList, isBlank c = true)
    (showTree : Bool) (text : String) :
    respond showTree (text ++ gap) = respond showTree text := by
  have answers : answer (text ++ gap) = answer text := by
    rw [answer, answer, calculate, calculate, isBlankText_append_of_isBlank blank,
      parse_append_of_isBlank blank]
  have outlines : outline (text ++ gap) = outline text := by
    rw [outline, outline, isBlankText_append_of_isBlank blank, parse_append_of_isBlank blank]
  rw [respond, respond, answers, outlines]

end Calculator
