import Calculator.Proofs.Parse

/-!
# Where reading fails

A text is read in three steps, and the third one, the building of a tree, could fail like the
other two.  It does so for one kind of text only.  Tokens that are arranged well make up a tree,
so the third step can fail only where the check has nothing to say, and that is the empty
sequence of tokens.  The texts of the empty sequence are the blank ones
(`tokenize_eq_ok_nil_iff`).  A calculation gives a blank text the value zero before it is read,
so none of its errors comes from the third step.

Both facts rest on one test of characters.  What reading skips between two tokens is what
a calculation takes for blank, and if the two tests differed, a text with a character on which
they differ would get through to the third step without a token.
-/

namespace Calculator

/-! ## Blank texts -/

/-- Nothing but blanks spells no tokens. -/
theorem spellsAfter_nil_iff {touching : Option Token} {cs : List Char} :
    SpellsAfter touching cs [] ↔ ∀ c ∈ cs, isBlank c = true := by
  constructor
  · intro spells
    generalize none : ([] : List Token) = ts at spells
    induction spells with
    | nil => simp
    | blank blank _ ih => exact List.forall_mem_cons.mpr ⟨blank, ih none⟩
    | token => cases none
  · intro blank
    induction cs generalizing touching with
    | nil => exact .nil
    | cons c cs ih =>
      rw [List.forall_mem_cons] at blank
      exact .blank blank.1 (ih blank.2)

/-- A text has no tokens exactly when it is blank. -/
theorem tokenize_eq_ok_nil_iff {text : String} :
    tokenize text = .ok [] ↔ isBlankText text = true := by
  rw [tokenize_eq_ok_iff_spellsAfter, spellsAfter_nil_iff, isBlankText, List.all_eq_true]

/-! ## The third step -/

/-- **Tokens that pass the check are refused by the third step only if there are none.** -/
theorem ofTokens_eq_error_iff_of_check {ts : List Token} {e : GrammarError}
    (arranged : Arrangement.check ts = .ok ()) :
    Expr.ofTokens ts = .error e ↔ ts = [] ∧ e = .unexpectedEnd := by
  constructor
  · intro failed
    by_cases empty : ts = []
    · subst empty
      cases failed
      exact ⟨rfl, rfl⟩
    · obtain ⟨t, built⟩ := Arrangement.exists_ofTokens_of_check empty arranged
      cases built.symm.trans failed
  · rintro ⟨rfl, rfl⟩
    rfl

/-- **The third step fails for blank texts only**, and it says that something is missing. -/
theorem parse_eq_error_grammar_iff {text : String} {e : GrammarError} :
    parse text = .error (.grammar e) ↔ isBlankText text = true ∧ e = .unexpectedEnd := by
  simp only [parse, bind_eq_error_iff, mapError_eq_error_iff, mapError_eq_ok_iff,
    reduceCtorEq, and_false, exists_false, false_or, ParseError.grammar.injEq, exists_eq_right]
  constructor
  · rintro ⟨ts, lexed, _, arranged, failed⟩
    obtain ⟨rfl, missing⟩ := (ofTokens_eq_error_iff_of_check arranged).mp failed
    exact ⟨tokenize_eq_ok_nil_iff.mp lexed, missing⟩
  · rintro ⟨blank, rfl⟩
    exact ⟨[], tokenize_eq_ok_nil_iff.mpr blank, (), rfl, rfl⟩

/-- A text that has a tree is not blank. -/
theorem isBlankText_of_parse {text : String} {t : Expr} (read : parse text = .ok t) :
    isBlankText text = false := by
  refine Bool.eq_false_iff.mpr fun blank => ?_
  have failed := parse_eq_error_grammar_iff.mpr ⟨blank, rfl⟩
  cases read.symm.trans failed

/-- A text that is not blank has a tree exactly when the first two steps succeed. -/
theorem exists_parse_iff {text : String} :
    (∃ t, parse text = .ok t) ↔
      isBlankText text = false ∧ ∃ ts, tokenize text = .ok ts ∧ Arrangement.check ts = .ok () := by
  constructor
  · rintro ⟨t, read⟩
    obtain ⟨ts, lexed, arranged, -⟩ := parse_eq_ok_iff_steps.mp read
    exact ⟨isBlankText_of_parse read, ts, lexed, arranged⟩
  · rintro ⟨visible, ts, lexed, arranged⟩
    have nonempty : ts ≠ [] := by
      rintro rfl
      rw [tokenize_eq_ok_nil_iff.mp lexed] at visible
      cases visible
    obtain ⟨t, built⟩ := Arrangement.exists_ofTokens_of_check nonempty arranged
    exact ⟨t, parse_eq_ok_iff_steps.mpr ⟨ts, lexed, arranged, built⟩⟩

/-! ## Calculations -/

/-- The value of a text that has a tree is that of the tree. -/
theorem calculate_of_parse {text : String} {t : Expr} (read : parse text = .ok t) :
    calculate text = t.value.mapError .evaluation := by
  rw [calculate, isBlankText_of_parse read, read]
  rfl

/-- A calculation is stopped by a text that cannot be read only if the text is not blank. -/
theorem calculate_eq_error_parse_iff {text : String} {e : ParseError} :
    calculate text = .error (.parse e) ↔ isBlankText text = false ∧ parse text = .error e := by
  unfold calculate
  split
  case isTrue blank => exact iff_of_false nofun fun h => by rw [blank] at h; cases h.1
  case isFalse visible =>
    rw [Bool.not_eq_true] at visible
    simp [visible]

/-- **No error of the third step is ever shown.**  Reading gives one only for a blank text, and
always the same one, and a calculation gives none; a text that is not blank has a tree exactly
when it has tokens that are arranged well. -/
theorem grammar_errors_unreachable (text : String) :
    (∀ token index, parse text ≠ .error (.grammar (.unexpectedToken token index))) ∧
    (parse text = .error (.grammar .unexpectedEnd) ↔ ∀ c ∈ text.toList, isBlank c = true) ∧
    (∀ e, calculate text ≠ .error (.parse (.grammar e))) ∧
    ((∃ t, parse text = .ok t) ↔ (∃ c ∈ text.toList, isBlank c = false) ∧
      ∃ ts, tokenize text = .ok ts ∧ Arrangement.check ts = .ok ()) := by
  have blank_iff : isBlankText text = true ↔ ∀ c ∈ text.toList, isBlank c = true :=
    List.all_eq_true
  refine ⟨fun token index failed => ?_, ?_, fun e failed => ?_, ?_⟩
  · cases (parse_eq_error_grammar_iff.mp failed).2
  · rw [parse_eq_error_grammar_iff, blank_iff]
    exact and_iff_left rfl
  · obtain ⟨visible, failed⟩ := calculate_eq_error_parse_iff.mp failed
    rw [(parse_eq_error_grammar_iff.mp failed).1] at visible
    cases visible
  · rw [exists_parse_iff, ← Bool.not_eq_true, blank_iff]
    simp

end Calculator
