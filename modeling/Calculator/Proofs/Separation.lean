import Calculator.Proofs.Spelling

/-!
# Blanks separate

What is read from a text does not depend on what stands in front of a blank or behind one.  Two
texts with blanks between them are read one after the other.  The error of the first one is the
error of the whole, the error of the second one is found again, further on in the text, and if
both can be read, the tokens of the whole are those of the two.

## Three places where something could reach across

The *cut* looks ahead, from a numeral to a comma and to a digit behind it.  A blank goes on with
no lexeme, so the cut of the first text comes to the same end with the blank behind it
(`Lexeme.lexemes_append_of_closed`).

The *touching token* is forgotten at a blank, so the second text is read as if it stood alone
(`Token.ofLexemes_append_blank`).

The *position* is carried on, in bytes, and appears in errors.  An error of the second text is
shifted by the bytes before it (`Token.ofLexemes_add`).  One error is found later than at the
position that it names, that of a constant in front of an opening parenthesis.  It is shifted in
the same way because the constant, which is all that is counted back over, stands in the second
text as well.

Nothing is read from blanks themselves, and so a text is read as it is without blanks at its end
(`tokenize_append_of_isBlank`).
-/

namespace Calculator

/-- The same error in a text that stands some bytes further on. -/
def LexicalError.shift (bytes : Nat) : LexicalError → LexicalError
  | unexpected character position => unexpected character (position + bytes)
  | unknownName name position => unknownName name (position + bytes)
  | missingSeparator position => missingSeparator (position + bytes)
  | constantCall constant position => constantCall constant (position + bytes)
  | literalTooLarge literal => literalTooLarge literal

/-! ## The cut -/

namespace Lexeme

/-- A test that fails at the head of two texts fails at the head of both together. -/
theorem head_append {p : Char → Bool} {cs ds : List Char} (first : ∀ c ∈ cs.head?, p c = false)
    (second : ∀ c ∈ ds.head?, p c = false) : ∀ c ∈ (cs ++ ds).head?, p c = false := by
  cases cs with
  | nil => exact second
  | cons d cs => exact first

/-- What does not go on with a lexeme does not do so when something follows that goes on with no
name. -/
theorem Stops.append {lexeme : Lexeme} {rest after : List Char} (stops : lexeme.Stops rest)
    (closed : Closed after) : lexeme.Stops (rest ++ after) := by
  cases lexeme with
  | blank c => trivial
  | mark c => trivial
  | integer digits =>
    refine ⟨head_append stops.1 closed.noDigit, ?_⟩
    intro more same
    cases rest with
    | nil =>
      rw [List.nil_append] at same
      subst same
      exact absurd (closed ',' rfl) (by decide)
    | cons c rest =>
      obtain ⟨rfl, rfl⟩ := List.cons_eq_cons.mp same
      exact head_append (stops.2 rest rfl) closed.noDigit
  | real whole fraction => exact head_append stops closed.noDigit
  | name cs => exact head_append stops closed

/-- **A text is cut as if it stood alone** when something follows that goes on with no name. -/
theorem lexemes_append_of_closed {after : List Char} (closed : Closed after) (cs : List Char) :
    lexemes (cs ++ after) = lexemes cs ++ lexemes after := by
  induction cs using cut_induction with
  | nil => simp
  | cons lexeme rest proper cut ih =>
    have stops := (lexemes_append_iff proper).mp cut
    rw [List.append_assoc, (lexemes_append_iff proper).mpr (stops.append closed), ih, cut,
      List.cons_append]

/-- Blanks are cut one by one. -/
theorem lexemes_blanks {gap : List Char} (blank : ∀ c ∈ gap, isBlank c = true)
    (rest : List Char) : lexemes (gap ++ rest) = gap.map .blank ++ lexemes rest := by
  induction gap with
  | nil => rfl
  | cons c gap ih =>
    rw [List.forall_mem_cons] at blank
    rw [List.cons_append, List.map_cons, List.cons_append, ← ih blank.2]
    exact lexemes_append (.blank blank.1) (.inl rfl)

end Lexeme

namespace Token

/-! ## The touching token -/

/-- A blank is passed over, and nothing touches what stands behind it. -/
theorem ofLexemes_blank (touching : Option Token) (position : Nat) (c : Char)
    (after : List Lexeme) :
    ofLexemes touching position (.blank c :: after) =
      ofLexemes none (position + c.utf8Size) after := by
  show ofLexemes none (position + (String.ofList [c]).utf8ByteSize) after = _
  rw [← String.singleton_eq_ofList, String.utf8ByteSize_singleton]

/-- **Behind a blank reading begins anew**, at the position where it has come to. -/
theorem ofLexemes_append_blank (touching : Option Token) (position : Nat)
    (before after : List Lexeme) (c : Char) :
    ofLexemes touching position (before ++ .blank c :: after) = (do
      let ts ← ofLexemes touching position before
      let us ← ofLexemes none
        (position + (String.ofList (before.flatMap Lexeme.text)).utf8ByteSize + c.utf8Size) after
      pure (ts ++ us)) := by
  induction before generalizing touching position with
  | nil =>
    rw [List.nil_append, ofLexemes_blank, List.flatMap_nil, String.ofList_nil,
      String.utf8ByteSize_empty, Nat.add_zero]
    cases ofLexemes none (position + c.utf8Size) after <;> rfl
  | cons lexeme before ih =>
    rw [List.cons_append, ofLexemes, ofLexemes, List.flatMap_cons, String.ofList_append,
      String.utf8ByteSize_append, ← Nat.add_assoc]
    cases ofLexeme? position lexeme with
    | error e => rfl
    | ok token =>
      cases token with
      | none => exact ih none _
      | some t =>
        dsimp only
        cases touching.bind fun b => refusal? b t position with
        | some e => rfl
        | none =>
          dsimp only
          rw [ih]
          cases ofLexemes (some t) (position + (String.ofList lexeme.text).utf8ByteSize) before with
          | error e => rfl
          | ok ts =>
            cases ofLexemes none (position + (String.ofList lexeme.text).utf8ByteSize +
              (String.ofList (before.flatMap Lexeme.text)).utf8ByteSize + c.utf8Size) after <;> rfl

/-- Blanks are passed over. -/
theorem ofLexemes_blanks (position : Nat) (gap : List Char) (after : List Lexeme) :
    ofLexemes none position (gap.map .blank ++ after) =
      ofLexemes none (position + (String.ofList gap).utf8ByteSize) after := by
  induction gap generalizing position with
  | nil => simp
  | cons c gap ih =>
    rw [List.map_cons, List.cons_append, ofLexemes_blank, ih, String.ofList_cons,
      String.utf8ByteSize_append, String.utf8ByteSize_singleton, Nat.add_assoc]

/-! ## Positions -/

/-- A lexeme that cannot be read is found further on in a text that stands further on. -/
theorem ofLexeme?_add (bytes position : Nat) (lexeme : Lexeme) :
    ofLexeme? (position + bytes) lexeme =
      (ofLexeme? position lexeme).mapError (LexicalError.shift bytes) := by
  cases lexeme with
  | blank c => rfl
  | mark c =>
    simp only [ofLexeme?]
    cases ofSymbol? c <;> rfl
  | integer digits =>
    simp only [ofLexeme?, ofInteger]
    split <;> rfl
  | real whole fraction => rfl
  | name cs =>
    simp only [ofLexeme?]
    cases ofWord? (String.ofList cs) <;> rfl

/-- What is wrong about touching tokens is found further on as well, as long as there is room
for the first one. -/
theorem refusal?_add (bytes : Nat) {position : Nat} {before after : Token}
    (room : ∀ c, before = constant c → c.name.utf8ByteSize ≤ position) :
    refusal? before after (position + bytes) =
      (refusal? before after position).map (LexicalError.shift bytes) := by
  unfold refusal?
  split
  · split <;> rfl
  · next c =>
    have size := room c rfl
    simp only [Option.map_some, LexicalError.shift]
    rw [Nat.sub_add_comm size]
  · rfl

/-- A constant is as long as its name. -/
theorem utf8ByteSize_of_constant {position : Nat} {lexeme : Lexeme} {c : Constant}
    (stands : ofLexeme? position lexeme = .ok (some (constant c))) :
    (String.ofList lexeme.text).utf8ByteSize = c.name.utf8ByteSize := by
  cases lexeme with
  | blank d => cases stands
  | mark d => cases Lexeme.isSingle_of_ofLexeme? stands
  | integer digits =>
    obtain ⟨n, same, -⟩ := ofLexeme?_integer_eq_ok_iff.mp stands
    cases same
  | real whole fraction => cases stands
  | name cs =>
    have name := text_of_ofWord? (ofLexeme?_name_eq_ok_iff.mp stands)
    rw [Lexeme.text, ← name]
    rfl

/-- **Further on in a text the same is read**, and an error is shifted. -/
theorem ofLexemes_add (bytes : Nat) {touching : Option Token} {position : Nat}
    (room : ∀ c, touching = some (constant c) → c.name.utf8ByteSize ≤ position)
    (lexemes : List Lexeme) :
    ofLexemes touching (position + bytes) lexemes =
      (ofLexemes touching position lexemes).mapError (LexicalError.shift bytes) := by
  induction lexemes generalizing touching position with
  | nil => rfl
  | cons lexeme rest ih =>
    rw [ofLexemes, ofLexemes, ofLexeme?_add, Nat.add_right_comm]
    cases stands : ofLexeme? position lexeme with
    | error e => rfl
    | ok token =>
      cases token with
      | none => exact ih fun c touches => by cases touches
      | some t =>
        have refused : (touching.bind fun b => refusal? b t (position + bytes)) =
            (touching.bind fun b => refusal? b t position).map (LexicalError.shift bytes) := by
          cases touching with
          | none => rfl
          | some b =>
            exact refusal?_add bytes fun c same => room c (congrArg some same)
        rw [mapError_ok]
        dsimp only
        rw [refused]
        cases touching.bind fun b => refusal? b t position with
        | some e => rfl
        | none =>
          have next : ∀ c, some t = some (constant c) →
              c.name.utf8ByteSize ≤ position + (String.ofList lexeme.text).utf8ByteSize := by
            rintro c ⟨⟩
            rw [utf8ByteSize_of_constant stands]
            exact Nat.le_add_left _ _
          simp only [Option.map_none]
          rw [ih next]
          cases ofLexemes (some t) (position + (String.ofList lexeme.text).utf8ByteSize) rest <;>
            rfl

/-- Blanks at the end make no difference, not even to an error. -/
theorem ofLexemes_append_blanks (touching : Option Token) (position : Nat)
    (before : List Lexeme) (gap : List Char) :
    ofLexemes touching position (before ++ gap.map .blank) =
      ofLexemes touching position before := by
  cases gap with
  | nil => rw [List.map_nil, List.append_nil]
  | cons c gap =>
    have nothing (position : Nat) : ofLexemes none position (gap.map .blank) = .ok [] := by
      have passed := ofLexemes_blanks position gap []
      rwa [List.append_nil] at passed
    rw [List.map_cons, ofLexemes_append_blank, nothing]
    cases ofLexemes touching position before with
    | error e => rfl
    | ok ts =>
      show Except.ok (ts ++ []) = Except.ok ts
      rw [List.append_nil]

end Token

/-- **Blanks at the end of a text are not read.** -/
theorem tokenize_append_of_isBlank {text gap : String}
    (blank : ∀ c ∈ gap.toList, isBlank c = true) : tokenize (text ++ gap) = tokenize text := by
  have closed : Lexeme.Closed gap.toList := by
    intro c first
    rw [Lexeme.isNamePart, blank c (List.mem_of_mem_head? first)]
    rfl
  have cut : Lexeme.lexemes gap.toList = gap.toList.map .blank := by
    have blanks := Lexeme.lexemes_blanks blank []
    rwa [List.append_nil, Lexeme.lexemes_nil, List.append_nil] at blanks
  rw [tokenize, String.toList_append, Lexeme.lexemes_append_of_closed closed, cut,
    Token.ofLexemes_append_blanks]
  rfl

/-- **Texts with blanks between them are read one after the other.** -/
theorem tokenize_append_blanks {a gap b : String} (nonempty : gap ≠ "")
    (blank : ∀ c ∈ gap.toList, isBlank c = true) :
    tokenize (a ++ gap ++ b) = (do
      let ts ← tokenize a
      let us ← (tokenize b).mapError (LexicalError.shift (a ++ gap).utf8ByteSize)
      pure (ts ++ us)) := by
  obtain ⟨c, cs, characters⟩ : ∃ c cs, gap.toList = c :: cs :=
    List.exists_cons_of_ne_nil fun empty => nonempty (String.toList_eq_nil_iff.mp empty)
  rw [characters, List.forall_mem_cons] at blank
  have cut : Lexeme.lexemes (a ++ gap ++ b).toList =
      Lexeme.lexemes a.toList ++ .blank c :: (cs.map .blank ++ Lexeme.lexemes b.toList) := by
    rw [String.toList_append, String.toList_append, characters, List.append_assoc,
      List.cons_append, Lexeme.lexemes_append_of_closed (Lexeme.closed_of_isBlank blank.1 _),
      ← Lexeme.lexemes_blanks blank.2]
    congr 1
    exact Lexeme.lexemes_append (.blank blank.1) (.inl rfl)
  have bytes : 0 + a.utf8ByteSize + c.utf8Size + (String.ofList cs).utf8ByteSize =
      0 + (a ++ gap).utf8ByteSize := by
    rw [← gap.ofList_toList, characters, String.ofList_cons, String.utf8ByteSize_append,
      String.utf8ByteSize_append, String.utf8ByteSize_singleton]
    omega
  have later : Token.ofLexemes none (0 + (a ++ gap).utf8ByteSize) (Lexeme.lexemes b.toList) =
      (tokenize b).mapError (LexicalError.shift (a ++ gap).utf8ByteSize) :=
    Token.ofLexemes_add _ (by nofun) _
  rw [tokenize, cut, Token.ofLexemes_append_blank, Lexeme.flatMap_text_lexemes,
    String.ofList_toList]
  simp only [Token.ofLexemes_blanks, bytes, later]
  rfl

/-- An ideographic space, which has three bytes, and a tabulator in front of a numeral that
touches a name. -/
theorem tokenize_append_blanks_wide :
    "\u3000\t" ≠ "" ∧ (∀ c ∈ "\u3000\t".toList, isBlank c = true) ∧
    tokenize ("sin 1" ++ "\u3000\t" ++ "2pi") = .error (.missingSeparator 10) := by
  have nonempty : "\u3000\t" ≠ "" := by decide
  have blank : ∀ c ∈ "\u3000\t".toList, isBlank c = true := List.all_eq_true.mp (by decide)
  have first : tokenize "sin 1" = .ok [.function .sin, .number (.integer 1)] := by decide +kernel
  have second : tokenize "2pi" = .error (.missingSeparator 1) := by decide +kernel
  have bytes : ("sin 1" ++ "\u3000\t").utf8ByteSize = 9 := by decide
  refine ⟨nonempty, blank, ?_⟩
  rw [tokenize_append_blanks nonempty blank, first, second, bytes]
  rfl

end Calculator
