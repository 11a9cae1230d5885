import Calculator.Proofs.Spelling

/-!
# What a lexical error says about a text

An error of reading names a place, and what stands there is wrong in the way that the error
says, while everything before it can be read by itself.  `LexicalError.HoldsOf` spells this out
for each kind of error, in terms of the text alone.  Reading stops at the first error, so the
place is the leftmost one at which something is wrong.

## Where reading has come to

`SpellsTo cs ts touching` describes a reading in the middle of a text, where it has gone through
the characters `cs` and found the tokens `ts`, and `touching` is the last of them if no blank
follows it.  It is a spelling that grows at its end, and it goes on with any spelling of the rest
(`SpellsTo.append`).  So what is read is a readable text by itself, and it is never asked how it
would be cut without its continuation.

## What follows a lexeme

That a word or a run of digits is as long as it can be is `Lexeme.Stops`, which the cut of a text
guarantees for each lexeme and for what stands behind it.  The same fact keeps a digit that begins
a lexeme apart from a digit in front of it (`SpellsTo.isDigit_getLast?`), so that the numeral of an
error is the whole run of digits in that place.
-/

namespace Calculator

/-! ## Errors as statements about a text -/

/-- A text that can be read. -/
def Readable (text : String) : Prop := ∃ ts, tokenize text = .ok ts

/-- A word, and no character behind it that goes on with it.  It begins with a character that is
no blank, symbol, comma or digit, and goes on to the next blank or symbol. -/
def WordBefore (word after : String) : Prop :=
  (Lexeme.name word.toList).Proper ∧ (Lexeme.name word.toList).Stops after.toList

/-- A run of digits, and no digit in front of it, no digit behind it and no comma with a digit
behind it. -/
def DigitsBetween (before digits after : String) : Prop :=
  (∀ c ∈ before.toList.getLast?, c.isDigit = false) ∧
    (Lexeme.integer digits.toList).Proper ∧ (Lexeme.integer digits.toList).Stops after.toList

/-- What an error says about a text. -/
def LexicalError.HoldsOf (text : String) : LexicalError → Prop
  | unexpected character position =>
    ∃ before after, text = before ++ "," ++ after ∧ before.utf8ByteSize = position ∧
      Readable before ∧ character = ','
  | unknownName name position =>
    ∃ before after, text = before ++ name ++ after ∧ before.utf8ByteSize = position ∧
      Readable before ∧ WordBefore name after ∧ ∀ w ∈ words, w.1 ≠ name
  | missingSeparator position =>
    ∃ before numeral name after ts n, text = before ++ numeral ++ name ++ after ∧
      (before ++ numeral).utf8ByteSize = position ∧
      tokenize before = .ok ts ∧ LexemeOf numeral.toList (.number n) ∧
      tokenize (before ++ numeral) = .ok (ts ++ [.number n]) ∧
      WordBefore name after ∧ ∃ w ∈ words, w.1 = name
  | constantCall constant position =>
    ∃ before after, text = before ++ constant.name ++ "(" ++ after ∧
      before.utf8ByteSize = position ∧ Readable before
  | literalTooLarge literal =>
    ∃ before after, text = before ++ literal ++ after ∧ Readable before ∧
      DigitsBetween before literal after ∧
      Int64.maxValue.toInt < Nat.ofDigitChars 10 literal.toList 0

/-! ## Where reading has come to -/

/-- Some characters spell some tokens up to their end, and the last token touches what follows
unless there are blanks behind it. -/
inductive SpellsTo : List Char → List Token → Option Token → Prop
  | nil : SpellsTo [] [] none
  | blank {cs : List Char} {ts : List Token} {touching : Option Token} {c : Char} :
      SpellsTo cs ts touching → isBlank c = true → SpellsTo (cs ++ [c]) ts none
  | token {cs xs : List Char} {ts : List Token} {touching : Option Token} {t : Token} :
      SpellsTo cs ts touching → LexemeOf xs t → (∀ before ∈ touching, MayTouch before t) →
      SpellsTo (cs ++ xs) (ts ++ [t]) (some t)

section

variable {done cs rest : List Char} {ts : List Token} {touching : Option Token} {t : Token}
  {lexeme : Lexeme} {position : Nat} {e : LexicalError}

/-- A spelling goes on with a spelling of the rest. -/
theorem SpellsTo.append {us : List Token} (spells : SpellsTo done ts touching)
    (rest : SpellsAfter touching cs us) : SpellsAfter none (done ++ cs) (ts ++ us) := by
  induction spells generalizing cs us with
  | nil => exact rest
  | blank _ blank ih =>
    rw [List.append_assoc]
    exact ih (.blank blank rest)
  | token _ lexeme may ih =>
    rw [List.append_assoc, List.append_assoc]
    exact ih (.token lexeme may rest)

/-- What has been read so far is a text with the tokens found so far. -/
theorem SpellsTo.tokenize (spells : SpellsTo done ts touching) :
    tokenize (String.ofList done) = .ok ts := by
  have whole := spells.append .nil
  rw [List.append_nil, List.append_nil] at whole
  rw [tokenize_eq_ok_iff_spellsAfter, String.toList_ofList]
  exact whole

theorem SpellsTo.readable (spells : SpellsTo done ts touching) :
    Readable (String.ofList done) :=
  ⟨ts, spells.tokenize⟩

/-! ## What follows a lexeme -/

/-- No digit stands in front of a digit with which a lexeme begins. -/
theorem SpellsTo.isDigit_getLast? (spells : SpellsTo done ts touching)
    (apart : Apart touching cs) (digit : ¬ Lexeme.NoDigit cs) :
    ∀ c ∈ done.getLast?, c.isDigit = false := by
  intro c last
  cases spells with
  | nil => cases last
  | blank _ blank =>
    rw [List.getLast?_concat] at last
    cases last
    refine Bool.eq_false_iff.mpr fun isDigit => ?_
    rw [isBlank_of_isDigit isDigit] at blank
    cases blank
  | @token _ _ _ _ t _ written _ =>
    have symbol : t.isSymbol = true :=
      (apart t rfl).resolve_right fun behind => digit behind.1
    cases written with
    | integer => cases symbol
    | real => cases symbol
    | symbol member =>
      rw [List.getLast?_concat] at last
      cases last
      exact (Token.isBlank_of_ofSymbol? (Token.ofSymbol?_eq_some_iff.mpr member)).2
    | name member =>
      rw [Token.isSymbol_of_mem_words _ member] at symbol
      cases symbol

/-! ## Lexemes that cannot be read -/

/-- An integer numeral cannot be read exactly when it denotes too much. -/
theorem Token.ofInteger_eq_error_iff {digits : List Char} :
    ofInteger digits = .error e ↔ Int64.maxValue.toInt < Nat.ofDigitChars 10 digits 0 ∧
      e = .literalTooLarge (String.ofList digits) := by
  have greatest : Int64.maxValue.toInt = 9223372036854775807 := rfl
  unfold ofInteger
  dsimp only
  split
  · exact iff_of_false nofun fun h => by omega
  · constructor
    · rintro ⟨⟩
      exact ⟨by omega, rfl⟩
    · rintro ⟨-, rfl⟩
      rfl

/-- **An error about a lexeme by itself holds** of the text in which it stands. -/
theorem holdsOf_of_ofLexeme? (spells : SpellsTo done ts touching)
    (apart : Apart touching (lexeme.text ++ rest)) (proper : lexeme.Proper)
    (stops : lexeme.Stops rest)
    (failed : Token.ofLexeme? (String.ofList done).utf8ByteSize lexeme = .error e) :
    e.HoldsOf (String.ofList (done ++ (lexeme.text ++ rest))) := by
  cases proper with
  | blank => cases failed
  | @mark c mark =>
    simp only [Token.ofLexeme?] at failed
    split at failed
    · cases failed
    · next unknown =>
      cases failed
      have comma : c = ',' := by simpa [Lexeme.isMark, unknown] using mark
      subst comma
      refine ⟨String.ofList done, String.ofList rest, ?_, ?_, spells.readable, rfl⟩
      · simp [Lexeme.text, String.ofList_append, String.append_assoc]
      · rfl
  | @integer first others digit digits =>
    rw [Token.ofLexeme?, map_eq_error_iff, Token.ofInteger_eq_error_iff] at failed
    obtain ⟨large, rfl⟩ := failed
    have starts : ¬ Lexeme.NoDigit (first :: others ++ rest) := by
      intro none
      exact Bool.false_ne_true ((none first rfl).symm.trans digit)
    refine ⟨String.ofList done, String.ofList rest, ?_, spells.readable, ⟨?_, ?_, ?_⟩, ?_⟩
    · simp [Lexeme.text, String.ofList_append, String.append_assoc]
    · rw [String.toList_ofList]
      exact spells.isDigit_getLast? apart starts
    · rw [String.toList_ofList]
      exact .integer digit digits
    · rwa [String.toList_ofList, String.toList_ofList]
    · rwa [String.toList_ofList]
  | real => cases failed
  | @name first others noBlank noMark noDigit parts =>
    simp only [Token.ofLexeme?] at failed
    split at failed
    · cases failed
    · next unknown =>
      cases failed
      refine ⟨String.ofList done, String.ofList rest, ?_, ?_, spells.readable, ⟨?_, ?_⟩, ?_⟩
      · simp [Lexeme.text, String.ofList_append, String.append_assoc]
      · rfl
      · rw [String.toList_ofList]
        exact .name noBlank noMark noDigit parts
      · rwa [String.toList_ofList, String.toList_ofList]
      · rintro w member same
        rw [← same, Token.ofWord?_eq_some_iff.mpr member] at unknown
        cases unknown

/-! ## Tokens that must not touch -/

/-- The lexeme of a constant is its name. -/
theorem LexemeOf.eq_name {xs : List Char} {c : Constant} (written : LexemeOf xs (.constant c)) :
    xs = c.name.toList := by
  cases written with
  | symbol member => cases Token.isSymbol_of_mem_symbols _ member
  | name member =>
    have found := Token.text_of_ofWord? (Token.ofWord?_eq_some_iff.mpr member)
    exact congrArg String.toList found.symm

/-- The lexeme of an opening parenthesis is one. -/
theorem LexemeOf.eq_opening {xs : List Char} (written : LexemeOf xs .opening) : xs = ['('] := by
  cases written with
  | symbol member =>
    simp [symbols] at member
    rw [member]
  | name member => cases Token.isSymbol_of_mem_words _ member

/-- A constant that touches an opening parenthesis stands where the error says. -/
theorem holdsOf_constantCall {c : Constant} (spells : SpellsTo done ts (some (.constant c))) :
    (LexicalError.constantCall c ((String.ofList done).utf8ByteSize - c.name.utf8ByteSize)).HoldsOf
      (String.ofList (done ++ '(' :: rest)) := by
  cases spells with
  | @token init _ _ _ _ spells written _ =>
    obtain rfl := written.eq_name
    refine ⟨String.ofList init, String.ofList rest, ?_, ?_, spells.readable⟩
    · simp [String.ofList_append, String.append_assoc]
    · simp

/-- A word that touches a number stands where the error says. -/
theorem holdsOf_missingSeparator {n : Number} {cs : List Char}
    (spells : SpellsTo done ts (some (.number n))) (proper : (Lexeme.name cs).Proper)
    (stops : (Lexeme.name cs).Stops rest)
    (stands : Token.ofLexeme? position (.name cs) = .ok (some t)) :
    (LexicalError.missingSeparator (String.ofList done).utf8ByteSize).HoldsOf
      (String.ofList (done ++ (cs ++ rest))) := by
  have whole := spells.tokenize
  have known := Token.ofWord?_eq_some_iff.mp (Token.ofLexeme?_name_eq_ok_iff.mp stands)
  cases spells with
  | @token init xs us _ _ spells written _ =>
    refine ⟨String.ofList init, String.ofList xs, String.ofList cs, String.ofList rest, us, n,
      ?_, ?_, spells.tokenize, ?_, ?_, ⟨?_, ?_⟩, ⟨_, known, rfl⟩⟩
    · simp [String.ofList_append, String.append_assoc]
    · simp
    · rwa [String.toList_ofList]
    · rwa [← String.ofList_append]
    · rwa [String.toList_ofList]
    · rwa [String.toList_ofList, String.toList_ofList]

/-- **An error about two tokens that touch holds** of the text in which they stand. -/
theorem holdsOf_of_refusal? {before : Token} (spells : SpellsTo done ts (some before))
    (apart : Apart (some before) (lexeme.text ++ rest)) (proper : lexeme.Proper)
    (stops : lexeme.Stops rest) (stands : Token.ofLexeme? position lexeme = .ok (some t))
    (refused : Token.refusal? before t (String.ofList done).utf8ByteSize = some e) :
    e.HoldsOf (String.ofList (done ++ (lexeme.text ++ rest))) := by
  unfold Token.refusal? at refused
  split at refused
  · -- a number, which is refused in front of a word
    split at refused
    · next word =>
      cases refused
      have noSymbol := Token.isSymbol_of_isWord word
      obtain ⟨-, cs, rfl⟩ := number_and_name_of_apart apart proper stands rfl noSymbol
      exact holdsOf_missingSeparator spells proper stops stands
    · cases refused
  · -- a constant in front of an opening parenthesis
    cases refused
    rw [(proper.lexemeOf stands).eq_opening]
    exact holdsOf_constantCall spells
  · cases refused

/-! ## Whole texts -/

/-- **One step of reading that fails.**  A lexeme cannot be read, or reading fails behind a blank
character, or a lexeme stands for a token that must not touch the one before, or reading fails
behind it. -/
theorem Token.ofLexemes_cons_eq_error_iff {rest : List Lexeme} :
    ofLexemes touching position (lexeme :: rest) = .error e ↔
      ofLexeme? position lexeme = .error e ∨
      (ofLexeme? position lexeme = .ok none ∧
        ofLexemes none (position + (String.ofList lexeme.text).utf8ByteSize) rest = .error e) ∨
      ∃ t, ofLexeme? position lexeme = .ok (some t) ∧
        ((∃ before ∈ touching, refusal? before t position = some e) ∨
          (∀ before ∈ touching, refusal? before t position = none) ∧
            ofLexemes (some t) (position + (String.ofList lexeme.text).utf8ByteSize) rest =
              .error e) := by
  rw [ofLexemes]
  cases ofLexeme? position lexeme with
  | error e => simp
  | ok token =>
    cases token with
    | none => simp
    | some t =>
      have refusal : (touching.bind fun before => refusal? before t position) = some e ↔
          ∃ before ∈ touching, refusal? before t position = some e := by
        simp only [Option.bind_eq_some_iff, Option.mem_def]
      have acceptance : (touching.bind fun before => refusal? before t position) = none ↔
          ∀ before ∈ touching, refusal? before t position = none := Option.bind_eq_none_iff
      simp only [reduceCtorEq, false_and, false_or, Except.ok.injEq, Option.some.injEq,
        exists_eq_left', ← refusal, ← acceptance]
      cases touching.bind fun before => refusal? before t position <;> simp

/-- **Every error of the rest of a text holds of the text.** -/
theorem holdsOf_of_ofLexemes (spells : SpellsTo done ts touching) (apart : Apart touching cs)
    (failed : Token.ofLexemes touching (String.ofList done).utf8ByteSize (Lexeme.lexemes cs) =
      .error e) :
    e.HoldsOf (String.ofList (done ++ cs)) := by
  induction cs using Lexeme.cut_induction generalizing done ts touching with
  | nil =>
    rw [Lexeme.lexemes_nil] at failed
    cases failed
  | cons lexeme rest proper cut ih =>
    have stops := (Lexeme.lexemes_append_iff proper).mp cut
    rw [cut] at failed
    rcases Token.ofLexemes_cons_eq_error_iff.mp failed with
      unread | ⟨nothing, failed⟩ | ⟨t, stands, ⟨before, touches, refused⟩ | ⟨accepted, failed⟩⟩
    · exact holdsOf_of_ofLexeme? spells apart proper stops unread
    · obtain ⟨c, rfl⟩ := Token.ofLexeme?_eq_ok_none_iff.mp nothing
      cases proper with
      | blank blank =>
        rw [← String.utf8ByteSize_append, ← String.ofList_append] at failed
        have behind := ih (spells.blank blank) nofun failed
        rwa [List.append_assoc] at behind
    · cases touches
      exact holdsOf_of_refusal? spells apart proper stops stands refused
    · rw [← String.utf8ByteSize_append, ← String.ofList_append] at failed
      have may := mayTouch_of_refusal?_eq_none apart proper stands accepted
      have behind := ih (spells.token (proper.lexemeOf stands) may)
        (apart_of_stops stands stops) failed
      rwa [List.append_assoc] at behind

end

/-- **What an error says about a text is true.** -/
theorem holdsOf_of_tokenize {text : String} {e : LexicalError}
    (failed : tokenize text = .error e) : e.HoldsOf text := by
  have holds := holdsOf_of_ofLexemes .nil nofun failed
  rwa [List.nil_append, String.ofList_toList] at holds

/-- One text for each kind of error.  In the first one the word is also too close to the number
in front of it, and in the fourth one the position is that of the constant. -/
theorem holdsOf_of_tokenize_kinds :
    (tokenize "tan \u3000 2x" = .error (.unknownName "x" 9) ∧
      (LexicalError.unknownName "x" 9).HoldsOf "tan \u3000 2x") ∧
    (tokenize "7 mod 1,e" = .error (.unexpected ',' 7) ∧
      (LexicalError.unexpected ',' 7).HoldsOf "7 mod 1,e") ∧
    (tokenize "(2 + 07log_base 2)" = .error (.missingSeparator 7) ∧
      (LexicalError.missingSeparator 7).HoldsOf "(2 + 07log_base 2)") ∧
    (tokenize "2 *pi(3)" = .error (.constantCall .pi 3) ∧
      (LexicalError.constantCall .pi 3).HoldsOf "2 *pi(3)") ∧
    (tokenize "-9223372036854775808," = .error (.literalTooLarge "9223372036854775808") ∧
      (LexicalError.literalTooLarge "9223372036854775808").HoldsOf
        "-9223372036854775808,") := by
  have word : tokenize "tan \u3000 2x" = .error (.unknownName "x" 9) := by decide +kernel
  have comma : tokenize "7 mod 1,e" = .error (.unexpected ',' 7) := by decide +kernel
  have separator : tokenize "(2 + 07log_base 2)" = .error (.missingSeparator 7) := by decide +kernel
  have call : tokenize "2 *pi(3)" = .error (.constantCall .pi 3) := by decide +kernel
  have large : tokenize "-9223372036854775808," =
      .error (.literalTooLarge "9223372036854775808") := by decide +kernel
  exact ⟨⟨word, holdsOf_of_tokenize word⟩, ⟨comma, holdsOf_of_tokenize comma⟩,
    ⟨separator, holdsOf_of_tokenize separator⟩, ⟨call, holdsOf_of_tokenize call⟩,
    ⟨large, holdsOf_of_tokenize large⟩⟩

end Calculator
