import Calculator.Proofs.Binary64.Nearest
import Calculator.Proofs.Lexemes
import Calculator.Proofs.Results
import Mathlib.Data.List.Chain

/-!
# How tokens are spelled

A grammar for the texts of a sequence of tokens.  A text is a row of lexemes with blanks
around them.  `LexemeOf xs t` says that the characters `xs` are a lexeme of the token `t`, and
`Spells cs ts` that the characters `cs` are made up of lexemes of the tokens `ts` and of
blanks, where two lexemes without a blank between them belong to tokens that may touch
(`MayTouch`).

Nothing here says how a text is cut.  That a numeral is as long as it can be, that a comma
belongs to it only before another digit, and that a name goes on over digits and commas: all
this follows, because a lexeme that could be longer would touch a token that it may not touch.

## Reading finds the spelling

Each lexeme of a token is a proper lexeme that stands for it, and the other way round
(`LexemeOf.exists_lexeme`, `Lexeme.Proper.lexemeOf`).  `SpellsAfter` is a spelling taken from
left to right, which is the way a text is read.

What reading refuses of two tokens that touch is less than what a spelling does: a number in
front of a word, and a constant in front of a parenthesis.  But the cut leaves nothing else to
refuse.  Behind a lexeme stands something that does not go on with it (`Apart`), so that no digit
touches a number or a word, and no word a word (`mayTouch_of_refusal?_eq_none`).  So the cut of a
text that can be read is a spelling (`spellsAfter_of_ofLexemes`).  For the other direction it has
to be seen that the cut finds the lexemes of a spelling: each is followed by something that cannot
go on with it, unless it is a symbol (`SpellsAfter.closed`).
-/

namespace Calculator

/-- The symbols, each with its token. -/
def symbols : List (Char × Token) :=
  [('+', .operator .add), ('-', .operator .sub), ('*', .operator .mul), ('/', .operator .div),
    ('^', .operator .pow), ('(', .opening), (')', .closing)]

/-- The words, each with its token. -/
def words : List (String × Token) :=
  [("pi", .constant .pi), ("e", .constant .e), ("sin", .function .sin), ("cos", .function .cos),
    ("tan", .function .tan), ("arcsin", .function .arcsin), ("arccos", .function .arccos),
    ("arctan", .function .arctan), ("sroot", .function .squareRoot), ("ln", .function .ln),
    ("abs", .function .abs), ("mod", .operator .mod), ("log_base", .operator .logBase),
    ("yth_root", .operator .root)]

/-- Some characters are a lexeme of a token.  The value of a numeral with a comma is the double
nearest to the fraction that it denotes. -/
inductive LexemeOf : List Char → Token → Prop
  | integer {digits : List Char} {n : Int64} : digits ≠ [] →
      (∀ c ∈ digits, c.isDigit = true) → n.toInt = Nat.ofDigitChars 10 digits 0 →
      LexemeOf digits (.number (.integer n))
  | real {whole fraction : List Char} {code : Nat} : whole ≠ [] → fraction ≠ [] →
      (∀ c ∈ whole, c.isDigit = true) → (∀ c ∈ fraction, c.isDigit = true) →
      Binary64.IsNearest (Nat.ofDigitChars 10 (whole ++ fraction) 0)
        (Nat.pow 10 fraction.length) code →
      LexemeOf (whole ++ ',' :: fraction) (.number (.real (Binary64.ofCode false code)))
  | symbol {c : Char} {t : Token} : (c, t) ∈ symbols → LexemeOf [c] t
  | name {word : String} {t : Token} : (word, t) ∈ words → LexemeOf word.toList t

/-- Whether a token is written as a symbol. -/
def Token.isSymbol : Token → Bool
  | operator o => !o.isWord
  | opening | closing => true
  | number _ | constant _ | function _ => false

/-- Two tokens may stand next to each other without a blank between them: one of them is a
symbol, and the two are not a constant with an opening parenthesis. -/
def MayTouch (before after : Token) : Prop :=
  (before.isSymbol = true ∨ after.isSymbol = true) ∧
    ¬ ((∃ c, before = .constant c) ∧ after = .opening)

/-- A token in a text, with its lexeme and the blanks behind it. -/
structure Piece where
  lexeme : List Char
  token : Token
  gap : List Char

/-- The characters of a piece. -/
def Piece.text (p : Piece) : List Char := p.lexeme ++ p.gap

/-- Some characters are blanks, and then lexemes of some tokens, each with blanks behind it;
where there is no blank between two lexemes, their tokens may touch. -/
def Spells (cs : List Char) (ts : List Token) : Prop :=
  ∃ (start : List Char) (pieces : List Piece),
    cs = start ++ pieces.flatMap Piece.text ∧ ts = pieces.map Piece.token ∧
    (∀ c ∈ start, isBlank c = true) ∧
    (∀ p ∈ pieces, LexemeOf p.lexeme p.token ∧ ∀ c ∈ p.gap, isBlank c = true) ∧
    pieces.IsChain fun p q => p.gap = [] → MayTouch p.token q.token

/-! ## Lexemes of tokens are lexemes of the cut -/

namespace Token

/-- Reading an integer numeral gives the integer that it denotes, and gives it exactly when
that is one. -/
theorem ofInteger_eq_ok_iff {digits : List Char} {t : Token} :
    ofInteger digits = .ok t ↔
      ∃ n : Int64, t = number (.integer n) ∧ n.toInt = Nat.ofDigitChars 10 digits 0 := by
  unfold ofInteger
  dsimp only
  generalize Nat.ofDigitChars 10 digits 0 = value
  split
  case isTrue small =>
    have same : (Int64.ofNat value).toInt = value :=
      Int64.toInt_ofNat_of_lt small
    constructor
    · rintro ⟨⟩
      exact ⟨_, rfl, same⟩
    · rintro ⟨n, rfl, denotes⟩
      rw [Int64.toInt_inj.mp (same.trans denotes.symm)]
  case isFalse large =>
    refine iff_of_false (fun h => by cases h) ?_
    rintro ⟨n, -, denotes⟩
    have := n.toInt_lt
    omega

/-- Reading a numeral with a comma gives the double nearest to what it denotes. -/
theorem ofReal_eq_iff {whole fraction : List Char} {t : Token} :
    ofReal whole fraction = t ↔
      ∃ code, t = number (.real (Binary64.ofCode false code)) ∧
        Binary64.IsNearest (Nat.ofDigitChars 10 (whole ++ fraction) 0)
          (Nat.pow 10 fraction.length) code := by
  have positive : 0 < Nat.pow 10 fraction.length := Nat.pow_pos (by decide)
  simp only [Binary64.isNearest_iff positive]
  exact ⟨fun h => ⟨_, h.symm, rfl⟩, by rintro ⟨code, rfl, rfl⟩; rfl⟩

/-- An integer numeral stands for the integer that it denotes. -/
theorem ofLexeme?_integer_eq_ok_iff {position : Nat} {digits : List Char} {t : Token} :
    ofLexeme? position (.integer digits) = .ok (some t) ↔
      ∃ n : Int64, t = number (.integer n) ∧ n.toInt = Nat.ofDigitChars 10 digits 0 := by
  rw [ofLexeme?, map_eq_ok_iff, ← ofInteger_eq_ok_iff]
  simp

/-- A character that stands for itself stands for its symbol. -/
theorem ofLexeme?_mark_eq_ok_iff {position : Nat} {c : Char} {t : Token} :
    ofLexeme? position (.mark c) = .ok (some t) ↔ ofSymbol? c = some t := by
  rw [ofLexeme?]
  cases ofSymbol? c <;> simp

/-- A name stands for the token that is found under it. -/
theorem ofLexeme?_name_eq_ok_iff {position : Nat} {cs : List Char} {t : Token} :
    ofLexeme? position (.name cs) = .ok (some t) ↔ ofWord? (String.ofList cs) = some t := by
  rw [ofLexeme?]
  cases ofWord? (String.ofList cs) <;> simp

/-- The characters that stand for themselves are the symbols. -/
theorem ofSymbol?_eq_some_iff {c : Char} {t : Token} :
    ofSymbol? c = some t ↔ (c, t) ∈ symbols := by
  have own : ∀ s ∈ symbols, ofSymbol? s.1 = some s.2 := by decide
  refine ⟨fun found => ?_, own (c, t)⟩
  unfold ofSymbol? at found
  split at found <;> first | cases found; decide | cases found

/-- The names that are found are the words. -/
theorem ofWord?_eq_some_iff {name : String} {t : Token} :
    ofWord? name = some t ↔ (name, t) ∈ words := by
  have own : ∀ w ∈ words, ofWord? w.1 = some w.2 := by decide
  have listed : ∀ t ∈ vocabulary, (t.text, t) ∈ words := by decide
  refine ⟨fun found => ?_, own (name, t)⟩
  rw [← text_of_ofWord? found]
  exact listed t (List.mem_of_find?_eq_some found)

/-- The tokens of symbols are symbols. -/
theorem isSymbol_of_mem_symbols : ∀ s ∈ symbols, s.2.isSymbol = true := by decide

/-- The tokens of words are not. -/
theorem isSymbol_of_mem_words : ∀ w ∈ words, w.2.isSymbol = false := by decide

/-- The tokens of words are written as names. -/
theorem isWord_of_mem_words : ∀ w ∈ words, w.2.isWord = true := by decide

/-- A token that is written as a name is no symbol. -/
theorem isSymbol_of_isWord {t : Token} (word : t.isWord = true) : t.isSymbol = false := by
  cases t with
  | operator o => simpa [isSymbol, isWord] using word
  | constant _ | function _ => rfl
  | number _ | opening | closing => cases word

/-- A word is a proper name. -/
theorem proper_of_mem_words : ∀ w ∈ words, (Lexeme.name w.1.toList).Proper := by
  simp only [words, List.forall_mem_cons]
  refine ⟨?_, ?_, ?_, ?_, ?_, ?_, ?_, ?_, ?_, ?_, ?_, ?_, ?_, ?_, by simp⟩ <;>
    exact .name (by decide) (by decide) (by decide) (List.all_eq_true.mp (by decide))

end Token

/-- A lexeme of a token is a proper lexeme, which stands for the token wherever it is. -/
theorem LexemeOf.exists_lexeme {xs : List Char} {t : Token} (written : LexemeOf xs t) :
    ∃ lexeme : Lexeme, lexeme.Proper ∧ lexeme.text = xs ∧
      ∀ position, Token.ofLexeme? position lexeme = .ok (some t) := by
  cases written with
  | @integer _ n nonempty digits denotes =>
    obtain ⟨first, others, rfl⟩ := List.exists_cons_of_ne_nil nonempty
    rw [List.forall_mem_cons] at digits
    refine ⟨_, .integer digits.1 digits.2, rfl, fun position => ?_⟩
    rw [Token.ofLexeme?, Token.ofInteger_eq_ok_iff.mpr ⟨n, rfl, denotes⟩]
    rfl
  | real whole fraction digits places near =>
    obtain ⟨first, others, rfl⟩ := List.exists_cons_of_ne_nil whole
    rw [List.forall_mem_cons] at digits
    refine ⟨_, .real digits.1 digits.2 fraction places, rfl, fun position => ?_⟩
    rw [Token.ofLexeme?, Token.ofReal_eq_iff.mpr ⟨_, rfl, near⟩]
  | @symbol c _ member =>
    have found := Token.ofSymbol?_eq_some_iff.mpr member
    refine ⟨.mark c, .mark ?_, rfl, fun position => ?_⟩
    · simp [Lexeme.isMark, found]
    · simp only [Token.ofLexeme?, found]
  | name member =>
    refine ⟨_, Token.proper_of_mem_words _ member, rfl, fun position => ?_⟩
    simp only [Token.ofLexeme?, String.ofList_toList, Token.ofWord?_eq_some_iff.mpr member]

/-- A proper lexeme that stands for a token is a lexeme of it. -/
theorem Lexeme.Proper.lexemeOf {lexeme : Lexeme} {position : Nat} {t : Token}
    (proper : lexeme.Proper) (stands : Token.ofLexeme? position lexeme = .ok (some t)) :
    LexemeOf lexeme.text t := by
  cases proper with
  | blank => cases stands
  | mark =>
    exact .symbol (Token.ofSymbol?_eq_some_iff.mp (Token.ofLexeme?_mark_eq_ok_iff.mp stands))
  | integer digit digits =>
    obtain ⟨n, rfl, denotes⟩ := Token.ofLexeme?_integer_eq_ok_iff.mp stands
    exact .integer (List.cons_ne_nil _ _) (List.forall_mem_cons.mpr ⟨digit, digits⟩) denotes
  | real digit digits nonempty places =>
    simp only [Token.ofLexeme?, Except.ok.injEq, Option.some.injEq] at stands
    obtain ⟨code, rfl, near⟩ := Token.ofReal_eq_iff.mp stands
    exact .real (List.cons_ne_nil _ _) nonempty (List.forall_mem_cons.mpr ⟨digit, digits⟩)
      places near
  | name =>
    have found := Token.ofLexeme?_name_eq_ok_iff.mp stands
    have written := LexemeOf.name (Token.ofWord?_eq_some_iff.mp found)
    rwa [String.toList_ofList] at written

/-- A lexeme that stands for a token is one character by its nature exactly when the token
is a symbol. -/
theorem Lexeme.isSingle_of_ofLexeme? {position : Nat} {lexeme : Lexeme} {t : Token}
    (stands : Token.ofLexeme? position lexeme = .ok (some t)) :
    lexeme.isSingle = t.isSymbol := by
  cases lexeme with
  | blank c => cases stands
  | mark c =>
    have found := Token.ofLexeme?_mark_eq_ok_iff.mp stands
    exact (Token.isSymbol_of_mem_symbols _ (Token.ofSymbol?_eq_some_iff.mp found)).symm
  | integer digits =>
    obtain ⟨n, rfl, -⟩ := Token.ofLexeme?_integer_eq_ok_iff.mp stands
    rfl
  | real whole fraction =>
    cases stands
    rfl
  | name cs =>
    have found := Token.ofLexeme?_name_eq_ok_iff.mp stands
    exact (Token.isSymbol_of_mem_words _ (Token.ofWord?_eq_some_iff.mp found)).symm

/-! ## Tokens of the cut that touch -/

section

variable {rest : List Char} {lexeme : Lexeme} {position : Nat} {before t : Token}

/-- What stands behind a token that touches it does not go on with its lexeme: no digit follows
a number or a word, and no part of a name follows a word. -/
def Apart (touching : Option Token) (cs : List Char) : Prop :=
  ∀ t ∈ touching, t.isSymbol = true ∨
    Lexeme.NoDigit cs ∧ ((∃ n, t = .number n) ∨ Lexeme.Closed cs)

/-- The cut keeps a token apart from what stands behind it. -/
theorem apart_of_stops (stands : Token.ofLexeme? position lexeme = .ok (some t))
    (stops : lexeme.Stops rest) : Apart (some t) rest := by
  rintro _ ⟨⟩
  cases lexeme with
  | blank c => cases stands
  | mark c => exact .inl (Lexeme.isSingle_of_ofLexeme? stands).symm
  | integer digits =>
    obtain ⟨n, rfl, -⟩ := Token.ofLexeme?_integer_eq_ok_iff.mp stands
    exact .inr ⟨stops.1, .inl ⟨_, rfl⟩⟩
  | real whole fraction =>
    cases stands
    exact .inr ⟨stops, .inl ⟨_, rfl⟩⟩
  | name cs => exact .inr ⟨Lexeme.Closed.noDigit stops, .inr stops⟩

/-- **Two tokens that touch without a symbol are a number and a word.**  Behind a word neither a
digit nor another word could begin, because the word would go on over it. -/
theorem number_and_name_of_apart
    (apart : Apart (some before) (lexeme.text ++ rest)) (proper : lexeme.Proper)
    (stands : Token.ofLexeme? position lexeme = .ok (some t))
    (noSymbol : before.isSymbol = false) (noSymbol' : t.isSymbol = false) :
    (∃ n, before = .number n) ∧ ∃ cs, lexeme = .name cs := by
  obtain ⟨noDigit, number⟩ := (apart before rfl).resolve_left fun symbol => by
    cases noSymbol.symm.trans symbol
  have several : lexeme.isSingle = false :=
    (Lexeme.isSingle_of_ofLexeme? stands).trans noSymbol'
  cases proper with
  | blank => cases several
  | mark => cases several
  | integer digit => cases (noDigit _ rfl).symm.trans digit
  | real digit => cases (noDigit _ rfl).symm.trans digit
  | @name first others noBlank noMark =>
    have part := Lexeme.isNamePart_of_isMark noBlank noMark
    refine ⟨number.resolve_right fun closed => ?_, _, rfl⟩
    cases (closed first rfl).symm.trans part

/-- Tokens that may touch are not refused. -/
theorem MayTouch.refusal?_eq_none (may : MayTouch before t) (position : Nat) :
    Token.refusal? before t position = none := by
  obtain ⟨symbol, noCall⟩ := may
  unfold Token.refusal?
  split
  · have behind : t.isSymbol = true := symbol.resolve_left Bool.false_ne_true
    refine if_neg fun word => ?_
    cases behind.symm.trans (Token.isSymbol_of_isWord word)
  · exact absurd ⟨⟨_, rfl⟩, rfl⟩ noCall
  · rfl

/-- **Tokens of the cut that are not refused may touch.**  Only a number in front of a word and a
constant in front of a parenthesis are refused, and the cut lets nothing else touch that may
not. -/
theorem mayTouch_of_refusal?_eq_none {touching : Option Token}
    (apart : Apart touching (lexeme.text ++ rest)) (proper : lexeme.Proper)
    (stands : Token.ofLexeme? position lexeme = .ok (some t))
    (accepted : ∀ before ∈ touching, Token.refusal? before t position = none) :
    ∀ before ∈ touching, MayTouch before t := by
  rintro before ⟨⟩
  have accepted := accepted before rfl
  refine ⟨?_, ?_⟩
  · cases symbol : before.isSymbol with
    | true => exact .inl rfl
    | false =>
      cases symbol' : t.isSymbol with
      | true => exact .inr rfl
      | false =>
        obtain ⟨⟨n, rfl⟩, cs, rfl⟩ := number_and_name_of_apart apart proper stands symbol symbol'
        have known := Token.ofWord?_eq_some_iff.mp (Token.ofLexeme?_name_eq_ok_iff.mp stands)
        rw [Token.refusal?, if_pos (Token.isWord_of_mem_words _ known)] at accepted
        cases accepted
  · rintro ⟨⟨c, rfl⟩, rfl⟩
    cases accepted

end

/-! ## Spelling from left to right -/

/-- Some characters spell some tokens behind a token that touches them, if there is one. -/
inductive SpellsAfter : Option Token → List Char → List Token → Prop
  | nil {touching : Option Token} : SpellsAfter touching [] []
  | blank {touching : Option Token} {c : Char} {cs : List Char} {ts : List Token} :
      isBlank c = true → SpellsAfter none cs ts → SpellsAfter touching (c :: cs) ts
  | token {touching : Option Token} {xs cs : List Char} {t : Token} {ts : List Token} :
      LexemeOf xs t → (∀ before ∈ touching, MayTouch before t) → SpellsAfter (some t) cs ts →
      SpellsAfter touching (xs ++ cs) (t :: ts)

/-- Blanks come before what is spelled behind nothing. -/
theorem SpellsAfter.blanks {start cs : List Char} {ts : List Token}
    (blank : ∀ c ∈ start, isBlank c = true) (rest : SpellsAfter none cs ts) :
    SpellsAfter none (start ++ cs) ts := by
  induction start with
  | nil => exact rest
  | cons c start ih =>
    rw [List.forall_mem_cons] at blank
    exact .blank blank.1 (ih blank.2)

/-- Pieces spell their tokens, behind a token that the first one may touch. -/
theorem spellsAfter_of_pieces {touching : Option Token} {start : List Char}
    {pieces : List Piece} (blank : ∀ c ∈ start, isBlank c = true)
    (proper : ∀ p ∈ pieces, LexemeOf p.lexeme p.token ∧ ∀ c ∈ p.gap, isBlank c = true)
    (chain : pieces.IsChain fun p q => p.gap = [] → MayTouch p.token q.token)
    (boundary : start = [] → ∀ before ∈ touching, ∀ p ∈ pieces.head?, MayTouch before p.token) :
    SpellsAfter touching (start ++ pieces.flatMap Piece.text) (pieces.map Piece.token) := by
  induction pieces generalizing touching start with
  | nil =>
    cases start with
    | nil => exact .nil
    | cons c start =>
      rw [List.forall_mem_cons] at blank
      exact .blank blank.1 (.blanks blank.2 .nil)
  | cons p pieces ih =>
    rw [List.forall_mem_cons] at proper
    rw [List.isChain_cons] at chain
    have here (touching : Option Token) (may : ∀ before ∈ touching, MayTouch before p.token) :
        SpellsAfter touching ((p :: pieces).flatMap Piece.text)
          ((p :: pieces).map Piece.token) := by
      rw [List.flatMap_cons, Piece.text, List.append_assoc, List.map_cons]
      refine .token proper.1.1 may (ih proper.1.2 proper.2 chain.2 ?_)
      rintro touches before ⟨⟩ q head
      exact chain.1 q head touches
    cases start with
    | nil => exact here touching fun before h => boundary rfl before h p rfl
    | cons c start =>
      rw [List.forall_mem_cons] at blank
      exact .blank blank.1 (.blanks blank.2 (here none fun before h => nomatch h))

/-- What is spelled behind a token is made up of pieces, and the first one may touch it. -/
theorem SpellsAfter.exists_pieces {touching : Option Token} {cs : List Char} {ts : List Token}
    (spells : SpellsAfter touching cs ts) :
    ∃ (start : List Char) (pieces : List Piece),
      cs = start ++ pieces.flatMap Piece.text ∧ ts = pieces.map Piece.token ∧
      (∀ c ∈ start, isBlank c = true) ∧
      (∀ p ∈ pieces, LexemeOf p.lexeme p.token ∧ ∀ c ∈ p.gap, isBlank c = true) ∧
      pieces.IsChain (fun p q => p.gap = [] → MayTouch p.token q.token) ∧
      (start = [] → ∀ before ∈ touching, ∀ p ∈ pieces.head?, MayTouch before p.token) := by
  induction spells with
  | nil => exact ⟨[], [], rfl, rfl, by simp, by simp, .nil, by simp⟩
  | @blank touching c cs ts blank _ ih =>
    obtain ⟨start, pieces, rfl, rfl, blanks, proper, chain, -⟩ := ih
    exact ⟨c :: start, pieces, rfl, rfl, List.forall_mem_cons.mpr ⟨blank, blanks⟩, proper,
      chain, fun h => nomatch h⟩
  | @token touching xs cs t ts lexeme may _ ih =>
    obtain ⟨gap, pieces, rfl, rfl, blanks, proper, chain, boundary⟩ := ih
    refine ⟨[], ⟨xs, t, gap⟩ :: pieces, ?_, rfl, by simp, ?_, ?_, ?_⟩
    · simp [Piece.text]
    · exact List.forall_mem_cons.mpr ⟨⟨lexeme, blanks⟩, proper⟩
    · exact List.isChain_cons.mpr ⟨fun q head touches => boundary touches t rfl q head, chain⟩
    · rintro - before member p ⟨⟩
      exact may before member

/-- A text that spells tokens does so from left to right. -/
theorem spells_iff_spellsAfter {cs : List Char} {ts : List Token} :
    Spells cs ts ↔ SpellsAfter none cs ts := by
  constructor
  · rintro ⟨start, pieces, rfl, rfl, blank, proper, chain⟩
    exact spellsAfter_of_pieces blank proper chain fun _ before h => nomatch h
  · intro spells
    obtain ⟨start, pieces, text, tokens, blank, proper, chain, -⟩ := spells.exists_pieces
    exact ⟨start, pieces, text, tokens, blank, proper, chain⟩

/-! ## Reading finds the spelling -/

/-- **One step of reading.**  A lexeme is a blank character, or it stands for a token that is
not refused behind the one before. -/
theorem Token.ofLexemes_cons_eq_ok_iff {touching : Option Token} {position : Nat}
    {lexeme : Lexeme} {rest : List Lexeme} {ts : List Token} :
    ofLexemes touching position (lexeme :: rest) = .ok ts ↔
      (ofLexeme? position lexeme = .ok none ∧
        ofLexemes none (position + (String.ofList lexeme.text).utf8ByteSize) rest = .ok ts) ∨
      ∃ t us, ts = t :: us ∧ ofLexeme? position lexeme = .ok (some t) ∧
        (∀ before ∈ touching, refusal? before t position = none) ∧
        ofLexemes (some t) (position + (String.ofList lexeme.text).utf8ByteSize) rest = .ok us := by
  rw [ofLexemes]
  cases ofLexeme? position lexeme with
  | error e => simp
  | ok token =>
    cases token with
    | none => simp
    | some t =>
      dsimp only
      cases refused : touching.bind fun before => refusal? before t position with
      | some e =>
        refine iff_of_false (fun h => by cases h) ?_
        rintro (⟨h, -⟩ | ⟨t, us, rfl, h, accepted, -⟩)
        · cases h
        · cases h
          rw [Option.bind_eq_none_iff.mpr accepted] at refused
          cases refused
      | none =>
        dsimp only
        rw [map_eq_ok_iff]
        constructor
        · rintro ⟨us, read, rfl⟩
          exact .inr ⟨t, us, rfl, rfl, Option.bind_eq_none_iff.mp refused, read⟩
        · rintro (⟨h, -⟩ | ⟨t, us, rfl, h, -, read⟩)
          · cases h
          · cases h
            exact ⟨us, read, rfl⟩

/-- The lexemes without a token are the blank characters. -/
theorem Token.ofLexeme?_eq_ok_none_iff {position : Nat} {lexeme : Lexeme} :
    ofLexeme? position lexeme = .ok none ↔ ∃ c, lexeme = .blank c := by
  cases lexeme with
  | blank c => exact iff_of_true rfl ⟨c, rfl⟩
  | mark c =>
    refine iff_of_false (fun h => ?_) (by simp)
    rw [ofLexeme?] at h
    split at h <;> cases h
  | integer digits =>
    refine iff_of_false (fun h => ?_) (by simp)
    obtain ⟨_, _, h⟩ := map_eq_ok_iff.mp h
    cases h
  | real whole fraction => exact iff_of_false (fun h => by cases h) (by simp)
  | name cs =>
    refine iff_of_false (fun h => ?_) (by simp)
    rw [ofLexeme?] at h
    split at h <;> cases h

/-- What is read from a text is spelled by it. -/
theorem spellsAfter_of_ofLexemes {cs : List Char} {touching : Option Token} {position : Nat}
    {ts : List Token} (apart : Apart touching cs)
    (read : Token.ofLexemes touching position (Lexeme.lexemes cs) = .ok ts) :
    SpellsAfter touching cs ts := by
  induction cs using Lexeme.cut_induction generalizing touching position ts with
  | nil =>
    rw [Lexeme.lexemes_nil] at read
    cases read
    exact .nil
  | cons lexeme rest proper cut ih =>
    have stops := (Lexeme.lexemes_append_iff proper).mp cut
    rw [cut] at read
    rcases Token.ofLexemes_cons_eq_ok_iff.mp read with
      ⟨nothing, read⟩ | ⟨t, us, rfl, found, accepted, read⟩
    · obtain ⟨c, rfl⟩ := Token.ofLexeme?_eq_ok_none_iff.mp nothing
      cases proper with
      | blank blank => exact .blank blank (ih nofun read)
    · have may := mayTouch_of_refusal?_eq_none apart proper found accepted
      exact .token (proper.lexemeOf found) may (ih (apart_of_stops found stops) read)

/-- A symbol begins with a character that no name goes on with. -/
theorem closed_of_isSymbol {xs rest : List Char} {t : Token} (lexeme : LexemeOf xs t)
    (symbol : t.isSymbol = true) : Lexeme.Closed (xs ++ rest) := by
  cases lexeme with
  | integer => cases symbol
  | real => cases symbol
  | symbol member =>
    rintro c ⟨⟩
    simp [Lexeme.isNamePart, Token.ofSymbol?_eq_some_iff.mpr member]
  | name member =>
    rw [Token.isSymbol_of_mem_words _ member] at symbol
    cases symbol

/-- **What follows a lexeme in a spelling cannot go on with it**, unless it is a symbol. -/
theorem SpellsAfter.closed {t : Token} {cs : List Char} {ts : List Token}
    (spells : SpellsAfter (some t) cs ts) : t.isSymbol = true ∨ Lexeme.Closed cs := by
  cases spells with
  | nil => exact .inr fun c h => by cases h
  | blank blank _ => exact .inr (Lexeme.closed_of_isBlank blank _)
  | token lexeme may _ => exact (may t rfl).1.imp_right (closed_of_isSymbol lexeme)

/-- What a text spells is read from it. -/
theorem SpellsAfter.ofLexemes_eq_ok {touching : Option Token} {cs : List Char} {ts : List Token}
    (spells : SpellsAfter touching cs ts) (position : Nat) :
    Token.ofLexemes touching position (Lexeme.lexemes cs) = .ok ts := by
  induction spells generalizing position with
  | nil => rw [Lexeme.lexemes_nil, Token.ofLexemes]
  | @blank touching c cs ts blank _ ih =>
    have cut : Lexeme.lexemes (c :: cs) = .blank c :: Lexeme.lexemes cs :=
      Lexeme.lexemes_append (.blank blank) (.inl rfl)
    rw [cut]
    exact Token.ofLexemes_cons_eq_ok_iff.mpr (.inl ⟨rfl, ih _⟩)
  | @token touching xs cs t ts written may rest ih =>
    obtain ⟨lexeme, proper, rfl, stands⟩ := written.exists_lexeme
    have ends : lexeme.isSingle = true ∨ Lexeme.Closed cs := by
      rw [Lexeme.isSingle_of_ofLexeme? (stands position)]
      exact rest.closed
    rw [Lexeme.lexemes_append proper ends]
    exact Token.ofLexemes_cons_eq_ok_iff.mpr
      (.inr ⟨t, ts, rfl, stands position, fun b h => (may b h).refusal?_eq_none position, ih _⟩)

/-- A text is read as some tokens exactly when it spells them from left to right. -/
theorem tokenize_eq_ok_iff_spellsAfter {text : String} {ts : List Token} :
    tokenize text = .ok ts ↔ SpellsAfter none text.toList ts :=
  ⟨spellsAfter_of_ofLexemes nofun, fun spells => spells.ofLexemes_eq_ok 0⟩

/-- **A text is read as some tokens exactly when it spells them.** -/
theorem tokenize_eq_ok_iff_spells (text : String) (ts : List Token) :
    tokenize text = .ok ts ↔ Spells text.toList ts := by
  rw [spells_iff_spellsAfter]
  exact tokenize_eq_ok_iff_spellsAfter

end Calculator
