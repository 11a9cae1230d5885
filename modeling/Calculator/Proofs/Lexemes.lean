import Calculator.Token.Reading
import Mathlib.Data.List.TakeWhile

/-!
# Where a lexeme ends

`Lexeme.lexemes` cuts a text by looking ahead: it takes digits while there are digits, and a
comma with the digits behind it if there are any.  This file says what the cut does without
looking ahead.

## The shape of a lexeme

`Lexeme.Proper` lists what the lexemes of each kind look like, as lists of characters.  The
cut gives nothing else (`proper_ofStart`).

## The cut is a matter of the next character

A proper lexeme is cut off a text that begins with it exactly when what follows does not go on
with it (`lexemes_append_iff`).  `Stops` says what that means for a lexeme of each kind, and it
asks for no more than two characters behind the lexeme.

Most uses have a simpler condition: the next character cannot go on with a name
(`lexemes_append`), and after a lexeme that is one character by its nature not even that is
asked.  This condition is the same one for numerals and for names, because a digit and a comma
are characters that a name can go on with.  It asks for more than the cut of a numeral does,
which also ends before a comma without a digit behind it.  But a comma in that place is no
token, so in a text that can be read nothing is lost.

This is how every statement about the cut of a composed text is proved, with the parts of
the text on the left and the lexemes on the right.  `cut_induction` is the other way round: it
takes the cut of a text apart, one lexeme at a time.
-/

namespace Calculator

/-! ## Characters -/

/-- A digit is no blank character. -/
theorem isBlank_of_isDigit {c : Char} (digit : c.isDigit = true) : isBlank c = false := by
  have bounds : 48 ≤ c.toNat ∧ c.toNat ≤ 57 := by
    simpa [Char.isDigit, UInt32.le_iff_toNat_le] using digit
  simp only [isBlank, Bool.or_eq_false_iff, Bool.and_eq_false_iff, decide_eq_false_iff_not,
    beq_eq_false_iff_ne]
  omega

/-- A symbol is neither a blank character nor a digit. -/
theorem Token.isBlank_of_ofSymbol? {c : Char} {t : Token} (h : ofSymbol? c = some t) :
    isBlank c = false ∧ c.isDigit = false := by
  unfold ofSymbol? at h
  split at h <;> first | decide | cases h

namespace Lexeme

/-- No character that stands for itself is a blank character or a digit. -/
theorem isBlank_of_isMark {c : Char} (mark : isMark c = true) :
    isBlank c = false ∧ c.isDigit = false := by
  rw [isMark, Bool.or_eq_true, beq_iff_eq, Option.isSome_iff_exists] at mark
  rcases mark with rfl | ⟨t, symbol⟩
  · decide
  · exact Token.isBlank_of_ofSymbol? symbol

/-- A digit does not stand for itself. -/
theorem isMark_of_isDigit {c : Char} (digit : c.isDigit = true) : isMark c = false := by
  refine Bool.eq_false_iff.mpr fun mark => ?_
  rw [(isBlank_of_isMark mark).2] at digit
  exact Bool.false_ne_true digit

/-- A name can go on with a digit. -/
theorem isNamePart_of_isDigit {c : Char} (digit : c.isDigit = true) : isNamePart c = true := by
  cases symbol : Token.ofSymbol? c with
  | none => simp [isNamePart, isBlank_of_isDigit digit, symbol]
  | some t =>
    rw [(Token.isBlank_of_ofSymbol? symbol).2] at digit
    exact absurd digit Bool.false_ne_true

/-- A character that is neither blank nor stands for itself is part of a name. -/
theorem isNamePart_of_isMark {c : Char} (noBlank : isBlank c = false)
    (noMark : isMark c = false) : isNamePart c = true := by
  rw [isMark, Bool.or_eq_false_iff, Option.isSome_eq_false_iff] at noMark
  simp [isNamePart, noBlank, noMark.2]

/-! ## Proper lexemes -/

/-- The shapes of the lexemes of each kind. -/
inductive Proper : Lexeme → Prop
  | blank {c : Char} : isBlank c = true → Proper (.blank c)
  | mark {c : Char} : isMark c = true → Proper (.mark c)
  | integer {first : Char} {others : List Char} : first.isDigit = true →
      (∀ c ∈ others, c.isDigit = true) → Proper (.integer (first :: others))
  | real {first : Char} {others fraction : List Char} : first.isDigit = true →
      (∀ c ∈ others, c.isDigit = true) → fraction ≠ [] →
      (∀ c ∈ fraction, c.isDigit = true) → Proper (.real (first :: others) fraction)
  | name {first : Char} {others : List Char} : isBlank first = false → isMark first = false →
      first.isDigit = false → (∀ c ∈ others, isNamePart c = true) →
      Proper (.name (first :: others))

/-- Whether a lexeme is one character by its nature. -/
def isSingle : Lexeme → Bool
  | blank _ | mark _ => true
  | integer _ | real _ _ | name _ => false

/-- What `numeral` cuts off a text that begins with a digit is a proper numeral. -/
theorem proper_numeral {first : Char} (digit : first.isDigit = true) (rest : List Char) :
    (numeral first rest).Proper := by
  unfold numeral
  dsimp only
  split
  · split
    · exact .integer digit fun _ => List.mem_takeWhile_imp
    case h_2 more _ nonempty =>
      exact .real digit (fun _ => List.mem_takeWhile_imp) nonempty fun _ => List.mem_takeWhile_imp
  · exact .integer digit fun _ => List.mem_takeWhile_imp

/-- **The cut gives proper lexemes.** -/
theorem proper_ofStart (first : Char) (rest : List Char) : (ofStart first rest).Proper := by
  unfold ofStart
  split
  case isTrue blank => exact .blank blank
  case isFalse noBlank =>
    split
    case isTrue mark => exact .mark mark
    case isFalse noMark =>
      split
      case isTrue digit => exact proper_numeral digit rest
      case isFalse noDigit =>
        exact .name (Bool.eq_false_iff.mpr noBlank) (Bool.eq_false_iff.mpr noMark)
          (Bool.eq_false_iff.mpr noDigit) fun _ => List.mem_takeWhile_imp

/-! ## The cut of a text that begins with a lexeme -/

/-- No name goes on with the first of some characters, if there is one. -/
def Closed (rest : List Char) : Prop := ∀ c ∈ rest.head?, isNamePart c = false

/-- The first of some characters is no digit, if there is one. -/
def NoDigit (rest : List Char) : Prop := ∀ c ∈ rest.head?, c.isDigit = false

/-- What follows a lexeme does not go on with it: no digit follows a numeral, nor a comma with a
digit behind it a numeral without a comma, and no part of a name follows a name. -/
def Stops : Lexeme → List Char → Prop
  | blank _, _ => True
  | mark _, _ => True
  | integer _, rest => NoDigit rest ∧ ∀ more, rest = ',' :: more → NoDigit more
  | real _ _, rest => NoDigit rest
  | name _, rest => Closed rest

/-- Nothing is taken where the first character fails the test, and all is left. -/
theorem takeWhile_of_head {p : Char → Bool} {rest : List Char}
    (boundary : ∀ c ∈ rest.head?, p c = false) :
    rest.takeWhile p = [] ∧ rest.dropWhile p = rest := by
  cases rest with
  | nil => simp
  | cons c cs => simp [boundary c rfl]

/-- A run that ends where the test fails is taken as a whole, and what is behind it is left. -/
theorem takeWhile_of_closed {p : Char → Bool} {body rest : List Char}
    (inside : ∀ c ∈ body, p c = true) (boundary : ∀ c ∈ rest.head?, p c = false) :
    (body ++ rest).takeWhile p = body ∧ (body ++ rest).dropWhile p = rest := by
  rw [List.takeWhile_append_of_pos inside, List.dropWhile_append_of_pos inside,
    (takeWhile_of_head boundary).1, (takeWhile_of_head boundary).2, List.append_nil]
  exact ⟨rfl, rfl⟩

/-- Only a run that ends where the test fails is taken as a whole. -/
theorem takeWhile_append_eq_iff {p : Char → Bool} {body rest : List Char}
    (inside : ∀ c ∈ body, p c = true) :
    (body ++ rest).takeWhile p = body ↔ ∀ c ∈ rest.head?, p c = false := by
  refine ⟨fun taken => ?_, fun boundary => (takeWhile_of_closed inside boundary).1⟩
  rw [List.takeWhile_append_of_pos inside, List.append_right_eq_self] at taken
  rintro c head
  cases rest with
  | nil => cases head
  | cons d rest =>
    cases head
    by_contra passes
    rw [Bool.not_eq_false] at passes
    simp [passes] at taken

/-- No name goes on with a blank character. -/
theorem closed_of_isBlank {c : Char} (blank : isBlank c = true) (rest : List Char) :
    Closed (c :: rest) := by
  rintro _ ⟨⟩
  simp [isNamePart, blank]

/-- Where no name goes on, no run of digits does. -/
theorem Closed.noDigit {rest : List Char} (closed : Closed rest) : NoDigit rest := by
  intro c head
  refine Bool.eq_false_iff.mpr fun digit => ?_
  exact Bool.false_ne_true ((closed c head).symm.trans (isNamePart_of_isDigit digit))

/-- Where no name goes on, and after a character that stands for itself, a lexeme ends. -/
theorem stops_of_closed {lexeme : Lexeme} {rest : List Char}
    (ends : lexeme.isSingle = true ∨ Closed rest) : lexeme.Stops rest := by
  cases lexeme with
  | blank c => trivial
  | mark c => trivial
  | integer digits =>
    have closed : Closed rest := ends.resolve_left Bool.false_ne_true
    refine ⟨closed.noDigit, ?_⟩
    rintro more rfl
    exact absurd (closed ',' rfl) (by decide)
  | real whole fraction => exact (ends.resolve_left Bool.false_ne_true : Closed rest).noDigit
  | name cs => exact ends.resolve_left Bool.false_ne_true

/-- A comma behind a run of digits belongs to the numeral if digits follow it. -/
theorem numeral_of_comma {first : Char} {rest more : List Char}
    (left : rest.dropWhile Char.isDigit = ',' :: more) :
    numeral first rest =
      if more.takeWhile Char.isDigit = [] then integer (first :: rest.takeWhile Char.isDigit)
      else real (first :: rest.takeWhile Char.isDigit) (more.takeWhile Char.isDigit) := by
  unfold numeral
  simp only [left]
  cases more.takeWhile Char.isDigit <;> rfl

/-- Without a comma behind it a run of digits is the numeral. -/
theorem numeral_of_no_comma {first : Char} {rest : List Char}
    (left : ∀ more, rest.dropWhile Char.isDigit ≠ ',' :: more) :
    numeral first rest = integer (first :: rest.takeWhile Char.isDigit) := by
  unfold numeral
  dsimp only
  split
  · next more comma => exact absurd comma (left more)
  · rfl

/-- An integer numeral is cut off as it stands, unless what follows goes on with it. -/
theorem numeral_eq_integer_iff {first : Char} {others rest : List Char}
    (digits : ∀ c ∈ others, c.isDigit = true) :
    numeral first (others ++ rest) = .integer (first :: others) ↔
      (integer (first :: others)).Stops rest := by
  constructor
  · intro cut
    have boundary : NoDigit rest := by
      refine (takeWhile_append_eq_iff digits).mp ?_
      by_cases comma : ∃ more, (others ++ rest).dropWhile Char.isDigit = ',' :: more
      · obtain ⟨more, left⟩ := comma
        rw [numeral_of_comma left] at cut
        split at cut
        · exact (List.cons.inj (Lexeme.integer.inj cut)).2
        · cases cut
      · rw [numeral_of_no_comma (not_exists.mp comma)] at cut
        exact (List.cons.inj (Lexeme.integer.inj cut)).2
    refine ⟨boundary, ?_⟩
    rintro more rfl
    rw [numeral_of_comma (takeWhile_of_closed digits boundary).2] at cut
    split at cut
    · next nothing => exact (takeWhile_append_eq_iff (List.forall_mem_nil _)).mp nothing
    · cases cut
  · rintro ⟨boundary, afterComma⟩
    obtain ⟨taken, left⟩ := takeWhile_of_closed digits boundary
    by_cases comma : ∃ more, rest = ',' :: more
    · obtain ⟨more, rfl⟩ := comma
      rw [numeral_of_comma left, if_pos (takeWhile_of_head (afterComma more rfl)).1, taken]
    · rw [numeral_of_no_comma (by rw [left]; exact not_exists.mp comma), taken]

/-- A numeral with a comma is cut off as it stands, unless a digit follows. -/
theorem numeral_eq_real_iff {first : Char} {others fraction rest : List Char}
    (digits : ∀ c ∈ others, c.isDigit = true) (nonempty : fraction ≠ [])
    (places : ∀ c ∈ fraction, c.isDigit = true) :
    numeral first (others ++ ',' :: (fraction ++ rest)) = .real (first :: others) fraction ↔
      NoDigit rest := by
  have comma : NoDigit (',' :: (fraction ++ rest)) := by
    rintro c ⟨⟩
    decide
  obtain ⟨taken, left⟩ := takeWhile_of_closed digits comma
  rw [NoDigit, ← takeWhile_append_eq_iff places, numeral_of_comma left, taken]
  split
  · next nothing =>
    rw [nothing]
    exact iff_of_false nofun nonempty.symm
  · simp

/-- **A proper lexeme is the start of a text that begins with it** exactly when what follows
does not go on with it. -/
theorem ofStart_eq_iff_stops {lexeme : Lexeme} {first : Char} {others rest : List Char}
    (proper : lexeme.Proper) (characters : lexeme.text = first :: others) :
    ofStart first (others ++ rest) = lexeme ↔ lexeme.Stops rest := by
  cases proper with
  | blank blank =>
    obtain ⟨rfl, rfl⟩ := List.cons_eq_cons.mp characters
    simp [ofStart, blank, Stops]
  | mark mark =>
    obtain ⟨rfl, rfl⟩ := List.cons_eq_cons.mp characters
    simp [ofStart, mark, (isBlank_of_isMark mark).1, Stops]
  | integer digit digits =>
    obtain ⟨rfl, rfl⟩ := List.cons_eq_cons.mp characters
    simp only [ofStart, digit, isBlank_of_isDigit digit, isMark_of_isDigit digit]
    exact numeral_eq_integer_iff digits
  | real digit digits nonempty places =>
    obtain ⟨rfl, rfl⟩ := List.cons_eq_cons.mp characters
    simp only [ofStart, digit, isBlank_of_isDigit digit, isMark_of_isDigit digit]
    rw [List.append_eq, List.append_assoc, List.cons_append]
    exact numeral_eq_real_iff digits nonempty places
  | name noBlank noMark noDigit parts =>
    obtain ⟨rfl, rfl⟩ := List.cons_eq_cons.mp characters
    simp only [ofStart, noBlank, noMark, noDigit, Bool.false_eq_true, if_false, name.injEq,
      List.cons.injEq, true_and]
    exact takeWhile_append_eq_iff parts

/-- **A text is cut behind a proper lexeme** that it begins with exactly when what follows does
not go on with it, and the cut goes on with the rest of the text. -/
theorem lexemes_append_iff {lexeme : Lexeme} {rest : List Char} (proper : lexeme.Proper) :
    lexemes (lexeme.text ++ rest) = lexeme :: lexemes rest ↔ lexeme.Stops rest := by
  obtain ⟨first, others, characters⟩ : ∃ first others, lexeme.text = first :: others := by
    cases proper <;> exact ⟨_, _, rfl⟩
  rw [← ofStart_eq_iff_stops proper characters, characters, List.cons_append, lexemes_cons]
  constructor
  · intro cut
    exact (List.cons.inj cut).1
  · intro start
    rw [start, characters, List.length_cons, Nat.add_sub_cancel, List.drop_left]

/-- A text that begins with a proper lexeme is cut behind it, when the next character cannot go
on with a name or the lexeme is one character by its nature. -/
theorem lexemes_append {lexeme : Lexeme} {rest : List Char} (proper : lexeme.Proper)
    (ends : lexeme.isSingle = true ∨ Closed rest) :
    lexemes (lexeme.text ++ rest) = lexeme :: lexemes rest :=
  (lexemes_append_iff proper).mpr (stops_of_closed ends)

/-- **Induction along the cut.**  What holds of the empty text, and of a text when it holds of
what its first lexeme leaves, holds of every text. -/
@[elab_as_elim]
theorem cut_induction {motive : List Char → Prop} (nil : motive [])
    (cons : ∀ (lexeme : Lexeme) (rest : List Char), lexeme.Proper →
      lexemes (lexeme.text ++ rest) = lexeme :: lexemes rest → motive rest →
      motive (lexeme.text ++ rest))
    (cs : List Char) : motive cs := by
  fun_induction lexemes cs with
  | case1 => exact nil
  | case2 first rest lexeme ih =>
    have whole := text_ofStart_append first rest
    rw [← whole]
    refine cons _ _ (proper_ofStart first rest) ?_ ih
    rw [whole, lexemes_cons]

end Lexeme
end Calculator
