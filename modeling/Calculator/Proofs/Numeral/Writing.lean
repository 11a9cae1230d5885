import Calculator.Proofs.Lexemes
import Calculator.Proofs.Numeral

/-!
# Real numbers as texts

A real number may be written with a decimal point or with a decimal comma.  A `Writing` holds the
parts that such a text has, and a `Style` says what the two kinds of text do differently: which
character separates the fraction, and whether an exponent without a minus sign has a plus sign.

## The parts of a text

The parts of a text are signs and runs of digits, and what follows a run begins with a separator
or with the letter of the exponent.  So the runs end where they have to, and the parts can be told
from the text (`Proper.eq_of_toList_eq`).

## What a text denotes

The parts of a text denote a rational number, whatever style it is written in (`Writing.value`).
To read a text as a double is to take the double nearest to the number, with the sign of the text
(`Writing.double`).  The sign is not always that of the number, because a zero has one as well.
Since a text has its parts, it denotes one number only and is read as one double, and `Denotes`
and `ReadsAs` may speak of the text.

An exponent may be padded with zeros.  It stands for the same power of ten, so that neither the
number nor the double is another one (`value_padExponent`, `double_padExponent`).

## Numerals

A numeral with a sign in front is written as its parts with a comma and a padded exponent
(`toList_padExponent_ofNumeral`).
-/

namespace Calculator

/-- The parts of a real number as it is written: its sign, the digits in front of the separator
and behind it, and the sign and the digits of its exponent, if there is one. -/
structure Writing where
  negative : Bool
  whole : List Char
  fraction : List Char
  exponent : Option (Bool × List Char)
deriving DecidableEq, Repr

/-- The ways to write a real number. -/
inductive Style where
  | point
  | comma
deriving DecidableEq, Repr

namespace Style

/-- The character in front of a fraction. -/
def separator : Style → Char
  | point => '.'
  | comma => decimalSeparator

/-- What is written for the sign of an exponent that is not negative. -/
def plus : Style → List Char
  | point => []
  | comma => ['+']

end Style

namespace Writing

variable {style : Style} {v w : Writing}

/-- The characters of a fraction. -/
def fractionChars (style : Style) (fraction : List Char) : List Char :=
  if fraction.isEmpty then [] else style.separator :: fraction

/-- The characters of an exponent, if there is one. -/
def exponentChars (style : Style) : Option (Bool × List Char) → List Char
  | none => []
  | some (negative, digits) => 'e' :: ((if negative then ['-'] else style.plus) ++ digits)

/-- The characters of a real number. -/
def toList (style : Style) (w : Writing) : List Char :=
  (if w.negative then ['-'] else []) ++
    (w.whole ++ (fractionChars style w.fraction ++ exponentChars style w.exponent))

/-- There are digits in all the places where there have to be some: in front of the separator,
behind it unless there is an exponent, and in an exponent. -/
structure Proper (w : Writing) : Prop where
  whole_ne_nil : w.whole ≠ []
  isDigit_whole : ∀ c ∈ w.whole, c.isDigit = true
  isDigit_fraction : ∀ c ∈ w.fraction, c.isDigit = true
  fraction_ne_nil : w.exponent = none → w.fraction ≠ []
  exponent_ne_nil : ∀ e ∈ w.exponent, e.2 ≠ []
  isDigit_exponent : ∀ e ∈ w.exponent, ∀ c ∈ e.2, c.isDigit = true

/-! ## The characters of a text -/

/-- The characters in front of the exponent. -/
def mantissaChars (style : Style) (w : Writing) : List Char :=
  (if w.negative then ['-'] else []) ++ (w.whole ++ fractionChars style w.fraction)

theorem toList_eq_mantissaChars_append (style : Style) (w : Writing) :
    w.toList style = w.mantissaChars style ++ exponentChars style w.exponent := by
  simp only [toList, mantissaChars, List.append_assoc]

theorem Proper.mem_mantissaChars (proper : w.Proper) :
    ∀ c ∈ w.mantissaChars style, c.isDigit = true ∨ c = '-' ∨ c = style.separator := by
  intro c member
  simp only [mantissaChars, fractionChars, List.mem_append] at member
  rcases member with sign | whole | fraction
  · split at sign
    · exact .inr (.inl (List.mem_singleton.mp sign))
    · cases sign
  · exact .inl (proper.isDigit_whole c whole)
  · split at fraction
    · cases fraction
    · rcases List.mem_cons.mp fraction with separator | digit
      · exact .inr (.inr separator)
      · exact .inl (proper.isDigit_fraction c digit)

theorem Proper.mem_exponentChars (proper : w.Proper) :
    ∀ c ∈ exponentChars style w.exponent,
      c.isDigit = true ∨ c = 'e' ∨ c = '-' ∨ c = '+' := by
  cases exponent : w.exponent with
  | none => exact nofun
  | some e =>
    rw [exponentChars, List.forall_mem_cons, List.forall_mem_append]
    refine ⟨.inr (.inl rfl), ?_, fun c digit => .inl (proper.isDigit_exponent e exponent c digit)⟩
    cases style <;> cases e.1 <;> simp [Style.plus]

/-! ## The parts of a text -/

/-- Runs with something behind them that does not go on with them are the same when the wholes
are, and so is what is behind them. -/
theorem eq_of_runs {p : Char → Bool} {xs ys rest others : List Char}
    (run : ∀ c ∈ xs, p c = true) (run' : ∀ c ∈ ys, p c = true)
    (ends : ∀ c ∈ rest.head?, p c = false) (ends' : ∀ c ∈ others.head?, p c = false)
    (same : xs ++ rest = ys ++ others) : xs = ys ∧ rest = others := by
  obtain ⟨taken, left⟩ := Lexeme.takeWhile_of_closed run ends
  obtain ⟨taken', left'⟩ := Lexeme.takeWhile_of_closed run' ends'
  rw [same] at taken left
  exact ⟨taken.symm.trans taken', left.symm.trans left'⟩

/-- A minus sign in front of characters that do not begin with one is seen as such. -/
theorem eq_of_signed {s t : Prop} [Decidable s] [Decidable t] {xs ys : List Char}
    (unsignedLeft : ∀ c ∈ xs.head?, c ≠ '-') (unsignedRight : ∀ c ∈ ys.head?, c ≠ '-')
    (same : (if s then ['-'] else []) ++ xs = (if t then ['-'] else []) ++ ys) :
    (s ↔ t) ∧ xs = ys := by
  by_cases left : s <;> by_cases right : t
  · rw [if_pos left, if_pos right] at same
    exact ⟨iff_of_true left right, List.append_cancel_left same⟩
  · rw [if_pos left, if_neg right] at same
    exact absurd rfl (unsignedRight '-' (by rw [← List.nil_append ys, ← same]; rfl))
  · rw [if_neg left, if_pos right] at same
    exact absurd rfl (unsignedLeft '-' (by rw [← List.nil_append xs, same]; rfl))
  · rw [if_neg left, if_neg right] at same
    exact ⟨iff_of_false left right, same⟩

theorem head_exponentChars {exponent : Option (Bool × List Char)} :
    ∀ c ∈ (exponentChars style exponent).head?, c = 'e' := by
  cases exponent with
  | none => exact nofun
  | some e =>
    rintro c ⟨⟩
    rfl

/-- No digit stands behind the digits of a fraction. -/
theorem isDigit_head_exponentChars (style : Style) (exponent : Option (Bool × List Char)) :
    ∀ c ∈ (exponentChars style exponent).head?, c.isDigit = false := by
  intro c head
  rw [head_exponentChars c head]
  decide

/-- Nor does one stand behind the whole digits. -/
theorem isDigit_head_fractionChars (style : Style) (fraction : List Char)
    (exponent : Option (Bool × List Char)) :
    ∀ c ∈ (fractionChars style fraction ++ exponentChars style exponent).head?,
      c.isDigit = false := by
  cases fraction with
  | nil => exact isDigit_head_exponentChars style exponent
  | cons d fraction =>
    rintro c ⟨⟩
    cases style <;> decide

/-- A sign in front of digits is seen as such, in either style. -/
theorem eq_of_exponentSign {m n : Bool} {ds es : List Char}
    (digits : ∀ c ∈ ds, c.isDigit = true) (digits' : ∀ c ∈ es, c.isDigit = true)
    (same : (if m then ['-'] else style.plus) ++ ds = (if n then ['-'] else style.plus) ++ es) :
    m = n ∧ ds = es := by
  -- what is not negative begins with a plus sign or with a digit
  have apart {xs ys : List Char} (digits : ∀ c ∈ ys, c.isDigit = true) :
      '-' :: xs ≠ style.plus ++ ys := by
    intro h
    cases style with
    | comma => cases h
    | point =>
      have sign := digits '-' (by rw [show ys = '-' :: xs from h.symm]; exact List.mem_cons_self)
      cases sign
  cases m <;> cases n
  · exact ⟨rfl, List.append_cancel_left same⟩
  · exact absurd same.symm (apart digits)
  · exact absurd same (apart digits')
  · exact ⟨rfl, List.append_cancel_left same⟩

theorem eq_of_exponentChars_eq {d e : Option (Bool × List Char)}
    (digits : ∀ f ∈ d, ∀ c ∈ f.2, c.isDigit = true)
    (digits' : ∀ f ∈ e, ∀ c ∈ f.2, c.isDigit = true)
    (same : exponentChars style d = exponentChars style e) : d = e := by
  cases d with
  | none =>
    cases e with
    | none => rfl
    | some e => cases same
  | some d =>
    cases e with
    | none => cases same
    | some e =>
      obtain ⟨sign, figures⟩ :=
        eq_of_exponentSign (digits d rfl) (digits' e rfl) (List.cons_inj_right _ |>.mp same)
      rw [Prod.ext sign figures]

/-- Behind the whole digits the characters determine the fraction and the exponent. -/
theorem eq_of_fractionChars_append_eq {f g : List Char} {d e : Option (Bool × List Char)}
    (digits : ∀ c ∈ f, c.isDigit = true) (digits' : ∀ c ∈ g, c.isDigit = true)
    (same : fractionChars style f ++ exponentChars style d =
      fractionChars style g ++ exponentChars style e) :
    f = g ∧ exponentChars style d = exponentChars style e := by
  -- a separator is not the letter of an exponent
  have apart (fraction : List Char) (e : Option (Bool × List Char)) :
      style.separator :: fraction ≠ exponentChars style e := by
    intro h
    have letter := head_exponentChars style.separator (by rw [← h]; rfl)
    cases style <;> cases letter
  cases f with
  | nil =>
    cases g with
    | nil => exact ⟨rfl, same⟩
    | cons c g => exact absurd same.symm (apart _ d)
  | cons c f =>
    cases g with
    | nil => exact absurd same (apart _ e)
    | cons c' g =>
      exact eq_of_runs digits digits' (isDigit_head_exponentChars style d)
        (isDigit_head_exponentChars style e) (List.cons_inj_right _ |>.mp same)

/-- **The parts of a text can be told from the text.** -/
theorem Proper.eq_of_toList_eq (left : v.Proper) (right : w.Proper)
    (same : v.toList style = w.toList style) : v = w := by
  have unsigned {u : Writing} (proper : u.Proper) (rest : List Char) :
      ∀ c ∈ (u.whole ++ rest).head?, c ≠ '-' := by
    rintro c head rfl
    obtain ⟨d, whole, first⟩ := List.exists_cons_of_ne_nil proper.whole_ne_nil
    rw [first] at head
    cases head
    cases proper.isDigit_whole '-' (by rw [first]; exact List.mem_cons_self)
  obtain ⟨sign, digits⟩ := eq_of_signed (unsigned left _) (unsigned right _) same
  obtain ⟨whole, behind⟩ := eq_of_runs left.isDigit_whole right.isDigit_whole
    (isDigit_head_fractionChars _ _ _) (isDigit_head_fractionChars _ _ _) digits
  obtain ⟨fraction, behind⟩ :=
    eq_of_fractionChars_append_eq left.isDigit_fraction right.isDigit_fraction behind
  have exponent := eq_of_exponentChars_eq left.isDigit_exponent right.isDigit_exponent behind
  have negative : v.negative = w.negative := Bool.eq_iff_iff.mpr sign
  cases v
  cases w
  cases negative
  cases whole
  cases fraction
  cases exponent
  rfl

/-! ## What a text denotes -/

/-- The power of ten that an exponent stands for. -/
def exponentValue : Option (Bool × List Char) → ℤ
  | none => 0
  | some (negative, digits) =>
    if negative then -(Nat.ofDigitChars 10 digits 0 : ℤ) else Nat.ofDigitChars 10 digits 0

/-- The number that is written, without its sign. -/
def magnitude (w : Writing) : ℚ :=
  Nat.ofDigitChars 10 (w.whole ++ w.fraction) 0 *
    10 ^ (exponentValue w.exponent - (w.fraction.length : ℤ))

/-- The number that is written. -/
def value (w : Writing) : ℚ := if w.negative then -w.magnitude else w.magnitude

/-- The double that the text is read as, the nearest one with the sign of the text. -/
def double (w : Writing) : Float :=
  Binary64.ofCode w.negative (Binary64.nearest w.magnitude.num.natAbs w.magnitude.den)

end Writing

/-- A text in a style denotes a rational number. -/
def Denotes (style : Style) (text : List Char) (q : ℚ) : Prop :=
  ∃ w : Writing, w.Proper ∧ w.toList style = text ∧ w.value = q

/-- A text in a style is read as a double. -/
def ReadsAs (style : Style) (text : List Char) (x : Float) : Prop :=
  ∃ w : Writing, w.Proper ∧ w.toList style = text ∧ w.double = x

namespace Writing

variable {style : Style} {w : Writing}

/-- A text denotes the number that its parts denote. -/
theorem Proper.denotes_iff (proper : w.Proper) {q : ℚ} :
    Denotes style (w.toList style) q ↔ w.value = q := by
  constructor
  · rintro ⟨v, proper', same, rfl⟩
    rw [proper'.eq_of_toList_eq proper same]
  · exact fun value => ⟨w, proper, rfl, value⟩

theorem Proper.readsAs_iff (proper : w.Proper) {x : Float} :
    ReadsAs style (w.toList style) x ↔ w.double = x := by
  constructor
  · rintro ⟨v, proper', same, rfl⟩
    rw [proper'.eq_of_toList_eq proper same]
  · exact fun double => ⟨w, proper, rfl, double⟩

/-! ## Padded exponents -/

/-- Digits with zeros in front, so that there are at least two. -/
def twoDigits (digits : List Char) : List Char := List.replicate (2 - digits.length) '0' ++ digits

theorem length_twoDigits (digits : List Char) : 2 ≤ (twoDigits digits).length := by
  rw [twoDigits, List.length_append, List.length_replicate]
  omega

theorem isDigit_twoDigits {digits : List Char} (figures : ∀ c ∈ digits, c.isDigit = true) :
    ∀ c ∈ twoDigits digits, c.isDigit = true :=
  List.forall_mem_append.mpr ⟨Numeral.isDigit_replicate_zero _, figures⟩

/-- A second digit does not change the number. -/
theorem ofDigitChars_twoDigits (digits : List Char) :
    Nat.ofDigitChars 10 (twoDigits digits) 0 = Nat.ofDigitChars 10 digits 0 :=
  Numeral.ofDigitChars_zeros_append _ digits

/-- The parts with at least two digits in the exponent. -/
@[simps]
def padExponent (w : Writing) : Writing where
  negative := w.negative
  whole := w.whole
  fraction := w.fraction
  exponent := w.exponent.map fun e => (e.1, twoDigits e.2)

theorem length_exponent_padExponent (w : Writing) :
    ∀ e ∈ w.padExponent.exponent, 2 ≤ e.2.length := by
  intro e found
  obtain ⟨e, -, rfl⟩ := Option.map_eq_some_iff.mp found
  exact length_twoDigits e.2

theorem Proper.padExponent (proper : w.Proper) : w.padExponent.Proper where
  whole_ne_nil := proper.whole_ne_nil
  isDigit_whole := proper.isDigit_whole
  isDigit_fraction := proper.isDigit_fraction
  fraction_ne_nil none := proper.fraction_ne_nil (Option.map_eq_none_iff.mp none)
  exponent_ne_nil := by
    intro e found
    rw [← List.length_pos_iff]
    exact Nat.lt_of_lt_of_le Nat.two_pos (length_exponent_padExponent w e found)
  isDigit_exponent := by
    intro e found
    obtain ⟨e, given, rfl⟩ := Option.map_eq_some_iff.mp found
    exact isDigit_twoDigits (proper.isDigit_exponent e given)

@[simp] theorem exponentValue_padExponent (w : Writing) :
    exponentValue w.padExponent.exponent = exponentValue w.exponent := by
  rw [padExponent_exponent]
  cases w.exponent with
  | none => rfl
  | some e => simp only [Option.map_some, exponentValue, ofDigitChars_twoDigits]

@[simp] theorem magnitude_padExponent (w : Writing) : w.padExponent.magnitude = w.magnitude := by
  simp only [magnitude, padExponent_whole, padExponent_fraction, exponentValue_padExponent]

@[simp] theorem value_padExponent (w : Writing) : w.padExponent.value = w.value := by
  simp only [value, padExponent_negative, magnitude_padExponent]

@[simp] theorem double_padExponent (w : Writing) : w.padExponent.double = w.double := by
  simp only [double, padExponent_negative, magnitude_padExponent]

/-! ## Numerals -/

/-- A numeral with a sign as the parts of a text. -/
@[simps]
def ofNumeral (negative : Bool) (n : Numeral) : Writing where
  negative := negative
  whole := n.whole
  fraction := n.fraction
  exponent := n.exponent.map fun e => (decide (e < 0), Nat.toDigits 10 e.natAbs)

/-- The exponent of a numeral is padded. -/
theorem exponentChars_padExponent_ofNumeral (negative : Bool) (n : Numeral) :
    exponentChars .comma (ofNumeral negative n).padExponent.exponent =
      (n.exponent.map Numeral.exponentText).getD [] := by
  rw [padExponent_exponent, ofNumeral_exponent]
  cases n.exponent with
  | none => rfl
  | some e =>
    by_cases below : e < 0 <;>
      simp [exponentChars, Numeral.exponentText, twoDigits, Style.plus, below]

/-- A numeral is written as its parts. -/
theorem toList_padExponent_ofNumeral (negative : Bool) (n : Numeral) :
    (ofNumeral negative n).padExponent.toList .comma =
      (if negative then ['-'] else []) ++ n.toList := by
  rw [toList, exponentChars_padExponent_ofNumeral, Numeral.toList, List.append_assoc]
  rfl

/-- The parts of an exponent stand for it. -/
theorem exponentValue_ofNumeral (negative : Bool) (n : Numeral) :
    exponentValue (ofNumeral negative n).exponent = n.exponent.getD 0 := by
  cases exponent : n.exponent with
  | none => simp [exponent, exponentValue]
  | some e =>
    simp only [ofNumeral_exponent, exponent, Option.map_some, exponentValue, decide_eq_true_eq,
      Nat.ofDigitChars_ten_toDigits, Option.getD_some]
    omega

/-- Zeros in front of the digits of an exponent do not hide it. -/
theorem exponent_eq_of_padExponent_eq {m n : Numeral} {p q : Bool}
    (same : (ofNumeral p m).padExponent = (ofNumeral q n).padExponent) :
    m.exponent = n.exponent := by
  have value : m.exponent.getD 0 = n.exponent.getD 0 := by
    rw [← exponentValue_ofNumeral p m, ← exponentValue_padExponent, same,
      exponentValue_padExponent, exponentValue_ofNumeral]
  have given : m.exponent.isSome = n.exponent.isSome := by
    have padded := congrArg (fun w => w.exponent.isSome) same
    simpa only [padExponent_exponent, ofNumeral_exponent, Option.isSome_map] using padded
  generalize m.exponent = e at value given ⊢
  generalize n.exponent = f at value given ⊢
  cases e with
  | none =>
    cases f with
    | none => rfl
    | some f => cases given
  | some e =>
    cases f with
    | none => cases given
    | some f => exact congrArg some value

end Writing
end Calculator
