import Calculator.Proofs.Binary64.Bits
import Calculator.Proofs.Numeral.Writing
import Mathlib.Tactic.FieldSimp
import Mathlib.Tactic.Positivity

/-!
# The text of a number determines it

Two doubles with the same text are the same double.  The text of a finite one is its sign and a
numeral, and the way back from the text goes through the things that the text was made from, in
the opposite order.

## From the text to the numeral

A numeral is a text with a decimal comma, and its parts can be told from the text.  The exponent
is shown with zeros in front, which do not hide it.  So a numeral is given by its characters
(`Written.eq_of_toList_eq`).

## From the numeral to the double

Different decimals may be laid out as the same numeral, but then they are the same number
(`finest_eq_of_ofDecimal_eq`), because a numeral denotes its decimal
(`magnitude_ofNumeral_ofDecimal`), be it in full or with all its digits and an exponent.  The
decimals that are laid out read back, so that the number is enough to have the double.

Infinity and undefined results are words.  A word begins with a letter and a numeral with a
digit, so neither is taken for the other, and a sign in front of them is seen as such.

## What a text cannot be

A real has a comma, an exponent or a word in its text.  None of them is in the text of an
integer, and so the kind of a number can be seen in its text (`integerText_ne_realText`).  No
number is written with a blank or with a decimal point (`IsNumeric`).
-/

namespace Calculator
namespace Numeral

open Binary64 (Decimal unitExponent)

/-! ## From the text to the numeral -/

/-- Written numbers are the same when their digits are. -/
theorem eq_of_toDigits_eq {m n : Nat} (same : Nat.toDigits 10 m = Nat.toDigits 10 n) : m = n := by
  rw [← @Nat.ofDigitChars_ten_toDigits m, same, Nat.ofDigitChars_ten_toDigits]

/-- A numeral has digits in front of the comma and behind it, where there is a fraction when
there is no exponent. -/
structure Written (n : Numeral) : Prop where
  whole_ne_nil : n.whole ≠ []
  isDigit_whole : ∀ c ∈ n.whole, c.isDigit = true
  isDigit_fraction : ∀ c ∈ n.fraction, c.isDigit = true
  fraction_ne_nil : n.exponent = none → n.fraction ≠ []

/-- A numeral with a sign has the parts that a text has. -/
theorem Written.proper_ofNumeral {n : Numeral} (written : n.Written) (negative : Bool) :
    (Writing.ofNumeral negative n).Proper where
  whole_ne_nil := written.whole_ne_nil
  isDigit_whole := written.isDigit_whole
  isDigit_fraction := written.isDigit_fraction
  fraction_ne_nil none := written.fraction_ne_nil (Option.map_eq_none_iff.mp none)
  exponent_ne_nil := by
    intro e found
    obtain ⟨k, -, rfl⟩ := Option.map_eq_some_iff.mp found
    exact Nat.toDigits_ne_nil
  isDigit_exponent := by
    intro e found
    obtain ⟨k, -, rfl⟩ := Option.map_eq_some_iff.mp found
    exact isDigit_toDigits k.natAbs

/-- **A numeral is given by its characters.** -/
theorem Written.eq_of_toList_eq {m n : Numeral} (left : m.Written) (right : n.Written)
    (same : m.toList = n.toList) : m = n := by
  have parts : (Writing.ofNumeral false m).padExponent = (Writing.ofNumeral false n).padExponent :=
    (left.proper_ofNumeral false).padExponent.eq_of_toList_eq
      (right.proper_ofNumeral false).padExponent (by
        rw [Writing.toList_padExponent_ofNumeral, Writing.toList_padExponent_ofNumeral, same])
  have whole : m.whole = n.whole := congrArg Writing.whole parts
  have fraction : m.fraction = n.fraction := congrArg Writing.fraction parts
  have exponent : m.exponent = n.exponent := Writing.exponent_eq_of_padExponent_eq parts
  cases m
  cases n
  cases whole
  cases fraction
  cases exponent
  rfl

/-! ## From the numeral to the double -/

/-- A decimal with an exponent is laid out as its digits, and the exponent is the power of ten
of the first one. -/
theorem ofDecimal_of_exponent {d : Decimal} {e : Int} (short : (ofDecimal d).exponent = some e) :
    (ofDecimal d).whole = (Nat.toDigits 10 d.coefficient).take 1 ∧
      (ofDecimal d).fraction = (Nat.toDigits 10 d.coefficient).drop 1 ∧
      e = ((Nat.toDigits 10 d.coefficient).length + d.shift : Nat) - (unitExponent + 1 : Nat) := by
  unfold ofDecimal at short ⊢
  dsimp only at short ⊢
  split at short
  case isTrue far =>
    rw [if_pos far]
    exact ⟨rfl, rfl, (Option.some_inj.mp short).symm⟩
  case isFalse => split at short <;> cases short

/-- Every decimal is laid out as a numeral with the parts that a numeral has. -/
theorem written_ofDecimal (d : Decimal) : (ofDecimal d).Written := by
  cases exponent : (ofDecimal d).exponent with
  | none =>
    have full := inFull_ofDecimal exponent
    exact ⟨full.whole_ne_nil, full.isDigit_whole, full.isDigit_fraction,
      fun _ => full.fraction_ne_nil⟩
  | some e =>
    obtain ⟨whole, fraction, -⟩ := ofDecimal_of_exponent exponent
    have digits := isDigit_toDigits d.coefficient
    refine ⟨?_, ?_, ?_, fun none => ?_⟩
    · rw [whole, ← List.length_pos_iff, List.length_take]
      have nonempty : 0 < (Nat.toDigits 10 d.coefficient).length := Nat.length_toDigits_pos
      omega
    · rw [whole]
      exact fun c h => digits c (List.mem_of_mem_take h)
    · rw [fraction]
      exact fun c h => digits c (List.mem_of_mem_drop h)
    · cases exponent.symm.trans none

/-- **The layout of a decimal denotes the decimal.** -/
theorem magnitude_ofNumeral_ofDecimal (negative : Bool) (d : Decimal) :
    (Writing.ofNumeral negative (ofDecimal d)).magnitude =
      (d.finest : ℚ) / Binary64.finestPerOne := by
  have one : (Binary64.finestPerOne : ℚ) ≠ 0 :=
    Nat.cast_ne_zero.mpr (Nat.ne_of_gt Binary64.finestPerOne_pos)
  rw [Writing.magnitude, Writing.exponentValue_ofNumeral, Writing.ofNumeral_whole,
    Writing.ofNumeral_fraction, eq_div_iff one]
  cases exponent : (ofDecimal d).exponent with
  | none =>
    have value := (inFull_ofDecimal exponent).value
    have ten : (10 : ℚ) ^ (ofDecimal d).fraction.length ≠ 0 := by positivity
    rw [Option.getD_none, zero_sub, zpow_neg, mul_right_comm, zpow_natCast,
      mul_inv_eq_iff_eq_mul₀ ten]
    exact_mod_cast value
  | some e =>
    obtain ⟨whole, fraction, place⟩ := ofDecimal_of_exponent exponent
    have nonempty : 0 < (Nat.toDigits 10 d.coefficient).length := Nat.length_toDigits_pos
    -- the place of the last digit does not depend on how many there are
    have last : e - ((Nat.toDigits 10 d.coefficient).drop 1).length =
        (d.shift : ℤ) - unitExponent := by
      rw [List.length_drop]
      omega
    rw [whole, fraction, List.take_append_drop, Nat.ofDigitChars_ten_toDigits, Option.getD_some,
      last, zpow_sub₀ (by norm_num), Decimal.finest, Binary64.finestPerOne]
    simp only [zpow_natCast, Nat.pow_eq]
    push_cast
    field_simp

/-- **Decimals that are laid out as the same numeral are the same number.** -/
theorem finest_eq_of_ofDecimal_eq {c d : Decimal} (same : ofDecimal c = ofDecimal d) :
    c.finest = d.finest := by
  have one : (Binary64.finestPerOne : ℚ) ≠ 0 :=
    Nat.cast_ne_zero.mpr (Nat.ne_of_gt Binary64.finestPerOne_pos)
  have quotients := magnitude_ofNumeral_ofDecimal false d
  rw [← same, magnitude_ofNumeral_ofDecimal, div_left_inj' one] at quotients
  exact_mod_cast quotients

/-- A numeral begins with a digit. -/
theorem Written.isDigit_head {n : Numeral} (written : n.Written) :
    ∀ c ∈ n.toList.head?, c.isDigit = true := by
  intro c head
  obtain ⟨d, whole, first⟩ := List.exists_cons_of_ne_nil written.whole_ne_nil
  rw [toList, first] at head
  cases head
  exact written.isDigit_whole _ (by rw [first]; exact List.mem_cons_self)

/-- The characters of a double without its sign, where it has one. -/
def magnitudeText (code : Nat) : List Char :=
  if code = Binary64.infinite then ['i', 'n', 'f']
  else (ofDecimal (Binary64.shortest code)).toList

/-- A double that is defined is written as its sign and its magnitude. -/
theorem realText_of_le {x : Float} (defined : Binary64.code x ≤ Binary64.infinite) :
    realText x =
      (if Binary64.isNegative x then ['-'] else []) ++ magnitudeText (Binary64.code x) := by
  rw [realText]
  exact if_neg (Nat.not_lt.mpr defined)

theorem realText_of_infinite_lt {x : Float} (undefined : Binary64.infinite < Binary64.code x) :
    realText x = ['n', 'a', 'n'] := by
  rw [realText]
  exact if_pos undefined

/-- A magnitude begins with a digit, or with the first letter of infinity. -/
theorem head_magnitudeText {code : Nat} :
    ∀ c ∈ (magnitudeText code).head?, c.isDigit = true ∨ c = 'i' := by
  intro c head
  unfold magnitudeText at head
  split at head
  · cases head
    exact .inr rfl
  · exact .inl ((written_ofDecimal _).isDigit_head c head)

/-- So it does not begin with a character of another kind. -/
theorem magnitudeText_ne_cons {code : Nat} {c : Char} {rest : List Char}
    (nondigit : c.isDigit = false) (other : c ≠ 'i') : magnitudeText code ≠ c :: rest := by
  intro h
  rcases head_magnitudeText c (by rw [h]; rfl) with digit | first
  · exact Bool.false_ne_true (nondigit.symm.trans digit)
  · exact other first

/-- **A magnitude determines its code.** -/
theorem eq_of_magnitudeText_eq {code other : Nat} (finite : code ≤ Binary64.infinite)
    (finite' : other ≤ Binary64.infinite) (same : magnitudeText code = magnitudeText other) :
    code = other := by
  -- infinity is a word, and no numeral
  have word (d : Decimal) : ['i', 'n', 'f'] ≠ (ofDecimal d).toList := by
    intro h
    have digit := (written_ofDecimal d).isDigit_head 'i' (by rw [← h]; rfl)
    cases digit
  unfold magnitudeText at same
  split at same
  case isTrue left =>
    split at same
    case isTrue right => exact left.trans right.symm
    case isFalse => exact absurd same (word _)
  case isFalse =>
    split at same
    case isTrue => exact absurd same.symm (word _)
    case isFalse =>
      have numeral := (written_ofDecimal _).eq_of_toList_eq (written_ofDecimal _) same
      have nearest : (Binary64.shortest code).nearest = (Binary64.shortest other).nearest :=
        congrArg (Binary64.nearest · Binary64.finestPerOne) (finest_eq_of_ofDecimal_eq numeral)
      rwa [Binary64.nearest_shortest finite, Binary64.nearest_shortest finite'] at nearest

/-- **A double is given by its text.** -/
theorem eq_of_realText_eq {x y : Float} (same : realText x = realText y) : x = y := by
  -- an undefined result is a word that no other double is written as
  have word {x : Float} (defined : Binary64.code x ≤ Binary64.infinite) :
      realText x ≠ ['n', 'a', 'n'] := by
    intro h
    rw [realText_of_le defined] at h
    split at h
    · cases h
    · exact magnitudeText_ne_cons (by decide) (by decide) h
  have unsigned (code : Nat) : ∀ c ∈ (magnitudeText code).head?, c ≠ '-' := by
    rintro c head rfl
    rcases head_magnitudeText _ head with digit | first
    · cases digit
    · cases first
  rcases Nat.lt_or_ge Binary64.infinite (Binary64.code x) with left | left <;>
    rcases Nat.lt_or_ge Binary64.infinite (Binary64.code y) with right | right
  · exact Binary64.eq_of_infinite_lt_code left right
  · exact absurd (same.symm.trans (realText_of_infinite_lt left)) (word right)
  · exact absurd (same.trans (realText_of_infinite_lt right)) (word left)
  · rw [realText_of_le left, realText_of_le right] at same
    obtain ⟨sign, magnitude⟩ := Writing.eq_of_signed (unsigned _) (unsigned _) same
    exact Binary64.eq_of_code_eq (Bool.eq_iff_iff.mpr sign)
      (eq_of_magnitudeText_eq left right magnitude)

/-! ## Integers and reals -/

/-- **An integer is given by its text.** -/
theorem eq_of_integerText_eq {m n : Int} (same : integerText m = integerText n) : m = n := by
  have unsigned (k : Nat) : ∀ c ∈ (Nat.toDigits 10 k).head?, c ≠ '-' := by
    rintro c head rfl
    cases isDigit_toDigits k '-' (List.mem_of_mem_head? head)
  obtain ⟨sign, digits⟩ := Writing.eq_of_signed (unsigned _) (unsigned _) same
  have size := eq_of_toDigits_eq digits
  omega

/-- An integer is written with digits and a sign only. -/
theorem mem_integerText {n : Int} : ∀ c ∈ integerText n, c.isDigit = true ∨ c = '-' := by
  intro c member
  rcases List.mem_append.mp member with sign | digit
  · split at sign
    · exact .inr (List.mem_singleton.mp sign)
    · cases sign
  · exact .inl (isDigit_toDigits _ c digit)

/-- A numeral shows that it is one of a real, by its comma or by its exponent. -/
theorem Written.exists_mem_toList {n : Numeral} (written : n.Written) :
    ∃ c ∈ n.toList, c = ',' ∨ c = 'e' := by
  cases exponent : n.exponent with
  | none =>
    obtain ⟨d, fraction, some⟩ := List.exists_cons_of_ne_nil (written.fraction_ne_nil exponent)
    refine ⟨',', ?_, .inl rfl⟩
    simp [toList, fractionText, some]
  | some e =>
    refine ⟨'e', ?_, .inr rfl⟩
    simp [toList, exponent, exponentText]

/-- Every real is written with a comma or a letter. -/
theorem exists_mem_realText (x : Float) : ∃ c ∈ realText x, c.isDigit = false ∧ c ≠ '-' := by
  rcases Nat.lt_or_ge Binary64.infinite (Binary64.code x) with undefined | defined
  · rw [realText_of_infinite_lt undefined]
    exact ⟨'n', List.mem_cons_self, by decide⟩
  have mark : ∃ c ∈ magnitudeText (Binary64.code x), c = 'i' ∨ c = ',' ∨ c = 'e' := by
    unfold magnitudeText
    split
    · exact ⟨'i', List.mem_cons_self, .inl rfl⟩
    · obtain ⟨c, member, mark⟩ := (written_ofDecimal (Binary64.shortest _)).exists_mem_toList
      exact ⟨c, member, .inr mark⟩
  obtain ⟨c, member, mark⟩ := mark
  rw [realText_of_le defined]
  refine ⟨c, List.mem_append_right _ member, ?_⟩
  rcases mark with rfl | rfl | rfl <;> decide

/-- **No integer is written as a real.** -/
theorem integerText_ne_realText (n : Int) (x : Float) : integerText n ≠ realText x := by
  intro same
  obtain ⟨c, member, nondigit, other⟩ := exists_mem_realText x
  rw [← same] at member
  rcases mem_integerText c member with digit | sign
  · exact Bool.false_ne_true (nondigit.symm.trans digit)
  · exact other sign

/-! ## The characters of numbers -/

/-- A character that numbers are written with: a digit, a sign, the comma, or a letter of an
exponent or of a word. -/
def IsNumeric (c : Char) : Prop :=
  c.isDigit = true ∨ c ∈ ['-', '+', decimalSeparator, 'e', 'i', 'n', 'f', 'a']

/-- None of them is blank. -/
theorem IsNumeric.isBlank {c : Char} (numeric : IsNumeric c) : isBlank c = false := by
  rcases numeric with digit | mark
  · exact isBlank_of_isDigit digit
  · simp only [List.mem_cons, List.not_mem_nil, or_false] at mark
    rcases mark with rfl | rfl | rfl | rfl | rfl | rfl | rfl | rfl <;> decide

/-- Nor is one the decimal point. -/
theorem IsNumeric.ne_point {c : Char} (numeric : IsNumeric c) : c ≠ '.' := by
  rintro rfl
  rcases numeric with digit | mark
  · cases digit
  · simp [decimalSeparator] at mark

theorem isNumeric_integerText (n : Int) : ∀ c ∈ integerText n, IsNumeric c := by
  intro c member
  rcases mem_integerText c member with digit | rfl
  · exact .inl digit
  · exact .inr (by decide)

/-- A text with a decimal comma is written with these characters. -/
theorem isNumeric_writing {w : Writing} (proper : w.Proper) :
    ∀ c ∈ w.toList .comma, IsNumeric c := by
  intro c member
  rw [Writing.toList_eq_mantissaChars_append, List.mem_append] at member
  rcases member with mantissa | exponent
  · rcases proper.mem_mantissaChars c mantissa with digit | rfl | rfl
    · exact .inl digit
    · exact .inr (by decide)
    · exact .inr (by decide)
  · rcases proper.mem_exponentChars c exponent with digit | rfl | rfl | rfl
    · exact .inl digit
    · exact .inr (by decide)
    · exact .inr (by decide)
    · exact .inr (by decide)

theorem Written.isNumeric_toList {n : Numeral} (written : n.Written) :
    ∀ c ∈ n.toList, IsNumeric c := by
  have writing := isNumeric_writing (written.proper_ofNumeral false).padExponent
  rwa [Writing.toList_padExponent_ofNumeral] at writing

/-- **A real is written with these characters**, be it finite or not. -/
theorem isNumeric_realText (x : Float) : ∀ c ∈ realText x, IsNumeric c := by
  have word {cs : List Char}
      (letters : ∀ c ∈ cs, c ∈ ['-', '+', decimalSeparator, 'e', 'i', 'n', 'f', 'a']) :
      ∀ c ∈ cs, IsNumeric c := fun c member => .inr (letters c member)
  rcases Nat.lt_or_ge Binary64.infinite (Binary64.code x) with undefined | defined
  · rw [realText_of_infinite_lt undefined]
    exact word (by simp)
  rw [realText_of_le defined, List.forall_mem_append]
  constructor
  · split <;> exact word (by simp)
  · unfold magnitudeText
    split
    · exact word (by simp)
    · exact (written_ofDecimal _).isNumeric_toList

end Numeral
end Calculator
