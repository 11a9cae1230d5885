import Calculator.Proofs.Numeral.Distinct

/-!
# The decimal comma keeps the number

The text of a real can be had from its text with a decimal point.  The text is cut in front of
the letter of its exponent, if it has one, the exponent gets a sign and a second digit, and then
all points are replaced by commas (`withComma`).  This file is about what the rewriting does to
any text with a decimal point, and about the texts of doubles, which arise in this way.

## One text, the other text

The rewriting goes by characters, and it does not look at the parts of the text.  It does the
right thing nevertheless, because the first `e` of a text is the letter of the exponent, and a
minus sign behind it is the sign of the exponent.  What comes out is the text with a comma of the
parts with a padded exponent (`Proper.withComma_toList`).

## One number

The parts with a padded exponent denote what the parts do, and they are read as the same double.
In this sense the one text renders the other (`Renders`).  The parts of the shortest decimal of a
double denote the decimal, and since the decimal reads back, they are read as the double
(`double_ofDouble`).  So the double is had from either text.
-/

namespace Calculator

/-- The sign and the digits of an exponent.  Without a minus sign it is given a plus sign. -/
def signedExponent : List Char → Char × List Char
  | '-' :: digits => ('-', digits)
  | digits => ('+', digits)

/-- A text whose exponent, if it has one, is signed and has at least two digits. -/
def withSignedExponent (text : List Char) : List Char :=
  match text.dropWhile (· != 'e') with
  | [] => text
  | _ :: exponent =>
    let (sign, digits) := signedExponent exponent
    text.takeWhile (· != 'e') ++ 'e' :: sign :: Writing.twoDigits digits

/-- A comma in the place of a point. -/
def commaOf (c : Char) : Char := if c = '.' then decimalSeparator else c

/-- A text with a decimal comma for a text with a decimal point. -/
def withComma (text : List Char) : List Char := (withSignedExponent text).map commaOf

/-- The parts of the shortest decimal of a double. -/
def Writing.ofDouble (x : Float) : Writing :=
  ofNumeral (Binary64.isNegative x)
    (Numeral.ofDecimal (Binary64.shortest (Binary64.code x)))

/-- The characters of a double with a decimal point. -/
def pointText (x : Float) : List Char := (Writing.ofDouble x).toList .point

/-! ## Exponents -/

theorem signedExponent_sign_append {negative : Bool} {digits : List Char}
    (figures : ∀ c ∈ digits, c.isDigit = true) :
    signedExponent ((if negative then ['-'] else []) ++ digits) =
      (if negative then '-' else '+', digits) := by
  cases negative with
  | true => rfl
  | false =>
    show signedExponent digits = ('+', digits)
    unfold signedExponent
    split
    · cases figures '-' List.mem_cons_self
    · rfl

namespace Writing

variable {w : Writing}

/-! ## The rewriting -/

/-- **The exponent is found by its letter** and is given a sign and a second digit. -/
theorem Proper.withSignedExponent_toList (proper : w.Proper) :
    withSignedExponent (w.toList .point) =
      w.mantissaChars .point ++ exponentChars .comma w.padExponent.exponent := by
  have inside : ∀ c ∈ w.mantissaChars .point, (c != 'e') = true := by
    intro c member
    rcases proper.mem_mantissaChars c member with digit | rfl | rfl
    · rw [bne_iff_ne]
      rintro rfl
      cases digit
    · decide
    · decide
  have ends : ∀ c ∈ (exponentChars .point w.exponent).head?, (c != 'e') = false := by
    intro c head
    rw [head_exponentChars c head]
    decide
  obtain ⟨front, behind⟩ := Lexeme.takeWhile_of_closed inside ends
  rw [withSignedExponent, toList_eq_mantissaChars_append, front, behind, padExponent_exponent]
  cases exponent : w.exponent with
  | none => rfl
  | some e =>
    obtain ⟨negative, digits⟩ := e
    simp only [exponentChars, Style.plus]
    rw [signedExponent_sign_append (proper.isDigit_exponent _ exponent)]
    cases negative <;> rfl

/-- Characters without a point are kept as they are. -/
theorem map_commaOf_of_forall_ne {cs : List Char} (points : ∀ c ∈ cs, c ≠ '.') :
    cs.map commaOf = cs :=
  (List.map_congr_left fun c member => if_neg (points c member)).trans (List.map_id cs)

theorem map_commaOf_of_isDigit {cs : List Char} (digits : ∀ c ∈ cs, c.isDigit = true) :
    cs.map commaOf = cs :=
  map_commaOf_of_forall_ne fun c member => Numeral.IsNumeric.ne_point (.inl (digits c member))

/-- The point of a fraction becomes a comma. -/
theorem Proper.map_commaOf_mantissaChars (proper : w.Proper) :
    (w.mantissaChars .point).map commaOf = w.mantissaChars .comma := by
  have sign : (if w.negative then ['-'] else []).map commaOf =
      if w.negative then ['-'] else [] := by
    cases w.negative <;> rfl
  have fraction : (fractionChars .point w.fraction).map commaOf =
      fractionChars .comma w.fraction := by
    unfold fractionChars
    split
    · rfl
    · rw [List.map_cons, map_commaOf_of_isDigit proper.isDigit_fraction]
      rfl
  rw [mantissaChars, List.map_append, List.map_append, sign, fraction,
    map_commaOf_of_isDigit proper.isDigit_whole, mantissaChars]

/-- A signed exponent has no point. -/
theorem Proper.map_commaOf_exponentChars (proper : w.Proper) :
    (exponentChars .comma w.exponent).map commaOf = exponentChars .comma w.exponent := by
  refine map_commaOf_of_forall_ne fun c member => ?_
  have within : c ∈ w.toList .comma := by
    rw [toList_eq_mantissaChars_append]
    exact List.mem_append_right _ member
  exact (Numeral.isNumeric_writing proper c within).ne_point

/-- **The rewritten text has the same parts**, with a padded exponent. -/
theorem Proper.withComma_toList (proper : w.Proper) :
    withComma (w.toList .point) = w.padExponent.toList .comma := by
  rw [withComma, proper.withSignedExponent_toList, List.map_append,
    proper.map_commaOf_mantissaChars, proper.padExponent.map_commaOf_exponentChars,
    toList_eq_mantissaChars_append]
  rfl

/-! ## The texts of doubles -/

theorem proper_ofDouble (x : Float) : (ofDouble x).Proper :=
  (Numeral.written_ofDecimal _).proper_ofNumeral _

/-- Rounding a fraction in lowest terms is rounding the fraction. -/
theorem nearest_num_den (a : ℕ) {b : ℕ} (positive : 0 < b) :
    Binary64.nearest ((a : ℚ) / b).num.natAbs ((a : ℚ) / b).den = Binary64.nearest a b := by
  have fraction : 0 < (b : ℚ) := Nat.cast_pos.mpr positive
  generalize value : (a : ℚ) / b = q
  have sign : (q.num.natAbs : ℤ) = q.num := by
    rw [Int.natAbs_of_nonneg (Rat.num_nonneg.mpr (value ▸ by positivity))]
  have equal : a * q.den = q.num.natAbs * b := by
    have crossed : (a : ℚ) / b = (q.num.natAbs : ℚ) / q.den := by
      rw [value, ← Int.cast_natCast q.num.natAbs, sign, Rat.num_div_den]
    rw [div_eq_div_iff fraction.ne' (Nat.cast_ne_zero.mpr q.den_nz)] at crossed
    exact_mod_cast crossed
  exact Nat.le_antisymm (Binary64.nearest_le_nearest q.den_pos positive equal.ge)
    (Binary64.nearest_le_nearest positive q.den_pos equal.le)

/-- **The parts of a double are read as the double.** -/
theorem double_ofDouble {x : Float} (finite : Binary64.code x < Binary64.infinite) :
    (ofDouble x).double = x := by
  have back : Binary64.nearest _ Binary64.finestPerOne = _ :=
    Binary64.nearest_shortest (Nat.le_of_lt finite)
  rw [double, ofDouble, Numeral.magnitude_ofNumeral_ofDecimal,
    nearest_num_den _ Binary64.finestPerOne_pos, Binary64.Decimal.finest, back]
  exact Binary64.ofCode_code x

end Writing

/-- **A finite double is written with a comma** as it is written with a point. -/
theorem Numeral.realText_eq_withComma {x : Float}
    (finite : Binary64.code x < Binary64.infinite) : realText x = withComma (pointText x) := by
  rw [realText_of_le (Nat.le_of_lt finite), magnitudeText, if_neg (Nat.ne_of_lt finite),
    pointText, (Writing.proper_ofDouble x).withComma_toList, Writing.ofDouble,
    Writing.toList_padExponent_ofNumeral]

/-! ## The number is kept -/

/-- A text with a decimal comma, with two digits at least in its exponent, that stands for the
same number as a text with a decimal point: it denotes the same rational number and is read as
the same double, each of them the only one. -/
structure Renders (text result : List Char) : Prop where
  form : ∃ w : Writing, w.Proper ∧ w.toList .comma = result ∧ ∀ e ∈ w.exponent, 2 ≤ e.2.length
  point_notMem : '.' ∉ result
  denotes : ∃ q, ∀ r, (Denotes .point text r ↔ r = q) ∧ (Denotes .comma result r ↔ r = q)
  reads : ∃ x, ∀ y, (ReadsAs .point text y ↔ y = x) ∧ (ReadsAs .comma result y ↔ y = x)

/-- The rewritten text stands for the number of the text. -/
theorem Writing.Proper.renders {w : Writing} (proper : w.Proper) :
    Renders (w.toList .point) (withComma (w.toList .point)) := by
  rw [proper.withComma_toList]
  refine ⟨⟨_, proper.padExponent, rfl, length_exponent_padExponent w⟩, fun point => ?_,
    ⟨w.value, fun r => ?_⟩, ⟨w.double, fun y => ?_⟩⟩
  · exact (Numeral.isNumeric_writing proper.padExponent '.' point).ne_point rfl
  · rw [proper.denotes_iff, proper.padExponent.denotes_iff, value_padExponent, eq_comm]
    exact ⟨Iff.rfl, Iff.rfl⟩
  · rw [proper.readsAs_iff, proper.padExponent.readsAs_iff, double_padExponent, eq_comm]
    exact ⟨Iff.rfl, Iff.rfl⟩

/-- The text of a finite double with a decimal point is read as the double. -/
theorem readsAs_pointText {x : Float} (finite : Binary64.code x < Binary64.infinite) :
    ReadsAs .point (pointText x) x :=
  ⟨_, Writing.proper_ofDouble x, rfl, Writing.double_ofDouble finite⟩

/-- **The text of a finite double with a decimal comma is read as the double**, and as no other
one. -/
theorem Numeral.readsAs_realText_iff {x y : Float}
    (finite : Binary64.code x < Binary64.infinite) : ReadsAs .comma (realText x) y ↔ y = x := by
  obtain ⟨z, reads⟩ := (Writing.proper_ofDouble x).renders.reads
  obtain rfl : x = z := (reads x).1.mp (readsAs_pointText finite)
  rw [realText_eq_withComma finite]
  exact (reads y).2

/-- **The decimal comma keeps the number.**  Any text with a decimal point that has the form of a
real number is rewritten to one with a decimal comma that denotes the same rational number.  The
text of a finite double arises in this way from a text that is read as the double; it is itself
read as that double only, and so no two finite doubles have the same text. -/
theorem Numeral.realText_renders :
    (∀ w : Writing, w.Proper → Renders (w.toList .point) (withComma (w.toList .point))) ∧
      (∀ x, Binary64.code x < Binary64.infinite →
        ReadsAs .point (pointText x) x ∧ realText x = withComma (pointText x) ∧
          Renders (pointText x) (realText x) ∧
          ∀ y, ReadsAs .comma (realText x) y ↔ y = x) ∧
      ∀ x y, Binary64.code x < Binary64.infinite → Binary64.code y < Binary64.infinite →
        realText x = realText y → x = y := by
  refine ⟨fun w proper => proper.renders, fun x finite => ?_, fun x y finite finite' same => ?_⟩
  · refine ⟨readsAs_pointText finite, realText_eq_withComma finite, ?_,
      fun y => readsAs_realText_iff finite⟩
    rw [realText_eq_withComma finite]
    exact (Writing.proper_ofDouble x).renders
  · have reads := (readsAs_realText_iff (y := y) finite)
    rw [same, readsAs_realText_iff finite'] at reads
    exact (reads.mp rfl).symm

/-- A sign in front and one in the exponent stay where they are when the exponent is padded. -/
theorem Numeral.realText_renders_signs :
    pointText (-2.5e-7) = "-2.5e-7".toList ∧ realText (-2.5e-7) = "-2,5e-07".toList ∧
      Renders "-2.5e-7".toList (withComma "-2.5e-7".toList) ∧
      Binary64.code (-2.5e-7) < Binary64.infinite ∧
      Renders (pointText (-2.5e-7)) (realText (-2.5e-7)) := by
  have finite : Binary64.code (-2.5e-7) < Binary64.infinite := by decide +kernel
  refine ⟨by decide +kernel, by decide +kernel, ?_, finite,
    (realText_renders.2.1 _ finite).2.2.1⟩
  exact realText_renders.1 ⟨true, ['2'], ['5'], some (true, ['7'])⟩
    ⟨nofun, by simp, by simp, nofun, by simp, by simp⟩

end Calculator
