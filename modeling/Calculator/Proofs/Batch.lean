import Calculator.CommandLine
import Calculator.Proofs.Response

/-!
# Lines of input and lines of output

An input is cut into lines, and every line that is not blank is answered by a line.  This file is
about the output of a whole input.

## Inputs one after the other

The cut is made behind each line feed, and so an input that ends with a line feed can be cut off
whatever comes after it (`Batch.lines_append`).  Lines are answered one by one, up to the first
one that is not UTF-8.  Where there is none in the first input, the output goes on with that of the
second one (`Answer.ofInput_append`).

## One line for each line

What is shown for an input has no line feed in it.  In UTF-8 no character but the line feed itself
has its byte (`toNat_eq_of_mem_utf8EncodeChar`), and hence the lines of the output, cut in the
same way as those of the input, are one for each line that is answered
(`Answer.lines_bytesOf_output`).

## A line and an expression

A line is answered like an expression that is given by itself.  One thing could come in between:
of an expression that ends with a carriage return, that character is taken off with the end of the
line.  But it is a blank, and blanks at the end of an input do not change what is shown
(`Answer.ofInput_bytesOf_line`).
-/

namespace Calculator

/-! ## The bytes of a text -/

/-- The bytes of a text. -/
def bytesOf (text : String) : List UInt8 := text.toUTF8.data.toList

theorem bytesOf_append (s t : String) : bytesOf (s ++ t) = bytesOf s ++ bytesOf t := by
  simp [bytesOf]

theorem bytesOf_ofList (cs : List Char) :
    bytesOf (String.ofList cs) = cs.flatMap String.utf8EncodeChar := by
  simp [bytesOf, List.utf8Encode]

/-- A text is decoded from its bytes. -/
theorem fromUTF8?_bytesOf (text : String) :
    String.fromUTF8? (bytesOf text).toByteArray = some text := by
  have bytes : (bytesOf text).toByteArray = text.toByteArray := by
    ext1
    simp [bytesOf]
  rw [bytes, String.fromUTF8?, dif_pos text.isValidUTF8]
  rfl

/-- **A byte below 128 stands for a character by itself.**  All bytes of the longer forms are
greater. -/
theorem toNat_eq_of_mem_utf8EncodeChar {c : Char} {b : UInt8}
    (member : b ∈ String.utf8EncodeChar c) (small : b < 128) : c.toNat = b.toNat := by
  have small : b.toNat < 128 := small
  have value : c.val.toNat = c.toNat := rfl
  unfold String.utf8EncodeChar at member
  dsimp only at member
  rw [value] at member
  split at member
  · rw [List.mem_singleton] at member
    rw [member, UInt8.toNat_ofNat', Nat.mod_eq_of_lt (by omega)]
  · exfalso
    split at member
    · simp only [List.mem_cons, List.not_mem_nil, or_false] at member
      rcases member with rfl | rfl <;> rw [UInt8.toNat_ofNat'] at small <;> omega
    · split at member
      · simp only [List.mem_cons, List.not_mem_nil, or_false] at member
        rcases member with rfl | rfl | rfl <;> rw [UInt8.toNat_ofNat'] at small <;> omega
      · simp only [List.mem_cons, List.not_mem_nil, or_false] at member
        rcases member with rfl | rfl | rfl | rfl <;> rw [UInt8.toNat_ofNat'] at small <;> omega

/-- A text without a line feed has no byte of one. -/
theorem lineFeed_notMem_bytesOf {text : String} (whole : '\n' ∉ text.toList) :
    lineFeed ∉ bytesOf text := by
  intro member
  rw [← String.ofList_toList (s := text), bytesOf_ofList, List.mem_flatMap] at member
  obtain ⟨c, character, byte⟩ := member
  have code := toNat_eq_of_mem_utf8EncodeChar byte (by decide)
  have same : c = '\n' := Char.toNat_inj.mp code
  exact whole (same ▸ character)

/-- A text whose last byte is that of a carriage return ends with one. -/
theorem exists_eq_append_carriageReturn {text : String}
    (last : (bytesOf text).getLast? = some carriageReturn) : ∃ start, text = start ++ "\r" := by
  obtain ⟨cs, rfl⟩ : ∃ cs, text = String.ofList cs := ⟨_, String.ofList_toList.symm⟩
  rw [bytesOf_ofList] at last
  rcases List.eq_nil_or_concat cs with rfl | ⟨start, c, rfl⟩
  · cases last
  · rw [List.concat_eq_append, List.flatMap_append, List.flatMap_singleton,
      List.getLast?_append_of_ne_nil _ String.utf8EncodeChar_ne_nil] at last
    have code := toNat_eq_of_mem_utf8EncodeChar (List.mem_of_getLast? last) (by decide)
    have same : c = '\r' := Char.toNat_inj.mp code
    refine ⟨String.ofList start, ?_⟩
    rw [List.concat_eq_append, same, String.ofList_append]

namespace Batch

/-! ## The cut into lines -/

/-- Bytes with a line feed behind them and none among them are a line. -/
theorem lines_append_lineFeed {bytes : List UInt8} (whole : lineFeed ∉ bytes)
    (rest : List UInt8) :
    lines (bytes ++ lineFeed :: rest) = (bytes ++ [lineFeed]) :: lines rest := by
  induction bytes with
  | nil => rfl
  | cons b bytes ih =>
    rw [List.mem_cons, not_or] at whole
    rw [List.cons_append, lines_cons, ih whole.2, consByte, if_neg (Ne.symm whole.1)]
    rfl

/-- Bytes make up lines. -/
theorem lines_ne_nil {bytes : List UInt8} (some : bytes ≠ []) : lines bytes ≠ [] := by
  intro none
  have whole := flatten_lines bytes
  rw [none] at whole
  exact some whole.symm

/-- **An input that ends with a line feed is cut off what comes after it.** -/
theorem lines_append {x : List UInt8} (ended : x = [] ∨ x.getLast? = some lineFeed)
    (y : List UInt8) : lines (x ++ y) = lines x ++ lines y := by
  induction x with
  | nil => rfl
  | cons b x ih =>
    have last : (b :: x).getLast? = some lineFeed := ended.resolve_left (List.cons_ne_nil b x)
    rw [List.cons_append, lines_cons, lines_cons]
    by_cases only : x = []
    · rw [only, List.getLast?_singleton, Option.some_inj] at last
      rw [only, last]
      rfl
    · rw [List.getLast?_cons_of_ne_nil only] at last
      rw [ih (.inr last)]
      obtain ⟨line, rest, cut⟩ := List.exists_cons_of_ne_nil (lines_ne_nil only)
      rw [cut]
      unfold consByte
      split <;> rfl

/-! ## The lines that are answered -/

/-- The text of a line, if it is UTF-8. -/
def text? (line : List UInt8) : Option String := String.fromUTF8? (lineContent line).toByteArray

/-- Whether a line is UTF-8. -/
def isReadable (line : List UInt8) : Bool := (text? line).isSome

/-- The texts that are answered: those of the lines in front of the first one that is not UTF-8,
without the blank ones. -/
def answered (lines : List (List UInt8)) : List String :=
  ((lines.takeWhile isReadable).filterMap text?).filter fun text => !isBlankText text

/-- **A report answers these texts, in order**, and it is complete if all lines are UTF-8. -/
theorem reportLines_eq (showTree : Bool) (ls : List (List UInt8)) :
    reportLines showTree ls = ⟨(answered ls).map (respond showTree), ls.all isReadable⟩ := by
  induction ls with
  | nil => rfl
  | cons line ls ih =>
    rw [reportLines, ih]
    cases decoded : String.fromUTF8? (lineContent line).toByteArray with
    | none =>
      have unreadable : isReadable line = false := by rw [isReadable, text?, decoded]; rfl
      simp [answered, unreadable]
    | some text =>
      have found : text? line = some text := decoded
      have readable : isReadable line = true := by rw [isReadable, found]; rfl
      cases blank : isBlankText text <;> simp [answered, readable, found, blank]

theorem answered_append {xs : List (List UInt8)} (readable : ∀ line ∈ xs, isReadable line = true)
    (ys : List (List UInt8)) : answered (xs ++ ys) = answered xs ++ answered ys := by
  have whole : xs.takeWhile isReadable = xs := List.takeWhile_eq_self_iff.mpr readable
  rw [answered, answered, answered, List.takeWhile_append_of_pos readable, whole,
    List.filterMap_append, List.filter_append]

/-- A text without a line feed, written as a line, is read back, if need be without a carriage
return at its end. -/
theorem exists_text?_bytesOf (text : String) :
    ∃ start gap, text = start ++ gap ∧ (∀ c ∈ gap.toList, isBlank c = true) ∧
      text? (bytesOf text ++ [lineFeed]) = some start := by
  have content : lineContent (bytesOf text ++ [lineFeed]) =
      if (bytesOf text).getLast? = some carriageReturn then (bytesOf text).dropLast
      else bytesOf text := by
    rw [lineContent, if_pos List.getLast?_concat, List.dropLast_concat]
  rw [text?, content]
  split
  · next last =>
    obtain ⟨start, rfl⟩ := exists_eq_append_carriageReturn last
    have byte : bytesOf "\r" = [carriageReturn] := by decide +kernel
    refine ⟨start, "\r", rfl, List.all_eq_true.mp (by decide), ?_⟩
    rw [bytesOf_append, byte, List.dropLast_concat, fromUTF8?_bytesOf]
  · refine ⟨text, "", (String.append_empty).symm, by simp, ?_⟩
    rw [fromUTF8?_bytesOf]

end Batch

/-! ## Answers to inputs -/

/-- Lines as they are printed, each with the line feed that ends it. -/
def printed (ls : List String) : String := String.join (ls.map fun line => line ++ "\n")

theorem printed_cons (line : String) (ls : List String) :
    printed (line :: ls) = line ++ "\n" ++ printed ls := by
  rw [printed, List.map_cons, String.join_cons]
  rfl

theorem printed_append (ls ms : List String) : printed (ls ++ ms) = printed ls ++ printed ms := by
  rw [printed, List.map_append, String.join_append]
  rfl

theorem bytesOf_lineFeed : bytesOf "\n" = [lineFeed] := by
  decide +kernel

/-- Lines that are printed are found again in the bytes. -/
theorem Batch.lines_bytesOf_printed {ls : List String} (whole : ∀ line ∈ ls, '\n' ∉ line.toList) :
    lines (bytesOf (printed ls)) = ls.map fun line => bytesOf (line ++ "\n") := by
  induction ls with
  | nil => decide +kernel
  | cons line ls ih =>
    rw [List.forall_mem_cons] at whole
    have bytes : bytesOf (printed (line :: ls)) =
        bytesOf line ++ lineFeed :: bytesOf (printed ls) := by
      rw [printed_cons, bytesOf_append, bytesOf_append, bytesOf_lineFeed, List.append_assoc,
        List.singleton_append]
    rw [bytes, lines_append_lineFeed (lineFeed_notMem_bytesOf whole.1), ih whole.2, List.map_cons,
      bytesOf_append, bytesOf_lineFeed]

namespace Answer

/-- Some lines as an answer are printed. -/
theorem ofLines_eq (ls : List String) (exitCode : UInt8) :
    ofLines ls exitCode = ⟨printed ls, exitCode⟩ := by
  have folded (start : String) :
      ls.foldl (fun text line => text ++ line ++ "\n") start = start ++ printed ls := by
    induction ls generalizing start with
    | nil => exact String.append_empty.symm
    | cons line ls ih =>
      rw [List.foldl_cons, ih, printed_cons, String.append_assoc, String.append_assoc,
        String.append_assoc]
  rw [ofLines, folded, String.empty_append]

/-- **An input is answered by the answers to its lines.** -/
theorem ofInput_eq (showTree : Bool) (bytes : List UInt8) :
    ofInput showTree (some bytes) =
      ⟨printed ((Batch.answered (Batch.lines bytes)).map (respond showTree)),
        if (Batch.lines bytes).all Batch.isReadable then 0 else 1⟩ := by
  rw [ofInput, Batch.report, Batch.reportLines_eq]
  exact ofLines_eq _ _

variable (showTree : Bool)

/-- **Two inputs one after the other are answered one after the other.** -/
theorem ofInput_append {x : List UInt8} (ended : x = [] ∨ x.getLast? = some lineFeed)
    (readable : ∀ line ∈ Batch.lines x, Batch.isReadable line = true) (y : List UInt8) :
    ofInput showTree (some (x ++ y)) =
      ⟨(ofInput showTree (some x)).output ++ (ofInput showTree (some y)).output,
        (ofInput showTree (some y)).exitCode⟩ := by
  have all : (Batch.lines x).all Batch.isReadable = true := List.all_eq_true.mpr readable
  rw [ofInput_eq, ofInput_eq, ofInput_eq, Batch.lines_append ended,
    Batch.answered_append readable, List.map_append, printed_append, List.all_append, all,
    Bool.true_and]

/-- **The output has a line for each text that is answered.** -/
theorem lines_bytesOf_output (bytes : List UInt8) :
    Batch.lines (bytesOf (ofInput showTree (some bytes)).output) =
      (Batch.answered (Batch.lines bytes)).map
        (fun text => bytesOf (respond showTree text ++ "\n")) := by
  rw [ofInput_eq, Batch.lines_bytesOf_printed, List.map_map]
  · rfl
  · intro line member
    obtain ⟨text, -, rfl⟩ := List.mem_map.mp member
    exact lineFeed_notMem_respond showTree text

theorem exitCode_eq_zero_iff (bytes : List UInt8) :
    (ofInput showTree (some bytes)).exitCode = 0 ↔
      ∀ line ∈ Batch.lines bytes, Batch.isReadable line = true := by
  rw [ofInput_eq, ← List.all_eq_true]
  dsimp only
  cases (Batch.lines bytes).all Batch.isReadable <;> decide

theorem exitCode_eq_one_iff (bytes : List UInt8) :
    (ofInput showTree (some bytes)).exitCode = 1 ↔
      ∃ line ∈ Batch.lines bytes, Batch.isReadable line = false := by
  have unreadable : (∃ line ∈ Batch.lines bytes, Batch.isReadable line = false) ↔
      (Batch.lines bytes).all Batch.isReadable = false := by simp
  rw [ofInput_eq, unreadable]
  dsimp only
  cases (Batch.lines bytes).all Batch.isReadable <;> decide

/-- **A line is answered like an expression.** -/
theorem ofInput_bytesOf_line {text : String} (whole : '\n' ∉ text.toList)
    (visible : isBlankText text = false) (read : Source → Option (List UInt8)) :
    ofInput showTree (some (bytesOf (text ++ "\n"))) =
      (Command.single showTree text).answer read := by
  obtain ⟨start, gap, rfl, blank, found⟩ := Batch.exists_text?_bytesOf text
  have cut : Batch.lines (bytesOf (start ++ gap ++ "\n")) =
      [bytesOf (start ++ gap) ++ [lineFeed]] := by
    rw [bytesOf_append, bytesOf_lineFeed]
    exact Batch.lines_append_lineFeed (lineFeed_notMem_bytesOf whole) []
  have readable : Batch.isReadable (bytesOf (start ++ gap) ++ [lineFeed]) = true := by
    rw [Batch.isReadable, found]
    rfl
  rw [isBlankText_append_of_isBlank blank] at visible
  have answered : Batch.answered [bytesOf (start ++ gap) ++ [lineFeed]] = [start] := by
    simp [Batch.answered, readable, found, visible]
  rw [ofInput_eq, cut, answered, Command.answer, ofLines_eq, respond_append_of_isBlank blank]
  simp [readable]

/-- **An input is answered line by line.**

* The answer to two inputs one after the other is that to the first one followed by that to the
  second one, if the first one ends where a line ends and all its lines are UTF-8.
* There is one line of output for each line of input that is not blank and stands in front of the
  first one that is not UTF-8, in the same order.  The exit code says whether there is such a one.
* An expression that is given as a line is answered as by itself. -/
theorem ofInput_line_by_line :
    (∀ x y : List UInt8, (x = [] ∨ x.getLast? = some lineFeed) →
      (∀ line ∈ Batch.lines x, Batch.isReadable line = true) →
      ofInput showTree (some (x ++ y)) =
        ⟨(ofInput showTree (some x)).output ++ (ofInput showTree (some y)).output,
          (ofInput showTree (some y)).exitCode⟩) ∧
    (∀ bytes : List UInt8,
      (ofInput showTree (some bytes)).output =
        printed ((Batch.answered (Batch.lines bytes)).map (respond showTree)) ∧
      Batch.lines (bytesOf (ofInput showTree (some bytes)).output) =
        (Batch.answered (Batch.lines bytes)).map
          (fun text => bytesOf (respond showTree text ++ "\n")) ∧
      ((ofInput showTree (some bytes)).exitCode = 0 ↔
        ∀ line ∈ Batch.lines bytes, Batch.isReadable line = true) ∧
      ((ofInput showTree (some bytes)).exitCode = 1 ↔
        ∃ line ∈ Batch.lines bytes, Batch.isReadable line = false)) ∧
    ∀ (text : String) (read : Source → Option (List UInt8)), '\n' ∉ text.toList →
      isBlankText text = false →
      ofInput showTree (some (bytesOf (text ++ "\n"))) =
        (Command.single showTree text).answer read := by
  refine ⟨fun x y ended readable => ofInput_append showTree ended readable y, fun bytes => ?_,
    fun text read whole visible => ofInput_bytesOf_line showTree whole visible read⟩
  refine ⟨?_, lines_bytesOf_output showTree bytes, exitCode_eq_zero_iff showTree bytes,
    exitCode_eq_one_iff showTree bytes⟩
  rw [ofInput_eq]

/-- The bytes of a line with a carriage return at its end and of a blank line, in front of a byte
that is not UTF-8, and an expression that itself ends with a carriage return. -/
theorem ofInput_line_by_line_carriageReturn :
    [50, 94, 56, 13, 10, 32, 10].getLast? = some lineFeed ∧
    (∀ line ∈ Batch.lines [50, 94, 56, 13, 10, 32, 10], Batch.isReadable line = true) ∧
    ofInput true (some ([50, 94, 56, 13, 10, 32, 10] ++ [255, 10])) =
      ⟨(ofInput true (some [50, 94, 56, 13, 10, 32, 10])).output ++
        (ofInput true (some [255, 10])).output, 1⟩ ∧
    '\n' ∉ "2 ^ 8\r".toList ∧ isBlankText "2 ^ 8\r" = false ∧
    ofInput false (some (bytesOf ("2 ^ 8\r" ++ "\n"))) =
      (Command.single false "2 ^ 8\r").answer fun _ => none := by
  have ended : [50, 94, 56, 13, 10, 32, 10].getLast? = some lineFeed := by decide
  have readable : ∀ line ∈ Batch.lines [50, 94, 56, 13, 10, 32, 10],
      Batch.isReadable line = true := by decide +kernel
  have whole : '\n' ∉ "2 ^ 8\r".toList := by decide
  have visible : isBlankText "2 ^ 8\r" = false := by decide
  have both := (ofInput_line_by_line true).1 _ [255, 10] (.inr ended) readable
  have failed : (ofInput true (some [255, 10])).exitCode = 1 := by decide +kernel
  rw [failed] at both
  exact ⟨ended, readable, both, whole, visible,
    (ofInput_line_by_line false).2.2 _ _ whole visible⟩

end Answer
end Calculator
