import Calculator.Proofs.Arrangement.Faults

/-!
# What is wrong with parentheses

The check reports three things about parentheses: some are not closed at the end, one closes
nothing, and one closes a pair with nothing inside.  Each report is a statement about other
sequences, namely the tokens before the place with more of them or fewer, and each of them is
exact.  Open parentheses are as many as have to be closed (`Clears.check_append_closings_iff`,
`check_eq_unclosed_of_closed`); what stands before a parenthesis that closes nothing is complete
by itself (`check_eq_unmatchedClosing_iff`); and what stands before the end of an empty pair lacks
nothing but closing parentheses (`check_eq_emptyGroup_iff`).

## Cutting off and adding

`Clears before depth ts after d` says that the check goes through `ts` when these tokens stand
between `before` and `after`, and that it counts from `depth` to `d` on the way.  The check looks
one token ahead, so the last one of the tokens depends on `after`; but to every token a closing
parenthesis behind it is as good or bad as the end (`fitsBefore_closing`).  For this reason the
tokens before a closing parenthesis can be cut off there, and closing parentheses can be added
at the end, and everything before stays as it is (`Clears.closing_iff`).
-/

namespace Calculator
namespace Arrangement

variable {before after : Option Token} {depth d index : Nat} {token : Token} {ts us : List Token}
  {e : ArrangementError}

/-! ## Counting -/

/-- A count goes up with an opening parenthesis and down with a closing one that closes
something. -/
theorem openAfter_eq_ok_iff : openAfter before token index depth = .ok d ↔
    token = .opening ∧ d = depth + 1 ∨
    token = .closing ∧ before ≠ some .opening ∧ depth = d + 1 ∨
    token ≠ .opening ∧ token ≠ .closing ∧ d = depth := by
  cases token with
  | opening => simp [openAfter, eq_comm]
  | closing =>
    rw [openAfter]
    split
    · simp [*]
    · split
      · simp [*]
      · simp [*]; omega
  | _ => simp [openAfter, eq_comm]

/-- Only a closing parenthesis is refused, behind an opening one as an empty pair and else if
there is nothing to close. -/
theorem openAfter_eq_error_iff : openAfter before token index depth = .error e ↔
    token = .closing ∧ (before = some .opening ∧ e = .emptyGroup index ∨
      before ≠ some .opening ∧ depth = 0 ∧ e = .unmatchedClosing index) := by
  cases token with
  | closing =>
    rw [openAfter]
    split
    · simp [*, eq_comm]
    · split <;> simp [*, eq_comm]
  | _ => simp [openAfter]

/-- Whether a token is counted does not depend on where it stands. -/
theorem openAfter_of_ok (allowed : openAfter before token index depth = .ok d) (other : Nat) :
    openAfter before token other depth = .ok d :=
  openAfter_eq_ok_iff.mpr (openAfter_eq_ok_iff.mp allowed)

/-! ## Clearing some tokens -/

/-- The check goes through some tokens that stand between two others, and counts the open
parentheses on the way. -/
inductive Clears : Option Token → Nat → List Token → Option Token → Nat → Prop
  | nil (before : Option Token) (depth : Nat) (after : Option Token) :
      Clears before depth [] after depth
  | cons {before after : Option Token} {depth d d' : Nat} {token : Token} {ts : List Token} :
      (∀ index, openAfter before token index depth = .ok d) → fitsAfter before token = true →
      fitsBefore token (ts.head?.or after) = true → Clears (some token) d ts after d' →
      Clears before depth (token :: ts) after d'

/-- The token before the rest of a sequence is the last one of those taken, if there is one. -/
theorem getLast?_cons_or (before : Option Token) (token : Token) (ts : List Token) :
    (token :: ts).getLast?.or before = ts.getLast?.or (some token) := by
  rw [List.getLast?_cons]
  cases ts.getLast? <;> rfl

/-- The check goes on behind the tokens that are cleared. -/
theorem Clears.checkFrom_append (clears : Clears before depth ts us.head? d) (index : Nat) :
    checkFrom before index depth (ts ++ us) =
      checkFrom (ts.getLast?.or before) (index + ts.length) d us := by
  generalize next : us.head? = after at clears
  induction clears generalizing index with
  | nil => rfl
  | @cons before after depth d d' token ts allowed behind ahead _ ih =>
    have fitting : fits before token (ts ++ us).head? = true := by
      rw [fits_eq, List.head?_append, next, behind, ahead]
      rfl
    rw [List.cons_append, checkFrom, allowed index, getLast?_cons_or, List.length_cons,
      Nat.add_comm ts.length, ← Nat.add_assoc, ← ih (index + 1) next]
    exact if_pos fitting

/-- If all of some tokens are cleared, so are the first ones and behind them the rest. -/
theorem Clears.exists_of_append (clears : Clears before depth (ts ++ us) after d) :
    ∃ m, Clears before depth ts (us.head?.or after) m ∧
      Clears (ts.getLast?.or before) m us after d := by
  induction ts generalizing before depth with
  | nil => exact ⟨depth, .nil _ _ _, clears⟩
  | cons token ts ih =>
    rw [List.cons_append] at clears
    cases clears with
    | cons allowed behind ahead clears =>
      obtain ⟨m, first, rest⟩ := ih clears
      rw [List.head?_append, Option.or_assoc] at ahead
      exact ⟨m, .cons allowed behind ahead first, by rwa [getLast?_cons_or]⟩

/-- At the end of tokens that are cleared there is only the count to look at. -/
theorem Clears.checkFrom_eq (clears : Clears before depth ts none d) (index : Nat) :
    checkFrom before index depth ts = if d = 0 then .ok () else .error (.unclosed d) := by
  have whole : checkFrom before index depth (ts ++ []) = _ :=
    Clears.checkFrom_append clears index
  rwa [List.append_nil] at whole

/-- The count is what is opened less what is closed. -/
theorem Clears.count_eq (clears : Clears before depth ts after d) :
    d + ts.count .closing = depth + ts.count .opening := by
  induction clears with
  | nil => rfl
  | @cons before after depth d d' token ts allowed _ _ _ ih =>
    rcases openAfter_eq_ok_iff.mp (allowed 0) with ⟨rfl, rfl⟩ | ⟨rfl, -, rfl⟩ | ⟨no, nc, rfl⟩
    · simp; omega
    · simp; omega
    · simpa [List.count_cons_of_ne, no, nc] using ih

/-- Behind an opening parenthesis one is open. -/
theorem Clears.pos_of_getLast? (clears : Clears before depth ts after d)
    (last : ts.getLast? = some .opening) : 0 < d := by
  induction clears with
  | nil => cases last
  | @cons before after depth d d' token ts allowed _ _ clears ih =>
    cases clears with
    | nil =>
      cases last
      obtain ⟨-, rfl⟩ | ⟨⟨⟩, -⟩ | ⟨no, -⟩ := openAfter_eq_ok_iff.mp (allowed 0)
      · exact Nat.succ_pos _
      · exact absurd rfl no
    | cons => exact ih (by rwa [List.getLast?_cons_cons] at last)

/-- To a token that stands before it, a closing parenthesis is like the end. -/
theorem fitsBefore_closing (token : Token) :
    fitsBefore token (some .closing) = fitsBefore token none := by
  cases token <;> rfl

/-- What the tokens before it make of something behind them is all that counts. -/
theorem Clears.of_after {other : Option Token}
    (same : ∀ token, fitsBefore token other = fitsBefore token after)
    (clears : Clears before depth ts after d) : Clears before depth ts other d := by
  induction clears with
  | nil => exact .nil _ _ _
  | @cons before after depth d d' token ts allowed behind ahead _ ih =>
    refine .cons allowed behind ?_ (ih same)
    cases ts with
    | nil => exact (same token).trans ahead
    | cons next ts => exact ahead

/-- **Tokens that are cleared before a closing parenthesis are cleared before the end**, and the
other way round. -/
theorem Clears.closing_iff :
    Clears before depth ts (some .closing) d ↔ Clears before depth ts none d :=
  ⟨.of_after fun token => (fitsBefore_closing token).symm, .of_after fitsBefore_closing⟩

/-- A sequence passes when all of it is cleared and nothing is open. -/
theorem checkFrom_eq_ok_iff_clears :
    checkFrom before index depth ts = .ok () ↔ Clears before depth ts none 0 := by
  constructor
  · intro passed
    induction ts generalizing before index depth with
    | nil =>
      rw [checkFrom] at passed
      split at passed
      · next zero =>
        subst zero
        exact .nil _ _ _
      · cases passed
    | cons token ts ih =>
      obtain ⟨d, allowed, behind, ahead, passed⟩ :=
        (checkFrom_cons_eq_ok_iff _ _ _ _ _).mp passed
      exact .cons (openAfter_of_ok allowed) behind (by rwa [Option.or_none]) (ih passed)
  · intro clears
    exact clears.checkFrom_eq index

/-- What the check finds wrong behind the tokens it has cleared, if that is a parenthesis. -/
def Refuses (before : Option Token) (index depth : Nat) (e : ArrangementError) :
    List Token → Prop
  | [] => depth ≠ 0 ∧ e = .unclosed depth
  | token :: _ => openAfter before token index depth = .error e

/-- **A fault of a parenthesis stands behind tokens that are cleared.** -/
theorem exists_clears_of_parenthesis (failed : checkFrom before index depth ts = .error e)
    (parenthesis : e.IsParenthesis) :
    ∃ taken rest d, ts = taken ++ rest ∧ Clears before depth taken rest.head? d ∧
      Refuses (taken.getLast?.or before) (index + taken.length) d e rest := by
  induction ts generalizing before index depth with
  | nil =>
    rw [checkFrom] at failed
    split at failed
    · cases failed
    · next unclosed =>
      cases failed
      exact ⟨[], [], depth, rfl, .nil _ _ _, unclosed, rfl⟩
  | cons token ts ih =>
    rcases checkFrom_cons_eq_error_iff.mp failed with
      refused | ⟨d, allowed, ⟨-, rfl⟩ | ⟨-, -, rfl⟩ | ⟨behind, ahead, failed⟩⟩
    · exact ⟨[], token :: ts, depth, rfl, .nil _ _ _, refused⟩
    · exact parenthesis.elim
    · exact parenthesis.elim
    · obtain ⟨taken, rest, d', rfl, clears, refused⟩ := ih failed
      refine ⟨token :: taken, rest, d', rfl, .cons (openAfter_of_ok allowed) behind ?_ clears, ?_⟩
      · rwa [← List.head?_append]
      · rwa [getLast?_cons_or, List.length_cons, Nat.add_comm taken.length, ← Nat.add_assoc]

/-! ## Whole sequences -/

/-- The check of a sequence goes on behind the tokens that are cleared. -/
theorem Clears.check_append (clears : Clears none 0 ts us.head? d) :
    check (ts ++ us) = checkFrom ts.getLast? ts.length d us := by
  rw [check, clears.checkFrom_append, Option.or_none, Nat.zero_add]

/-- A closing parenthesis behind tokens that are cleared fails if it is refused. -/
theorem Clears.check_eq_error (clears : Clears none 0 ts none d)
    (refused : openAfter ts.getLast? .closing ts.length d = .error e) :
    check (ts ++ .closing :: us) = .error e := by
  have clears : Clears none 0 ts (Token.closing :: us).head? d := closing_iff.mpr clears
  rw [clears.check_append, checkFrom, refused]

/-- A fault of a parenthesis is that some are open at the end, or it is a closing parenthesis,
behind an opening one or where none is open. -/
theorem parenthesis_cases (failed : check ts = .error e) (parenthesis : e.IsParenthesis) :
    (∃ n, 0 < n ∧ e = .unclosed n ∧ Clears none 0 ts none n) ∨
    ∃ taken rest d, ts = taken ++ .closing :: rest ∧ Clears none 0 taken none d ∧
      (taken.getLast? = some .opening ∧ e = .emptyGroup taken.length ∨
        taken.getLast? ≠ some .opening ∧ d = 0 ∧ e = .unmatchedClosing taken.length) := by
  obtain ⟨taken, rest, d, rfl, clears, refused⟩ := exists_clears_of_parenthesis failed parenthesis
  rw [Option.or_none, Nat.zero_add] at refused
  cases rest with
  | nil =>
    obtain ⟨nonzero, rfl⟩ := refused
    rw [List.append_nil]
    exact .inl ⟨d, Nat.pos_of_ne_zero nonzero, rfl, clears⟩
  | cons token rest =>
    obtain ⟨rfl, cause⟩ := openAfter_eq_error_iff.mp refused
    exact .inr ⟨taken, rest, d, rfl, Clears.closing_iff.mp clears, cause⟩

/-- Parentheses are left open exactly where all tokens are cleared and the count is not zero. -/
theorem check_eq_unclosed_iff {n : Nat} :
    check ts = .error (.unclosed n) ↔ 0 < n ∧ Clears none 0 ts none n := by
  constructor
  · intro failed
    rcases parenthesis_cases failed trivial with
      ⟨_, opened, ⟨⟩, clears⟩ | ⟨_, _, _, -, -, ⟨-, ⟨⟩⟩ | ⟨-, -, ⟨⟩⟩⟩
    exact ⟨opened, clears⟩
  · rintro ⟨opened, clears⟩
    rw [check, clears.checkFrom_eq]
    exact if_neg (Nat.ne_of_gt opened)

/-- Closing parentheses behind anything but an opening one pass if they are as many as are
open. -/
theorem checkFrom_closings_iff {k : Nat} (noOpening : before ≠ some .opening) :
    checkFrom before index depth (List.replicate k .closing) = .ok () ↔ k = depth := by
  induction k generalizing before index depth with
  | zero =>
    rw [List.replicate_zero, checkFrom]
    split <;> simp [*, eq_comm]
  | succ k ih =>
    rw [List.replicate_succ, checkFrom_cons_eq_ok_iff]
    constructor
    · rintro ⟨d, allowed, -, -, passed⟩
      obtain ⟨⟨⟩, -⟩ | ⟨-, -, rfl⟩ | ⟨-, no, -⟩ := openAfter_eq_ok_iff.mp allowed
      · rw [(ih (by decide)).mp passed]
      · exact absurd rfl no
    · rintro rfl
      exact ⟨k, openAfter_eq_ok_iff.mpr (.inr (.inl ⟨rfl, noOpening, rfl⟩)), rfl, rfl,
        (ih (by decide)).mpr rfl⟩

/-- **Open parentheses are as many as have to be closed**, and behind an opening one no number
of them helps. -/
theorem Clears.check_append_closings_iff {k : Nat} (clears : Clears none 0 ts none d)
    (opened : 0 < d) :
    check (ts ++ List.replicate k .closing) = .ok () ↔ k = d ∧ ts.getLast? ≠ some .opening := by
  have clears : Clears none 0 ts (List.replicate k Token.closing).head? d := by
    cases k with
    | zero => exact clears
    | succ k => exact closing_iff.mpr clears
  rw [clears.check_append]
  by_cases last : ts.getLast? = some .opening
  · refine iff_of_false ?_ fun closed => closed.2 last
    rw [last]
    cases k with
    | zero =>
      rw [List.replicate_zero, checkFrom, if_neg (Nat.ne_of_gt opened)]
      intro passed
      cases passed
    | succ k =>
      rw [List.replicate_succ]
      intro passed
      obtain ⟨d, ⟨⟩, -⟩ := (checkFrom_cons_eq_ok_iff _ _ _ _ _).mp passed
  · rw [checkFrom_closings_iff last]
    exact (and_iff_left last).symm

/-- Parentheses that can be closed at the end are open there. -/
theorem check_eq_unclosed_of_closed {n : Nat} (opened : 0 < n)
    (closed : check (ts ++ List.replicate n .closing) = .ok ()) :
    check ts = .error (.unclosed n) := by
  obtain ⟨m, first, rest⟩ := (checkFrom_eq_ok_iff_clears.mp closed).exists_of_append
  have same : n = m := by simpa [List.count_replicate] using rest.count_eq
  subst same
  cases n with
  | zero => exact absurd opened (Nat.lt_irrefl 0)
  | succ n => exact check_eq_unclosed_iff.mpr ⟨opened, Clears.closing_iff.mp first⟩

/-- What stands before a token, and the token. -/
theorem exists_eq_take_append {i : Nat} (here : ts[i]? = some token) :
    ∃ rest, ts = ts.take i ++ token :: rest ∧ (ts.take i).length = i := by
  obtain ⟨inside, rfl⟩ := List.getElem?_eq_some_iff.mp here
  refine ⟨ts.drop (i + 1), ?_, List.length_take_of_le (Nat.le_of_lt inside)⟩
  rw [← List.drop_eq_getElem_cons, List.take_append_drop]

/-- **A closing parenthesis closes nothing exactly where the tokens before it pass.** -/
theorem check_eq_unmatchedClosing_iff {i : Nat} :
    check ts = .error (.unmatchedClosing i) ↔
      ts[i]? = some .closing ∧ check (ts.take i) = .ok () := by
  constructor
  · intro failed
    rcases parenthesis_cases failed trivial with
      ⟨_, -, ⟨⟩, -⟩ | ⟨taken, rest, d, rfl, clears, ⟨-, ⟨⟩⟩ | ⟨-, rfl, ⟨⟩⟩⟩
    refine ⟨by simp, ?_⟩
    rw [List.take_left]
    exact checkFrom_eq_ok_iff_clears.mpr clears
  · rintro ⟨here, passed⟩
    have clears := checkFrom_eq_ok_iff_clears.mp passed
    have noOpening : (ts.take i).getLast? ≠ some .opening := fun last =>
      Nat.lt_irrefl 0 (clears.pos_of_getLast? last)
    obtain ⟨rest, split, length⟩ := exists_eq_take_append here
    rw [split]
    refine clears.check_eq_error (openAfter_eq_error_iff.mpr ⟨rfl, .inr ⟨noOpening, rfl, ?_⟩⟩)
    rw [length]

/-- **A pair of parentheses is empty exactly where one is closed directly behind it and the
tokens before lack nothing but closing parentheses.** -/
theorem check_eq_emptyGroup_iff {i : Nat} :
    check ts = .error (.emptyGroup i) ↔ 0 < i ∧ ts[i - 1]? = some .opening ∧
      ts[i]? = some .closing ∧ ∃ n, check (ts.take i) = .error (.unclosed n) := by
  constructor
  · intro failed
    rcases parenthesis_cases failed trivial with
      ⟨_, -, ⟨⟩, -⟩ | ⟨taken, rest, d, rfl, clears, ⟨last, ⟨⟩⟩ | ⟨-, -, ⟨⟩⟩⟩
    have unclosed := check_eq_unclosed_iff.mpr ⟨clears.pos_of_getLast? last, clears⟩
    have nonempty : 0 < taken.length := by
      refine List.length_pos_iff.mpr ?_
      rintro rfl
      cases last
    refine ⟨nonempty, ?_, by simp, d, by rwa [List.take_left]⟩
    rw [List.getElem?_append_left (by omega), ← List.getLast?_eq_getElem?, last]
  · rintro ⟨positive, opening, here, n, unclosed⟩
    have clears := (check_eq_unclosed_iff.mp unclosed).2
    obtain ⟨rest, split, length⟩ := exists_eq_take_append here
    have last : (ts.take i).getLast? = some .opening := by
      rw [List.getLast?_eq_getElem?, length, List.getElem?_take_of_lt (by omega), opening]
    rw [split]
    refine clears.check_eq_error (openAfter_eq_error_iff.mpr ⟨rfl, .inl ⟨last, ?_⟩⟩)
    rw [length]

/-- **The reports about parentheses are exact.**  Some are unclosed where closing them at the end
makes the sequence pass; their number is the number that have to be closed, and closing so many
makes it pass unless the last token opens one.  One closes nothing where the tokens before it pass
by themselves.  A pair is empty where the tokens that end with its opening parenthesis lack nothing
but closing ones. -/
theorem check_parentheses (ts : List Token) :
    (∀ n, check ts = .error (.unclosed n) →
      0 < n ∧ (n : Int) = ts.count .opening - ts.count .closing ∧
      ∀ k, check (ts ++ List.replicate k .closing) = .ok () ↔
        k = n ∧ ts.getLast? ≠ some .opening) ∧
    (∀ n, 0 < n → check (ts ++ List.replicate n .closing) = .ok () →
      check ts = .error (.unclosed n)) ∧
    (∀ i, check ts = .error (.unmatchedClosing i) ↔
      ts[i]? = some .closing ∧ check (ts.take i) = .ok () ∧
        (ts.take i).count .opening = (ts.take i).count .closing) ∧
    ∀ i, check ts = .error (.emptyGroup i) ↔
      0 < i ∧ ts[i - 1]? = some .opening ∧ ts[i]? = some .closing ∧
        ∃ n, check (ts.take i) = .error (.unclosed n) := by
  refine ⟨fun n failed => ?_, fun n => check_eq_unclosed_of_closed, fun i => ⟨fun failed => ?_, ?_⟩,
    fun i => check_eq_emptyGroup_iff⟩
  · obtain ⟨opened, clears⟩ := check_eq_unclosed_iff.mp failed
    have counts := clears.count_eq
    exact ⟨opened, by omega, fun k => clears.check_append_closings_iff opened⟩
  · obtain ⟨here, passed⟩ := check_eq_unmatchedClosing_iff.mp failed
    have counts := (checkFrom_eq_ok_iff_clears.mp passed).count_eq
    exact ⟨here, passed, by omega⟩
  · rintro ⟨here, passed, -⟩
    exact check_eq_unmatchedClosing_iff.mpr ⟨here, passed⟩

/-- In the tokens of `((1` two parentheses are open and two are needed.  In those of `(1))(` the
third one closes nothing, and `(1)` passes.  In those of `2+(()` there is an empty pair, although
the end comes with another one open. -/
theorem check_parentheses_kinds :
    (check [.opening, .opening, .number (.integer 1)] = .error (.unclosed 2) ∧
      check [.opening, .opening, .number (.integer 1), .closing, .closing] = .ok ()) ∧
    (check [.opening, .number (.integer 1), .closing, .closing, .opening] =
        .error (.unmatchedClosing 3) ∧
      check [.opening, .number (.integer 1), .closing] = .ok ()) ∧
    (check [.number (.integer 2), .operator .add, .opening, .opening, .closing] =
        .error (.emptyGroup 4) ∧
      ∃ n, check [.number (.integer 2), .operator .add, .opening, .opening] =
        .error (.unclosed n)) := by
  have unmatched : check [.opening, .number (.integer 1), .closing, .closing, .opening] =
      .error (.unmatchedClosing 3) := rfl
  have empty : check [.number (.integer 2), .operator .add, .opening, .opening, .closing] =
      .error (.emptyGroup 4) := rfl
  -- that two parentheses are open comes from the sequence with both of them closed
  have unclosed : check [.opening, .opening, .number (.integer 1)] = .error (.unclosed 2) :=
    (check_parentheses _).2.1 2 (by decide) rfl
  obtain ⟨-, -, closed⟩ := (check_parentheses _).1 _ unclosed
  obtain ⟨-, passed, -⟩ := ((check_parentheses _).2.2.1 _).mp unmatched
  obtain ⟨-, -, -, opened⟩ := ((check_parentheses _).2.2.2 _).mp empty
  exact ⟨⟨unclosed, (closed 2).mpr ⟨rfl, by decide⟩⟩, ⟨unmatched, passed⟩, ⟨empty, opened⟩⟩

end Arrangement
end Calculator
