import Calculator.Proofs.Arrangement
import Calculator.Proofs.Reading.Faults

/-!
# Two errors for one fault

What fails the check has no tree, and then both the check and the reading name a place.  The
places need not be the same one.  The check blames a token also for what stands behind it, and
the reading, which has already taken that token, blames what stands behind.  So the check may
be one token ahead of the reading, and it is never more than that and never behind
(`checkFrom_fault`).

## Why the places do not drift apart

As long as nothing is wrong the two go through the tokens together, tied by `Meets`.  A token
that the check refuses by what stands before it, or for its parenthesis, takes no part in the
reading either (`Meets.step`), and then the places are the same.  A token that is refused
only for what stands behind it does take part (`Meets.exists_step`), but no token that
stands there does, and the end does not help either: that is the half of the check which
the reading answers one token later (`Meets.fitsBefore_of_goes`, `Meets.fitsBefore_none`).
-/

namespace Calculator

/-- The index that an error of arrangement names, the number of tokens for parentheses that are
still open at the end. -/
def ArrangementError.place (size : Nat) : ArrangementError → Nat
  | .misplaced _ index => index
  | .unmatchedClosing index => index
  | .emptyGroup index => index
  | .unclosed _ => size

/-- The index that an error of reading names, the number of tokens for an end that comes too
early. -/
def GrammarError.place (size : Nat) : GrammarError → Nat
  | .unexpectedToken _ index => index
  | .unexpectedEnd => size

/-- Whether an error of arrangement is about a parenthesis. -/
def ArrangementError.IsParenthesis : ArrangementError → Prop
  | .misplaced .. => False
  | .unmatchedClosing _ | .emptyGroup _ | .unclosed _ => True

namespace Reading

/-- The fault of a sequence is placed behind the tokens that are passed. -/
@[simp] theorem place_faultAt (taken after : List Token) :
    (faultAt taken.length after).place (taken ++ after).length = taken.length := by
  cases after with
  | nil => simp [faultAt, GrammarError.place]
  | cons token after => rfl

end Reading

namespace Arrangement

open Reading

variable {before : Option Token} {depth index : Nat} {token : Token} {r : Reading}
  {rest : List Token} {e : ArrangementError}

/-! ## One step -/

/-- The check of a sequence fails at its first token, for its parenthesis, for what stands
before it or for what stands behind it, or it fails in the rest. -/
theorem checkFrom_cons_eq_error_iff :
    checkFrom before index depth (token :: rest) = .error e ↔
      openAfter before token index depth = .error e ∨
      ∃ d, openAfter before token index depth = .ok d ∧
        (fitsAfter before token = false ∧ e = .misplaced token index ∨
          fitsAfter before token = true ∧ fitsBefore token rest.head? = false ∧
            e = .misplaced token index ∨
          fitsAfter before token = true ∧ fitsBefore token rest.head? = true ∧
            checkFrom (some token) (index + 1) d rest = .error e) := by
  rw [checkFrom, fits_eq]
  cases openAfter before token index depth with
  | error e' => simp
  | ok d =>
    cases fitsAfter before token <;> cases fitsBefore token rest.head? <;> simp [eq_comm]

/-- A token whose parenthesis the check refuses takes no part in a reading. -/
theorem Meets.not_goes_of_openAfter (h : Meets before depth r)
    (refused : openAfter before token index depth = .error e) (r' : Reading) :
    ¬ Goes .lowest r token r' := by
  intro goes
  obtain ⟨d, allowed, -, -⟩ := h.step goes index
  cases allowed.symm.trans refused

/-- A token that the check refuses for what stands before it takes no part in a reading. -/
theorem Meets.not_goes_of_fitsAfter (h : Meets before depth r)
    (refused : fitsAfter before token = false) (r' : Reading) : ¬ Goes .lowest r token r' := by
  intro goes
  obtain ⟨d, -, fits, -⟩ := h.step goes 0
  cases fits.symm.trans refused

/-- Behind a token that the check refuses for what stands behind it, a reading is blocked. -/
theorem Meets.blocked_of_fitsBefore (h : Meets (some token) depth r)
    (refused : fitsBefore token rest.head? = false) : Blocked r rest := by
  cases rest with
  | cons next rest =>
    intro r' goes
    cases (h.fitsBefore_of_goes goes).symm.trans refused
  | nil =>
    cases r with
    | wanting opening frames => rfl
    | holding t frames => cases h.fitsBefore_none.symm.trans refused

/-- Where parentheses are open, a reading cannot end. -/
theorem Meets.blocked_nil (h : Meets before depth r) (unclosed : depth ≠ 0) : Blocked r [] := by
  rcases finish_eq_ok_or_error r with ⟨u, done⟩ | missing
  · obtain ⟨t, frames, rfl, close⟩ := finish_eq_ok_iff.mp done
    obtain ⟨b, -, -, count⟩ := h.exists_endsOperand
    have zero := (Frame.closeGroup_eq_none_iff t frames).mp (by rw [close])
    exact absurd (count.trans zero) unclosed
  · exact missing

/-! ## Whole sequences -/

/-- **Where the check of what is left fails, the reading is blocked**, at the same place or, for
a token that is misplaced, perhaps one token later. -/
theorem checkFrom_fault (h : Meets before depth r)
    (hb : ∀ b, before = some b → fitsBefore b rest.head? = true)
    (failed : checkFrom before index depth rest = .error e) :
    ∃ taken after r', rest = taken ++ after ∧ Passes .lowest r taken r' ∧ Blocked r' after ∧
      e.place (index + rest.length) ≤ index + taken.length ∧
      index + taken.length ≤ e.place (index + rest.length) + 1 ∧
      (e.IsParenthesis → index + taken.length = e.place (index + rest.length)) := by
  induction rest generalizing before depth index r with
  | nil =>
    rw [checkFrom] at failed
    split at failed
    · cases failed
    · next unclosed =>
      cases failed
      exact ⟨[], [], r, rfl, .nil r, h.blocked_nil unclosed, Nat.le_refl _, Nat.le_succ _,
        fun _ => rfl⟩
  | cons token rest ih =>
    rcases checkFrom_cons_eq_error_iff.mp failed with
      refused | ⟨d, allowed, ⟨refused, rfl⟩ | ⟨fits, refused, rfl⟩ | ⟨fits, next, failed⟩⟩
    · -- the parenthesis is refused, at this token
      have same : e.place (index + (token :: rest).length) = index := by
        cases token with
        | closing =>
          rw [openAfter] at refused
          split at refused
          · cases refused; rfl
          · split at refused
            · cases refused; rfl
            · cases refused
        | _ => cases refused
      refine ⟨[], token :: rest, r, rfl, .nil r, h.not_goes_of_openAfter refused, ?_⟩
      rw [same]
      exact ⟨Nat.le_refl _, Nat.le_succ _, fun _ => rfl⟩
    · exact ⟨[], token :: rest, r, rfl, .nil r, h.not_goes_of_fitsAfter refused, Nat.le_refl _,
        Nat.le_succ _, False.elim⟩
    · obtain ⟨r', goes⟩ := h.exists_step hb allowed fits
      obtain ⟨_, -, -, h'⟩ := h.step goes index
      exact ⟨[token], rest, r', rfl, .cons goes (.nil r'), h'.blocked_of_fitsBefore refused,
        Nat.le_succ _, Nat.le_refl _, False.elim⟩
    · obtain ⟨r', goes⟩ := h.exists_step hb allowed fits
      obtain ⟨d', allowed', -, h'⟩ := h.step goes index
      cases allowed.symm.trans allowed'
      obtain ⟨taken, after, r'', rfl, passes, blocked, bounds⟩ :=
        ih h' (fun b hb => by cases hb; exact next) failed
      refine ⟨token :: taken, after, r'', rfl, .cons goes passes, blocked, ?_⟩
      have size : index + (token :: (taken ++ after)).length =
          index + 1 + (taken ++ after).length := by
        rw [List.length_cons]
        omega
      have behind : index + (token :: taken).length = index + 1 + taken.length := by
        rw [List.length_cons]
        omega
      rwa [size, behind]

/-- **The check and the reading find the same fault.**  Of a sequence that is not empty either
both of them fail or none does.  If they do, the reading names the place that the check names
or the one behind it, and the same one if the fault is about a parenthesis. -/
theorem check_fault {ts : List Token} (nonempty : ts ≠ []) :
    ((∃ e, check ts = .error e) ↔ ∃ g, Expr.ofTokens ts = .error g) ∧
    ∀ e g, check ts = .error e → Expr.ofTokens ts = .error g →
      e.place ts.length ≤ g.place ts.length ∧ g.place ts.length ≤ e.place ts.length + 1 ∧
      (e.IsParenthesis → g.place ts.length = e.place ts.length) := by
  have start : Meets none 0 (.wanting true []) := ⟨rfl, rfl, rfl⟩
  have fault {e : ArrangementError} (failed : check ts = .error e) :
      ∃ g, Expr.ofTokens ts = .error g ∧ e.place ts.length ≤ g.place ts.length ∧
        g.place ts.length ≤ e.place ts.length + 1 ∧
        (e.IsParenthesis → g.place ts.length = e.place ts.length) := by
    obtain ⟨taken, after, r, rfl, passes, blocked, bounds⟩ := checkFrom_fault start nofun failed
    simp only [Nat.zero_add] at bounds
    refine ⟨_, passes.ofTokens_of_blocked blocked, ?_⟩
    rwa [place_faultAt]
  refine ⟨⟨?_, ?_⟩, ?_⟩
  · rintro ⟨e, failed⟩
    obtain ⟨g, unread, -⟩ := fault failed
    exact ⟨g, unread⟩
  · rintro ⟨g, unread⟩
    cases passed : check ts with
    | error e => exact ⟨e, rfl⟩
    | ok u =>
      obtain ⟨t, read⟩ := exists_ofTokens_of_check nonempty passed
      cases read.symm.trans unread
  · intro e g failed unread
    obtain ⟨g', unread', bounds⟩ := fault failed
    cases unread.symm.trans unread'
    exact bounds

/-- In the tokens of `2 * - 3` the check blames the `*` and the reading the sign behind it.  In
those of `((5)` both of them blame the end. -/
theorem check_fault_sign :
    check [.number (.integer 2), .operator .mul, .operator .sub, .number (.integer 3)] =
      .error (.misplaced (.operator .mul) 1) ∧
    Expr.ofTokens [.number (.integer 2), .operator .mul, .operator .sub,
      .number (.integer 3)] = .error (.unexpectedToken (.operator .sub) 2) ∧
    (GrammarError.unexpectedToken (.operator .sub) 2).place 4 ≤
      (ArrangementError.misplaced (.operator .mul) 1).place 4 + 1 ∧
    check [.opening, .opening, .number (.integer 5), .closing] = .error (.unclosed 1) ∧
    Expr.ofTokens [.opening, .opening, .number (.integer 5), .closing] =
      .error .unexpectedEnd ∧
    GrammarError.unexpectedEnd.place 4 = (ArrangementError.unclosed 1).place 4 := by
  have sign : check [.number (.integer 2), .operator .mul, .operator .sub,
      .number (.integer 3)] = .error (.misplaced (.operator .mul) 1) := rfl
  have group : check [.opening, .opening, .number (.integer 5), .closing] =
      .error (.unclosed 1) := rfl
  obtain ⟨-, oneLater, -⟩ := (check_fault (List.cons_ne_nil _ _)).2 _ _ sign rfl
  obtain ⟨-, -, same⟩ := (check_fault (List.cons_ne_nil _ _)).2 _ _ group rfl
  exact ⟨sign, rfl, oneLater, group, rfl, same trivial⟩

end Arrangement
end Calculator
