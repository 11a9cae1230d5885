import Calculator.Expr.OfTokens

/-!
# The steps of a reading

`Reading.step` says what a token does to a reading, case by case of what is on the stack.
Here the same is said once as a relation, `Goes`, with one constructor for each way in which a
token takes part in a reading, and `step_eq_goOn_iff` is what every proof about a run takes a
step apart with.

A reading stops only where it looks at a token behind an operand (`Looks`), and there it has
closed all its frames (`of_afterOperand_eq_stop`).  A run from the lowest precedence has just one
way to stop before the end, and `holding_of_step_eq_stop` names it.

The last part follows the frames that are groups, the open parentheses.  Only an opening and a
closing parenthesis change their number.
-/

namespace Calculator
namespace Reading

variable {least : Precedence} {index : Nat} {token : Token} {r r' : Reading}

/-- A reading looks at a token behind an operand.  This is the one that it holds, or the zero in
front of a sign. -/
inductive Looks : Reading → Token → Expr → List Frame → Prop
  | holding (tree : Expr) (frames : List Frame) (token : Token) :
      Looks (.holding tree frames) token tree frames
  | sign (frames : List Frame) :
      Looks (.wanting true frames) (.operator .sub) (.number (.integer 0)) frames

theorem Looks.step_eq {tree : Expr} {frames : List Frame} (looks : Looks r token tree frames)
    (least : Precedence) (index : Nat) :
    r.step least index token = afterOperand least index tree frames token := by
  cases looks <;> rfl

/-- A reading looks at a token behind an operand, or goes on, or fails, and only in the first case
the precedence and the index have a part in the step. -/
theorem step_cases (r : Reading) (token : Token) :
    (∃ tree frames, Looks r token tree frames) ∨
    (∃ r', ∀ least index, r.step least index token = .ok (.goOn r')) ∨
    ∀ least index, r.step least index token = .error (.unexpectedToken token index) := by
  cases r with
  | holding tree frames => exact .inl ⟨tree, frames, .holding tree frames token⟩
  | wanting opening frames =>
    cases token with
    | operator o =>
      cases o with
      | sub =>
        cases opening with
        | true => exact .inl ⟨_, frames, .sign frames⟩
        | false => exact .inr (.inr fun _ _ => rfl)
      | _ => exact .inr (.inr fun _ _ => rfl)
    | closing => exact .inr (.inr fun _ _ => rfl)
    | _ => exact .inr (.inl ⟨_, fun _ _ => rfl⟩)

/-- A reading that stops in front of a token has looked at it behind an operand. -/
theorem exists_looks_of_stop {u : Expr} (stop : r.step least index token = .ok (.stop u)) :
    ∃ tree frames, Looks r token tree frames ∧
      afterOperand least index tree frames token = .ok (.stop u) := by
  rcases step_cases r token with ⟨tree, frames, looks⟩ | ⟨r', goes⟩ | fails
  · exact ⟨tree, frames, looks, (looks.step_eq least index).symm.trans stop⟩
  · cases (goes least index).symm.trans stop
  · cases (fails least index).symm.trans stop

/-- A token takes part in a reading.  An operator closes the frames that it ends and goes on
top of the others; if there is none left, the least precedence of the run has to admit it. -/
inductive Goes (least : Precedence) : Reading → Token → Reading → Prop
  | number (opening : Bool) (frames : List Frame) (n : Number) :
      Goes least (.wanting opening frames) (.number n) (.holding (.number n) frames)
  | constant (opening : Bool) (frames : List Frame) (c : Constant) :
      Goes least (.wanting opening frames) (.constant c)
        (.holding (.number (.real c.value)) frames)
  | function (opening : Bool) (frames : List Frame) (f : Function) :
      Goes least (.wanting opening frames) (.function f) (.wanting false (.call f :: frames))
  | opening (opening : Bool) (frames : List Frame) :
      Goes least (.wanting opening frames) .opening (.wanting true (.group :: frames))
  | sign {frames rest : List Frame} {left : Expr} :
      Frame.closeFor .sub (.number (.integer 0)) frames = (left, rest) →
      (rest = [] → least.admits .sub = true) →
      Goes least (.wanting true frames) (.operator .sub)
        (.wanting false (.operand left .sub :: rest))
  | operator {tree left : Expr} {frames rest : List Frame} {o : Operator} :
      Frame.closeFor o tree frames = (left, rest) → (rest = [] → least.admits o = true) →
      Goes least (.holding tree frames) (.operator o) (.wanting false (.operand left o :: rest))
  | closing {tree inner : Expr} {frames outer : List Frame} :
      Frame.closeGroup tree frames = (inner, some outer) →
      Goes least (.holding tree frames) .closing (.holding inner outer)

/-- Behind an operand an operator is read, or it ends a run that does not admit it. -/
theorem afterOperand_operator {tree left : Expr} {frames rest : List Frame} {o : Operator}
    (h : Frame.closeFor o tree frames = (left, rest)) :
    afterOperand least index tree frames (.operator o) =
      if rest = [] → least.admits o = true then
        .ok (.goOn (.wanting false (.operand left o :: rest)))
      else .ok (.stop left) := by
  rw [afterOperand, h]
  cases rest with
  | nil => by_cases ho : least.admits o = true <;> simp [ho]
  | cons frame rest => simp

/-- A reading that stops behind an operand has closed all its frames.  It stops in front of an
operator that it does not admit, or of a token that is none. -/
theorem of_afterOperand_eq_stop {tree u : Expr} {frames : List Frame}
    (stop : afterOperand least index tree frames token = .ok (.stop u)) :
    (∃ o, token = .operator o ∧ Frame.closeFor o tree frames = (u, []) ∧
      least.admits o = false) ∨
    (∀ o, token ≠ .operator o) ∧ Frame.closeGroup tree frames = (u, none) := by
  cases token with
  | operator o =>
    cases close : Frame.closeFor o tree frames with
    | mk left rest =>
      rw [afterOperand_operator close] at stop
      split at stop
      · cases stop
      · next refused =>
        cases stop
        obtain ⟨rfl, refused⟩ := Classical.not_imp.mp refused
        exact .inl ⟨o, rfl, close, by simpa using refused⟩
  | _ =>
    simp only [afterOperand] at stop
    split at stop
    · cases stop
    · next close =>
      cases stop
      exact .inr ⟨nofun, close⟩

theorem afterOperand_operator_eq_goOn_iff (index : Nat) {tree : Expr} {frames : List Frame}
    {o : Operator} :
    afterOperand least index tree frames (.operator o) = .ok (.goOn r') ↔
      ∃ left rest, Frame.closeFor o tree frames = (left, rest) ∧
        (rest = [] → least.admits o = true) ∧
        r' = .wanting false (.operand left o :: rest) := by
  cases hclose : Frame.closeFor o tree frames with
  | mk left rest =>
    rw [afterOperand_operator hclose]
    constructor
    · intro h
      split at h
      · next hleast =>
        cases h
        exact ⟨left, rest, rfl, hleast, rfl⟩
      · cases h
    · rintro ⟨_, _, ⟨⟩, hleast, rfl⟩
      rw [if_pos hleast]

/-- A token that takes part in a reading lets it go on. -/
theorem Goes.step_eq (h : Goes least r token r') (index : Nat) :
    r.step least index token = .ok (.goOn r') := by
  cases h with
  | sign hclose hleast =>
    exact (afterOperand_operator_eq_goOn_iff index).mpr ⟨_, _, hclose, hleast, rfl⟩
  | operator hclose hleast =>
    exact (afterOperand_operator_eq_goOn_iff index).mpr ⟨_, _, hclose, hleast, rfl⟩
  | closing hclose => simp [step, afterOperand, hclose]
  | _ => rfl

/-- A token behind an operand that lets the reading go on takes part in it. -/
theorem goes_of_afterOperand {index : Nat} {tree : Expr} {frames : List Frame}
    (h : afterOperand least index tree frames token = .ok (.goOn r')) :
    Goes least (.holding tree frames) token r' := by
  cases token with
  | operator o =>
    obtain ⟨left, rest, hclose, hleast, rfl⟩ := (afterOperand_operator_eq_goOn_iff index).mp h
    exact .operator hclose hleast
  | closing =>
    rw [afterOperand] at h
    split at h
    · next inner outer hclose =>
      cases h
      exact .closing hclose
    · cases h
  | _ =>
    simp only [afterOperand] at h
    split at h <;> cases h

/-- **A step is one of the ways in which a token takes part.** -/
theorem step_eq_goOn_iff (index : Nat) :
    r.step least index token = .ok (.goOn r') ↔ Goes least r token r' := by
  refine ⟨fun h => ?_, fun h => h.step_eq index⟩
  cases r with
  | wanting opening frames =>
    cases token with
    | number n => cases h; exact .number opening frames n
    | constant c => cases h; exact .constant opening frames c
    | function f => cases h; exact .function opening frames f
    | opening => cases h; exact .opening opening frames
    | closing => nomatch h
    | operator o =>
      cases o with
      | sub =>
        cases opening with
        | false => nomatch h
        | true =>
          obtain ⟨left, rest, hclose, hleast, rfl⟩ :=
            (afterOperand_operator_eq_goOn_iff index).mp h
          exact .sign hclose hleast
      | _ => nomatch h
  | holding tree frames => exact goes_of_afterOperand h

/-- From the lowest precedence a run stops only behind an operand, where no parenthesis is
open. -/
theorem holding_of_step_eq_stop {u : Expr} (h : r.step .lowest index token = .ok (.stop u)) :
    ∃ tree frames, r = .holding tree frames ∧ Frame.closeGroup tree frames = (u, none) := by
  obtain ⟨tree, frames, looks, stop⟩ := exists_looks_of_stop h
  rcases of_afterOperand_eq_stop stop with ⟨o, -, -, refused⟩ | ⟨other, close⟩
  · rw [Precedence.lowest_admits] at refused
    cases refused
  · cases looks with
    | sign frames => exact absurd rfl (other .sub)
    | holding tree frames => exact ⟨tree, frames, rfl, close⟩

/-- A reading that ends with a tree has an operand, and no parenthesis is open. -/
theorem finish_eq_ok_iff {u : Expr} : r.finish = .ok u ↔
    ∃ tree frames, r = .holding tree frames ∧ Frame.closeGroup tree frames = (u, none) := by
  cases r with
  | wanting opening frames => simp [finish]
  | holding tree frames =>
    rw [finish]
    cases hclose : Frame.closeGroup tree frames with
    | mk v outer =>
      constructor
      · intro h
        cases outer with
        | none => cases h; exact ⟨tree, frames, rfl, hclose⟩
        | some outer => cases h
      · rintro ⟨_, _, ⟨⟩, h⟩
        cases hclose.symm.trans h
        rfl

/-- A run ends between the place where it begins and the end of the tokens. -/
theorem next_bounds_of_run {rest : List Token} {u : Expr} {next : Nat}
    (h : run least index r rest = .ok (u, next)) :
    index ≤ next ∧ next ≤ index + rest.length := by
  induction rest generalizing index r with
  | nil =>
    rw [run] at h
    cases hf : r.finish with
    | error e => rw [hf] at h; cases h
    | ok v => rw [hf] at h; cases h; exact ⟨Nat.le_refl _, Nat.le_refl _⟩
  | cons token rest ih =>
    rw [run] at h
    rw [List.length_cons]
    split at h
    · cases h
    · cases h
      exact ⟨Nat.le_refl _, Nat.le_add_right _ _⟩
    · have := ih h
      omega

/-- The tokens are read as a tree when a run from their beginning goes through all of them. -/
theorem ofTokens_eq_ok_iff_run {ts : List Token} {t : Expr} :
    Expr.ofTokens ts = .ok t ↔ run .lowest 0 (.wanting true []) ts = .ok (t, ts.length) := by
  have hread : Expr.readOperand ts 0 .lowest = run .lowest 0 (.wanting true []) ts := rfl
  rw [Expr.ofTokens, hread]
  constructor
  · intro h
    split at h
    · cases h
    · next u next hrun =>
      have hle := (next_bounds_of_run hrun).2
      split at h
      · cases h
      · next hnone =>
        cases h
        have hge : ts.length ≤ next := List.getElem?_eq_none_iff.mp hnone
        rw [hrun, show next = ts.length by omega]
  · intro h
    simp [h]

end Reading

/-! ## The frames that are groups -/

namespace Frame

/-- The number of open parentheses among some frames. -/
def groups (frames : List Frame) : Nat := frames.countP fun f => f == .group

@[simp] theorem groups_nil : groups [] = 0 := rfl

@[simp] theorem groups_group (frames : List Frame) :
    groups (.group :: frames) = groups frames + 1 := by
  simp [groups]

@[simp] theorem groups_call (f : Function) (frames : List Frame) :
    groups (.call f :: frames) = groups frames := by
  simp [groups]

@[simp] theorem groups_operand (l : Expr) (o : Operator) (frames : List Frame) :
    groups (.operand l o :: frames) = groups frames := by
  simp [groups]

/-- Closing the frames that an operator ends closes no group. -/
theorem groups_closeFor (o : Operator) (t : Expr) (frames : List Frame) :
    groups (closeFor o t frames).2 = groups frames := by
  induction frames generalizing t with
  | nil => rfl
  | cons frame frames ih =>
    cases frame with
    | group => rfl
    | call f => simpa [closeFor] using ih (.call f t)
    | operand l p =>
      rw [closeFor, groups_operand]
      split
      · exact groups_operand l p frames
      · exact ih (.binary l p t)

/-- Without an open parenthesis there is no group to close. -/
theorem closeGroup_eq_none_iff (t : Expr) (frames : List Frame) :
    (closeGroup t frames).2 = none ↔ groups frames = 0 := by
  induction frames generalizing t with
  | nil => simp [closeGroup]
  | cons frame frames ih =>
    cases frame with
    | group => simp [closeGroup]
    | call f => simpa [closeGroup] using ih (.call f t)
    | operand l p => simpa [closeGroup] using ih (.binary l p t)

/-- Closing a group leaves one group less. -/
theorem groups_eq_of_closeGroup {t u : Expr} {frames outer : List Frame}
    (h : closeGroup t frames = (u, some outer)) : groups frames = groups outer + 1 := by
  induction frames generalizing t with
  | nil => cases h
  | cons frame frames ih =>
    cases frame with
    | group =>
      cases h
      exact groups_group outer
    | call f => rw [groups_call]; exact ih h
    | operand l p => rw [groups_operand]; exact ih h

end Frame
end Calculator
