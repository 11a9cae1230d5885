import Calculator.Proofs.Reading.Frames
import Calculator.Proofs.Results

/-!
# Reading in stages

An operand that is read at a least precedence goes on until an operator comes that the precedence
does not admit.  A tighter precedence stops the reading earlier, and this is all that it does.
What was read up to there can be taken as an operand, and read on with at the looser precedence,
to the same end: the same tree, the same place and the same error.

## Why a tighter reading is a beginning of a looser one

As long as the tighter reading goes on, the looser one makes the same steps, because it admits
every operator that the tighter one admits, and no error depends on the precedence.

Where the tighter reading stops, it has closed all its frames around one tree.  The looser one
still has the frames at that moment.  But whatever token comes next, it would close the same frames
before it looks at the token, so that it goes on as if it held that tree alone.  This holds also of
a sign in front of which nothing has been read.  The tighter reading takes up no token then, and
the tree is the zero that is subtracted from.

All this is `run_under` for the case that there are no frames below.

## What has been built stays

An operator behind a tree takes the tree as its left operand.  Hence what the tighter reading has
built is found in the final tree by going from left operand to left operand (`StartsWith`).
-/

namespace Calculator

/-- A looser precedence admits what a tighter one admits. -/
theorem Precedence.admits_of_le {p q : Precedence} (looser : p ≤ q) {o : Operator}
    (admitted : q.admits o = true) : p.admits o = true := by
  have ranks : p.rank ≤ q.rank := looser
  simp only [admits, Bool.or_eq_true, Bool.and_eq_true, decide_eq_true_eq] at admitted ⊢
  rcases admitted with tighter | ⟨rfl, right⟩
  · exact .inl (Nat.lt_of_le_of_lt ranks tighter)
  · by_cases same : p = o.precedence
    · exact .inr ⟨same, right⟩
    · left
      refine Nat.lt_of_le_of_ne ranks fun rank => same ?_
      revert rank
      cases p <;> cases o <;> decide

namespace Reading

variable {p q : Precedence} {index : Nat} {token : Token} {r r' : Reading} {t : Expr}

/-- **A looser run is a tighter one and what comes after it.** -/
theorem run_eq_bind_of_le (looser : p ≤ q) (index : Nat) (r : Reading) (ts : List Token) :
    run p index r ts = (do
      let (t, next) ← run q index r ts
      run p next (.holding t []) (ts.drop (next - index))) := by
  have lets : Lets p [] q := fun _ admitted => Precedence.admits_of_le looser admitted
  have alone := run_under lets index r ts
  rwa [under_nil] at alone

end Reading

/-! ## What has been built stays -/

/-- A tree starts with another one if it is that one, or if its left operand starts with it. -/
inductive Expr.StartsWith (part : Expr) : Expr → Prop
  | refl : StartsWith part part
  | binary {left : Expr} (o : Operator) (right : Expr) : StartsWith part left →
      StartsWith part (.binary left o right)

namespace Reading

/-- The outermost frame is an operator, and its left operand starts with a tree. -/
inductive RestsOn (part : Expr) : List Frame → Prop
  | operand {left : Expr} (o : Operator) : Expr.StartsWith part left →
      RestsOn part [.operand left o]
  | frame {frames : List Frame} (frame : Frame) : RestsOn part frames →
      RestsOn part (frame :: frames)

/-- An operand and the frames around it start with a tree, which is inside the outermost frame, or
inside the operand if there is none. -/
def Carries (part tree : Expr) (frames : List Frame) : Prop :=
  RestsOn part frames ∨ frames = [] ∧ Expr.StartsWith part tree

/-- A reading starts with a tree. -/
def Keeps (part : Expr) : Reading → Prop
  | .wanting _ frames => RestsOn part frames
  | .holding tree frames => Carries part tree frames

section

variable {part tree : Expr} {frames : List Frame}

/-- Closing the frame of an operator puts its left operand into the tree. -/
theorem carries_binary {left : Expr} {o : Operator}
    (rests : RestsOn part (.operand left o :: frames)) (tree : Expr) :
    Carries part (.binary left o tree) frames := by
  cases rests with
  | operand o starts => exact .inr ⟨rfl, starts.binary o tree⟩
  | frame _ rests => exact .inl rests

theorem restsOn_of_call {f : Function} (rests : RestsOn part (.call f :: frames)) :
    RestsOn part frames := by
  cases rests with
  | frame _ rests => exact rests

theorem carries_closeFor (o : Operator) (carries : Carries part tree frames) :
    Carries part (Frame.closeFor o tree frames).1 (Frame.closeFor o tree frames).2 := by
  induction frames generalizing tree with
  | nil => exact carries
  | cons frame frames ih =>
    have rests := carries.resolve_right fun none => nomatch none.1
    cases frame with
    | group => exact carries
    | call f => exact ih (.inl (restsOn_of_call rests))
    | operand left p =>
      rw [Frame.closeFor]
      split
      · exact .inl rests
      · exact ih (carries_binary rests tree)

theorem carries_closeGroup (carries : Carries part tree frames) :
    match Frame.closeGroup tree frames with
    | (u, none) => Expr.StartsWith part u
    | (_, some outer) => RestsOn part outer := by
  induction frames generalizing tree with
  | nil =>
    rcases carries with rests | ⟨-, starts⟩
    · cases rests
    · exact starts
  | cons frame frames ih =>
    have rests := carries.resolve_right fun none => nomatch none.1
    cases frame with
    | group =>
      cases rests with
      | frame _ rests => exact rests
    | call f => exact ih (.inl (restsOn_of_call rests))
    | operand left o => exact ih (carries_binary rests tree)

/-- An operator goes on top of what carries the tree. -/
theorem restsOn_operand {left : Expr} (carries : Carries part left frames) (o : Operator) :
    RestsOn part (.operand left o :: frames) := by
  rcases carries with rests | ⟨rfl, starts⟩
  · exact .frame _ rests
  · exact .operand o starts

/-- **What a step preserves.** -/
theorem Keeps.step (keeps : Keeps part r) (goes : Goes p r token r') : Keeps part r' := by
  cases goes with
  | number opening frames n => exact .inl keeps
  | constant opening frames c => exact .inl keeps
  | function opening frames f => exact .frame _ keeps
  | opening opening frames => exact .frame _ keeps
  | @sign frames rest left close =>
    have zero : Carries part (.number (.integer 0)) frames := .inl keeps
    have carries := carries_closeFor .sub zero
    rw [close] at carries
    exact restsOn_operand carries .sub
  | @operator tree left frames rest o close =>
    have carries := carries_closeFor o keeps
    rw [close] at carries
    exact restsOn_operand carries o
  | closing close =>
    have carries := carries_closeGroup keeps
    rw [close] at carries
    exact .inl carries

/-- A reading that stops behind an operand has closed all frames. -/
theorem startsWith_of_afterOperand (carries : Carries part tree frames)
    (stop : afterOperand p index tree frames token = .ok (.stop t)) : Expr.StartsWith part t := by
  rcases of_afterOperand_eq_stop stop with ⟨o, -, close, -⟩ | ⟨-, close⟩
  · have carries := carries_closeFor o carries
    rw [close] at carries
    rcases carries with rests | ⟨-, starts⟩
    · cases rests
    · exact starts
  · have carries := carries_closeGroup carries
    rw [close] at carries
    exact carries

theorem Keeps.startsWith_of_stop (keeps : Keeps part r)
    (stop : r.step p index token = .ok (.stop t)) : Expr.StartsWith part t := by
  obtain ⟨tree, frames, looks, behind⟩ := exists_looks_of_stop stop
  cases looks with
  | holding tree frames => exact startsWith_of_afterOperand keeps behind
  | sign frames => exact startsWith_of_afterOperand (.inl keeps) behind

/-- **What a run preserves.**  The tree that it ends with starts with what it started with. -/
theorem Keeps.startsWith_of_run {ts : List Token} {next : Nat} (keeps : Keeps part r)
    (read : run p index r ts = .ok (t, next)) : Expr.StartsWith part t := by
  induction ts generalizing index r with
  | nil =>
    rw [run, map_eq_ok_iff] at read
    obtain ⟨_, done, ⟨⟩⟩ := read
    obtain ⟨tree, frames, rfl, close⟩ := finish_eq_ok_iff.mp done
    have carries := carries_closeGroup keeps
    rw [close] at carries
    exact carries
  | cons token ts ih =>
    rw [run] at read
    split at read
    · cases read
    · next stop =>
      cases read
      exact keeps.startsWith_of_stop stop
    · next r' goes => exact ih (keeps.step ((step_eq_goOn_iff index).mp goes)) read

end

end Reading

namespace Expr

/-- **An operand at a looser precedence is read in two stages.**  Reading it at a tighter one and
then going on behind what has been read gives the same, errors included.  So a tighter precedence
stops the reading earlier, if at all, and what has been built until then stays: it is what the
final tree starts with. -/
theorem readOperand_eq_bind {p q : Precedence} (looser : p ≤ q) (tokens : List Token)
    (start : Nat) :
    readOperand tokens start p = (do
      let (tree, next) ← readOperand tokens start q
      readOperators tokens tree next p) ∧
    ∀ tree next, readOperand tokens start p = .ok (tree, next) →
      ∃ part stop, readOperand tokens start q = .ok (part, stop) ∧
        readOperators tokens part stop p = .ok (tree, next) ∧
        start ≤ stop ∧ stop ≤ next ∧ StartsWith part tree := by
  have stages : readOperand tokens start p = (do
      let (tree, next) ← readOperand tokens start q
      readOperators tokens tree next p) := by
    unfold readOperand
    rw [Reading.run_eq_bind_of_le looser]
    cases first : Reading.run q start (.wanting (isOpening tokens start) [])
      (tokens.drop start) with
    | error e => rfl
    | ok found =>
      obtain ⟨tree, next⟩ := found
      have later := (Reading.next_bounds_of_run first).1
      show Reading.run p next (.holding tree []) ((tokens.drop start).drop (next - start)) =
        Reading.run p next (.holding tree []) (tokens.drop next)
      rw [List.drop_drop, Nat.add_sub_cancel' later]
  refine ⟨stages, ?_⟩
  intro tree next read
  rw [stages, bind_eq_ok_iff] at read
  obtain ⟨⟨part, stop⟩, first, second⟩ := read
  have keeps : Reading.Keeps part (.holding part []) := .inr ⟨rfl, .refl⟩
  exact ⟨part, stop, first, second, (Reading.next_bounds_of_run first).1,
    (Reading.next_bounds_of_run second).1, keeps.startsWith_of_run second⟩

/-- The tokens of `-2 * 3 + 4`.  At the precedence of a product nothing is read in front of the
sign, and the rest is read on from the zero that is subtracted from. -/
theorem readOperand_eq_bind_sign :
    Precedence.lowest ≤ Precedence.product ∧
    readOperand [.operator .sub, .number (.integer 2), .operator .mul, .number (.integer 3),
        .operator .add, .number (.integer 4)] 0 .product = .ok (.number (.integer 0), 0) ∧
    readOperand [.operator .sub, .number (.integer 2), .operator .mul, .number (.integer 3),
        .operator .add, .number (.integer 4)] 0 .lowest =
      readOperators [.operator .sub, .number (.integer 2), .operator .mul, .number (.integer 3),
        .operator .add, .number (.integer 4)] (.number (.integer 0)) 0 .lowest ∧
    StartsWith (.number (.integer 0))
      (.binary (.binary (.number (.integer 0)) .sub
        (.binary (.number (.integer 2)) .mul (.number (.integer 3)))) .add
        (.number (.integer 4))) := by
  have looser : Precedence.lowest ≤ Precedence.product := by decide
  obtain ⟨stages, parts⟩ := readOperand_eq_bind looser
    [.operator .sub, .number (.integer 2), .operator .mul, .number (.integer 3), .operator .add,
      .number (.integer 4)] 0
  obtain ⟨part, stop, first, -, -, -, starts⟩ := parts _ 6 rfl
  cases first
  exact ⟨looser, rfl, stages, starts⟩

end Expr
end Calculator
