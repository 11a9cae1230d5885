import Calculator.Proofs.Grammar.Reading

/-!
# Reading above frames

A reading keeps on its stack what is unfinished around the operand that it is reading.  What that
operand is does not depend on the frames below it, except for the one question which operators go
on with it, and this question is answered by the innermost of them (`Grammar.innermost`).  So the
part of a run above some frames is a run of its own: it has no frames below it, and a least
precedence that admits what the frames let go on.

`run_under` is this statement.  A run above `outer` is a run without `outer`, and behind it the
run goes on holding the tree of the first one above `outer`.  Its step form is `step_under`, which
says what becomes of a step without `outer`: if it goes on, so does the step above `outer`, an
error is the same error, and where it stops the token is looked at again behind the tree that was
read (`Step.resume`).

Two uses of it are opposite in kind.  With no frame at all below, it says that a reading at a
looser precedence is one at a tighter precedence and what comes after it.  With a single frame
below, it takes a reading apart into the recursive calls that its stack stands for.
-/

namespace Calculator
namespace Frame

variable {o : Operator} {tree left : Expr} {inner outer rest : List Frame}

/-- The frames that an operator leaves above some others stay where they are. -/
theorem closeFor_append_of_ne_nil (close : closeFor o tree inner = (left, rest))
    (some : rest ≠ []) (outer : List Frame) :
    closeFor o tree (inner ++ outer) = (left, rest ++ outer) := by
  induction inner generalizing tree with
  | nil =>
    cases close
    exact absurd rfl some
  | cons frame inner ih =>
    cases frame with
    | group =>
      cases close
      rfl
    | call f => exact ih close
    | operand l p =>
      rw [closeFor] at close
      rw [List.cons_append, closeFor]
      split at close
      · next admitted =>
        cases close
        rw [if_pos admitted, List.cons_append]
      · next refused => rw [if_neg refused, ih close]

/-- An operator that closes all frames above some others goes on with these. -/
theorem closeFor_append_of_nil (close : closeFor o tree inner = (left, []))
    (outer : List Frame) : closeFor o tree (inner ++ outer) = closeFor o left outer := by
  induction inner generalizing tree with
  | nil =>
    cases close
    rfl
  | cons frame inner ih =>
    cases frame with
    | group => cases close
    | call f => exact ih close
    | operand l p =>
      rw [closeFor] at close
      rw [List.cons_append, closeFor]
      split at close
      · cases close
      · next refused => rw [if_neg refused, ih close]

/-- A group that is open above some frames is closed there. -/
theorem closeGroup_append_of_some (close : closeGroup tree inner = (left, some rest))
    (outer : List Frame) : closeGroup tree (inner ++ outer) = (left, some (rest ++ outer)) := by
  induction inner generalizing tree with
  | nil => cases close
  | cons frame inner ih =>
    cases frame with
    | group =>
      cases close
      rfl
    | call f => exact ih close
    | operand l o => exact ih close

/-- Without an open group above them, some frames are closed behind those above. -/
theorem closeGroup_append_of_none (close : closeGroup tree inner = (left, none))
    (outer : List Frame) : closeGroup tree (inner ++ outer) = closeGroup left outer := by
  induction inner generalizing tree with
  | nil =>
    cases close
    rfl
  | cons frame inner ih =>
    cases frame with
    | group => cases close
    | call f => exact ih close
    | operand l o => exact ih close

end Frame

namespace Reading

variable {p q : Precedence} {outer : List Frame}

/-- A reading with some frames below its own. -/
def under (outer : List Frame) : Reading → Reading
  | wanting opening frames => wanting opening (frames ++ outer)
  | holding tree frames => holding tree (frames ++ outer)

@[simp] theorem under_nil (r : Reading) : r.under [] = r := by
  cases r <;> simp [under]

/-- What a step becomes above some frames.  Where it stops, the token is looked at again behind
the tree that was read, which these frames hold. -/
def Step.resume (p : Precedence) (index : Nat) (token : Token) (outer : List Frame) :
    Step → Except GrammarError Step
  | goOn r => .ok (.goOn (r.under outer))
  | stop tree => (holding tree outer).step p index token

/-- The frames below let every operator go on that a precedence admits. -/
def Lets (p : Precedence) (outer : List Frame) (q : Precedence) : Prop :=
  ∀ o : Operator, q.admits o = true → (Grammar.innermost p outer).admits o = true

/-- An operator behind an operand, above some frames. -/
theorem afterOperand_operator_under (lets : Lets p outer q) (index : Nat) (tree : Expr)
    (inner : List Frame) (o : Operator) :
    afterOperand p index tree (inner ++ outer) (.operator o) =
      afterOperand q index tree inner (.operator o) >>=
        Step.resume p index (.operator o) outer := by
  cases close : Frame.closeFor o tree inner with
  | mk left rest =>
    rw [afterOperand_operator close]
    cases rest with
    | cons frame rest =>
      have above := Frame.closeFor_append_of_ne_nil close (List.cons_ne_nil _ _) outer
      rw [afterOperand_operator above, if_pos (by simp), if_pos (by simp)]
      rfl
    | nil =>
      have again : afterOperand p index tree (inner ++ outer) (.operator o) =
          afterOperand p index left outer (.operator o) := by
        rw [afterOperand_operator (Frame.closeFor_append_of_nil close outer),
          afterOperand_operator rfl]
      rw [again]
      split
      · next admitted => exact Grammar.afterOperand_of_admits (lets o (admitted rfl)) index left
      · rfl

/-- A token behind an operand, above some frames. -/
theorem afterOperand_under (lets : Lets p outer q) (index : Nat) (tree : Expr)
    (inner : List Frame) (token : Token) :
    afterOperand p index tree (inner ++ outer) token =
      afterOperand q index tree inner token >>= Step.resume p index token outer := by
  cases token with
  | operator o => exact afterOperand_operator_under lets index tree inner o
  | _ =>
    cases close : Frame.closeGroup tree inner with
    | mk left rest =>
      cases rest with
      | some rest =>
        simp only [afterOperand, close, Frame.closeGroup_append_of_some close outer]
        rfl
      | none =>
        simp only [afterOperand, close, Frame.closeGroup_append_of_none close outer]
        rfl

/-- **A step above some frames.** -/
theorem step_under (lets : Lets p outer q) (index : Nat) (r : Reading) (token : Token) :
    (r.under outer).step p index token =
      r.step q index token >>= Step.resume p index token outer := by
  cases r with
  | holding tree inner => exact afterOperand_under lets index tree inner token
  | wanting opening inner =>
    cases token with
    | operator o =>
      cases o with
      | sub =>
        cases opening with
        | true => exact afterOperand_under lets index (.number (.integer 0)) inner (.operator .sub)
        | false => rfl
      | _ => rfl
    | _ => rfl

/-- The end of the tokens, above some frames. -/
theorem finish_under (outer : List Frame) (r : Reading) :
    (r.under outer).finish = r.finish >>= fun tree => (holding tree outer).finish := by
  cases r with
  | wanting opening inner => rfl
  | holding tree inner =>
    cases close : Frame.closeGroup tree inner with
    | mk left rest =>
      cases rest with
      | some rest =>
        simp only [under, finish, close, Frame.closeGroup_append_of_some close outer]
        rfl
      | none =>
        simp only [under, finish, close, Frame.closeGroup_append_of_none close outer]
        rfl

/-- **A run above some frames is a run of its own and what comes after it.** -/
theorem run_under (lets : Lets p outer q) (index : Nat) (r : Reading) (ts : List Token) :
    run p index (r.under outer) ts = (do
      let (tree, next) ← run q index r ts
      run p next (holding tree outer) (ts.drop (next - index))) := by
  induction ts generalizing index r with
  | nil =>
    rw [run, run, finish_under]
    cases r.finish with
    | error e => rfl
    | ok tree =>
      show _ = run p index (holding tree outer) ([].drop (index - index))
      rw [List.drop_nil]
      rfl
  | cons token ts ih =>
    rw [run, run, step_under lets]
    cases r.step q index token with
    | error e => rfl
    | ok result =>
      cases result with
      | stop tree =>
        show _ = run p index (holding tree outer) ((token :: ts).drop (index - index))
        rw [Nat.sub_self, List.drop_zero, run]
        rfl
      | goOn r' =>
        show run p (index + 1) (r'.under outer) ts = _
        rw [ih]
        dsimp only
        cases rest : run q (index + 1) r' ts with
        | error e => rfl
        | ok found =>
          obtain ⟨tree, next⟩ := found
          have later := (next_bounds_of_run rest).1
          have place : next - index = next - (index + 1) + 1 := by omega
          show run p next (holding tree outer) (ts.drop (next - (index + 1))) =
            run p next (holding tree outer) ((token :: ts).drop (next - index))
          rw [place, List.drop_succ_cons]

/-- The same for a run somewhere in the tokens. -/
theorem run_under_drop (lets : Lets p outer q) (index : Nat) (r : Reading) (tokens : List Token) :
    run p index (r.under outer) (tokens.drop index) = (do
      let (tree, next) ← run q index r (tokens.drop index)
      run p next (holding tree outer) (tokens.drop next)) := by
  rw [run_under lets]
  cases read : run q index r (tokens.drop index) with
  | error e => rfl
  | ok found =>
    obtain ⟨tree, next⟩ := found
    have later := (next_bounds_of_run read).1
    show run p next (holding tree outer) ((tokens.drop index).drop (next - index)) =
      run p next (holding tree outer) (tokens.drop next)
    rw [List.drop_drop, Nat.add_sub_cancel' later]

end Reading
end Calculator
