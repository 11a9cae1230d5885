import Calculator.Proofs.Grammar
import Calculator.Proofs.Reading

/-!
# Reading follows the grammar

The stack machine of `Calculator.Expr.OfTokens` builds exactly the trees of the grammar.

The grammar has levels, and the machine has precedences.  That they fit together is two facts
about pairs of operators: what stands in the right operand of an operator goes on with it
(`admits_iff_rightLevel_le`), and what does not go on takes the operator as its left operand
(`admits_eq_false_iff_leftLevel_le`).

## Every derivation is read

`reads_of_derives` is about a derived sequence in the middle of a run, with any frames below it
and any tokens behind it.  Two conditions make the level of the derivation fit to its place.
The innermost frame has to let every operator of the level go on (`Accepts`), and the token
behind the sequence must not be an operator that goes on with it (`Ends`).  Then the machine
comes out of the sequence holding its tree, with the frames it went in with.

The machine does not really hold that tree at that moment: behind `1 * 2` it holds `2`, and
the product is still a frame.  But a token that ends the operand of a frame closes the frame
first, so the run goes on as if the product had been held (`run_holding_operand`), and the
statement may speak of the tree alone.

## Every run derives

In the other direction `Opened frames ts` says what frames the tokens before an operand have
left open, and that every operator among them is where its precedence allows it to be.  Closing
frames keeps the held tree derived, at a level that fits its new place (`derives_closeFor`,
`derives_closeGroup`), and so a run that ends has derived what it read
(`derives_of_run`).
-/

namespace Calculator
namespace Grammar

open Reading

variable {L : Level} {ts xs : List Token} {t : Expr} {frames : List Frame}

/-! ## Levels and precedences -/

/-- An operator goes on with the right operand of another one exactly when, with its own
operands, it may stand there. -/
theorem admits_iff_rightLevel_le (p o : Operator) :
    p.precedence.admits o = true ↔ rightLevel p ≤ level o := by
  cases p <;> cases o <;> decide

/-- An operator does not go on with the right operand of another one exactly when it may take
that one, with its operands, as its left operand. -/
theorem admits_eq_false_iff_leftLevel_le (p o : Operator) :
    p.precedence.admits o = false ↔ leftLevel o ≤ level p := by
  cases p <;> cases o <;> decide

/-! ## Frames and precedence -/

/-- The least precedence that the innermost frame asks of an operator, where `least` is that
of the run. -/
def innermost (least : Precedence) : List Frame → Precedence
  | [] => least
  | .group :: _ => .lowest
  | .call _ :: _ => .call
  | .operand _ o :: _ => o.precedence

/-- An operator that the innermost frame lets go on is put on top of it. -/
theorem afterOperand_of_admits {least : Precedence} {o : Operator}
    (h : (innermost least frames).admits o = true) (index : Nat) (l : Expr) :
    afterOperand least index l frames (.operator o) =
      .ok (.goOn (.wanting false (.operand l o :: frames))) := by
  have hclose : Frame.closeFor o l frames = (l, frames) := by
    cases frames with
    | nil => rfl
    | cons frame frames =>
      cases frame with
      | group => rfl
      | call f => exact absurd h (by simp [innermost])
      | operand left p => exact if_pos h
  rw [afterOperand_operator hclose, if_pos]
  rintro rfl
  exact h

theorem run_operator {least : Precedence} {o : Operator}
    (h : (innermost least frames).admits o = true) (index : Nat) (l : Expr)
    (rest : List Token) :
    run least index (.holding l frames) (.operator o :: rest) =
      run least (index + 1) (.wanting false (.operand l o :: frames)) rest := by
  rw [run, step, afterOperand_of_admits h]

/-- A function whose argument has just been read counts as read. -/
theorem run_holding_call (least : Precedence) (index : Nat) (f : Function) (a : Expr)
    (frames : List Frame) (rest : List Token) :
    run least index (.holding a (.call f :: frames)) rest =
      run least index (.holding (.call f a) frames) rest := by
  cases rest with
  | nil => rfl
  | cons token rest => cases token <;> rfl

/-- An operator whose right operand has just been read counts as read, unless the next token
goes on with that operand. -/
theorem run_holding_operand {p : Operator} {rest : List Token}
    (h : ∀ o, rest.head? = some (.operator o) → p.precedence.admits o = false)
    (least : Precedence) (index : Nat) (l r : Expr) (frames : List Frame) :
    run least index (.holding r (.operand l p :: frames)) rest =
      run least index (.holding (.binary l p r) frames) rest := by
  cases rest with
  | nil => rfl
  | cons token rest =>
    cases token with
    | operator o => simp [run, step, afterOperand, Frame.closeFor, h o rfl]
    | _ => rfl

/-! ## Every derivation is read -/

/-- The innermost frame lets every operator go on that may stand in a level. -/
def Accepts (least : Precedence) (frames : List Frame) (L : Level) : Prop :=
  ∀ o : Operator, L ≤ level o → (innermost least frames).admits o = true

/-- No operator at the head of some tokens goes on with an operand of an operator that may
stand in a level. -/
def Ends (L : Level) (rest : List Token) : Prop :=
  ∀ o : Operator, rest.head? = some (.operator o) →
    ∀ p : Operator, L ≤ level p → p.precedence.admits o = false

theorem Accepts.of_le {least : Precedence} {M : Level} (h : Accepts least frames L)
    (le : L ≤ M) : Accepts least frames M :=
  fun o ho => h o (Nat.le_trans le ho)

theorem Ends.of_le {rest : List Token} {M : Level} (h : Ends L rest)
    (le : L ≤ M) : Ends M rest :=
  fun o head p hp => h o head p (Nat.le_trans le hp)

/-- What the right operand of an operator may hold goes on with it. -/
theorem accepts_rightLevel (least : Precedence) (l : Expr) (o : Operator)
    (frames : List Frame) : Accepts least (.operand l o :: frames) (rightLevel o) :=
  fun p hp => (admits_iff_rightLevel_le o p).mpr hp

/-- An operator ends its own left operand. -/
theorem ends_leftLevel (o : Operator) (rest : List Token) :
    Ends (leftLevel o) (.operator o :: rest) := by
  intro q head p hp
  obtain rfl : o = q := by simpa using head
  exact (admits_eq_false_iff_leftLevel_le p o).mpr hp

/-- Nothing goes on with an expression except an operator. -/
theorem ends_of_head_ne {rest : List Token} (h : ∀ o, rest.head? ≠ some (.operator o))
    (L : Level) : Ends L rest :=
  fun o head => absurd head (h o)

/-- A derived sequence is read as its tree, wherever it stands. -/
def Reads (L : Level) (ts : List Token) (t : Expr) : Prop :=
  ∀ (least : Precedence) (index : Nat) (opening : Bool) (frames : List Frame)
    (rest : List Token), (L = .expression → opening = true) → Accepts least frames L →
    Ends L rest →
    run least index (.wanting opening frames) (ts ++ rest) =
      run least (index + ts.length) (.holding t frames) rest

/-- An operator is read behind its left operand: its right operand is read, and then the frame
of the operator is closed. -/
theorem run_operator_of_reads {o : Operator} {rs rest : List Token} {r : Expr}
    {least : Precedence} (hr : Reads (rightLevel o) rs r) (ha : Accepts least frames (level o))
    (he : Ends (level o) rest) (index : Nat) (l : Expr) :
    run least index (.holding l frames) (.operator o :: (rs ++ rest)) =
      run least (index + 1 + rs.length) (.holding (.binary l o r) frames) rest := by
  have hne : rightLevel o = .expression → false = true := by cases o <;> nofun
  rw [run_operator (ha o (Nat.le_refl _)),
    hr least (index + 1) false (.operand l o :: frames) rest hne
      (accepts_rightLevel least l o frames) (he.of_le (level_le_rightLevel o))]
  exact run_holding_operand (fun p head => he p head o (Nat.le_refl _)) _ _ _ _ _

/-- The productions with an operator are read if their operands are. -/
theorem Reads.binary (o : Operator) {ls rs : List Token} {l r : Expr}
    (hl : Reads (leftLevel o) ls l) (hr : Reads (rightLevel o) rs r) :
    Reads (level o) (ls ++ .operator o :: rs) (.binary l o r) := by
  intro least index opening frames rest ho ha he
  have hle : leftLevel o = .expression → opening = true := by
    cases o <;> first | exact ho | nofun
  rw [List.append_assoc, List.cons_append,
    hl least index opening frames _ hle (ha.of_le (level_le_leftLevel o)) (ends_leftLevel o _),
    run_operator_of_reads hr ha he]
  congr 1
  simp only [List.length_append, List.length_cons]
  omega

/-- What is read at a level is read at the next looser one, unless that is an expression,
whose sign makes a difference. -/
theorem Reads.of_le {M : Level} (h : Reads L ts t) (le : M ≤ L)
    (hL : L ≠ .expression) : Reads M ts t :=
  fun least index opening frames rest _ ha he =>
    h least index opening frames rest (fun h => absurd h hL) (ha.of_le le) (he.of_le le)

/-- A sign in front of what is read at the level of a term is read as a subtraction from
zero. -/
theorem Reads.negated (h : Reads .term ts t) :
    Reads .expression (.operator .sub :: ts) (.binary (.number (.integer 0)) .sub t) := by
  intro least index opening frames rest ho ha he
  have hsign : run least index (.wanting opening frames) (.operator .sub :: (ts ++ rest)) =
      run least index (.holding (.number (.integer 0)) frames)
        (.operator .sub :: (ts ++ rest)) := by
    rw [ho rfl]
    rfl
  rw [List.cons_append, hsign, run_operator_of_reads (o := .sub) h ha he, List.length_cons]
  congr 1
  omega

/-- An expression between parentheses is read as an operand. -/
theorem Reads.group (h : Reads .expression ts t) :
    Reads .operand (.opening :: (ts ++ [.closing])) t := by
  intro least index opening frames rest _ _ _
  have hend : Ends .expression (.closing :: rest) := ends_of_head_ne (by simp) _
  have hstart : run least index (.wanting opening frames)
      (.opening :: (ts ++ .closing :: rest)) =
      run least (index + 1) (.wanting true (.group :: frames)) (ts ++ .closing :: rest) := rfl
  rw [List.cons_append, List.append_assoc, List.singleton_append, hstart,
    h least (index + 1) true (.group :: frames) _ (fun _ => rfl)
      (fun o _ => Precedence.lowest_admits o) hend, List.length_cons, List.length_append]
  show run least (index + 1 + ts.length + 1) _ rest = _
  congr 1
  simp only [List.length_singleton]
  omega

/-- A function takes the operand behind it. -/
theorem Reads.call (f : Function) (h : Reads .operand ts t) :
    Reads .operand (.function f :: ts) (.call f t) := by
  intro least index opening frames rest _ _ he
  have hstart : run least index (.wanting opening frames) (.function f :: (ts ++ rest)) =
      run least (index + 1) (.wanting false (.call f :: frames)) (ts ++ rest) := rfl
  have hnone : Accepts least (.call f :: frames) .operand := by
    intro o ho
    exact absurd ho (by cases o <;> decide)
  rw [List.cons_append, hstart, h least (index + 1) false (.call f :: frames) rest nofun
    hnone he, run_holding_call, List.length_cons]
  congr 1
  omega

/-- **Every derivation is read.** -/
theorem reads_of_derives (d : Derives L ts t) : Reads L ts t := by
  induction d with
  | ofTerm _ ih => exact ih.of_le (by decide) nofun
  | negated _ ih => exact ih.negated
  | sum hop _ _ ihl ihr =>
    rcases hop with rfl | rfl
    · exact Reads.binary .add ihl ihr
    · exact Reads.binary .sub ihl ihr
  | ofPower _ ih => exact ih.of_le (by decide) nofun
  | product hop _ _ ihl ihr =>
    rcases hop with rfl | rfl
    · exact Reads.binary .mul ihl ihr
    · exact Reads.binary .div ihl ihr
  | ofFactor _ ih => exact ih.of_le (by decide) nofun
  | pow _ _ ihl ihr => exact Reads.binary .pow ihl ihr
  | ofOperand _ ih => exact ih.of_le (by decide) nofun
  | word hop _ _ ihl ihr =>
    rcases hop with rfl | rfl | rfl
    · exact Reads.binary .mod ihl ihr
    · exact Reads.binary .logBase ihl ihr
    · exact Reads.binary .root ihl ihr
  | number n => exact fun _ _ _ _ _ _ _ _ => rfl
  | constant c => exact fun _ _ _ _ _ _ _ _ => rfl
  | group _ ih => exact ih.group
  | call f _ ih => exact ih.call f

/-- The tree of a derivation is what the tokens are read as. -/
theorem ofTokens_of_derives (d : Derives L ts t) : Expr.ofTokens ts = .ok t := by
  have h := reads_of_derives d.toExpression .lowest 0 true [] [] (fun _ => rfl)
    (fun o _ => Precedence.lowest_admits o) (ends_of_head_ne (by simp) _)
  rw [List.append_nil, Nat.zero_add] at h
  exact ofTokens_eq_ok_iff_run.mpr h

/-! ## Every run derives -/

/-- The level of the operand that the innermost frame waits for. -/
def room : List Frame → Level
  | [] | .group :: _ => .expression
  | .call _ :: _ => .operand
  | .operand _ o :: _ => rightLevel o

/-- The frames that some tokens have left open, before an operand that is still to come.  An
operator stands where its level fits, behind what it takes as its left operand, and a sign
stands at an opening. -/
inductive Opened : List Frame → List Token → Prop
  | nil : Opened [] []
  | group {frames : List Frame} {ts : List Token} : Opened frames ts →
      Opened (.group :: frames) (ts ++ [.opening])
  | call {frames : List Frame} {ts : List Token} (f : Function) : Opened frames ts →
      Opened (.call f :: frames) (ts ++ [.function f])
  | operand {frames : List Frame} {ts ls : List Token} {l : Expr} {o : Operator} :
      Opened frames ts → room frames ≤ level o →
      Derives (leftLevel o) ls l →
      Opened (.operand l o :: frames) (ts ++ (ls ++ [.operator o]))
  | sign {frames : List Frame} {ts : List Token} : Opened frames ts →
      room frames = .expression →
      Opened (.operand (.number (.integer 0)) .sub :: frames) (ts ++ [.operator .sub])

/-- Closing the frame of a function leaves an operand. -/
theorem Opened.close_call {f : Function} (h : Opened (.call f :: frames) ts)
    (d : Derives .operand xs t) :
    ∃ us ys, Opened frames us ∧ Derives .operand ys (.call f t) ∧ ts ++ xs = us ++ ys := by
  cases h with
  | @call _ us _ h => exact ⟨us, _, h, d.call f, by simp⟩

/-- Closing the frame of an operator leaves a tree of the operator's level, which fits the
frames below. -/
theorem Opened.close_operand {l : Expr} {o : Operator} (h : Opened (.operand l o :: frames) ts)
    (d : Derives (rightLevel o) xs t) :
    ∃ us ys, Opened frames us ∧ Derives (level o) ys (.binary l o t) ∧ ts ++ xs = us ++ ys ∧
      room frames ≤ level o := by
  cases h with
  | @operand _ us ls _ _ h fits dl => exact ⟨us, _, h, Derives.binary o dl d, by simp, fits⟩
  | @sign _ us h fits => exact ⟨us, _, h, d.negated, by simp, by rw [fits]; decide⟩

/-- Closing the frames that end before an operator leaves what it takes as its left operand,
at a place where it may stand. -/
theorem derives_closeFor (o : Operator) (h : Opened frames ts)
    (d : Derives (room frames) xs t) (dl : Derives (leftLevel o) xs t) :
    ∃ us ys, Opened (Frame.closeFor o t frames).2 us ∧
      Derives (leftLevel o) ys (Frame.closeFor o t frames).1 ∧ ts ++ xs = us ++ ys ∧
      room (Frame.closeFor o t frames).2 ≤ level o := by
  have loosest : Level.expression ≤ level o := by cases o <;> decide
  induction frames generalizing t ts xs with
  | nil => exact ⟨ts, xs, h, dl, rfl, loosest⟩
  | cons frame frames ih =>
    cases frame with
    | group => exact ⟨ts, xs, h, dl, rfl, loosest⟩
    | call f =>
      obtain ⟨us, ys, h, d, heq⟩ := h.close_call d
      rw [heq]
      exact ih h (d.ofOperand' _) (d.ofOperand' _)
    | operand l p =>
      by_cases hp : p.precedence.admits o = true
      · rw [Frame.closeFor, if_pos hp]
        exact ⟨ts, xs, h, dl, rfl, (admits_iff_rightLevel_le p o).mp hp⟩
      · rw [Frame.closeFor, if_neg hp]
        obtain ⟨us, ys, h, d, heq, fits⟩ := h.close_operand d
        rw [heq]
        have le := (admits_eq_false_iff_leftLevel_le p o).mp (by simpa using hp)
        exact ih h (d.of_le fits) (d.of_le le)

/-- Closing all frames inside the innermost open parenthesis leaves an expression: all that
was read, or all that was read behind the parenthesis. -/
theorem derives_closeGroup (h : Opened frames ts) (d : Derives (room frames) xs t) :
    match Frame.closeGroup t frames with
    | (u, none) => Derives .expression (ts ++ xs) u
    | (u, some outer) => ∃ us ys, Opened outer us ∧ Derives .expression ys u ∧
        ts ++ xs = us ++ .opening :: ys := by
  induction frames generalizing t ts xs with
  | nil => cases h; exact d
  | cons frame frames ih =>
    cases frame with
    | group =>
      cases h with
      | @group _ us h => exact ⟨us, xs, h, d, by simp⟩
    | call f =>
      obtain ⟨us, ys, h, d, heq⟩ := h.close_call d
      rw [heq]
      exact ih h (d.ofOperand' _)
    | operand l p =>
      obtain ⟨us, ys, h, d, heq, fits⟩ := h.close_operand d
      rw [heq]
      exact ih h (d.of_le fits)

/-- What the tokens read so far have to do with a reading. -/
def Matches : Reading → List Token → Prop
  | .wanting opening frames, ts => Opened frames ts ∧ (opening = true → room frames = .expression)
  | .holding t frames, ts => ∃ us xs, Opened frames us ∧ Derives .operand xs t ∧ ts = us ++ xs

/-- **What a step preserves.**  A reading that a token takes part in goes on with what was
read and the token behind it. -/
theorem Matches.step {r r' : Reading} {token : Token} (h : Matches r ts)
    (hr : Goes .lowest r token r') : Matches r' (ts ++ [token]) := by
  cases hr with
  | number opening frames n => exact ⟨ts, _, h.1, .number n, rfl⟩
  | constant opening frames c => exact ⟨ts, _, h.1, .constant c, rfl⟩
  | function opening frames f => exact ⟨h.1.call f, nofun⟩
  | opening opening frames => exact ⟨h.1.group, fun _ => rfl⟩
  | @sign frames rest left hclose =>
    obtain ⟨h, hroom⟩ := h
    have hroom := hroom rfl
    -- where a sign may stand there is no operator to close
    have hnone : Frame.closeFor .sub (.number (.integer 0)) frames =
        (.number (.integer 0), frames) := by
      cases frames with
      | nil => rfl
      | cons frame frames =>
        cases frame with
        | group => rfl
        | call f => nomatch hroom
        | operand l o => cases o <;> nomatch hroom
    cases hnone.symm.trans hclose
    exact ⟨h.sign hroom, nofun⟩
  | @operator tree left frames rest o hclose =>
    obtain ⟨us, xs, h, d, rfl⟩ := h
    obtain ⟨vs, ys, h, d, heq, fits⟩ :=
      derives_closeFor o h (d.ofOperand' _) (d.ofOperand' (leftLevel o))
    rw [hclose] at h d fits
    have ho := h.operand fits d
    rw [← List.append_assoc, ← heq] at ho
    exact ⟨ho, nofun⟩
  | closing hclose =>
    obtain ⟨us, xs, h, d, rfl⟩ := h
    have hd := derives_closeGroup h (d.ofOperand' _)
    rw [hclose] at hd
    obtain ⟨vs, ys, h, d, heq⟩ := hd
    exact ⟨vs, _, h, d.group, by rw [heq]; simp⟩

/-- An operand without an open parenthesis around it completes an expression. -/
theorem Matches.derives {frames : List Frame} {t u : Expr} (h : Matches (.holding t frames) ts)
    (hu : Frame.closeGroup t frames = (u, none)) : Derives .expression ts u := by
  obtain ⟨us, xs, h, d, rfl⟩ := h
  have hd := derives_closeGroup h (d.ofOperand' _)
  rwa [hu] at hd

/-- **Every run derives.**  A run that ends has derived its tree from the tokens it took up,
together with those that were read before. -/
theorem derives_of_run {r : Reading} {index next : Nat} {rest : List Token} {u : Expr}
    (h : Matches r ts) (hr : run .lowest index r rest = .ok (u, next)) :
    ∃ taken left, rest = taken ++ left ∧ next = index + taken.length ∧
      Derives .expression (ts ++ taken) u := by
  induction rest generalizing r index ts with
  | nil =>
    rw [run] at hr
    cases hf : r.finish with
    | error e => rw [hf] at hr; cases hr
    | ok v =>
      rw [hf] at hr
      cases hr
      obtain ⟨t, frames, rfl, hclose⟩ := finish_eq_ok_iff.mp hf
      refine ⟨[], [], rfl, rfl, ?_⟩
      rw [List.append_nil]
      exact h.derives hclose
  | cons token rest ih =>
    rw [run] at hr
    split at hr
    · cases hr
    · next hstop =>
      cases hr
      obtain ⟨t, frames, rfl, hclose⟩ := holding_of_step_eq_stop hstop
      refine ⟨[], token :: rest, rfl, rfl, ?_⟩
      rw [List.append_nil]
      exact h.derives hclose
    · next r' hgo =>
      obtain ⟨taken, left, rfl, rfl, d⟩ := ih (h.step ((step_eq_goOn_iff index).mp hgo)) hr
      refine ⟨token :: taken, left, rfl, ?_, ?_⟩
      · rw [List.length_cons]
        omega
      · rwa [List.append_assoc] at d

/-- Whatever tokens are read as, they derive. -/
theorem derives_of_ofTokens (h : Expr.ofTokens ts = .ok t) : Derives .expression ts t := by
  have hstart : Matches (.wanting true []) [] := ⟨.nil, fun _ => rfl⟩
  obtain ⟨taken, left, heq, hnext, d⟩ := derives_of_run hstart (ofTokens_eq_ok_iff_run.mp h)
  have hleft : left = [] := by
    have hlength := congrArg List.length heq
    rw [List.length_append] at hlength
    exact List.length_eq_zero_iff.mp (by omega)
  rw [heq, hleft, List.append_nil]
  exact d

end Grammar
end Calculator
