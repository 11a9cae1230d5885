import Calculator.Arrangement
import Calculator.Proofs.Reading

/-!
# The arrangement decides what has a tree

`Arrangement.check` looks at neighbours and counts parentheses, `Expr.ofTokens` builds a tree
with a stack of frames.  They accept the same sequences (`checkFrom_eq_ok_iff`), and the
reason is that both of them see the same two things of the tokens already behind them: what
kind of token was the last one, and how many parentheses are open.

## What the two have in common

`Meets before depth r` ties them together.  A reading holds a tree exactly when the token
before ends an operand, and it wants one exactly when that token is an operator or a function,
or an opening with room for a sign.  The parentheses that are open are the frames that are
groups, and closing other frames leaves their number alone.

The check asks every token what stands behind it, and the reading asks every token what stands
before it.  `fits_eq` takes the question of the check apart into the two halves, and
`fitsBefore_of_completes` says that the half which looks ahead is answered by the reading one
token later.
-/

namespace Calculator
namespace Arrangement

open Reading

variable {before : Option Token} {depth index : Nat} {token : Token} {r : Reading}

/-! ## The two halves of the check -/

/-- Whether a token may stand behind another one or at the start. -/
def fitsAfter (before : Option Token) : Token → Bool
  | .opening | .number _ | .constant _ | .function _ => !before.any Token.endsOperand
  | .closing => true
  | .operator .sub => before.isNone || before.any fun t => t.endsOperand || t == .opening
  | .operator _ => before.any Token.endsOperand

/-- Whether a token may stand in front of another one or at the end. -/
def fitsBefore (token : Token) (after : Option Token) : Bool :=
  match token with
  | .opening | .closing => true
  | .number _ | .constant _ => !after.any fun t => t.isAtom || t == .opening
  | .function _ | .operator _ => after.any Token.startsOperand

theorem fits_eq (before : Option Token) (token : Token) (after : Option Token) :
    fits before token after = (fitsAfter before token && fitsBefore token after) := by
  cases token with
  | operator o => cases o <;> rfl
  | opening => simp [fits, fitsAfter, fitsBefore]
  | _ => rfl

/-- A sequence passes when its first token fits on both sides and the rest passes. -/
theorem checkFrom_cons_eq_ok_iff (before : Option Token) (index depth : Nat) (token : Token)
    (rest : List Token) :
    checkFrom before index depth (token :: rest) = .ok () ↔
      ∃ d, openAfter before token index depth = .ok d ∧ fitsAfter before token = true ∧
        fitsBefore token rest.head? = true ∧
        checkFrom (some token) (index + 1) d rest = .ok () := by
  rw [checkFrom]
  cases openAfter before token index depth with
  | error e => simp
  | ok d =>
    simp only [fits_eq, Bool.and_eq_true, Except.ok.injEq, exists_eq_left']
    split
    · next h => simp [h.1, h.2]
    · next h =>
      simp only [reduceCtorEq, false_iff]
      exact fun hfits => h ⟨hfits.1, hfits.2.1⟩

/-! ## The two side by side -/

/-- What the check knows about the tokens so far agrees with a reading of them. -/
def Meets : Option Token → Nat → Reading → Prop
  | none, depth, .wanting opening frames => opening = true ∧ frames = [] ∧ depth = 0
  | none, _, .holding .. => False
  | some token, depth, .wanting opening frames =>
    depth = Frame.groups frames ∧
      match token with
      | .opening => opening = true ∧ depth ≠ 0
      | .function _ | .operator _ => opening = false
      | .number _ | .constant _ | .closing => False
  | some token, depth, .holding _ frames =>
    depth = Frame.groups frames ∧ token.endsOperand = true

/-- Where an operand has to come, the token before does not end one. -/
theorem Meets.any_endsOperand {opening : Bool} {frames : List Frame}
    (h : Meets before depth (.wanting opening frames)) :
    before.any Token.endsOperand = false := by
  cases before with
  | none => rfl
  | some b => cases b <;> first | rfl | exact h.2.elim

theorem Meets.depth_eq {opening : Bool} {frames : List Frame}
    (h : Meets before depth (.wanting opening frames)) : depth = Frame.groups frames := by
  cases before with
  | none => obtain ⟨-, rfl, rfl⟩ := h; rfl
  | some b => exact h.1

/-- A sign may stand at the start and behind an opening parenthesis. -/
theorem Meets.fitsAfter_sub {opening : Bool} {frames : List Frame}
    (h : Meets before depth (.wanting opening frames)) :
    fitsAfter before (.operator .sub) = opening := by
  cases before with
  | none => exact h.1.symm
  | some b =>
    cases b with
    | opening => exact h.2.1.symm
    | function f => exact h.2.symm
    | operator o => exact h.2.symm
    | _ => exact h.2.elim

/-- Behind an operand the token before ends one. -/
theorem Meets.exists_endsOperand {t : Expr} {frames : List Frame}
    (h : Meets before depth (.holding t frames)) :
    ∃ b, before = some b ∧ b.endsOperand = true ∧ depth = Frame.groups frames := by
  cases before with
  | none => exact h.elim
  | some b => exact ⟨b, rfl, h.2, h.1⟩

/-- Where an operand ends, a closing parenthesis is accepted as long as one is open. -/
theorem openAfter_closing {b : Token} (hb : b.endsOperand = true) (index depth : Nat) :
    openAfter (some b) .closing index depth =
      if depth = 0 then .error (.unmatchedClosing index) else .ok (depth - 1) := by
  have hne : b ≠ .opening := by
    rintro rfl
    exact absurd hb (by decide)
  simp [openAfter, hne]

/-- **A step of the reading is one of the check.** -/
theorem Meets.step {r' : Reading} (h : Meets before depth r)
    (hr : Goes .lowest r token r') (index : Nat) :
    ∃ d, openAfter before token index depth = .ok d ∧ fitsAfter before token = true ∧
      Meets (some token) d r' := by
  cases hr with
  | number opening frames n =>
    exact ⟨depth, rfl, by simp [fitsAfter, h.any_endsOperand], h.depth_eq, rfl⟩
  | constant opening frames c =>
    exact ⟨depth, rfl, by simp [fitsAfter, h.any_endsOperand], h.depth_eq, rfl⟩
  | function opening frames f =>
    refine ⟨depth, rfl, by simp [fitsAfter, h.any_endsOperand], ?_, rfl⟩
    rw [Frame.groups_call, h.depth_eq]
  | opening opening frames =>
    refine ⟨depth + 1, rfl, by simp [fitsAfter, h.any_endsOperand], ?_, rfl, depth.succ_ne_zero⟩
    rw [Frame.groups_group, h.depth_eq]
  | @sign frames rest left hclose =>
    refine ⟨depth, rfl, h.fitsAfter_sub, ?_, rfl⟩
    have hgroups := Frame.groups_closeFor .sub (.number (.integer 0)) frames
    rw [hclose] at hgroups
    rw [Frame.groups_operand, h.depth_eq, hgroups]
  | @operator tree left frames rest o hclose =>
    obtain ⟨b, rfl, hb, hdepth⟩ := h.exists_endsOperand
    refine ⟨depth, rfl, ?_, ?_, rfl⟩
    · cases o <;> simp [fitsAfter, hb]
    · have hgroups := Frame.groups_closeFor o tree frames
      rw [hclose] at hgroups
      rw [Frame.groups_operand, hdepth, hgroups]
  | closing hclose =>
    obtain ⟨b, rfl, hb, hdepth⟩ := h.exists_endsOperand
    have hgroups := Frame.groups_eq_of_closeGroup hclose
    refine ⟨depth - 1, ?_, rfl, by omega, rfl⟩
    rw [openAfter_closing hb, if_neg (by omega)]

/-- **A step of the check is one of the reading.** -/
theorem Meets.exists_step {d : Nat} (h : Meets before depth r)
    (hb : ∀ b, before = some b → fitsBefore b (some token) = true)
    (ho : openAfter before token index depth = .ok d)
    (hf : fitsAfter before token = true) : ∃ r', Goes .lowest r token r' := by
  cases r with
  | wanting opening frames =>
    cases token with
    | number n => exact ⟨_, .number opening frames n⟩
    | constant c => exact ⟨_, .constant opening frames c⟩
    | function f => exact ⟨_, .function opening frames f⟩
    | opening => exact ⟨_, .opening opening frames⟩
    | closing =>
      -- the check refuses a closing parenthesis here by way of what stands before it
      cases before with
      | none =>
        obtain ⟨-, -, rfl⟩ := h
        nomatch ho
      | some b =>
        cases b with
        | opening => nomatch ho
        | function f => nomatch hb _ rfl
        | operator o => nomatch hb _ rfl
        | _ => exact h.2.elim
    | operator o =>
      by_cases hsub : o = .sub
      · subst hsub
        rw [h.fitsAfter_sub] at hf
        subst hf
        exact ⟨_, .sign rfl fun _ => Precedence.lowest_admits _⟩
      · have hany := h.any_endsOperand
        cases o <;> first | exact absurd rfl hsub | exact absurd (hany.symm.trans hf) nofun
  | holding t frames =>
    obtain ⟨b, rfl, hends, hdepth⟩ := h.exists_endsOperand
    cases token with
    | operator o => exact ⟨_, .operator rfl fun _ => Precedence.lowest_admits o⟩
    | closing =>
      rw [openAfter_closing hends] at ho
      have hne : (Frame.closeGroup t frames).2 ≠ none := by
        intro hnone
        rw [if_pos (hdepth.trans ((Frame.closeGroup_eq_none_iff t frames).mp hnone))] at ho
        cases ho
      obtain ⟨outer, houter⟩ := Option.ne_none_iff_exists'.mp hne
      exact ⟨_, .closing (Prod.ext rfl houter)⟩
    | _ => simp [fitsAfter, hends] at hf

/-! ## Whole sequences -/

/-- A reading goes through some tokens to their end. -/
def Completes (index : Nat) (r : Reading) (rest : List Token) : Prop :=
  ∃ t, run .lowest index r rest = .ok (t, index + rest.length)

/-- A reading that goes through some tokens takes part in the first one. -/
theorem completes_cons_iff (index : Nat) (r : Reading) (token : Token) (rest : List Token) :
    Completes index r (token :: rest) ↔
      ∃ r', Goes .lowest r token r' ∧ Completes (index + 1) r' rest := by
  have hlength : index + (token :: rest).length = index + 1 + rest.length := by
    rw [List.length_cons]
    omega
  simp only [← step_eq_goOn_iff index]
  rw [Completes, run, hlength]
  cases r.step .lowest index token with
  | error e => simp
  | ok s =>
    cases s with
    | goOn r' => simp [Completes]
    | stop t => simp; omega

theorem completes_nil_iff (index : Nat) (r : Reading) :
    Completes index r [] ↔
      ∃ t frames, r = .holding t frames ∧ (Frame.closeGroup t frames).2 = none := by
  rw [Completes, run]
  constructor
  · rintro ⟨u, h⟩
    cases hf : r.finish with
    | error e => rw [hf] at h; cases h
    | ok v =>
      obtain ⟨t, frames, rfl, hclose⟩ := finish_eq_ok_iff.mp hf
      exact ⟨t, frames, rfl, by rw [hclose]⟩
  · rintro ⟨t, frames, rfl, hclose⟩
    have hf : (Reading.holding t frames).finish = .ok (Frame.closeGroup t frames).1 :=
      finish_eq_ok_iff.mpr ⟨t, frames, rfl, Prod.ext rfl hclose⟩
    exact ⟨_, by rw [hf]; rfl⟩

/-- Behind a token that a reading has passed, the check finds what it looks ahead for in the
next token, if that takes part as well. -/
theorem Meets.fitsBefore_of_goes {next : Token} {r' : Reading} (h : Meets (some token) depth r)
    (hr : Goes .lowest r next r') : fitsBefore token (some next) = true := by
  cases hr with
  | number => cases token <;> first | rfl | exact h.2.elim
  | constant => cases token <;> first | rfl | exact h.2.elim
  | function => cases token <;> rfl
  | opening => cases token <;> first | rfl | exact h.2.elim
  | sign => cases token <;> first | rfl | nomatch h.2
  | operator =>
    obtain ⟨b, ⟨⟩, hb, -⟩ := h.exists_endsOperand
    cases token <;> first | rfl | nomatch hb
  | closing =>
    obtain ⟨b, ⟨⟩, hb, -⟩ := h.exists_endsOperand
    cases token <;> first | rfl | nomatch hb

/-- Behind an operand the tokens may end. -/
theorem Meets.fitsBefore_none {t : Expr} {frames : List Frame}
    (h : Meets (some token) depth (.holding t frames)) : fitsBefore token none = true := by
  obtain ⟨b, ⟨⟩, hb, -⟩ := h.exists_endsOperand
  cases token <;> first | rfl | nomatch hb

/-- **What the check looks ahead for, the reading finds.** -/
theorem fitsBefore_of_completes {rest : List Token} (h : Meets (some token) depth r)
    (hc : Completes index r rest) : fitsBefore token rest.head? = true := by
  cases rest with
  | nil =>
    obtain ⟨t, frames, rfl, -⟩ := (completes_nil_iff index r).mp hc
    exact h.fitsBefore_none
  | cons next rest =>
    obtain ⟨r', hr', -⟩ := (completes_cons_iff index r next rest).mp hc
    exact h.fitsBefore_of_goes hr'

/-- The check of what is left passes exactly when the reading goes through it. -/
theorem checkFrom_eq_ok_iff {rest : List Token} (h : Meets before depth r)
    (hempty : before = none → rest ≠ [])
    (hb : ∀ b, before = some b → fitsBefore b rest.head? = true) :
    checkFrom before index depth rest = .ok () ↔ Completes index r rest := by
  induction rest generalizing before depth index r with
  | nil =>
    cases before with
    | none => exact absurd rfl (hempty rfl)
    | some b =>
      rw [completes_nil_iff, checkFrom]
      cases r with
      | wanting opening frames =>
        have hdepth : depth ≠ 0 := by
          cases b with
          | opening => exact h.2.2
          | function f => nomatch hb _ rfl
          | operator o => nomatch hb _ rfl
          | _ => exact h.2.elim
        simp [hdepth]
      | holding t frames =>
        have hdepth : (Frame.closeGroup t frames).2 = none ↔ depth = 0 := by
          rw [Frame.closeGroup_eq_none_iff, h.1]
        constructor
        · intro hzero
          refine ⟨t, frames, rfl, hdepth.mpr ?_⟩
          by_cases hd : depth = 0
          · exact hd
          · rw [if_neg hd] at hzero
            cases hzero
        · rintro ⟨_, _, ⟨⟩, hclose⟩
          rw [if_pos (hdepth.mp hclose)]
  | cons token rest ih =>
    rw [checkFrom_cons_eq_ok_iff, completes_cons_iff]
    constructor
    · rintro ⟨d, ho, hf, hnext, hc⟩
      obtain ⟨r', hr'⟩ := h.exists_step hb ho hf
      obtain ⟨d', ho', -, h'⟩ := h.step hr' index
      cases ho.symm.trans ho'
      exact ⟨r', hr', (ih h' nofun fun b hb => by cases hb; exact hnext).mp hc⟩
    · rintro ⟨r', hr', hc⟩
      obtain ⟨d, ho, hf, h'⟩ := h.step hr' index
      have hnext := fitsBefore_of_completes h' hc
      exact ⟨d, ho, hf, hnext, (ih h' nofun fun b hb => by cases hb; exact hnext).mpr hc⟩

/-- What passes the check and is not empty is read as a tree. -/
theorem exists_ofTokens_of_check {ts : List Token} (hne : ts ≠ []) (h : check ts = .ok ()) :
    ∃ t, Expr.ofTokens ts = .ok t := by
  have hstart : Meets none 0 (.wanting true []) := ⟨rfl, rfl, rfl⟩
  obtain ⟨t, ht⟩ := (checkFrom_eq_ok_iff hstart (fun _ => hne) nofun).mp h
  rw [Nat.zero_add] at ht
  exact ⟨t, ofTokens_eq_ok_iff_run.mpr ht⟩

/-- What is read as a tree passes the check. -/
theorem check_of_ofTokens {ts : List Token} {t : Expr} (h : Expr.ofTokens ts = .ok t) :
    check ts = .ok () := by
  have hstart : Meets none 0 (.wanting true []) := ⟨rfl, rfl, rfl⟩
  have hne : ts ≠ [] := by
    rintro rfl
    cases h
  have hrun := ofTokens_eq_ok_iff_run.mp h
  refine (checkFrom_eq_ok_iff hstart (fun _ => hne) nofun).mpr ⟨t, ?_⟩
  rw [Nat.zero_add]
  exact hrun

/-- **The check and the reading accept the same sequences.**  A sequence of tokens that is not
empty passes the check exactly when it is read as a tree. -/
theorem check_eq_ok_iff_exists_ofTokens {ts : List Token} (h : ts ≠ []) :
    check ts = .ok () ↔ ∃ t, Expr.ofTokens ts = .ok t :=
  ⟨exists_ofTokens_of_check h, fun ⟨_, ht⟩ => check_of_ofTokens ht⟩

/-- The tokens of `-sin (-6 ^ e)`, with a literal that no text has. -/
theorem check_iff_signed_literal :
    [Token.operator .sub, .function .sin, .opening, .number (.integer (-6)), .operator .pow,
      .constant .e, .closing] ≠ [] ∧
    (check [.operator .sub, .function .sin, .opening, .number (.integer (-6)), .operator .pow,
      .constant .e, .closing] = .ok () ↔
      ∃ t, Expr.ofTokens [.operator .sub, .function .sin, .opening, .number (.integer (-6)),
        .operator .pow, .constant .e, .closing] = .ok t) := by
  have hne : [Token.operator .sub, .function .sin, .opening, .number (.integer (-6)),
      .operator .pow, .constant .e, .closing] ≠ [] := nofun
  exact ⟨hne, check_eq_ok_iff_exists_ofTokens hne⟩

end Arrangement
end Calculator
