import Calculator.Proofs.Reading

/-!
# Where tokens cannot be read

A sequence of tokens that has no tree has a first token with which it goes wrong, or it goes
wrong because it ends.  This file finds that place, and shows that it is the right one to name.

## The place

`Passes least r ts r'` says that a reading goes through some tokens and that each of them takes
part in it.  Every sequence has a longest beginning that is passed (`exists_passes`).  Behind it
the reading is `Blocked`: the next token takes no part, or there is none and something is still
missing.  `ofTokens_eq_error_iff` says that the error of a sequence is the fault at that place,
whatever stands behind it.

## The right one to name

A place of error may be named too late or too early.  It is not too late, because the token at
the place is blocked already by the tokens before it, so that no other continuation helps.
It is not too early, because the tokens before it can be completed.  A number where an operand
has to come, and a closing parenthesis for each open one, complete every reading
(`exists_completion`).  Nothing about precedence is needed for either half: from the lowest
precedence an operator is admitted behind every operand, and frames that are not groups close
by themselves at the end.
-/

namespace Calculator
namespace Reading

variable {least : Precedence} {index : Nat} {token : Token} {r r' r'' : Reading}
  {ts us after : List Token}

/-! ## Passing through tokens -/

/-- A reading goes through some tokens, each of which takes part in it. -/
inductive Passes (least : Precedence) : Reading → List Token → Reading → Prop
  | nil (r : Reading) : Passes least r [] r
  | cons {r r' r'' : Reading} {token : Token} {ts : List Token} : Goes least r token r' →
      Passes least r' ts r'' → Passes least r (token :: ts) r''

theorem Passes.append (first : Passes least r ts r') (second : Passes least r' us r'') :
    Passes least r (ts ++ us) r'' := by
  induction first with
  | nil => exact second
  | cons goes _ ih => exact .cons goes (ih second)

/-- A run goes on behind the tokens that are passed. -/
theorem Passes.run_append (passes : Passes least r ts r') (index : Nat) (after : List Token) :
    run least index r (ts ++ after) = run least (index + ts.length) r' after := by
  induction passes generalizing index with
  | nil => rfl
  | cons goes _ ih =>
    rw [List.cons_append, run, goes.step_eq index, List.length_cons]
    dsimp only
    rw [ih, Nat.add_assoc, Nat.add_comm 1]

/-- **A longest beginning is passed.**  The token behind it takes no part. -/
theorem exists_passes (least : Precedence) (r : Reading) (ts : List Token) :
    ∃ taken after r', ts = taken ++ after ∧ Passes least r taken r' ∧
      ∀ token ∈ after.head?, ∀ r'', ¬ Goes least r' token r'' := by
  induction ts generalizing r with
  | nil => exact ⟨[], [], r, rfl, .nil r, nofun⟩
  | cons token ts ih =>
    by_cases part : ∃ r', Goes least r token r'
    · obtain ⟨r', goes⟩ := part
      obtain ⟨taken, after, r'', rfl, passes, last⟩ := ih r'
      exact ⟨token :: taken, after, r'', rfl, .cons goes passes, last⟩
    · refine ⟨[], token :: ts, r, rfl, .nil r, ?_⟩
      rintro _ ⟨⟩ r' goes
      exact part ⟨r', goes⟩

/-! ## Blocked readings -/

/-- A reading cannot go on with some tokens: the first one takes no part, or there is none and
the reading is not complete. -/
def Blocked (r : Reading) : List Token → Prop
  | [] => r.finish = .error .unexpectedEnd
  | token :: _ => ∀ r', ¬ Goes .lowest r token r'

/-- The fault of tokens of which the first one is in the wrong place, or which end too early. -/
def faultAt (index : Nat) : List Token → GrammarError
  | [] => .unexpectedEnd
  | token :: _ => .unexpectedToken token index

/-- A token that fails behind an operand is the one that the error names. -/
theorem eq_unexpectedToken_of_afterOperand {e : GrammarError} {tree : Expr}
    {frames : List Frame} (h : afterOperand least index tree frames token = .error e) :
    e = .unexpectedToken token index := by
  cases token with
  | operator o =>
    rw [afterOperand_operator rfl] at h
    split at h <;> cases h
  | closing =>
    rw [afterOperand] at h
    split at h <;> cases h
  | _ =>
    simp only [afterOperand] at h
    split at h <;> cases h
    rfl

/-- A step that fails is about its token. -/
theorem eq_unexpectedToken_of_step {e : GrammarError} (h : r.step least index token = .error e) :
    e = .unexpectedToken token index := by
  rcases step_cases r token with ⟨tree, frames, looks⟩ | ⟨r', goes⟩ | fails
  · exact eq_unexpectedToken_of_afterOperand ((looks.step_eq least index).symm.trans h)
  · cases (goes least index).symm.trans h
  · exact (Except.error.inj ((fails least index).symm.trans h)).symm

/-- A reading that cannot end misses something. -/
theorem finish_eq_ok_or_error (r : Reading) :
    (∃ t, r.finish = .ok t) ∨ r.finish = .error .unexpectedEnd := by
  cases r with
  | wanting opening frames => exact .inr rfl
  | holding tree frames =>
    rw [finish]
    split
    · exact .inr rfl
    · exact .inl ⟨_, rfl⟩

/-- Tokens that are all passed have the tree of the reading, if that is complete. -/
theorem Passes.ofTokens (passes : Passes .lowest (.wanting true []) ts r) :
    Expr.ofTokens ts = r.finish := by
  have read : Expr.readOperand ts 0 .lowest = r.finish.map (·, ts.length) := by
    have whole := passes.run_append 0 []
    rw [List.append_nil, Nat.zero_add] at whole
    exact whole
  rw [Expr.ofTokens, read]
  rcases finish_eq_ok_or_error r with ⟨t, done⟩ | missing
  · simp [done, Except.map]
  · simp [missing, Except.map]

/-- Behind the tokens that are passed, what blocks the reading is the fault. -/
theorem Passes.ofTokens_of_blocked (passes : Passes .lowest (.wanting true []) ts r)
    (blocked : Blocked r after) :
    Expr.ofTokens (ts ++ after) = .error (faultAt ts.length after) := by
  cases after with
  | nil =>
    rw [List.append_nil, passes.ofTokens]
    exact blocked
  | cons token after =>
    have read : Expr.readOperand (ts ++ token :: after) 0 .lowest =
        run .lowest ts.length r (token :: after) := by
      have whole := passes.run_append 0 (token :: after)
      rwa [Nat.zero_add] at whole
    have next : (ts ++ token :: after)[ts.length]? = some token := by simp
    rw [Expr.ofTokens, read, run]
    -- a reading that stops leaves the token over, and then it is the same fault
    cases step : r.step .lowest ts.length token with
    | error e => rw [eq_unexpectedToken_of_step step, faultAt]
    | ok result =>
      cases result with
      | goOn r' => exact absurd ((step_eq_goOn_iff _).mp step) (blocked r')
      | stop t => simp only [next, faultAt]

/-- **The fault of a sequence is where its reading is blocked**, and it is there whatever comes
behind. -/
theorem ofTokens_eq_error_iff {e : GrammarError} :
    Expr.ofTokens ts = .error e ↔ ∃ taken after r, ts = taken ++ after ∧
      Passes .lowest (.wanting true []) taken r ∧ Blocked r after ∧
      e = faultAt taken.length after := by
  constructor
  · intro failed
    obtain ⟨taken, after, r, rfl, passes, last⟩ :=
      exists_passes .lowest (.wanting true []) ts
    have blocked : Blocked r after := by
      cases after with
      | cons token after => exact last token rfl
      | nil =>
        rw [List.append_nil, passes.ofTokens] at failed
        rcases finish_eq_ok_or_error r with ⟨t, done⟩ | missing
        · cases done.symm.trans failed
        · exact missing
    have fault := passes.ofTokens_of_blocked blocked
    rw [failed] at fault
    exact ⟨taken, after, r, rfl, passes, blocked, Except.error.inj fault⟩
  · rintro ⟨taken, after, r, rfl, passes, blocked, rfl⟩
    exact passes.ofTokens_of_blocked blocked

/-! ## Completing a reading -/

/-- Behind an operand, a closing parenthesis for each open one completes a reading. -/
theorem passes_closings (n : Nat) (t : Expr) (frames : List Frame)
    (count : Frame.groups frames = n) :
    ∃ u outer, Passes .lowest (.holding t frames) (List.replicate n .closing)
      (.holding u outer) ∧ Frame.groups outer = 0 := by
  induction n generalizing t frames with
  | zero => exact ⟨t, frames, .nil _, count⟩
  | succ n ih =>
    cases close : Frame.closeGroup t frames with
    | mk inner left =>
      cases left with
      | none =>
        have zero := (Frame.closeGroup_eq_none_iff t frames).mp (by rw [close])
        omega
      | some left =>
        have fewer := Frame.groups_eq_of_closeGroup close
        obtain ⟨u, outer, passes, closed⟩ := ih inner left (by omega)
        exact ⟨u, outer, .cons (.closing close) passes, closed⟩

/-- **Every reading can be completed.** -/
theorem exists_completion (r : Reading) :
    ∃ us r' t, Passes .lowest r us r' ∧ r'.finish = .ok t := by
  have behind (t : Expr) (frames : List Frame) :
      ∃ us r' t', Passes .lowest (.holding t frames) us r' ∧ r'.finish = .ok t' := by
    obtain ⟨u, outer, passes, closed⟩ := passes_closings _ t frames rfl
    have ends := (Frame.closeGroup_eq_none_iff u outer).mpr closed
    exact ⟨_, _, _, passes, finish_eq_ok_iff.mpr ⟨u, outer, rfl, Prod.ext rfl ends⟩⟩
  cases r with
  | holding t frames => exact behind t frames
  | wanting opening frames =>
    obtain ⟨us, r', t, passes, done⟩ := behind (.number (.integer 0)) frames
    exact ⟨_, r', t, .cons (.number opening frames (.integer 0)) passes, done⟩

/-- **The error of a sequence names the first token that cannot stay.**  The tokens before it
can be completed, with it they cannot, and its message shows it as it is written.  A sequence
that ends too early can be completed itself, by something more. -/
theorem ofTokens_error_completable (ts : List Token) :
    (∀ token index, Expr.ofTokens ts = .error (.unexpectedToken token index) →
      (∃ inside : index < ts.length, token = ts[index] ∧
        (GrammarError.unexpectedToken token index).message =
          "Unexpected '" ++ ts[index].text ++ "' at index " ++ toString index ++ ".") ∧
      (∃ us t, Expr.ofTokens (ts.take index ++ us) = .ok t) ∧
      ∀ us t, Expr.ofTokens (ts.take (index + 1) ++ us) ≠ .ok t) ∧
    (Expr.ofTokens ts = .error .unexpectedEnd →
      ∃ us, us ≠ [] ∧ ∃ t, Expr.ofTokens (ts ++ us) = .ok t) := by
  constructor
  · intro token index failed
    obtain ⟨taken, after, r, rfl, passes, blocked, fault⟩ := ofTokens_eq_error_iff.mp failed
    cases after with
    | nil => cases fault
    | cons next after =>
      cases fault
      obtain ⟨us, r', t, completes, done⟩ := exists_completion r
      have inside : taken.length < (taken ++ token :: after).length := by simp
      have here : (taken ++ token :: after)[taken.length] = token := by simp
      refine ⟨⟨inside, here.symm, by rw [here]; rfl⟩, ⟨us, t, ?_⟩, ?_⟩
      · rw [List.take_left, (passes.append completes).ofTokens, done]
      · intro us t read
        have same : (taken ++ token :: after).take (taken.length + 1) = taken ++ [token] := by
          rw [List.append_cons, List.take_left' (by simp)]
        -- what follows the token makes no difference to a reading that it blocks
        have still : Blocked r (token :: us) := blocked
        rw [same, List.append_assoc, List.singleton_append,
          passes.ofTokens_of_blocked still] at read
        cases read
  · intro failed
    obtain ⟨taken, after, r, rfl, passes, blocked, fault⟩ := ofTokens_eq_error_iff.mp failed
    cases after with
    | cons next after => cases fault
    | nil =>
      obtain ⟨us, r', t, completes, done⟩ := exists_completion r
      refine ⟨us, ?_, t, ?_⟩
      · rintro rfl
        cases completes
        cases (blocked : r.finish = _).symm.trans done
      · rw [List.append_nil, (passes.append completes).ofTokens, done]

/-- The tokens of `2 - (sin 3 4) / 5`, where the `4` cannot stay, and those of `2 - (sin`, which
end too early. -/
theorem ofTokens_error_completable_group :
    Expr.ofTokens [.number (.integer 2), .operator .sub, .opening, .function .sin,
        .number (.integer 3), .number (.integer 4), .closing, .operator .div,
        .number (.integer 5)] = .error (.unexpectedToken (.number (.integer 4)) 5) ∧
    (∃ us t, Expr.ofTokens ([.number (.integer 2), .operator .sub, .opening, .function .sin,
        .number (.integer 3)] ++ us) = .ok t) ∧
    (∀ us t, Expr.ofTokens ([.number (.integer 2), .operator .sub, .opening, .function .sin,
        .number (.integer 3), .number (.integer 4)] ++ us) ≠ .ok t) ∧
    Expr.ofTokens [.number (.integer 2), .operator .sub, .opening, .function .sin] =
      .error .unexpectedEnd ∧
    ∃ us, us ≠ [] ∧ ∃ t, Expr.ofTokens ([.number (.integer 2), .operator .sub, .opening,
        .function .sin] ++ us) = .ok t := by
  have failed : Expr.ofTokens [.number (.integer 2), .operator .sub, .opening, .function .sin,
      .number (.integer 3), .number (.integer 4), .closing, .operator .div,
      .number (.integer 5)] = .error (.unexpectedToken (.number (.integer 4)) 5) := rfl
  obtain ⟨-, before, never⟩ := (ofTokens_error_completable _).1 _ _ failed
  exact ⟨failed, before, never, rfl, (ofTokens_error_completable _).2 rfl⟩

end Reading
end Calculator
