/-!
# Results of steps that can fail

A function of this library that can fail gives its result in `Except`, and does so in steps.
The lemmas here say when such a result is there, for the three ways in which steps are put
together, and where an error comes from if it is not.  They are the only place where `Except`
is taken apart.
-/

namespace Calculator

variable {ε δ α β : Type} {result : Except ε α}

/-- A mapped result is there exactly when the result is. -/
@[simp] theorem map_eq_ok_iff {f : α → β} {b : β} :
    result.map f = .ok b ↔ ∃ a, result = .ok a ∧ f a = b := by
  cases result <;> simp [Except.map]

/-- A mapped result fails exactly when the result does. -/
@[simp] theorem map_eq_error_iff {f : α → β} {e : ε} :
    result.map f = .error e ↔ result = .error e := by
  cases result <;> simp [Except.map]

@[simp] theorem mapError_ok (f : ε → δ) (a : α) :
    (Except.ok a : Except ε α).mapError f = .ok a := rfl

@[simp] theorem mapError_error (f : ε → δ) (e : ε) :
    (Except.error e : Except ε α).mapError f = .error (f e) := rfl

/-- To say something else about what is wrong does not change a result. -/
@[simp] theorem mapError_eq_ok_iff {f : ε → δ} {a : α} :
    result.mapError f = .ok a ↔ result = .ok a := by
  cases result <;> simp

/-- Two steps have a result exactly when the first one has, and the second one behind it. -/
@[simp] theorem bind_eq_ok_iff {f : α → Except ε β} {b : β} :
    (result >>= f) = .ok b ↔ ∃ a, result = .ok a ∧ f a = .ok b := by
  cases result <;> simp [bind, Except.bind]

/-- To say something else about what is wrong is to say it about an error. -/
@[simp] theorem mapError_eq_error_iff {f : ε → δ} {d : δ} :
    result.mapError f = .error d ↔ ∃ e, result = .error e ∧ f e = d := by
  cases result <;> simp

/-- To say something else about what is wrong with two steps is to do so for each of them. -/
theorem mapError_bind {g : ε → δ} {f : α → Except ε β} :
    (result >>= f).mapError g = result.mapError g >>= fun a => (f a).mapError g := by
  cases result <;> rfl

/-- Of two steps the first one fails, or the second one behind it. -/
@[simp] theorem bind_eq_error_iff {f : α → Except ε β} {e : ε} :
    (result >>= f) = .error e ↔ result = .error e ∨ ∃ a, result = .ok a ∧ f a = .error e := by
  cases result <;> simp [bind, Except.bind]

end Calculator
