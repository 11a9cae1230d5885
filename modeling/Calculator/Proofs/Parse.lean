import Calculator.Calculation
import Calculator.Proofs.Arrangement
import Calculator.Proofs.Grammar.Reading
import Calculator.Proofs.Spelling

/-!
# The texts of a tree

`parse` reads a text in three steps, and each has its own description: the text spells tokens
(`Spells`), the tokens are arranged as `Arrangement.check` wants it, and they make up a tree
(`Grammar.Derives`).  Put together, the middle step drops out, because tokens that make up a
tree are arranged well.  So a text has a tree exactly when it spells tokens that make up the
tree, and nothing needs to be said about how it is read.
-/

namespace Calculator

/-- A text is read as a tree when each of the three steps succeeds. -/
theorem parse_eq_ok_iff_steps {text : String} {t : Expr} :
    parse text = .ok t ↔ ∃ ts, tokenize text = .ok ts ∧ Arrangement.check ts = .ok () ∧
      Expr.ofTokens ts = .ok t := by
  simp only [parse, bind_eq_ok_iff, mapError_eq_ok_iff]
  refine exists_congr fun ts => and_congr_right fun _ => ⟨?_, fun h => ⟨(), h⟩⟩
  rintro ⟨_, h⟩
  exact h

/-- **A text is read as a tree exactly when it spells tokens that make up the tree.** -/
theorem parse_eq_ok_iff {text : String} {t : Expr} :
    parse text = .ok t ↔ ∃ ts, Spells text.toList ts ∧ Grammar.Derives .expression ts t := by
  simp only [parse_eq_ok_iff_steps, spells_iff_spellsAfter, ← tokenize_eq_ok_iff_spellsAfter]
  refine exists_congr fun ts => and_congr_right fun _ => ⟨?_, fun derives => ?_⟩
  · rintro ⟨-, built⟩
    exact Grammar.derives_of_ofTokens built
  · have built := Grammar.ofTokens_of_derives derives
    exact ⟨Arrangement.check_of_ofTokens built, built⟩

end Calculator
