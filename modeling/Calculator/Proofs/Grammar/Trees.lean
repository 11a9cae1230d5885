import Calculator.Proofs.Grammar.Chain
import Calculator.Proofs.Grammar.Reading

/-!
# The trees of a sequence of tokens

The two directions of `Calculator.Proofs.Grammar.Reading` put together: a sequence of tokens
is read as a tree exactly when it derives that tree, so that it has at most one.
-/

namespace Calculator
namespace Grammar

/-- **Reading is the grammar.**  A sequence of tokens is read as a tree exactly when it derives
that tree, and there is one tree at most.  The tree has the tokens of the sequence in their
order, apart from parentheses and the zeros of signs; a chain of `^` groups to the right, and
every other chain of operators of one level to the left. -/
theorem ofTokens_eq_ok_iff_derives (ts : List Token) :
    (∀ t, Expr.ofTokens ts = .ok t ↔ Derives .expression ts t) ∧
    (∀ L M t u, Derives L ts t → Derives M ts u → t = u) ∧
    (∀ t, Expr.ofTokens ts = .ok t → row t = bare true ts) ∧
    (∀ first t links, ts = chainTokens first links → Derives .factor first t →
      (∀ k ∈ links, k.op = .pow ∧ Derives .factor k.tokens k.tree) →
      Expr.ofTokens ts = .ok (rightNested t links)) ∧
    (∀ L first t links, ts = chainTokens first links → L ≠ .power → Derives L first t →
      (∀ k ∈ links, level k.op = L ∧ Derives (rightLevel k.op) k.tokens k.tree) →
      Expr.ofTokens ts = .ok (leftNested t links)) := by
  refine ⟨fun t => ⟨derives_of_ofTokens, ofTokens_of_derives⟩, ?_, ?_, ?_, ?_⟩
  · intro L M t u dt du
    have h : Except.ok (ε := GrammarError) t = .ok u :=
      (ofTokens_of_derives dt).symm.trans (ofTokens_of_derives du)
    exact Except.ok.inj h
  · intro t h
    exact (bare_of_derives (derives_of_ofTokens h)).symm
  · rintro first t links rfl d h
    exact ofTokens_of_derives (derives_rightNested first links d h)
  · rintro L first t links rfl hL d h
    exact ofTokens_of_derives (derives_leftNested hL first links d h)

/-- The chain `2 ^ 3 ^ 2`, grouped to the right. -/
theorem ofTokens_power_chain :
    Expr.ofTokens [.number (.integer 2), .operator .pow, .number (.integer 3), .operator .pow,
        .number (.integer 2)] =
      .ok (.binary (.number (.integer 2)) .pow
        (.binary (.number (.integer 3)) .pow (.number (.integer 2)))) := by
  have hlinks : ∀ k ∈ ([⟨.pow, [.number (.integer 3)], .number (.integer 3)⟩,
      ⟨.pow, [.number (.integer 2)], .number (.integer 2)⟩] : List Link),
      k.op = .pow ∧ Derives .factor k.tokens k.tree := by
    intro k hk
    simp only [List.mem_cons, List.not_mem_nil, or_false] at hk
    rcases hk with rfl | rfl
    · exact ⟨rfl, (Derives.number _).ofOperand⟩
    · exact ⟨rfl, (Derives.number _).ofOperand⟩
  exact (ofTokens_eq_ok_iff_derives _).2.2.2.1 [.number (.integer 2)] (.number (.integer 2)) _ rfl
    (Derives.number _).ofOperand hlinks

end Grammar
end Calculator
