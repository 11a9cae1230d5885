import Calculator.Proofs.Grammar

/-!
# Chains, and what a tree keeps of its tokens

Two facts that can be read off the grammar before anything is said about reading.

## Chains

A chain is an operand followed by any number of links, each an operator with the operand
after it.  When all operators of a chain are of the same level, the grammar leaves one way to
group it: `derives_rightNested` for `^`, where every link opens a new right operand, and
`derives_leftNested` for all others, where every link takes what stands before it as its left
operand.

## Rows

Leaving out its parentheses turns a derived sequence into the row of the numbers, functions
and operators of its tree (`bare_of_derives`).  Nothing is lost, doubled or moved on the way;
the one thing that a tree has and its tokens have not is the zero that a leading sign is
subtracted from.
-/

namespace Calculator
namespace Grammar

variable {L : Level} {ts : List Token} {t : Expr}

/-! ## Chains -/

/-- An operator in a chain, with the tokens and the tree of the operand after it. -/
structure Link where
  op : Operator
  tokens : List Token
  tree : Expr

/-- The tokens of a chain. -/
def chainTokens (first : List Token) (links : List Link) : List Token :=
  first ++ links.flatMap fun k => .operator k.op :: k.tokens

@[simp] theorem chainTokens_nil (first : List Token) : chainTokens first [] = first :=
  List.append_nil first

theorem chainTokens_cons (first : List Token) (k : Link) (links : List Link) :
    chainTokens first (k :: links) = first ++ .operator k.op :: chainTokens k.tokens links := rfl

/-- The first link of a chain joined to its first operand. -/
theorem chainTokens_cons' (first : List Token) (k : Link) (links : List Link) :
    chainTokens first (k :: links) = chainTokens (first ++ .operator k.op :: k.tokens) links := by
  simp [chainTokens]

/-- The tree in which every link takes all that stands before it as its left operand. -/
def leftNested (first : Expr) (links : List Link) : Expr :=
  links.foldl (fun left k => .binary left k.op k.tree) first

/-- The tree in which every link has all that stands after it as its right operand. -/
def rightNested (first : Expr) : List Link → Expr
  | [] => first
  | k :: links => .binary first k.op (rightNested k.tree links)

/-- **A chain of operators of one level groups to the left,** unless it is one of `^`. -/
theorem derives_leftNested (hL : L ≠ .power) (first : List Token) (links : List Link)
    (d : Derives L first t)
    (h : ∀ k ∈ links, level k.op = L ∧ Derives (rightLevel k.op) k.tokens k.tree) :
    Derives L (chainTokens first links) (leftNested t links) := by
  induction links generalizing first t with
  | nil => rwa [chainTokens_nil]
  | cons k links ih =>
    obtain ⟨rfl, dk⟩ := h k List.mem_cons_self
    have dt : Derives (leftLevel k.op) first t := by rwa [leftLevel_eq_level hL]
    rw [chainTokens_cons']
    exact ih _ (dt.binary k.op dk) fun m hm => h m (List.mem_cons_of_mem k hm)

/-- **A chain of `^` groups to the right.** -/
theorem derives_rightNested (first : List Token) (links : List Link)
    (d : Derives .factor first t)
    (h : ∀ k ∈ links, k.op = .pow ∧ Derives .factor k.tokens k.tree) :
    Derives .power (chainTokens first links) (rightNested t links) := by
  induction links generalizing first t with
  | nil => rw [chainTokens_nil]; exact d.ofFactor
  | cons k links ih =>
    obtain ⟨hk, dk⟩ := h k List.mem_cons_self
    have dlinks := ih k.tokens dk fun m hm => h m (List.mem_cons_of_mem k hm)
    rw [chainTokens_cons, rightNested, hk]
    exact d.pow dlinks

/-! ## Rows -/

/-- The numbers, functions and operators of a tree in a row. -/
def row : Expr → List Token
  | .number n => [.number n]
  | .call f argument => .function f :: row argument
  | .binary left o right => row left ++ .operator o :: row right

/-- Some tokens without parentheses, constants as the numbers they name, and every sign with
the zero it is subtracted from.  A minus sign is a sign at an opening, that is at the very
start or after an opening parenthesis, and the flag says whether the tokens begin at one. -/
def bare (opening : Bool) : List Token → List Token
  | [] => []
  | .opening :: ts => bare true ts
  | .closing :: ts => bare false ts
  | .constant c :: ts => .number (.real c.value) :: bare false ts
  | .operator .sub :: ts =>
    if opening then .number (.integer 0) :: .operator .sub :: bare false ts
    else .operator .sub :: bare false ts
  | t :: ts => t :: bare false ts

@[simp] theorem bare_opening (b : Bool) (ts : List Token) :
    bare b (.opening :: ts) = bare true ts := rfl

@[simp] theorem bare_closing (b : Bool) (ts : List Token) :
    bare b (.closing :: ts) = bare false ts := rfl

@[simp] theorem bare_sign (ts : List Token) :
    bare true (.operator .sub :: ts) =
      .number (.integer 0) :: .operator .sub :: bare false ts := rfl

/-- Behind an operand a minus sign is an operator like all others. -/
@[simp] theorem bare_operator (o : Operator) (ts : List Token) :
    bare false (.operator o :: ts) = .operator o :: bare false ts := by
  cases o <;> rfl

/-- An operator between two sequences with known rows stands between these rows. -/
theorem bare_append_operator {ls rs : List Token} {l r : Expr} {opening : Bool}
    (left : ∀ rest, bare opening (ls ++ rest) = row l ++ bare false rest)
    (right : ∀ rest, bare false (rs ++ rest) = row r ++ bare false rest) (o : Operator)
    (rest : List Token) :
    bare opening (ls ++ .operator o :: rs ++ rest) = row (.binary l o r) ++ bare false rest := by
  rw [List.append_assoc, List.cons_append, left, bare_operator, right, row]
  simp

/-- **A derived sequence keeps its tokens.**  Without parentheses it is the row of its tree,
whatever follows it. -/
theorem bare_append_of_derives (d : Derives L ts t) (opening : Bool)
    (h : L = .expression → opening = true) (rest : List Token) :
    bare opening (ts ++ rest) = row t ++ bare false rest := by
  induction d generalizing opening rest with
  | ofTerm _ ih => exact ih opening nofun rest
  | negated _ ih =>
    rw [h rfl, List.cons_append, bare_sign, ih false nofun]
    rfl
  | sum _ _ _ left right =>
    exact bare_append_operator (left opening h) (right false nofun) _ rest
  | ofPower _ ih => exact ih opening nofun rest
  | product _ _ _ left right =>
    exact bare_append_operator (left opening nofun) (right false nofun) _ rest
  | ofFactor _ ih => exact ih opening nofun rest
  | pow _ _ left right =>
    exact bare_append_operator (left opening nofun) (right false nofun) _ rest
  | ofOperand _ ih => exact ih opening nofun rest
  | word _ _ _ left right =>
    exact bare_append_operator (left opening nofun) (right false nofun) _ rest
  | number n => rfl
  | constant c => rfl
  | group _ ih =>
    rw [List.cons_append, List.append_assoc, bare_opening, ih true fun _ => rfl,
      List.singleton_append, bare_closing]
  | call f _ ih =>
    rw [List.cons_append, row, List.cons_append, ← ih false nofun]
    rfl

/-- A whole expression without parentheses is the row of its tree. -/
theorem bare_of_derives (d : Derives L ts t) : bare true ts = row t := by
  have h := bare_append_of_derives d true (fun _ => rfl) []
  rwa [List.append_nil, bare, List.append_nil] at h

end Grammar
end Calculator
