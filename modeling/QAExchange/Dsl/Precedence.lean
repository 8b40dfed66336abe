import QAExchange.Dsl.Executor

/-! # Operator chains of the factor language

The grammar reads an expression as a flat chain of terms and operators. The parser groups it
to the left, whatever the precedence of the operators.
-/

namespace QAExchange.Dsl

variable {K : Type}

def BinaryOperator.precedence : BinaryOperator → ℕ
  | .Or => 1
  | .And => 2
  | .Eq | .Ne => 3
  | .Lt | .Le | .Gt | .Ge => 4
  | .Add | .Sub => 5
  | .Mul | .Div | .Mod => 6
  | .Pow => 7

/-- The first term and the operators that follow, each with its right operand. -/
def buildExpression (first : Expression K) (rest : List (BinaryOperator × Expression K)) :
    Expression K :=
  rest.foldl (fun left next => .BinaryOp next.1 left next.2) first

/-- A way to set parentheses in a chain. -/
inductive Grouping (K : Type)
  | term (expr : Expression K)
  | node (op : BinaryOperator) (left right : Grouping K)

namespace Grouping

def chain : Grouping K → Expression K × List (BinaryOperator × Expression K)
  | term expr => (expr, [])
  | node op left right => (left.chain.1, left.chain.2 ++ (op, right.chain.1) :: right.chain.2)

def expression : Grouping K → Expression K
  | term expr => expr
  | node op left right => .BinaryOp op left.expression right.expression

def root : Grouping K → Option BinaryOperator
  | term _ => none
  | node op _ _ => some op

/-- An operator takes as an operand what binds tighter, and to its left also what binds as
tight as itself. -/
def ByPrecedence : Grouping K → Prop
  | term _ => True
  | node op left right =>
    left.ByPrecedence ∧ right.ByPrecedence ∧
      (∀ other ∈ left.root, op.precedence ≤ other.precedence) ∧
      ∀ other ∈ right.root, op.precedence < other.precedence

/-- The right operands of a chain are smaller than what is built of it. -/
theorem sizeOf_chain (grouping : Grouping K) :
    sizeOf grouping.chain.1 ≤ sizeOf grouping.expression ∧
      ∀ next ∈ grouping.chain.2, sizeOf next.2 < sizeOf grouping.expression := by
  induction grouping with
  | term expr => exact ⟨le_rfl, nofun⟩
  | node op left right inLeft inRight =>
    simp only [chain, expression, Expression.BinaryOp.sizeOf_spec, List.mem_append, List.mem_cons]
    refine ⟨by omega, ?_⟩
    rintro next (early | rfl | late)
    · have smaller := inLeft.2 next early
      omega
    · dsimp only
      omega
    · have smaller := inRight.2 next late
      omega

/-- A grouping by precedence that builds what the parser builds is grouped to the left. -/
theorem falling_of_byPrecedence (grouping : Grouping K) (by' : grouping.ByPrecedence)
    (built : buildExpression grouping.chain.1 grouping.chain.2 = grouping.expression) :
    (grouping.chain.2.map fun next => next.1.precedence).Pairwise (· ≥ ·) ∧
      ∀ next ∈ grouping.chain.2, ∃ op ∈ grouping.root,
        op.precedence ≤ next.1.precedence := by
  induction grouping with
  | term expr => exact ⟨.nil, nofun⟩
  | node op left right inLeft _ =>
    rcases by' with ⟨leftBy, _, looser, _⟩
    cases right with
    | term expr =>
      simp only [chain, buildExpression, List.foldl_append, List.foldl_cons, List.foldl_nil,
        expression, Expression.BinaryOp.injEq, true_and, and_true] at built
      rcases inLeft leftBy built with ⟨falling, above⟩
      have below : ∀ next ∈ left.chain.2, op.precedence ≤ next.1.precedence := by
        intro next member
        rcases above next member with ⟨other, isRoot, atMost⟩
        exact (looser other isRoot).trans atMost
      constructor
      · simp only [chain, List.map_append, List.map_cons, List.map_nil]
        refine List.pairwise_append.mpr ⟨falling, List.pairwise_singleton _ _, ?_⟩
        intro precedence member other isLast
        rcases List.mem_map.mp member with ⟨next, isNext, rfl⟩
        rw [List.mem_singleton.mp isLast]
        exact below next isNext
      · intro next member
        refine ⟨op, rfl, ?_⟩
        rcases List.mem_append.mp member with early | last
        · exact below next early
        · rw [List.mem_singleton.mp last]
    | node other first second =>
      -- the parser's right operand is the last term, and this one has an operator
      exfalso
      rcases List.eq_nil_or_concat' (node other first second).chain.2 with none | ⟨init, last, split⟩
      · simp [chain] at none
      · have smaller := (sizeOf_chain (node other first second)).2 last (by simp [split])
        rw [chain, split, buildExpression, ← List.cons_append, ← List.append_assoc,
          List.foldl_append, List.foldl_cons, List.foldl_nil, expression,
          Expression.BinaryOp.injEq] at built
        rw [built.2.2] at smaller
        exact lt_irrefl _ smaller

end Grouping

/-- The parser groups a chain by precedence exactly if no operator binds tighter than one
before it. -/
theorem buildExpression_byPrecedence_iff (first : Expression K)
    (rest : List (BinaryOperator × Expression K)) :
    (∃ grouping : Grouping K, grouping.chain = (first, rest) ∧ grouping.ByPrecedence ∧
      grouping.expression = buildExpression first rest) ↔
    (rest.map fun next => next.1.precedence).Pairwise (· ≥ ·) := by
  constructor
  · rintro ⟨grouping, chain, byPrecedence, built⟩
    have falling := grouping.falling_of_byPrecedence byPrecedence (by rw [chain, built])
    rw [chain] at falling
    exact falling.1
  · intro falling
    suffices ∃ grouping : Grouping K, (grouping.chain = (first, rest) ∧ grouping.ByPrecedence ∧
        grouping.expression = buildExpression first rest) ∧
        ∀ op ∈ grouping.root, op ∈ rest.map Prod.fst by
      rcases this with ⟨grouping, right, _⟩
      exact ⟨grouping, right⟩
    induction rest using List.reverseRecOn with
    | nil => exact ⟨.term first, ⟨rfl, trivial, rfl⟩, nofun⟩
    | append_singleton rest next induction =>
      rw [List.map_append, List.pairwise_append] at falling
      rcases induction falling.1 with ⟨left, ⟨chain, byPrecedence, built⟩, root⟩
      refine ⟨.node next.1 left (.term next.2), ⟨?_, ⟨byPrecedence, trivial, ?_, nofun⟩, ?_⟩, ?_⟩
      · simp [Grouping.chain, chain]
      · intro other isRoot
        rcases List.mem_map.mp (root other isRoot) with ⟨earlier, member, rfl⟩
        exact falling.2.2 _ (List.mem_map_of_mem member) _ (List.mem_singleton_self _)
      · simp [Grouping.expression, built, buildExpression]
      · rintro op ⟨rfl⟩
        simp

end QAExchange.Dsl
