import ScopeAtlas.Expression.Basic

/-!
The walk over an expression and everything below it, parents before their parts and parts in
the order written, and the calls met on it.
-/

namespace ScopeAtlas

mutual

def Expression.subtree : Expression → List Expression
  | ⟨kind, location, components⟩ =>
    ⟨kind, location, components⟩ ::
      (kind.receiverSubtree ++ Expression.subtrees components ++ kind.operandSubtrees)

def ExpressionKind.receiverSubtree : ExpressionKind → List Expression
  | .call call => call.receiverSubtree
  | .compound | .name _ | .type _ | .literal _ | .operator _ | .declaration _ => []

def ExpressionKind.operandSubtrees : ExpressionKind → List Expression
  | .call call => call.argumentSubtrees
  | .declaration declared => declared.initializerSubtree
  | .compound | .name _ | .type _ | .literal _ | .operator _ => []

def Call.receiverSubtree : Call → List Expression
  | ⟨_, _, _, _, _, _, object⟩ => Expression.optionSubtree object

def Call.argumentSubtrees : Call → List Expression
  | ⟨_, _, arguments, _, _, _, _⟩ => Expression.subtrees arguments

def Variable.initializerSubtree : Variable → List Expression
  | ⟨_, _, _, initializer⟩ => Expression.optionSubtree initializer

def Expression.subtrees : List Expression → List Expression
  | [] => []
  | first :: rest => first.subtree ++ Expression.subtrees rest

def Expression.optionSubtree : Option Expression → List Expression
  | none => []
  | some expression => expression.subtree

end

namespace Expression

def descendants (expression : Expression) : List Expression :=
  expression.subtree.tail

/-- The calls in the expression, outer calls before the calls inside them. -/
def calls (expression : Expression) : List Expression :=
  expression.subtree.filter isCall

theorem subtrees_eq_flatMap (expressions : List Expression) :
    subtrees expressions = expressions.flatMap subtree := by
  induction expressions with
  | nil => simp [subtrees]
  | cons first rest ih => simp [subtrees, ih]

theorem optionSubtree_eq_flatMap (expression : Option Expression) :
    optionSubtree expression = expression.toList.flatMap subtree := by
  cases expression <;> simp [optionSubtree]

theorem receiverSubtree_eq (call : Call) :
    call.receiverSubtree = call.object.toList.flatMap subtree := by
  obtain ⟨name, qualifier, arguments, types, isConstructor, isDestructor, object⟩ := call
  exact optionSubtree_eq_flatMap object

theorem argumentSubtrees_eq (call : Call) :
    call.argumentSubtrees = call.arguments.flatMap subtree := by
  obtain ⟨name, qualifier, arguments, types, isConstructor, isDestructor, object⟩ := call
  exact subtrees_eq_flatMap arguments

theorem initializerSubtree_eq (declared : Variable) :
    declared.initializerSubtree = declared.initializer.toList.flatMap subtree := by
  obtain ⟨name, type, access, initializer⟩ := declared
  exact optionSubtree_eq_flatMap initializer

theorem subtree_eq (expression : Expression) :
    expression.subtree = expression :: expression.children.flatMap subtree := by
  obtain ⟨kind, location, components⟩ := expression
  cases kind <;>
    simp [subtree, children, ExpressionKind.receiverSubtree, ExpressionKind.operandSubtrees,
      receiverSubtree_eq, argumentSubtrees_eq, initializerSubtree_eq, subtrees_eq_flatMap]

end Expression

end ScopeAtlas
