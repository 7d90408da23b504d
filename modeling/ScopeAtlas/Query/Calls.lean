import ScopeAtlas.Resolution.Match

/-!
Calls written in a part of the program, and those among them that reach a given method.
-/

namespace ScopeAtlas

namespace ScopeTree

def callsIn (tree : ScopeTree) (id : StatementId) (recursive : Bool) : List Expression :=
  if recursive then
    ((tree.subtree id).filterMap tree.get?).flatMap Statement.calls
  else ((tree.get? id).map Statement.calls).getD []

/-- Whether a call could mean a method by its name and number of arguments alone. A keyword
call could mean any constructor. -/
def callFits (tree : ScopeTree) (call : Call) (method : StatementId) : Bool :=
  match tree.name? method, tree.method? method with
  | some name, some definition =>
    (if call.isKeyword then definition.isConstructor
      else call.name == name && (!call.isConstructor || definition.isConstructor)) &&
      definition.acceptsArity call.arity
  | _, _ => false

def laterFirst (left right : Expression) : Bool :=
  right.location.start ≤ left.location.start

def callsAt (tree : ScopeTree) (location : Location) : List Expression :=
  match (tree.statementAt? location).bind tree.get? with
  | none => []
  | some statement =>
    (statement.calls.filter fun call => call.location.contains location).mergeSort laterFirst

end ScopeTree

namespace Resolver

def callsTo (resolver : Resolver) (id method : StatementId) (recursive : Bool) : List Expression :=
  ((resolver.tree.callsIn id recursive).filter fun expression =>
    match expression.call? with
    | some call => resolver.tree.callFits call method
    | none => false).filter fun expression => (resolver.methodsOf expression).contains method

def containsCallTo (resolver : Resolver) (id method : StatementId) : Bool :=
  !(resolver.callsTo id method true).isEmpty

def allCallsTo (resolver : Resolver) (method : StatementId) : List Expression :=
  resolver.callsTo ScopeTree.root method true

end Resolver

end ScopeAtlas
