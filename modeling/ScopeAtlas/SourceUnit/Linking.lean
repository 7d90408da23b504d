import ScopeAtlas.Expression.Basic

/-!
Receivers of member calls. The parts of an expression come one after the other; a call that
follows `operand . operand . …` takes that chain as its receiver, and `new` before a call or a
name makes it a constructor call.
-/

namespace ScopeAtlas.SourceUnit

def memberAccess : List String := [".", "->", "?.", ".*", "->*"]

def isMemberAccess (expression : Expression) : Bool :=
  match expression.kind with
  | .operator text => memberAccess.contains text
  | _ => false

def isOperand (expression : Expression) : Bool :=
  match expression.kind with
  | .operator _ => false
  | _ => true

def isNew (expression : Expression) : Bool :=
  match expression.kind with
  | .operator text => text == "new"
  | _ => false

def asConstructor? (part : Expression) : Option Expression :=
  match part.kind with
  | .call call => some { part with kind := .call { call with isConstructor := true } }
  | .name use =>
    some { part with
      kind := .call { Call.ofName use.name with qualifier := use.qualifier, isConstructor := true } }
  | _ => none

/-- From the latest part back: the further `operand access` pairs of a chain, and the parts
before the chain. -/
def takePairs : List Expression → List Expression × List Expression
  | access :: operand :: earlier =>
    if isMemberAccess access && isOperand operand then
      let (chain, before) := takePairs earlier
      (access :: operand :: chain, before)
    else ([], access :: operand :: earlier)
  | parts => ([], parts)

def spanOf (first last : Expression) : Location :=
  Location.span first.location.file first.location.start last.location.stop

def chainExpression (first : Expression) (rest : List Expression) : Expression :=
  match rest.getLast? with
  | none => first
  | some last => .compound (spanOf first last) (first :: rest)

def takeReceiver? (parts : List Expression) : Option (Expression × List Expression) :=
  match parts with
  | access :: operand :: earlier =>
    if isMemberAccess access && isOperand operand then
      let (pairs, before) := takePairs earlier
      match (operand :: pairs).reverse with
      | [] => none
      | first :: rest => some (chainExpression first rest, before)
    else none
  | _ => none

/-- Gives a call that has no receiver and constructs nothing the receiver before it. -/
def attachReceiver (parts : List Expression) (part : Expression) : List Expression :=
  match part.kind with
  | .call call =>
    if call.object.isSome || call.isConstructor then part :: parts
    else match takeReceiver? parts with
      | some (receiver, before) =>
        { part with kind := .call { call with object := some receiver } } :: before
      | none => part :: parts
  | _ => part :: parts

def linkStep (parts : List Expression) (part : Expression) : List Expression :=
  match parts with
  | previous :: earlier =>
    if isNew previous then
      match asConstructor? part with
      | some constructor => attachReceiver earlier constructor
      | none => attachReceiver parts part
    else attachReceiver parts part
  | [] => attachReceiver parts part

def link (parts : List Expression) : List Expression :=
  (parts.foldl linkStep []).reverse

end ScopeAtlas.SourceUnit
