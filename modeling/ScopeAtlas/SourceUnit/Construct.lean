import ScopeAtlas.Statement.Basic

/-!
Syntactic constructs: what the name of an element says about the statements it stands for.
-/

namespace ScopeAtlas.SourceUnit

inductive Construct
  | namespaceBlock
  | typeBlock (kind : TypeKind)
  | method
  | declaration
  | simple (kind : StatementKind)
  | label
  | conditional
  | conditionalChain
  | conditionLoop (kind : StatementKind)
  | controlLoop
  | switch
  | guarded
  | lock
  | using
  | block
  | region (access : Access)
  | wrapper
  | skipped

def Construct.ofName : String → Construct
  | "namespace" => .namespaceBlock
  | "class" | "class_decl" => .typeBlock .classType
  | "struct" | "struct_decl" => .typeBlock .structType
  | "union" | "union_decl" => .typeBlock .unionType
  | "interface" | "interface_decl" => .typeBlock .interfaceType
  | "enum" | "enum_decl" => .typeBlock .enumType
  | "function" | "function_decl" | "constructor" | "constructor_decl" | "destructor"
  | "destructor_decl" => .method
  | "decl_stmt" | "decl" | "property" => .declaration
  | "expr_stmt" => .simple .expression
  | "return" => .simple .return
  | "throw" => .simple .throw
  | "break" => .simple .break
  | "continue" => .simple .continue
  | "goto" => .simple .goto
  | "label" => .label
  | "if" => .conditional
  | "if_stmt" => .conditionalChain
  | "while" => .conditionLoop .whileLoop
  | "do" => .conditionLoop .doWhile
  | "for" | "foreach" => .controlLoop
  | "switch" => .switch
  | "try" => .guarded
  | "lock" | "synchronized" | "using_stmt" | "fixed" => .lock
  | "using" | "import" => .using
  | "block" | "checked" | "unchecked" | "unsafe" => .block
  | "private" => .region .privateAccess
  | "public" => .region .publicAccess
  | "protected" => .region .protectedAccess
  | "extern" | "template" => .wrapper
  | _ => .skipped

inductive Treatment
  | skip
  | open
  /-- It is a statement of the given kind, so that what it declares is not seen from the other
  parts. -/
  | branch (kind : StatementKind)
  | handler
  | whole

namespace Treatment

def ofBodyPart : String → Treatment
  | "block" => .open
  | "condition" | "control" | "init" | "incr" | "range" | "expr" | "parameter_list" | "param"
  | "specifier" | "type" | "name" | "argument_list" | "member_init_list" | "then" | "else"
  | "catch" | "finally" | "comment" => .skip
  | _ => .whole

def ofConditionalPart : String → Treatment
  | "condition" | "comment" => .skip
  | "then" | "block" => .branch .block
  | "else" => .branch .elseBranch
  | _ => .whole

def ofGuardedPart : String → Treatment
  | "block" => .open
  | "catch" => .handler
  | "finally" => .branch .finallyClause
  | _ => .skip

end Treatment

end ScopeAtlas.SourceUnit
