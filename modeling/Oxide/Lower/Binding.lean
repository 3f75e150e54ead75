/-
This file follows the names that statements bind. A name that is already a variable or a parameter
keeps what it stands for, wherever that was bound; anything else gets a new binding in the
innermost scope. The same rules tell which names a function has to declare before its body: those
that are bound inside a block first, because a block ends before the function does.
-/

import Oxide.Options
import Oxide.Scope
import Oxide.Ty.Hint

namespace Oxide.Lower

/-! ### Names that statements bind -/

/-- Whether a name is a variable or a parameter here. -/
def isBound (table : Table) (name : String) : Bool :=
  match table.lookup name with
  | some symbol => symbol.isValue
  | none => false

/-- Binds the name of a function. -/
def register (table : Table) (definition : FunctionDef) : Table :=
  table.insert definition.name (.function definition)

/-- Binds a name as a variable, unless it is one. -/
def bindName (table : Table) (name : String) (hint : Expr) : Table :=
  if isBound table name then table else table.insert name (.variable name hint)

mutual

/-- Binds the names of an assignment's target. -/
def bindTarget : Expr → Expr → Table → Table
  | .name id, hint, table => bindName table id hint
  | .tuple items, _, table => bindTargets items table
  | _, _, table => table

/-- Binds the names of several targets. -/
def bindTargets : List Expr → Table → Table
  | [], table => table
  | first :: rest, table => bindTargets rest (bindTarget first .absent table)

end

/-- Binds the names of a statement; those inside its blocks do not count. -/
def bindStmt (table : Table) : Stmt → Table
  | .functionDef definition => register table definition
  | .asyncFunctionDef definition => register table definition
  | .assign targets _ => bindTargets targets table
  | .annAssign target hint _ => bindTarget target hint table
  | .augAssign target _ _ => bindTarget target .absent table
  | _ => table

/-- Binds the parameters of a function. -/
def bindParams (table : Table) (params : List Param) : Table :=
  params.foldl (fun table parameter => table.insert parameter.name (.param parameter)) table

/-! ### Names to declare in front -/

/-- A variable with its hint. -/
structure Declaration where
  name : String
  hint : Expr

/-- The names that are bound so far, and the declarations for those that a block has bound. -/
structure Hoisting where
  seen : List String := []
  declarations : List Declaration := []

/-- Meets a name that is bound, inside a block or not. -/
def hoistName (table : Table) (nested : Bool) (hoisting : Hoisting) (name : String)
    (hint : Expr) : Hoisting :=
  if hoisting.seen.contains name || isBound table name then hoisting
  else
    { seen := name :: hoisting.seen
      declarations :=
        if nested then hoisting.declarations ++ [{ name, hint }]
        else hoisting.declarations }

mutual

/-- Meets the names of a target. -/
def hoistTarget (table : Table) (nested : Bool) : Expr → Expr → Hoisting → Hoisting
  | .name id, hint, hoisting => hoistName table nested hoisting id hint
  | .tuple items, _, hoisting => hoistTargets table nested items hoisting
  | _, _, hoisting => hoisting

/-- Meets the names of several targets. -/
def hoistTargets (table : Table) (nested : Bool) : List Expr → Hoisting → Hoisting
  | [], hoisting => hoisting
  | first :: rest, hoisting =>
    hoistTargets table nested rest (hoistTarget table nested first .absent hoisting)

end

mutual

/-- Meets the names of a statement. -/
def hoistStmt (table : Table) (nested : Bool) : Stmt → Hoisting → Hoisting
  | .assign targets _, hoisting => hoistTargets table nested targets hoisting
  | .annAssign target hint _, hoisting =>
    hoistTarget table nested target hint hoisting
  | .ifElse _ body orelse, hoisting =>
    hoistBlock table true orelse (hoistBlock table true body hoisting)
  | .whileLoop _ body orelse, hoisting =>
    hoistBlock table true orelse (hoistBlock table true body hoisting)
  | .forLoop _ _ body orelse, hoisting =>
    hoistBlock table true orelse (hoistBlock table true body hoisting)
  | _, hoisting => hoisting

/-- Meets the names of the statements of a block. -/
def hoistBlock (table : Table) (nested : Bool) : List Stmt → Hoisting → Hoisting
  | [], hoisting => hoisting
  | first :: rest, hoisting =>
    hoistBlock table nested rest (hoistStmt table nested first hoisting)

end

/-- The declarations that a function with the given body needs in front of it. -/
def declarations (table : Table) (body : List Stmt) : List Declaration :=
  (hoistBlock table false body {}).declarations

namespace Declaration

/-- The spelling of a declaration; a hint that means no type is left out. -/
def tokens (options : Options) (declaration : Declaration) : Stream :=
  let head := ((Stream.keyword [] "let").keyword "mut").ident declaration.name
  let typed :=
    if declaration.hint.isAbsent then head
    else
      match Ty.ofHint? options.object declaration.hint with
      | some type => type.emit (Stream.punct (Stream.join head) ":")
      | none => head
  typed.punct ";"

/-- The table behind a declaration. -/
def declare (table : Table) (declaration : Declaration) : Table :=
  table.insert declaration.name (.variable declaration.name declaration.hint)

end Declaration

end Oxide.Lower
