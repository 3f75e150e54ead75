/-
This file lowers modules. All functions of a module are bound before any of them is lowered, so
that they can refer to each other. The other statements are gathered into a function of their own,
together with those that a module guards against being imported.
-/

import Oxide.Lower.Stmt

namespace Oxide.Lower

/-- The name of the function that holds the statements of a module. -/
def mainName : String := "main"

/-- Whether an expression is the text that names a module which is run. -/
def isMainText : Expr → Bool
  | .constant (.str text) => text = "__main__"
  | _ => false

/-- Whether a condition asks if the module is run and not imported. -/
def isMainGuard : Expr → Bool
  | .compare left [op] [right] =>
    op = "Eq" &&
      (if right.isName "__name__" then isMainText left
       else left.isName "__name__" && isMainText right)
  | _ => false

/-- The part of a statement of a module that belongs into the main function. -/
def mainPart : Stmt → List Stmt
  | .functionDef _ => []
  | .asyncFunctionDef _ => []
  | .importNames _ => []
  | .importFrom _ _ => []
  | .ifElse test body orelse =>
    if isMainGuard test then body else [.ifElse test body orelse]
  | other => [other]

/-- Binds the functions of a module. -/
def registerAll (table : Table) (body : List Stmt) : Table :=
  (body.filterMap Stmt.function?).foldl register table

/-- The line that uses everything of the runtime library. -/
def runtimeLine (options : Options) : Stream :=
  if options.useRuntime then
    let path := Stream.join (Stream.path [] [options.runtime])
    let path := Stream.join (Stream.punct (Stream.join (path.punct "::")) "*")
    Stream.keyword [] "use" ++ path.punct ";"
  else []

/-- Lowers the functions of a module, whose statements are numbered from the given number on. -/
def functions (options : Options) (table : Table) (number : Nat) : List Stmt → Lowering Stream
  | [] => .ok []
  | first :: rest => do
    let stream ← Attempt.inside ("stmt " ++ toString number) <|
      match first with
      | .functionDef definition => function options definition .module table
      | .asyncFunctionDef definition =>
        function options definition (.async definition.name) table
      | _ => .ok []
    let later ← functions options table (number + 1) rest
    return stream ++ later

/-- The main function with the given body. -/
def mainFunction (body : List Stmt) : FunctionDef :=
  { FunctionOf.empty mainName with body }

/-- Lowers a module. The table that comes with the result has the functions of the module, also if
the lowering fails. -/
def module (options : Options) (table : Table) (source : Module) : Table × Lowering Stream :=
  let table := registerAll table source.body
  let main := source.body.flatMap mainPart
  match functions options table 0 source.body with
  | .error failure => (table, .error failure)
  | .ok stream =>
    let stream := runtimeLine options ++ stream
    if main.isEmpty then (table, .ok stream)
    else if (table.lookupLocal mainName).isSome then
      (table, Attempt.fail (.mainTaken mainName))
    else
      let definition := mainFunction main
      let table := register table definition
      (table, do
        let later ← Attempt.inside "top level statements"
          (function options definition (.sync mainName) table)
        return stream ++ later)

end Oxide.Lower
