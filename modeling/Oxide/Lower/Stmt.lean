/-
This file lowers statements and functions. A statement is lowered without the semicolon that
follows it in a block, and the names that it binds can be seen by the statements after it. A
function is lowered as a whole or not at all.
-/

import Oxide.Lower.Params
import Oxide.Lower.Target

namespace Oxide.Lower

/-! ### Pieces -/

/-- A block in braces. -/
def braced (head body : Stream) : Stream :=
  head.group openBrace closeBrace body

/-- Whether an expression is the constant for truth. -/
def isTrue : Expr → Bool
  | .constant (.bool true) => true
  | _ => false

/-- Whether the other branch of a condition is just one further condition. -/
def isFurtherCondition : List Stmt → Bool
  | [.ifElse ..] => true
  | _ => false

/-- The head of a function. -/
def head (context : Context) (options : Options) (definition : FunctionDef)
    (parameters output : Stream) : Stream :=
  let doc := if options.noDocstrings then "" else definition.docstring?.getD ""
  let opened := (Visibility.ofName definition.name).emit (Stream.doc [] doc)
  let opened := (Qualifier.ofContext context).emit opened
  let named := Stream.join ((opened.keyword "fn").ident definition.name)
  named.group "(" ")" (Stream.join parameters) ++ output

/-- The table inside a function, before the declarations in front of its body. -/
def entryTable (table : Table) (name : String) (parameters : List Param) : Table :=
  bindParams (table.push .function name) parameters

/-! ### Statements -/

mutual

/-- Lowers a statement. -/
def stmt (options : Options) : Stmt → Context → Table → Lowering Stream
  | .absent, _, _ => Attempt.fail .absentStmt
  | .functionDef definition, context, table => function options definition context table
  | .asyncFunctionDef definition, _, table =>
    function options definition (.async definition.name) table
  | .expr value, context, table => expr context table value
  | .assign targets value, context, table => assign context table targets value
  | .augAssign place op value, context, table => augAssign context table place op value
  | .annAssign place hint value, context, table =>
    annAssign context options table place hint value
  | .ret value, context, table =>
    if value.isAbsent then .ok (Stream.keyword [] "return")
    else do
      let stream ← Attempt.inside "return value" (expr context table value)
      return Stream.keyword [] "return" ++ stream
  | .ifElse test body orelse, context, table => do
    let condition ← Attempt.inside "if test" (expr context table test)
    let inner ← Attempt.inside "if body" (block options 0 body context (table.push .block "if"))
    let first := braced (Stream.keyword [] "if" ++ condition) inner
    if orelse.isEmpty then return first
    else if isFurtherCondition orelse then
      let further ← Attempt.inside "elif" (firstOf options orelse context table)
      return first.keyword "else" ++ further
    else
      let other ← Attempt.inside "else body"
        (block options 0 orelse context (table.push .block "else"))
      return braced (first.keyword "else") other
  | .whileLoop test body orelse, context, table => do
    if !orelse.isEmpty then
      Lowering.unsupportedStmt "while-else" (.whileLoop test body orelse)
    else
      let inner ← Attempt.inside "while body"
        (block options 0 body context (table.push .block "while"))
      if isTrue test then return braced (Stream.keyword [] "loop") inner
      else
        let condition ← Attempt.inside "while test" (expr context table test)
        return braced (Stream.keyword [] "while" ++ condition) inner
  | .forLoop place iter body orelse, context, table => do
    if !orelse.isEmpty then
      Lowering.unsupportedStmt "for-else" (.forLoop place iter body orelse)
    else
      let pattern ← loopTarget place
      let items ← Attempt.inside "for iter" (expr context table iter)
      let inner ← Attempt.inside "for body"
        (block options 0 body context (bindTarget place .absent (table.push .block "for")))
      return braced ((Stream.keyword [] "for" ++ pattern).keyword "in" ++ items) inner
  | .pass, _, _ => .ok []
  | .breakLoop, _, _ => .ok (Stream.keyword [] "break")
  | .continueLoop, _, _ => .ok (Stream.keyword [] "continue")
  | .raise exc, context, table => raise context table exc
  | .assert test message, context, table => assertion context table test message
  | .classDef name body, _, _ =>
    Lowering.unsupportedStmt "class definition" (.classDef name body)
  | .importNames names, _, _ =>
    Lowering.unsupportedStmt "import inside function" (.importNames names)
  | .importFrom origin names, _, _ =>
    Lowering.unsupportedStmt "import inside function" (.importFrom origin names)
  | .globalNames names, _, _ =>
    Lowering.unsupportedStmt "global declaration" (.globalNames names)
  | .nonlocalNames names, _, _ =>
    Lowering.unsupportedStmt "nonlocal declaration" (.nonlocalNames names)
  | .delete targets, _, _ => Lowering.unsupportedStmt "del statement" (.delete targets)
  | .tryBlock body orelse finalbody, _, _ =>
    Lowering.unsupportedStmt "try statement" (.tryBlock body orelse finalbody)
  | .withBlock items body, _, _ =>
    Lowering.unsupportedStmt "with statement" (.withBlock items body)

/-- Lowers the statements of a block from the given number on, each with a semicolon behind it. -/
def block (options : Options) (number : Nat) : List Stmt → Context → Table → Lowering Stream
  | [], _, _ => .ok []
  | first :: rest, context, table => do
    let stream ← Attempt.inside ("statement " ++ toString number ++ ": " ++ first.dump)
      (stmt options first context table)
    let later ← block options (number + 1) rest context (bindStmt table first)
    return stream.punct ";" ++ later

/-- Lowers the first statement of a list. -/
def firstOf (options : Options) : List Stmt → Context → Table → Lowering Stream
  | [], _, _ => .ok []
  | first :: _, context, table => stmt options first context table

/-- Lowers a function. Its name decides how far it can be seen, and the context whether it is to be
waited for. -/
def function (options : Options) : FunctionOf Stmt → Context → Table → Lowering Stream
  | ⟨name, parameters, body, decorators, returns⟩, context, table => do
    if body.isEmpty then Attempt.inside ("def " ++ name) (Attempt.fail .emptyBody)
    else
      let clause ← Attempt.inside ("params " ++ Param.dumpClause parameters)
        (params options parameters)
      let output ← result options returns
      let entry := entryTable table name parameters
      let front := declarations entry body
      let inner ← Attempt.inside ("def " ++ name ++ " body")
        (block options 0 body context (front.foldl Declaration.declare entry))
      let definition := ⟨name, parameters, body, decorators, returns⟩
      let opened := head context options definition clause output
      return braced opened (front.flatMap (Declaration.tokens options) ++ inner)

end

end Oxide.Lower
