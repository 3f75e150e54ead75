/-
This file prints trees on one line for messages: the name of a node and its fields in parentheses.
Optional fields that are missing are left out, while a missing element of a list is written as a
null. The printer carries the text so far and the count of fields since the last node was opened or
closed, which is what decides whether a comma is due.
-/

import Oxide.Tree.Stmt

namespace Oxide

/-! ### The printer -/

/-- A character between single quotes. -/
def dumpChar : Char → List Char
  | '\\' => ['\\', '\\']
  | '\x27' => ['\\', '\x27']
  | '\n' => ['\\', 'n']
  | '\t' => ['\\', 't']
  | '\r' => ['\\', 'r']
  | c => [c]

/-- A text between single quotes. -/
def dumpText (text : String) : String :=
  String.ofList ('\x27' :: text.toList.flatMap dumpChar ++ ['\x27'])

/-- The text printed so far and the count of fields that decides about commas. -/
structure Dumper where
  text : String
  fields : Nat

namespace Dumper

/-- Adds text as it is. -/
def write (dumper : Dumper) (text : String) : Dumper :=
  { dumper with text := dumper.text ++ text }

/-- Opens a node, which has no fields yet. -/
def openNode (dumper : Dumper) (name : String) : Dumper :=
  { text := dumper.text ++ name ++ "(", fields := 0 }

/-- Closes a node, which was itself part of a field. -/
def closeNode (dumper : Dumper) : Dumper :=
  { text := dumper.text ++ ")", fields := 1 }

/-- Starts a field. -/
def field (dumper : Dumper) (name : String) : Dumper :=
  let text := if dumper.fields = 0 then dumper.text else dumper.text ++ ", "
  { text := text ++ name ++ "=", fields := dumper.fields + 1 }

/-- A field that holds a text in quotes. -/
def textField (dumper : Dumper) (name text : String) : Dumper :=
  (dumper.field name).write (dumpText text)

/-- A field that holds several texts in quotes. -/
def textsField (dumper : Dumper) (name : String) (texts : List String) : Dumper :=
  (dumper.field name).write ("[" ++ ", ".intercalate (texts.map dumpText) ++ "]")

/-- An operator, which is a node without fields. -/
def operator (op : String) : String :=
  op ++ "()"

/-- A field that holds an operator. -/
def opField (dumper : Dumper) (name op : String) : Dumper :=
  (dumper.field name).write (operator op)

/-- A field that holds several operators. -/
def opsField (dumper : Dumper) (name : String) (ops : List String) : Dumper :=
  (dumper.field name).write ("[" ++ ", ".intercalate (ops.map operator) ++ "]")

/-- An imported name. -/
def aliasText (name : Alias) : String :=
  let asName := if name.asName = "" then "" else ", asname=" ++ dumpText name.asName
  "alias(name=" ++ dumpText name.name ++ asName ++ ")"

/-- A field that holds imported names. -/
def aliasesField (dumper : Dumper) (names : List Alias) : Dumper :=
  (dumper.field "names").write ("[" ++ ", ".intercalate (names.map aliasText) ++ "]")

/-- The value of a constant: only strings are quoted. -/
def constant : Constant → String
  | .str text => dumpText text
  | value => value.text

/-- A field that is left out if its expression is. -/
def exprField (dumper : Dumper) (name : String) (value : Expr) (print : Dumper → Dumper) :
    Dumper :=
  if value.isAbsent then dumper else print (dumper.field name)

/-- A field that holds a list. -/
def listField (dumper : Dumper) (name : String) (print : Dumper → Dumper) : Dumper :=
  (print ((dumper.field name).write "[")).write "]"

/-- A field that holds a list of statements and is left out if the list is empty. -/
def blockField (dumper : Dumper) (name : String) (body : List Stmt) (print : Dumper → Dumper) :
    Dumper :=
  if body.isEmpty then dumper else dumper.listField name print

end Dumper

/-! ### Expressions -/

mutual

/-- Prints an expression behind what is printed already. -/
def Expr.dumpOn : Expr → Dumper → Dumper
  | .absent, dumper => dumper.write "None"
  | .constant value, dumper =>
    (((dumper.openNode "Constant").field "value").write (Dumper.constant value)).closeNode
  | .name id, dumper => ((dumper.openNode "Name").textField "id" id).closeNode
  | .binOp left op right, dumper =>
    let dumper := (dumper.openNode "BinOp").exprField "left" left left.dumpOn
    ((dumper.opField "op" op).exprField "right" right right.dumpOn).closeNode
  | .unaryOp op operand, dumper =>
    let dumper := (dumper.openNode "UnaryOp").opField "op" op
    (dumper.exprField "operand" operand operand.dumpOn).closeNode
  | .boolOp op values, dumper =>
    let dumper := (dumper.openNode "BoolOp").opField "op" op
    (dumper.listField "values" (Expr.dumpListOn values)).closeNode
  | .compare left ops comparators, dumper =>
    let dumper := (dumper.openNode "Compare").exprField "left" left left.dumpOn
    let dumper := dumper.opsField "ops" ops
    (dumper.listField "comparators" (Expr.dumpListOn comparators)).closeNode
  | .call function arguments keywords, dumper =>
    let dumper := (dumper.openNode "Call").exprField "func" function function.dumpOn
    let dumper := dumper.listField "args" (Expr.dumpListOn arguments)
    let dumper :=
      if keywords.isEmpty then dumper
      else dumper.listField "keywords" (Expr.dumpKeywordsOn keywords)
    dumper.closeNode
  | .attribute value attr, dumper =>
    let dumper := (dumper.openNode "Attribute").exprField "value" value value.dumpOn
    (dumper.textField "attr" attr).closeNode
  | .subscript value slice, dumper =>
    let dumper := (dumper.openNode "Subscript").exprField "value" value value.dumpOn
    (dumper.exprField "slice" slice slice.dumpOn).closeNode
  | .list items, dumper =>
    ((dumper.openNode "List").listField "elts" (Expr.dumpListOn items)).closeNode
  | .tuple items, dumper =>
    ((dumper.openNode "Tuple").listField "elts" (Expr.dumpListOn items)).closeNode
  | .await value, dumper =>
    ((dumper.openNode "Await").exprField "value" value value.dumpOn).closeNode
  | .lambda params body, dumper =>
    let dumper := ((dumper.openNode "Lambda").field "args").write "arguments("
    let dumper := (Param.dumpListOn params dumper).write ")"
    (dumper.exprField "body" body body.dumpOn).closeNode
  | .dict keys values, dumper =>
    let dumper := (dumper.openNode "Dict").listField "keys" (Expr.dumpListOn keys)
    (dumper.listField "values" (Expr.dumpListOn values)).closeNode
  | .joinedStr values, dumper =>
    ((dumper.openNode "JoinedStr").listField "values" (Expr.dumpListOn values)).closeNode

/-- Prints the elements of a list. -/
def Expr.dumpListOn : List Expr → Dumper → Dumper
  | [], dumper => dumper
  | first :: rest, dumper =>
    let dumper := first.dumpOn dumper
    Expr.dumpListOn rest (if rest.isEmpty then dumper else dumper.write ", ")

/-- Prints the keyword arguments of a call. -/
def Expr.dumpKeywordsOn : List (String × Expr) → Dumper → Dumper
  | [], dumper => dumper
  | (name, value) :: rest, dumper =>
    let dumper := dumper.write ("keyword(arg=" ++ dumpText name ++ ", value=")
    let dumper := (value.dumpOn dumper).write ")"
    Expr.dumpKeywordsOn rest (if rest.isEmpty then dumper else dumper.write ", ")

/-- Prints the parameters of a function. -/
def Param.dumpListOn : List (ParamOf Expr) → Dumper → Dumper
  | [], dumper => dumper
  | ⟨name, kind, hint, defaultValue⟩ :: rest, dumper =>
    let dumper := dumper.write ("arg(arg=" ++ dumpText name)
    let dumper :=
      if kind = .positional then dumper else dumper.write (", kind=" ++ kind.label)
    let dumper :=
      if hint.isAbsent then dumper else hint.dumpOn (dumper.write ", annotation=")
    let dumper :=
      if defaultValue.isAbsent then dumper else defaultValue.dumpOn (dumper.write ", default=")
    let dumper := dumper.write ")"
    Param.dumpListOn rest (if rest.isEmpty then dumper else dumper.write ", ")

end

/-- Prints a parameter list behind what is printed already. -/
def Param.dumpClauseOn (params : List Param) (dumper : Dumper) : Dumper :=
  (Param.dumpListOn params (dumper.write "arguments(")).write ")"

/-! ### Statements -/

mutual

/-- Prints a statement behind what is printed already. -/
def Stmt.dumpOn : Stmt → Dumper → Dumper
  | .absent, dumper => dumper.write "None"
  | .functionDef definition, dumper => FunctionDef.dumpOn "FunctionDef" definition dumper
  | .asyncFunctionDef definition, dumper => FunctionDef.dumpOn "AsyncFunctionDef" definition dumper
  | .expr value, dumper =>
    ((dumper.openNode "Expr").exprField "value" value value.dumpOn).closeNode
  | .assign targets value, dumper =>
    let dumper := (dumper.openNode "Assign").listField "targets" (Expr.dumpListOn targets)
    (dumper.exprField "value" value value.dumpOn).closeNode
  | .augAssign target op value, dumper =>
    let dumper := (dumper.openNode "AugAssign").exprField "target" target target.dumpOn
    ((dumper.opField "op" op).exprField "value" value value.dumpOn).closeNode
  | .annAssign target hint value, dumper =>
    let dumper := (dumper.openNode "AnnAssign").exprField "target" target target.dumpOn
    let dumper := dumper.exprField "annotation" hint hint.dumpOn
    (dumper.exprField "value" value value.dumpOn).closeNode
  | .ret value, dumper =>
    ((dumper.openNode "Return").exprField "value" value value.dumpOn).closeNode
  | .ifElse test body orelse, dumper =>
    let dumper := (dumper.openNode "If").exprField "test" test test.dumpOn
    let dumper := dumper.listField "body" (Stmt.dumpListOn body)
    (dumper.blockField "orelse" orelse (Stmt.dumpListOn orelse)).closeNode
  | .whileLoop test body orelse, dumper =>
    let dumper := (dumper.openNode "While").exprField "test" test test.dumpOn
    let dumper := dumper.listField "body" (Stmt.dumpListOn body)
    (dumper.blockField "orelse" orelse (Stmt.dumpListOn orelse)).closeNode
  | .forLoop target iter body orelse, dumper =>
    let dumper := (dumper.openNode "For").exprField "target" target target.dumpOn
    let dumper := dumper.exprField "iter" iter iter.dumpOn
    let dumper := dumper.listField "body" (Stmt.dumpListOn body)
    (dumper.blockField "orelse" orelse (Stmt.dumpListOn orelse)).closeNode
  | .pass, dumper => dumper.write "Pass()"
  | .breakLoop, dumper => dumper.write "Break()"
  | .continueLoop, dumper => dumper.write "Continue()"
  | .raise exc, dumper =>
    ((dumper.openNode "Raise").exprField "exc" exc exc.dumpOn).closeNode
  | .assert test msg, dumper =>
    let dumper := (dumper.openNode "Assert").exprField "test" test test.dumpOn
    (dumper.exprField "msg" msg msg.dumpOn).closeNode
  | .classDef name body, dumper =>
    let dumper := (dumper.openNode "ClassDef").textField "name" name
    (dumper.listField "body" (Stmt.dumpListOn body)).closeNode
  | .importNames names, dumper => ((dumper.openNode "Import").aliasesField names).closeNode
  | .importFrom origin names, dumper =>
    (((dumper.openNode "ImportFrom").textField "module" origin).aliasesField names).closeNode
  | .globalNames names, dumper =>
    ((dumper.openNode "Global").textsField "names" names).closeNode
  | .nonlocalNames names, dumper =>
    ((dumper.openNode "Nonlocal").textsField "names" names).closeNode
  | .delete targets, dumper =>
    ((dumper.openNode "Delete").listField "targets" (Expr.dumpListOn targets)).closeNode
  | .tryBlock body orelse finalbody, dumper =>
    let dumper := (dumper.openNode "Try").listField "body" (Stmt.dumpListOn body)
    let dumper := dumper.blockField "orelse" orelse (Stmt.dumpListOn orelse)
    (dumper.blockField "finalbody" finalbody (Stmt.dumpListOn finalbody)).closeNode
  | .withBlock items body, dumper =>
    let dumper := (dumper.openNode "With").listField "items" (Expr.dumpListOn items)
    (dumper.listField "body" (Stmt.dumpListOn body)).closeNode

/-- Prints a function under the given node name. -/
def FunctionDef.dumpOn (node : String) : FunctionOf Stmt → Dumper → Dumper
  | ⟨name, params, body, decorators, returns⟩, dumper =>
    let dumper := ((dumper.openNode node).textField "name" name).field "args"
    let dumper := Param.dumpClauseOn params dumper
    let dumper := dumper.listField "body" (Stmt.dumpListOn body)
    let dumper := dumper.textsField "decorator_list" decorators
    (dumper.exprField "returns" returns returns.dumpOn).closeNode

/-- Prints the statements of a list. -/
def Stmt.dumpListOn : List Stmt → Dumper → Dumper
  | [], dumper => dumper
  | first :: rest, dumper =>
    let dumper := first.dumpOn dumper
    Stmt.dumpListOn rest (if rest.isEmpty then dumper else dumper.write ", ")

end

/-! ### Whole texts -/

/-- What a printing gives from the start. -/
def Dumper.run (print : Dumper → Dumper) : String :=
  (print { text := "", fields := 0 }).text

/-- An expression on one line. -/
def Expr.dump (value : Expr) : String :=
  Dumper.run value.dumpOn

/-- A parameter list on one line. -/
def Param.dumpClause (params : List Param) : String :=
  Dumper.run (Param.dumpClauseOn params)

/-- A statement on one line. -/
def Stmt.dump (statement : Stmt) : String :=
  Dumper.run statement.dumpOn

/-- A module on one line. -/
def Module.dump (source : Module) : String :=
  Dumper.run fun dumper =>
    ((dumper.openNode "Module").listField "body" (Stmt.dumpListOn source.body)).closeNode

end Oxide
