/-
This file defines the statements of the syntax trees that are read, the functions among them, and
modules. As with expressions, a statement that is left out is `Stmt.absent`.
-/

import Oxide.Tree.Expr

namespace Oxide

/-- An imported name and what it is called from there on, or an empty text. -/
structure Alias where
  name : String
  asName : String
  deriving DecidableEq, Inhabited

/-- A function over a type of statements. -/
structure FunctionOf (Statement : Type) where
  name : String
  params : List Param
  body : List Statement
  decorators : List String
  returns : Expr

/-- A statement. -/
inductive Stmt where
  | absent
  | functionDef (definition : FunctionOf Stmt)
  | asyncFunctionDef (definition : FunctionOf Stmt)
  | expr (value : Expr)
  | assign (targets : List Expr) (value : Expr)
  | augAssign (target : Expr) (op : String) (value : Expr)
  | annAssign (target hint value : Expr)
  | ret (value : Expr)
  | ifElse (test : Expr) (body orelse : List Stmt)
  | whileLoop (test : Expr) (body orelse : List Stmt)
  | forLoop (target iter : Expr) (body orelse : List Stmt)
  | pass
  | breakLoop
  | continueLoop
  | raise (exc : Expr)
  | assert (test msg : Expr)
  | classDef (name : String) (body : List Stmt)
  | importNames (names : List Alias)
  | importFrom (origin : String) (names : List Alias)
  | globalNames (names : List String)
  | nonlocalNames (names : List String)
  | delete (targets : List Expr)
  | tryBlock (body orelse finalbody : List Stmt)
  | withBlock (items : List Expr) (body : List Stmt)
  deriving Inhabited

/-- A function definition. -/
abbrev FunctionDef := FunctionOf Stmt

/-- The text of a constant that stands alone as the first statement of a function. A constant of any
kind will do. -/
def FunctionOf.docstring? (definition : FunctionDef) : Option String :=
  match definition.body with
  | .expr (.constant value) :: _ => some value.text
  | _ => none

/-- A function with a name and nothing else. -/
def FunctionOf.empty (name : String) : FunctionDef :=
  { name, params := [], body := [], decorators := [], returns := .absent }

/-- The function that a statement defines. -/
def Stmt.function? : Stmt → Option FunctionDef
  | .functionDef definition => some definition
  | .asyncFunctionDef definition => some definition
  | _ => none

/-- The statements of one source file. -/
structure Module where
  body : List Stmt
  deriving Inhabited

end Oxide
