/-
This file names what can stop a lowering. Most often it is a piece of the tree that has no
counterpart; the piece is kept, so that the message can show it.
-/

import Oxide.Failure
import Oxide.Tree.Dump

namespace Oxide

/-- A piece of a tree. -/
inductive Fragment where
  | expr (value : Expr)
  | stmt (value : Stmt)
  | params (values : List Param)
  deriving Inhabited

/-- A piece of a tree on one line. -/
def Fragment.dump : Fragment → String
  | .expr value => value.dump
  | .stmt value => value.dump
  | .params values => Param.dumpClause values

/-- Why a tree cannot be lowered. -/
inductive LowerFault where
  | unsupported (reason : String) (fragment : Fragment)
  | emptyBody
  | absentExpr
  | absentStmt
  /-- A module has statements of its own, and the name of the function to hold them is taken. -/
  | mainTaken (name : String)
  deriving Inhabited

/-- The wording of a fault. -/
def LowerFault.message : LowerFault → String
  | .unsupported reason fragment => "unsupported " ++ reason ++ ": " ++ fragment.dump
  | .emptyBody => "function body is empty"
  | .absentExpr => "nil expression"
  | .absentStmt => "nil statement"
  | .mainTaken name => "module defines " ++ name ++ " and has top level statements"

/-- The result of a lowering, or a fault and the way to it. -/
abbrev Lowering (α : Type) := Attempt LowerFault α

namespace Lowering

variable {α : Type}

/-- Fails for an expression that has no counterpart. -/
def unsupportedExpr (reason : String) (value : Expr) : Lowering α :=
  Attempt.fail (.unsupported reason (.expr value))

/-- Fails for a statement that has no counterpart. -/
def unsupportedStmt (reason : String) (value : Stmt) : Lowering α :=
  Attempt.fail (.unsupported reason (.stmt value))

/-- Fails for parameters that have no counterpart. -/
def unsupportedParams (reason : String) (values : List Param) : Lowering α :=
  Attempt.fail (.unsupported reason (.params values))

end Lowering

end Oxide
