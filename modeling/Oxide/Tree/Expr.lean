/-
This file defines the expressions of the syntax trees that are read. An expression that is left
out is an expression of its own, `Expr.absent`: it stands where an optional part is missing and
where a list holds a null. Nothing here forbids it elsewhere, so that a tree can be talked about
before it is known to be complete.
-/

namespace Oxide

/-- The value of a constant; a number keeps the spelling that it was read with. -/
inductive Constant where
  | none
  | bool (value : Bool)
  | int (text : String)
  | float (text : String)
  | str (text : String)
  deriving DecidableEq, Inhabited

namespace Constant

/-- The plain text of a constant, without quotes around a string. -/
def text : Constant → String
  | .none => "None"
  | .bool true => "True"
  | .bool false => "False"
  | .int text => text
  | .float text => text
  | .str text => text

/-- The constant with the given number of its kind and the given text. A number past the known kinds
gives a constant that is written as it is spelled. -/
def ofKind (kind : Int) (text : String) : Constant :=
  if kind = 0 then .none
  else if kind = 1 then .bool (text = "True" || text = "true")
  else if kind = 3 then .float text
  else if kind = 4 then .str text
  else .int text

end Constant

/-- How arguments reach a parameter; `unknown` is any kind beyond the five of the language. -/
inductive ParamKind where
  | positional
  | positionalOnly
  | varArgs
  | keywordOnly
  | keywordArgs
  | unknown
  deriving DecidableEq, Inhabited

namespace ParamKind

/-- The name of a kind. -/
def label : ParamKind → String
  | .positional => "positional"
  | .positionalOnly => "posonly"
  | .varArgs => "vararg"
  | .keywordOnly => "kwonly"
  | .keywordArgs => "kwarg"
  | .unknown => "invalid"

/-- The kind with the given number. -/
def ofNumber : Int → ParamKind
  | 0 => .positional
  | 1 => .positionalOnly
  | 2 => .varArgs
  | 3 => .keywordOnly
  | 4 => .keywordArgs
  | _ => .unknown

end ParamKind

/-- A parameter over a type of expressions. -/
structure ParamOf (Expression : Type) where
  name : String
  kind : ParamKind
  hint : Expression
  defaultValue : Expression

/-- An expression. Operators are named, and a name need not be one that means anything. -/
inductive Expr where
  | absent
  | constant (value : Constant)
  | name (id : String)
  | binOp (left : Expr) (op : String) (right : Expr)
  | unaryOp (op : String) (operand : Expr)
  | boolOp (op : String) (values : List Expr)
  | compare (left : Expr) (ops : List String) (comparators : List Expr)
  | call (function : Expr) (arguments : List Expr) (keywords : List (String × Expr))
  | attribute (value : Expr) (attr : String)
  | subscript (value slice : Expr)
  | list (items : List Expr)
  | tuple (items : List Expr)
  | await (value : Expr)
  | lambda (params : List (ParamOf Expr)) (body : Expr)
  | dict (keys values : List Expr)
  | joinedStr (values : List Expr)
  deriving Inhabited

/-- A parameter of a function. -/
abbrev Param := ParamOf Expr

namespace Expr

/-- Whether the expression is left out. -/
def isAbsent : Expr → Bool
  | .absent => true
  | _ => false

/-- Whether the expression is the constant for nothing, spelled as a constant or as a name. -/
def isNone : Expr → Bool
  | .constant .none => true
  | .name id => id = "None"
  | _ => false

/-- Whether the expression is the given name. -/
def isName (id : String) : Expr → Bool
  | .name other => other = id
  | _ => false

end Expr

end Oxide
