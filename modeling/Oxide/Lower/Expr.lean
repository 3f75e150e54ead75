/-
This file lowers expressions. An operand that is itself built with an operator gets parentheses,
so the result means the same whatever the precedences are. A chain of comparisons becomes a
conjunction, some operators become methods, and calls of a few known functions become what does
the same job, unless the name of the function is bound to something else.

The parts of an expression are lowered first, each to a result or a failure, and then put together
in the order in which their failures are to be reported.
-/

import Oxide.Lower.Constant
import Oxide.Lower.Context
import Oxide.Lower.Fault
import Oxide.Scope

namespace Oxide.Lower

/-! ### Operators -/

/-- The operators that are written between their operands. -/
def binarySign? (op : String) : Option String :=
  if op = "Add" then some "+"
  else if op = "Sub" then some "-"
  else if op = "Mult" then some "*"
  else if op = "Div" then some "/"
  else if op = "Mod" then some "%"
  else if op = "LShift" then some "<<"
  else if op = "RShift" then some ">>"
  else if op = "BitOr" then some "|"
  else if op = "BitXor" then some "^"
  else if op = "BitAnd" then some "&"
  else none

/-- The operators that are methods of their left operand. -/
def binaryMethod? (op : String) : Option String :=
  if op = "Pow" then some "pow"
  else if op = "FloorDiv" then some "div_euclid"
  else none

/-- The signs of comparisons. -/
def comparisonSign? (op : String) : Option String :=
  if op = "Eq" then some "=="
  else if op = "NotEq" then some "!="
  else if op = "Lt" then some "<"
  else if op = "LtE" then some "<="
  else if op = "Gt" then some ">"
  else if op = "GtE" then some ">="
  else if op = "Is" then some "=="
  else if op = "IsNot" then some "!="
  else none

/-- The sign that joins truth values. -/
def logicalSign? (op : String) : Option String :=
  if op = "And" then some "&&"
  else if op = "Or" then some "||"
  else none

/-- The sign before an operand, which may be no sign at all. -/
def unarySign? (op : String) : Option Stream :=
  if op = "Not" || op = "Invert" then some (Stream.join (Stream.punct [] "!"))
  else if op = "USub" then some (Stream.join (Stream.punct [] "-"))
  else if op = "UAdd" then some []
  else none

/-! ### Putting streams together -/

/-- A stream in parentheses. -/
def parenthesized (stream : Stream) : Stream :=
  Stream.group [] "(" ")" (Stream.join stream)

/-- Whether an expression is built with an operator. -/
def isCompound : Expr → Bool
  | .binOp .. => true
  | .boolOp .. => true
  | .compare .. => true
  | .unaryOp .. => true
  | _ => false

/-- The stream of an expression as an operand. -/
def operand (expr : Expr) (stream : Stream) : Stream :=
  if isCompound expr then parenthesized stream else stream

/-- A stream with a dot behind it. -/
def dotted (stream : Stream) : Stream :=
  Stream.join (Stream.punct (Stream.join stream) ".")

/-- A method call. -/
def method (receiver : Stream) (name : String) (arguments : Stream) : Stream :=
  (Stream.join ((dotted receiver).ident name)).group "(" ")" (Stream.join arguments)

/-- Streams with a sign between any two of them. -/
def separated (sign : String) : List Stream → Stream
  | [] => []
  | [last] => last
  | first :: next :: rest => Stream.punct first sign ++ separated sign (next :: rest)

/-! ### Parts -/

/-- An expression and what it is lowered to. -/
structure Part where
  expr : Expr
  outcome : Lowering Stream

/-- The outcome of a part as an operand. -/
def Part.operand (part : Part) : Lowering Stream :=
  Lower.operand part.expr <$> part.outcome

/-- The outcomes of the parts of a list, with the number of the one that fails. -/
def collect (place : String) (outcome : Part → Lowering Stream) (number : Nat) :
    List Part → Lowering (List Stream)
  | [] => .ok []
  | part :: rest => do
    let stream ← Attempt.inside (place ++ " " ++ toString number) (outcome part)
    let streams ← collect place outcome (number + 1) rest
    return stream :: streams

/-- The outcomes of the elements of a list. -/
def elements (parts : List Part) : Lowering (List Stream) :=
  collect "elem" Part.outcome 0 parts

/-! ### Binary operators -/

/-- An operator between two operands. -/
def binary (whole : Expr) (left : Part) (op : String) (right : Part) : Lowering Stream :=
  match binaryMethod? op with
  | some name => do
    let receiver ← Attempt.inside "left" left.operand
    let argument ← Attempt.inside "right" right.outcome
    return method receiver name argument
  | none =>
    match binarySign? op with
    | some sign => do
      let first ← Attempt.inside "left" left.operand
      let second ← Attempt.inside "right" right.operand
      return first.punct sign ++ second
    | none => Lowering.unsupportedExpr ("binary operator " ++ op) whole

/-! ### Comparisons -/

/-- Whether the left operand is in the right one. -/
def containment (left right : Part) : Lowering Stream := do
  let receiver ← right.operand
  let item ← left.outcome
  return method receiver "contains" (Stream.join (Stream.punct [] "&") ++ item)

/-- One comparison of a chain. -/
def comparison (whole : Expr) (left : Part) (op : String) (right : Part) : Lowering Stream :=
  if op = "In" then containment left right
  else if op = "NotIn" then do
    return Stream.join (Stream.punct [] "!") ++ (← containment left right)
  else if op = "Is" && right.expr.isNone then do
    return method (← left.operand) "is_none" []
  else if op = "IsNot" && right.expr.isNone then do
    return method (← left.operand) "is_some" []
  else
    match comparisonSign? op with
    | some sign => do
      let first ← left.operand
      let second ← right.operand
      return first.punct sign ++ second
    | none => Lowering.unsupportedExpr ("comparison operator " ++ op) whole

/-- The comparisons of a chain from the given number on, where each right operand is the left one
of the comparison that follows. -/
def comparisons (whole : Expr) (number : Nat) (left : Part) :
    List String → List Part → Lowering (List Stream)
  | op :: ops, right :: rest => do
    let first ← Attempt.inside ("comparison " ++ toString number) (comparison whole left op right)
    let later ← comparisons whole (number + 1) right ops rest
    return first :: later
  | _, _ => .ok []

/-- A chain of comparisons, where a single one needs no parentheses. -/
def chain (whole : Expr) (left : Part) (ops : List String) (rights : List Part) :
    Lowering Stream := do
  if ops.isEmpty || ops.length ≠ rights.length then
    Lowering.unsupportedExpr "malformed comparison" whole
  else
    match ← comparisons whole 0 left ops rights with
    | [single] => return single
    | several => return separated "&&" (several.map parenthesized)

/-! ### Calls -/

/-- A range with its ends. -/
def range (start stop : Stream) : Stream :=
  parenthesized (Stream.join (Stream.punct (Stream.join start) "..") ++ stop)

/-- The format that shows so many values with spaces between them. -/
def displayFormat (count : Nat) : String :=
  " ".intercalate (List.replicate count (openBrace ++ closeBrace))

/-- A line of output. -/
def printLine (arguments : List Stream) : Stream :=
  let inner :=
    if arguments.isEmpty then []
    else (Stream.str [] (displayFormat arguments.length)).punct "," ++ Stream.comma arguments
  (Stream.bang [] "println").group "(" ")" (Stream.join inner)

/-- The call of a function that is known by its name, if these are arguments for it. -/
def knownCall? (function : String) (expressions : List Expr) (arguments : List Stream) :
    Option Stream :=
  let operands := List.zipWith operand expressions arguments
  if function = "print" then some (printLine arguments)
  else if function = "len" then
    match operands with
    | [value] => some (method value "len" [])
    | _ => none
  else if function = "str" then
    match operands with
    | [value] => some (method value "to_string" [])
    | _ => none
  else if function = "range" then
    match operands with
    | [stop] => some (range (Stream.literal [] "0") stop)
    | [start, stop] => some (range start stop)
    | [start, stop, step] =>
      some (method (range start stop) "step_by" ((step.keyword "as").ident "usize"))
    | _ => none
  else none

/-- The call of a known function whose name is not bound to anything. -/
def specialCall? (table : Table) (function : Expr) (expressions : List Expr)
    (arguments : List Stream) : Option Stream :=
  match function with
  | .name id =>
    if (table.lookup id).isSome then none else knownCall? id expressions arguments
  | _ => none

/-! ### Expressions -/

mutual

/-- Lowers an expression in a context, where the table says which names are bound. -/
def expr (context : Context) (table : Table) : Expr → Lowering Stream
  | .absent => Attempt.fail .absentExpr
  | .constant value => .ok (constant value)
  | .name id => .ok (name id)
  | .binOp left op right =>
    binary (.binOp left op right) ⟨left, expr context table left⟩ op
      ⟨right, expr context table right⟩
  | .unaryOp op value =>
    match unarySign? op with
    | some sign => do
      let stream ← Attempt.inside "operand" (expr context table value)
      return sign ++ operand value stream
    | none => Lowering.unsupportedExpr ("unary operator " ++ op) (.unaryOp op value)
  | .boolOp op values =>
    match logicalSign? op with
    | some sign => separated sign <$> collect "value" Part.operand 0 (parts context table values)
    | none => Lowering.unsupportedExpr ("bool operator " ++ op) (.boolOp op values)
  | .compare left ops comparators =>
    chain (.compare left ops comparators) ⟨left, expr context table left⟩ ops
      (parts context table comparators)
  | .call function arguments keywords => do
    if !keywords.isEmpty then
      Lowering.unsupportedExpr "keyword arguments" (.call function arguments keywords)
    else
      let streams ← Attempt.inside "call args" (elements (parts context table arguments))
      match specialCall? table function arguments streams with
      | some stream => return stream
      | none =>
        let callee ← Attempt.inside "callee" (expr context table function)
        return (Stream.join (operand function callee)).group "(" ")"
          (Stream.join (Stream.comma streams))
  | .attribute value attr => do
    let stream ← Attempt.inside "attribute value" (expr context table value)
    return (dotted (operand value stream)).ident attr
  | .subscript value slice => do
    let stream ← Attempt.inside "subscript value" (expr context table value)
    let index ← Attempt.inside "subscript index" (expr context table slice)
    return (Stream.join (operand value stream)).group "[" "]" (Stream.join index)
  | .list items => do
    let streams ← Attempt.inside "list" (elements (parts context table items))
    return (Stream.bang [] "vec").group "[" "]" (Stream.join (Stream.comma streams))
  | .tuple items => do
    let streams ← Attempt.inside "tuple" (elements (parts context table items))
    let inner := Stream.comma streams
    return parenthesized (if streams.length = 1 then inner.punct "," else inner)
  | .await value => do
    if !context.isAsync then
      Lowering.unsupportedExpr "await outside of async function" (.await value)
    else
      let stream ← Attempt.inside "await" (expr context table value)
      return (dotted (operand value stream)).keyword "await"
  | .lambda params body => Lowering.unsupportedExpr "lambda" (.lambda params body)
  | .dict keys values => Lowering.unsupportedExpr "dict display" (.dict keys values)
  | .joinedStr values => Lowering.unsupportedExpr "f-string" (.joinedStr values)

/-- Lowers the expressions of a list, each on its own. -/
def parts (context : Context) (table : Table) : List Expr → List Part
  | [] => []
  | first :: rest => ⟨first, expr context table first⟩ :: parts context table rest

end

end Oxide.Lower
