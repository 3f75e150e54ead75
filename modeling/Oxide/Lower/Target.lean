/-
This file lowers the places that values are assigned to, and the simple statements that assign. A
name that is not bound yet is declared where it is assigned first.
-/

import Oxide.Lower.Binding
import Oxide.Lower.Expr

namespace Oxide.Lower

/-! ### Targets -/

/-- The names of a tuple, if it holds nothing else. -/
def namesOf? : List Expr → Option (List String)
  | [] => some []
  | .name id :: rest => (id :: ·) <$> namesOf? rest
  | _ :: _ => none

/-- The pattern of names that are bound already. -/
def boundPattern (names : List String) : Stream :=
  Stream.comma (names.map fun id => Stream.ident [] id)

/-- The pattern of names that are new. -/
def freshPattern (names : List String) : Stream :=
  Stream.comma (names.map fun id => (Stream.keyword [] "mut").ident id)

/-- A tuple of names as a target: all of them are bound already or none of them is. -/
def unpacking (table : Table) (items : List Expr) : Lowering Stream :=
  match namesOf? items with
  | none => Lowering.unsupportedExpr "nested unpacking target" (.tuple items)
  | some names =>
    if names.all (isBound table) then .ok (parenthesized (boundPattern names))
    else if names.any (isBound table) then
      Lowering.unsupportedExpr "unpacking into both new and existing names" (.tuple items)
    else
      .ok ((Stream.keyword [] "let").group "(" ")" (Stream.join (freshPattern names)))

/-- A new variable, with its type if that is known. -/
def newVariable (name : String) (type? : Option Ty) : Stream :=
  let head := ((Stream.keyword [] "let").keyword "mut").ident name
  match type? with
  | some type => type.emit (Stream.punct (Stream.join head) ":")
  | none => head

/-- The target of an assignment. -/
def target (context : Context) (table : Table) (type? : Option Ty) : Expr → Lowering Stream
  | .name id =>
    .ok (if isBound table id then Stream.ident [] id else newVariable id type?)
  | .tuple items => unpacking table items
  | .attribute value attr => expr context table (.attribute value attr)
  | .subscript value slice => expr context table (.subscript value slice)
  | other => Lowering.unsupportedExpr "assignment target" other

/-- The target of a loop, whose names are always new. -/
def loopTarget : Expr → Lowering Stream
  | .name id => .ok (Stream.ident [] id)
  | .tuple items =>
    match namesOf? items with
    | some names => .ok (parenthesized (boundPattern names))
    | none => Lowering.unsupportedExpr "nested loop target" (.tuple items)
  | other => Lowering.unsupportedExpr "loop target" other

/-! ### Assignments -/

/-- An assignment to one target. -/
def assign (context : Context) (table : Table) (targets : List Expr) (value : Expr) :
    Lowering Stream :=
  match targets with
  | [single] => do
    let stream ← Attempt.inside "assign value" (expr context table value)
    let place ← Attempt.inside "assign target" (target context table none single)
    return place.punct "=" ++ stream
  | _ => Lowering.unsupportedStmt "chained assignment" (.assign targets value)

/-- An assignment with an operator; one that is a method is written out. -/
def augAssign (context : Context) (table : Table) (place : Expr) (op : String) (value : Expr) :
    Lowering Stream := do
  let stream ← Attempt.inside "target" (expr context table place)
  match binarySign? op with
  | some sign =>
    let operandStream ← Attempt.inside "value" (expr context table value)
    return stream.punct (sign ++ "=") ++ operandStream
  | none =>
    if (binaryMethod? op).isNone then
      Lowering.unsupportedStmt ("augmented operator " ++ op) (.augAssign place op value)
    else
      let result ← Attempt.inside "value" (expr context table (.binOp place op value))
      return stream.punct "=" ++ result

/-- An assignment with a hint; without a value it only declares. -/
def annAssign (context : Context) (options : Options) (table : Table)
    (place hint value : Expr) : Lowering Stream :=
  match Ty.ofHint? options.object hint with
  | none => Lowering.unsupportedExpr "annotation" hint
  | some type =>
    if value.isAbsent then
      match place with
      | .name id => .ok (if isBound table id then [] else newVariable id (some type))
      | _ => .ok []
    else do
      let stream ← Attempt.inside "value" (expr context table value)
      let place ← Attempt.inside "target" (target context table (some type) place)
      return place.punct "=" ++ stream

/-! ### Statements that stop -/

/-- The format that shows one value behind a text. -/
def valueFormat (text : String) : String :=
  text ++ openBrace ++ closeBrace

/-- A macro call with a format and a value. -/
def formatted (name format : String) (value : Stream) : Stream :=
  (Stream.bang [] name).group "(" ")"
    (Stream.join ((Stream.str [] format).punct "," ++ value))

/-- What an exception becomes: its class and its message, if it is built on the spot. -/
def raise (context : Context) (table : Table) : Expr → Lowering Stream
  | .absent => .ok ((Stream.bang [] "panic").group "(" ")" [])
  | .call (.name id) [] [] =>
    .ok ((Stream.bang [] "panic").group "(" ")" (Stream.join (Stream.str [] id)))
  | .call (.name id) [message] [] => do
    let stream ← Attempt.inside "raise message" (expr context table message)
    return formatted "panic" (valueFormat (id ++ ": ")) stream
  | other => do
    let stream ← Attempt.inside "raise" (expr context table other)
    return formatted "panic" (openBrace ++ ":?" ++ closeBrace) stream

/-- A test that stops if it fails, with a message if there is one. -/
def assertion (context : Context) (table : Table) (test message : Expr) : Lowering Stream := do
  let condition ← Attempt.inside "assert test" (expr context table test)
  if message.isAbsent then
    return (Stream.bang [] "assert").group "(" ")" (Stream.join condition)
  else
    let stream ← Attempt.inside "assert msg" (expr context table message)
    let inner := ((condition.punct ",").str (valueFormat "")).punct "," ++ stream
    return (Stream.bang [] "assert").group "(" ")" (Stream.join inner)

end Oxide.Lower
