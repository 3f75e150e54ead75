/-
This file lowers the parameters and the result of a function to the tokens of its head.
-/

import Oxide.Lower.Context
import Oxide.Lower.Fault
import Oxide.Options
import Oxide.Ty.Hint

namespace Oxide.Lower

/-- A parameter with its type. One that collects further arguments is a vector. -/
def param (options : Options) (parameter : Param) : Lowering Stream :=
  if !parameter.defaultValue.isAbsent then
    Lowering.unsupportedExpr ("default value of parameter " ++ parameter.name)
      parameter.defaultValue
  else if parameter.kind = .keywordArgs then
    Lowering.unsupportedParams "keyword arguments collector" [parameter]
  else
    match Ty.ofHint? options.object parameter.hint with
    | none =>
      Lowering.unsupportedExpr ("annotation of parameter " ++ parameter.name)
        parameter.hint
    | some type =>
      let type := if parameter.kind = .varArgs then .vec type else type
      .ok (type.emit (Stream.punct (Stream.join (Stream.ident [] parameter.name)) ":"))

/-- The parameters from the given number on. -/
def paramList (options : Options) (number : Nat) : List Param → Lowering (List Stream)
  | [] => .ok []
  | first :: rest => do
    let stream ← Attempt.inside ("param " ++ toString number) (param options first)
    let streams ← paramList options (number + 1) rest
    return stream :: streams

/-- The parameters of a function, without parentheses. -/
def params (options : Options) (parameters : List Param) : Lowering Stream :=
  Stream.comma <$> paramList options 0 parameters

/-- The result of a function; nothing is written for no result. -/
def result (options : Options) (returns : Expr) : Lowering Stream :=
  if returns.isAbsent then .ok []
  else
    match Ty.ofHint? options.object returns with
    | none => Lowering.unsupportedExpr "return annotation" returns
    | some .unit => .ok []
    | some type => .ok (type.emit (Stream.punct [] "->"))

end Oxide.Lower
