/-
This file finds the type that a hint means. Some hints have no counterpart and mean
nothing; a missing one, and one that leaves the type open, means the dynamic type.
-/

import Oxide.Ty
import Oxide.Tree.Expr

namespace Oxide.Ty

/-- The last part of the name of a type; the path to it does not matter. -/
def hintName : Expr → String
  | .name id => id
  | .attribute _ attr => attr
  | _ => ""

/-- The type with the given name and no arguments. -/
def ofName? (object : Ty) (name : String) : Option Ty :=
  if name = "int" then some (.int 64 true)
  else if name = "float" then some (.float 64)
  else if name = "str" then some .str
  else if name = "bool" then some .bool
  else if name = "None" then some .unit
  else if ["bytes", "bytearray"].contains name then some (.vec (.int 8 false))
  else if ["object", "Any"].contains name then some object
  else if ["list", "List"].contains name then some (.vec object)
  else if ["dict", "Dict"].contains name then some (.map object object)
  else if ["set", "Set", "frozenset"].contains name then some (.set object)
  else if ["tuple", "Tuple", "Union", "Callable", ""].contains name then none
  else some (.named name)

/-- The type with the given name and arguments. -/
def ofArguments? (name : String) (arguments : List Ty) : Option Ty :=
  if ["list", "List", "Sequence", "Iterable"].contains name then
    match arguments with
    | [item] => some (.vec item)
    | _ => none
  else if ["dict", "Dict", "Mapping"].contains name then
    match arguments with
    | [key, value] => some (.map key value)
    | _ => none
  else if ["set", "Set", "frozenset"].contains name then
    match arguments with
    | [item] => some (.set item)
    | _ => none
  else if name = "Optional" then
    match arguments with
    | [item] => some (.option item)
    | _ => none
  else if ["tuple", "Tuple"].contains name then some (.tuple arguments)
  else none

mutual

/-- The type that a hint means, given the dynamic type. -/
def ofHint? (object : Ty) : Expr → Option Ty
  | .absent => some object
  | .constant .none => some .unit
  | .constant (.str text) => some (.named text)
  | .name id => ofName? object id
  | .attribute _ attr => ofName? object attr
  | .subscript head (.tuple items) => do
    ofArguments? (hintName head) (← ofHints? object items)
  | .subscript head slice => do
    ofArguments? (hintName head) [← ofHint? object slice]
  | .binOp left op right =>
    if op ≠ "BitOr" then none
    else if right.isNone then .option <$> ofHint? object left
    else if left.isNone then .option <$> ofHint? object right
    else none
  | _ => none

/-- The types that several hints mean. -/
def ofHints? (object : Ty) : List Expr → Option (List Ty)
  | [] => some []
  | first :: rest => do
    let type ← ofHint? object first
    let types ← ofHints? object rest
    return type :: types

end

end Oxide.Ty
