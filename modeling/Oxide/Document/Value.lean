/-
This file reads nodes as the values that a setting wants: a text, a truth value, or a list of
texts. Here aliases are followed, a null is no value, and a tag that does not fit the text it
stands beside is a fault. Every node that is looked at is counted.
-/

import Oxide.Document.Visits
import Oxide.Document.Binary
import Oxide.Document.Node

namespace Oxide.Document.Node

/-- A scalar as a text, where null is no text. -/
def scalarText (tag : Tag) (text : String) : Except Fault (Option String) :=
  match tag with
  | .null => if tag.accepts text then .ok none else .error .value
  | .binary =>
    match binaryText? text with
    | some decoded => .ok (some decoded)
    | none => .error .value
  | tag => if tag.accepts text then .ok (some text) else .error .value

/-- A node as a text, where null is no text. `aliased` tells whether the node lies behind an
alias. -/
def string? (aliased : Bool) (visits : Visits) : Node → Except Fault (Option String × Visits)
  | .scalar _ tag text => do
    let visits ← visits.add aliased
    return (← scalarText tag text, visits)
  | .reference _ _ target => do target.string? true (← visits.add aliased)
  | _ => .error .value

/-- The truth value of a word that is a string for the document. -/
def wordTruth? (text : String) : Option Bool :=
  if ["y", "Y", "yes", "Yes", "YES", "on", "On", "ON"].contains text then some true
  else if ["n", "N", "no", "No", "NO", "off", "Off", "OFF"].contains text then some false
  else none

/-- A scalar as a truth value, where null is none. -/
def scalarTruth (tag : Tag) (text : String) : Except Fault (Option Bool) := do
  match ← scalarText tag text with
  | none => return none
  | some text =>
    let truth? := match tag with
      | .bool => Tag.truth? text
      | .str | .binary | .merge | .other _ => wordTruth? text
      | _ => none
    match truth? with
    | some truth => return some truth
    | none => throw .value

/-- A node as a truth value, where null is none. -/
def truth? (aliased : Bool) (visits : Visits) : Node → Except Fault (Option Bool × Visits)
  | .scalar _ tag text => do
    let visits ← visits.add aliased
    return (← scalarTruth tag text, visits)
  | .reference _ _ target => do target.truth? true (← visits.add aliased)
  | _ => .error .value

/-- Nodes as texts; those that are null are left out. -/
def stringsOf (aliased : Bool) (visits : Visits) : List Node → Except Fault (List String)
  | [] => .ok []
  | first :: rest => do
    let (text, visits) ← first.string? aliased visits
    let texts ← stringsOf aliased visits rest
    return text.toList ++ texts

/-- A node as a list of texts, where null is an empty list. -/
def stringsFrom (aliased : Bool) (visits : Visits) : Node → Except Fault (List String)
  | .list _ items => do stringsOf aliased (← visits.add aliased) items
  | .reference _ _ target => do target.stringsFrom true (← visits.add aliased)
  | .scalar _ .null text => if Tag.null.accepts text then .ok [] else .error .value
  | _ => .error .value

/-- A node as a list of texts, where null is an empty list. -/
def strings (node : Node) : Except Fault (List String) :=
  node.stringsFrom false {}

end Oxide.Document.Node
