/-
This file says what the nodes of a document are read as. A node has a role: it stands for a
statement, for a list of expressions, for a name, and so on. The role of an object and the type that
it names decide which of its fields are read and which role each of them has, and the role of a list
decides which role its items have. So the nodes that a reader gets to see are those that are reached
from the whole document through fields and items, and what is shown of the parts of a node for each
role holds of all nodes in all roles.
-/

import Mathlib.Logic.Relation
import Oxide.Tree.Reader

namespace Oxide

open Document
open Document.Node (field field?)

/-- What a node is read as. -/
inductive Role where
  | document
  | stmts
  | stmt
  | exprs
  | expr
  /-- All parameters of a function. -/
  | arguments
  /-- The parameters of one kind, a single one or a list. -/
  | parameters
  | parameter
  /-- The default values of keyword parameters. -/
  | defaults
  | operators
  | operator
  | keywords
  | keyword
  | withItems
  | withItem
  | aliases
  | alias
  | names
  | text
  | constant
  deriving DecidableEq

namespace Role

/-! ### Fields -/

/-- The fields of a statement of the given type. -/
def stmtFields (type : String) : List (String × Role) :=
  match type with
  | "FunctionDef" | "AsyncFunctionDef" =>
    [("name", .text), ("args", .arguments), ("body", .stmts), ("decorator_list", .exprs),
      ("returns", .expr)]
  | "Expr" => [("value", .expr)]
  | "Assign" => [("targets", .exprs), ("value", .expr)]
  | "AugAssign" => [("target", .expr), ("op", .operator), ("value", .expr)]
  | "AnnAssign" => [("target", .expr), ("annotation", .expr), ("value", .expr)]
  | "Return" => [("value", .expr)]
  | "If" | "While" => [("test", .expr), ("body", .stmts), ("orelse", .stmts)]
  | "For" => [("target", .expr), ("iter", .expr), ("body", .stmts), ("orelse", .stmts)]
  | "Raise" => [("exc", .expr)]
  | "Assert" => [("test", .expr), ("msg", .expr)]
  | "ClassDef" => [("name", .text), ("body", .stmts)]
  | "Import" => [("names", .aliases)]
  | "ImportFrom" => [("module", .text), ("names", .aliases)]
  | "Global" | "Nonlocal" => [("names", .names)]
  | "Delete" => [("targets", .exprs)]
  | "Try" | "TryStar" => [("body", .stmts), ("orelse", .stmts), ("finalbody", .stmts)]
  | "With" | "AsyncWith" => [("items", .withItems), ("body", .stmts)]
  | _ => []

/-- The fields of an expression of the given type. -/
def exprFields (type : String) : List (String × Role) :=
  match type with
  | "Constant" => [("value", .constant)]
  | "Name" => [("id", .text)]
  | "BinOp" => [("left", .expr), ("op", .operator), ("right", .expr)]
  | "UnaryOp" => [("op", .operator), ("operand", .expr)]
  | "BoolOp" => [("op", .operator), ("values", .exprs)]
  | "Compare" => [("left", .expr), ("ops", .operators), ("comparators", .exprs)]
  | "Call" => [("func", .expr), ("args", .exprs), ("keywords", .keywords)]
  | "Attribute" => [("value", .expr), ("attr", .text)]
  | "Subscript" => [("value", .expr), ("slice", .expr)]
  | "Index" => [("value", .expr)]
  | "List" | "Tuple" => [("elts", .exprs)]
  | "Await" => [("value", .expr)]
  | "Lambda" => [("args", .arguments), ("body", .expr)]
  | "Dict" => [("keys", .exprs), ("values", .exprs)]
  | "JoinedStr" => [("values", .exprs)]
  | _ => []

/-- The fields that are read from an object of the given type, besides the type, and their roles.
Only statements and expressions look at the type. -/
def fields (role : Role) (type : String) : List (String × Role) :=
  match role with
  | .document => if type = "Module" then [("body", .stmts)] else stmtFields type
  | .stmt => stmtFields type
  | .expr => exprFields type
  | .arguments =>
    [("posonlyargs", .parameters), ("args", .parameters), ("defaults", .exprs),
      ("vararg", .parameters), ("kwonlyargs", .parameters), ("kw_defaults", .defaults),
      ("kwarg", .parameters)]
  | .parameters | .parameter => [("arg", .text), ("annotation", .expr)]
  | .keyword => [("arg", .text), ("value", .expr)]
  | .withItem => [("context_expr", .expr)]
  | .alias => [("name", .text), ("asname", .text)]
  | _ => []

/-- The fields that are read from an object with the given entries; without a type no others are. -/
def fieldsOf (role : Role) (entries : List (Node × Node)) : List (String × Role) :=
  (typeKey, .text) :: ((field? entries typeKey).elim [] fun type => role.fields type.text)

/-! ### Parts -/

/-- The role of the items of a list. -/
def item : Role → Role
  | .document | .stmts => .stmt
  | .exprs | .defaults => .expr
  | .parameters => .parameter
  | .operators => .operator
  | .keywords => .keyword
  | .withItems => .withItem
  | .aliases => .alias
  | _ => .text

/-- Whether the parts of a node are taken one by one, be it a list or not. -/
def takesParts : Role → Bool
  | .defaults | .operators | .keywords | .withItems | .aliases => true
  | _ => false

/-- The nodes that are read as parts of a node, with their roles. -/
def children (role : Role) : Node → List (Role × Node)
  | .list _ items => items.map fun item => (role.item, item)
  | .object line entries =>
    if role.takesParts then (Node.object line entries).parts.map fun part => (role.item, part)
    else (role.fieldsOf entries).map fun (key, part) => (part, field entries key)
  | _ => []

theorem weight_le_weightOfItems {items : List Node} {item : Node} (member : item ∈ items) :
    item.weight ≤ Node.weightOfItems items := by
  induction items with
  | nil => cases member
  | cons first rest inductionHypothesis =>
    rw [Node.weightOfItems]
    rcases List.mem_cons.mp member with rfl | later
    · omega
    · have := inductionHypothesis later
      omega

/-- A part weighs less than the node, so that recursion over parts ends. -/
theorem weight_lt_of_mem_children {role part : Role} {node value : Node}
    (member : (part, value) ∈ role.children node) : value.weight < node.weight := by
  have within (among : value ∈ node.parts) : value.weight < node.weight :=
    Nat.lt_of_le_of_lt (weight_le_weightOfItems among) (Node.weightOfItems_parts_lt node)
  unfold children at member
  split at member
  · obtain ⟨_, among, same⟩ := List.mem_map.mp member
    cases same
    exact within among
  · split at member
    · obtain ⟨_, among, same⟩ := List.mem_map.mp member
      cases same
      exact within among
    · obtain ⟨_, _, same⟩ := List.mem_map.mp member
      cases same
      exact Node.weight_field_lt _ _ _
  · cases member

/-- What passes from the parts of a node to the node holds of all nodes in all roles. -/
theorem induction_on_children {motive : Role → Node → Prop}
    (step : ∀ role node, (∀ part value, (part, value) ∈ role.children node → motive part value) →
      motive role node) (role : Role) (node : Node) : motive role node :=
  step role node fun part value _member => induction_on_children step part value
termination_by node.weight
decreasing_by exact weight_lt_of_mem_children _member

/-- Whether a node is read in a role when another one is: it is that node, a part of it, a part of a
part, and so on. -/
def Reaches (role : Role) (node : Node) (part : Role) (value : Node) : Prop :=
  Relation.ReflTransGen
    (fun whole inner : Role × Node => inner ∈ whole.1.children whole.2) (role, node) (part, value)

namespace Reaches

variable {role part inner : Role} {node value target : Node}

theorem refl (role : Role) (node : Node) : role.Reaches node role node :=
  Relation.ReflTransGen.refl

/-- What a part reaches the whole reaches. -/
theorem of_child (member : (part, value) ∈ role.children node)
    (reaches : part.Reaches value inner target) : role.Reaches node inner target :=
  Relation.ReflTransGen.head member reaches

end Reaches

end Role

end Oxide
