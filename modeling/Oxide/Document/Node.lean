/-
This file defines what a document holds: scalars, lists, objects, and aliases, which point back to
a node that was given an anchor. A node keeps the line that it starts in, counted from one. The
keys of an object are nodes too, and they are compared by their texts.
-/

import Oxide.Document.Tag

namespace Oxide.Document

/-- A node of a document. -/
inductive Node where
  | scalar (line : Nat) (tag : Tag) (text : String)
  | list (line : Nat) (items : List Node)
  | object (line : Nat) (entries : List (Node × Node))
  /-- An alias of a node that comes before it as a whole. -/
  | reference (line : Nat) (anchor : String) (target : Node)
  /-- An alias of a node that it is itself a part of. -/
  | circular (line : Nat) (anchor : String)
  deriving Inhabited

namespace Node

/-- The line that the node starts in. -/
def line : Node → Nat
  | .scalar line _ _ => line
  | .list line _ => line
  | .object line _ => line
  | .reference line _ _ => line
  | .circular line _ => line

/-- The name of the node's kind. -/
def kind : Node → String
  | .scalar .. => "scalar"
  | .list .. => "list"
  | .object .. => "object"
  | .reference .. => "alias"
  | .circular .. => "alias"

/-- The text of a scalar and the name of an alias; a collection has none. -/
def text : Node → String
  | .scalar _ _ text => text
  | .list .. => ""
  | .object .. => ""
  | .reference _ anchor _ => anchor
  | .circular _ anchor => anchor

/-- Whether the node is a scalar for nothing. -/
def isNull : Node → Bool
  | .scalar _ .null _ => true
  | _ => false

/-- The node that stands for whatever is left out. -/
def null : Node :=
  .scalar 0 .null ""

/-- The parts of a collection in their order; those of an object are its keys and values in turn. -/
def parts : Node → List Node
  | .list _ items => items
  | .object _ entries => entries.flatMap fun (key, value) => [key, value]
  | _ => []

/-- The value of the last entry with the given key, if there is one. -/
def field? (entries : List (Node × Node)) (key : String) : Option Node :=
  (entries.findRev? fun (name, _) => name.text = key).map Prod.snd

/-- The value of the last entry with the given key; what is left out is null. -/
def field (entries : List (Node × Node)) (key : String) : Node :=
  (field? entries key).getD null

/-! ### Size -/

mutual

/-- A measure of a node that is greater than that of its parts. -/
def weight : Node → Nat
  | .scalar .. => 1
  | .list _ items => 2 + weightOfItems items
  | .object _ entries => 2 + weightOfEntries entries
  | .reference _ _ target => 2 + target.weight
  | .circular .. => 1

/-- The measure of the nodes of a list. -/
def weightOfItems : List Node → Nat
  | [] => 0
  | first :: rest => 1 + first.weight + weightOfItems rest

/-- The measure of the keys and values of an object. -/
def weightOfEntries : List (Node × Node) → Nat
  | [] => 0
  | (key, value) :: rest => 2 + key.weight + value.weight + weightOfEntries rest

end

theorem weight_le_of_mem {entries : List (Node × Node)} {key value : Node}
    (member : (key, value) ∈ entries) : value.weight ≤ weightOfEntries entries := by
  induction entries with
  | nil => cases member
  | cons entry rest inductionHypothesis =>
    obtain ⟨otherKey, otherValue⟩ := entry
    rw [weightOfEntries]
    rcases List.mem_cons.mp member with same | later
    · cases same
      omega
    · have := inductionHypothesis later
      omega

/-- A field that is there weighs less than its object by two. -/
theorem weight_field?_add_two_le (line : Nat) {entries : List (Node × Node)} {key : String}
    {value : Node} (found : field? entries key = some value) :
    value.weight + 2 ≤ (Node.object line entries).weight := by
  rw [field?, List.findRev?_eq_find?_reverse] at found
  obtain ⟨⟨name, other⟩, atEntry, rfl⟩ := Option.map_eq_some_iff.mp found
  have member : (name, other) ∈ entries := by
    simpa using List.mem_of_find?_eq_some atEntry
  have := weight_le_of_mem member
  simp only [weight]
  omega

/-- A field weighs less than its object, whether it is there or not. -/
theorem weight_field_lt (line : Nat) (entries : List (Node × Node)) (key : String) :
    (field entries key).weight < (Node.object line entries).weight := by
  rw [field]
  cases found : field? entries key with
  | none =>
    simp only [Option.getD_none, null, weight]
    omega
  | some value =>
    have := weight_field?_add_two_le line found
    simp only [Option.getD_some]
    omega

theorem weightOfItems_flatMap (entries : List (Node × Node)) :
    weightOfItems (entries.flatMap fun (key, value) => [key, value]) =
      weightOfEntries entries := by
  induction entries with
  | nil => rfl
  | cons entry rest inductionHypothesis =>
    obtain ⟨key, value⟩ := entry
    simp only [List.flatMap_cons, List.cons_append, List.nil_append, weightOfItems,
      weightOfEntries, inductionHypothesis]
    omega

/-- The parts of a node weigh less than the node. -/
theorem weightOfItems_parts_lt (node : Node) : weightOfItems node.parts < node.weight := by
  cases node with
  | scalar => simp [parts, weight, weightOfItems]
  | list => simp only [parts, weight]; omega
  | object => simp only [parts, weight, weightOfItems_flatMap]; omega
  | reference => simp only [parts, weight, weightOfItems]; omega
  | circular => simp [parts, weight, weightOfItems]

end Node

end Oxide.Document
