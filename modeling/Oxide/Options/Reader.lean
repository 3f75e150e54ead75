/-
This file reads settings from documents. Keys that mean nothing are passed over, and a null leaves a
setting alone. An object can take over the entries of others: what it says itself comes first, then
what the others say, in their order.
-/

import Oxide.Document
import Oxide.Document.Value
import Oxide.Options

namespace Oxide.Options

open Document

/-! ### Single entries -/

/-- The names of the settings. -/
def fieldNames : List String :=
  ["namespace", "qualify_objects", "with_std_python", "no_docstrings"]

/-- Gives the setting with the given name the value of a node. -/
def assign (options : Options) (aliased : Bool) (visits : Visits) (name : String) (value : Node) :
    Except Fault (Options × Visits) :=
  if name = "namespace" then do
    let (text, visits) ← value.string? aliased visits
    return ({ options with space := text.getD options.space }, visits)
  else if name = "qualify_objects" then do
    let (truth, visits) ← value.truth? aliased visits
    return ({ options with qualifyObjects := truth.getD options.qualifyObjects }, visits)
  else if name = "with_std_python" then do
    let (truth, visits) ← value.truth? aliased visits
    return ({ options with useRuntime := truth.getD options.useRuntime }, visits)
  else if name = "no_docstrings" then do
    let (truth, visits) ← value.truth? aliased visits
    return ({ options with noDocstrings := truth.getD options.noDocstrings }, visits)
  else .ok (options, visits)

/-- Whether two keys are the same as they are written. -/
def sameKey (first second : Node) : Bool :=
  first.kind = second.kind && first.text = second.text

/-- Whether a key is there more than once. -/
def hasRepeatedKey : List (Node × Node) → Bool
  | [] => false
  | (key, _) :: rest => rest.any (fun (other, _) => sameKey key other) || hasRepeatedKey rest

/-- Whether a key asks for the entries of other objects. -/
def isMergeKey : Node → Bool
  | .scalar _ .merge text => text = "<<"
  | _ => false

/-! ### Objects -/

/-- The settings so far, the names that objects before this one have taken, if there are such
objects, the settings that this object has given, and the nodes that were looked at. -/
structure Reading where
  options : Options := {}
  taken : Option (List String) := none
  given : List String := []
  visits : Visits := {}

/-- Counts one more node. -/
def Reading.visit (reading : Reading) (aliased : Bool) : Except Fault Reading := do
  return { reading with visits := ← reading.visits.add aliased }

/-- Reads a key as a text. -/
def Reading.name? (reading : Reading) (aliased : Bool) (key : Node) :
    Except Fault (Option String × Reading) := do
  let (name?, visits) ← key.string? aliased reading.visits
  return (name?, { reading with visits })

/-- Reads an entry. A name that is taken is passed over, and an object cannot give a setting
twice. -/
def readEntry (aliased : Bool) (reading : Reading) (key value : Node) : Except Fault Reading := do
  let (name?, reading) ← reading.name? aliased key
  match name? with
  | none => return reading
  | some name =>
    if (reading.taken.getD []).contains name then return reading
    let reading := { reading with taken := reading.taken.map (name :: ·) }
    if !fieldNames.contains name then return reading
    if reading.given.contains name then throw .value
    let (options, visits) ← reading.options.assign aliased reading.visits name value
    return { reading with options, visits, given := name :: reading.given }

/-- Reads what an object says itself. -/
def readOwn (aliased : Bool) : List (Node × Node) → Reading → Except Fault Reading
  | [], reading => .ok reading
  | (key, value) :: rest, reading => do
    if isMergeKey key then readOwn aliased rest reading
    else readOwn aliased rest (← readEntry aliased reading key value)

/-- Takes the names of an object's keys. -/
def takeNames (aliased : Bool) : List (Node × Node) → Reading → Except Fault Reading
  | [], reading => .ok reading
  | (key, _) :: rest, reading => do
    let (name?, reading) ← reading.name? aliased key
    takeNames aliased rest
      { reading with taken := some (name?.toList ++ reading.taken.getD []) }

/-- The state in which the objects that an object asks for are read. Only the outermost object takes
the names of its keys at this point, because the others have taken them one by one. -/
def beforeMerge (aliased : Bool) (entries : List (Node × Node)) (reading : Reading) :
    Except Fault Reading :=
  if !entries.any (isMergeKey ·.1) || reading.taken.isSome then .ok reading
  else takeNames aliased entries { reading with taken := some [] }

mutual

/-- Reads an object, or several of them where that is allowed. -/
def readObjects (aliased several : Bool) : Node → Reading → Except Fault Reading
  | .object _ entries, reading => do
    if hasRepeatedKey entries then throw .value
    let reading ← reading.visit aliased
    let reading ← readOwn aliased entries { reading with given := [] }
    readMerged aliased entries (← beforeMerge aliased entries reading)
  | .reference _ _ target, reading => do
    readObjects true false target (← reading.visit aliased)
  | .list _ items, reading => if several then readEach aliased items reading else .error .value
  | _, _ => .error .value

/-- Reads the objects that the entries of an object ask for. -/
def readMerged (aliased : Bool) : List (Node × Node) → Reading → Except Fault Reading
  | [], reading => .ok reading
  | (key, value) :: rest, reading => do
    if isMergeKey key then readMerged aliased rest (← readObjects aliased true value reading)
    else readMerged aliased rest reading

/-- Reads objects one after another. -/
def readEach (aliased : Bool) : List Node → Reading → Except Fault Reading
  | [], reading => .ok reading
  | first :: rest, reading => do
    readEach aliased rest (← readObjects aliased false first reading)

end

/-- The settings that a node gives; a null gives none. The document counts as a node of its own. -/
def ofNode : Node → Except Fault Options
  | .scalar _ tag text => do
    match ← Node.scalarText tag text with
    | none => return {}
    | some _ => throw .value
  | node => do
    let reading ← ({} : Reading).visit false
    return (← readObjects false false node reading).options

/-- The settings that a text gives; a text without a document gives none. -/
def ofText (text : Text.Bytes) : Except Fault Options := do
  match ← Document.read text with
  | none => return {}
  | some root => ofNode root

end Oxide.Options
