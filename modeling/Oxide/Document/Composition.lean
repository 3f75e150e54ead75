/-
This file builds the first document of a sequence of lexemes. What comes behind that document is not
looked at, except that the lexeme right behind it has to be one. An entry, a key or a value that is
left out is null, and its line is that of the lexeme that shows its absence.
-/

import Oxide.Document.Lexer
import Oxide.Document.Node

namespace Oxide.Document

/-- An anchor that was seen: its name, the number of its node, and the node once it is complete. -/
structure Anchor where
  name : String
  number : Nat
  node : Option Node

/-- The state of building a document. -/
structure Composition where
  lexemes : List Lexeme
  /-- The beginnings of tags that the handles stand for. -/
  handles : List (String × String) := []
  /-- The anchors, the latest first. -/
  anchors : List Anchor := []

/-- A step of building, which fails if the lexemes are not in order. -/
abbrev Compose := StateT Composition Option

namespace Compose

/-- Gives up. -/
def refuse {α : Type} : Compose α :=
  fun _ => none

/-- The next lexeme, which stays where it is. -/
def peek : Compose Lexeme := do
  match (← get).lexemes with
  | lexeme :: _ => if lexeme.kind = .broken then refuse else return lexeme
  | [] => refuse

/-- Goes on behind the next lexeme. -/
def skip : Compose Unit :=
  modify fun state => { state with lexemes := state.lexemes.tail }

/-- Goes on behind the next lexeme and gives the one that follows. -/
def next : Compose Lexeme := do
  skip
  peek

/-! ### Properties of nodes -/

/-- Gives a name to a node that is about to be built, and a number to find it by. -/
def openAnchor : Option String → Compose (Option Nat)
  | none => return none
  | some name => do
    let state ← get
    let number := state.anchors.length
    set { state with anchors := { name, number, node := none } :: state.anchors }
    return some number

/-- Completes the node with the given number. -/
def closeAnchor (number : Option Nat) (node : Node) : Compose Node := do
  match number with
  | none => return node
  | some number =>
    modify fun state => { state with
      anchors := state.anchors.map fun anchor =>
        if anchor.number = number then { anchor with node := some node } else anchor }
    return node

/-- The node that a name stands for where it is used. -/
def follow (line : Nat) (name : String) : Compose Node := do
  match (← get).anchors.find? fun anchor => anchor.name = name with
  | some anchor =>
    return match anchor.node with
      | some node => .reference line name node
      | none => .circular line name
  | none => refuse

/-- The full text of a tag. -/
def resolve (handle suffix : String) : Compose String := do
  if handle = "" then return suffix
  match (← get).handles.find? fun (name, _) => name = handle with
  | some (_, start) => if start ++ suffix = "" then refuse else return start ++ suffix
  | none => refuse

/-- An anchor and a tag, in any order, and the line of the first of them. -/
structure Properties where
  line : Nat
  anchor : Option String := none
  tag : String := ""

/-- Reads the properties of a node, each of which may be missing. -/
def properties : Compose Properties := do
  let first ← peek
  match first.kind with
  | .anchor name =>
    let second ← next
    match second.kind with
    | .tag handle suffix =>
      skip
      return { line := first.line, anchor := some name, tag := ← resolve handle suffix }
    | _ => return { line := first.line, anchor := some name }
  | .tag handle suffix =>
    let second ← next
    match second.kind with
    | .anchor name =>
      skip
      return { line := first.line, anchor := some name, tag := ← resolve handle suffix }
    | _ => return { line := first.line, tag := ← resolve handle suffix }
  | _ => return { line := first.line }

/-- The node for what is left out. -/
def nothing (line : Nat) : Node :=
  .scalar line .null ""

/-! ### Nodes -/

/-- Whether a lexeme of a block mapping shows that a node is left out. -/
def endsBlockNode (kind : LexemeKind) : Bool :=
  kind = .key || kind = .value || kind = .blockEnd

/-- Whether a lexeme of a flow collection with the given end shows that a node is left out. -/
def endsFlowNode (closing kind : LexemeKind) : Bool :=
  kind = .flowEntry || kind = closing

mutual

/-- A node. Block collections are allowed only outside of flow collections, and a block sequence
without indentation of its own only as part of a block mapping. The fuel bounds the depth of
calls. -/
def node : Nat → (block indentless : Bool) → Compose Node
  | 0, _, _ => refuse
  | fuel + 1, block, indentless => do
    let first ← peek
    match first.kind with
    | .reference name =>
      skip
      follow first.line name
    | _ =>
      let given ← properties
      let lexeme ← peek
      let number ← openAnchor given.anchor
      match lexeme.kind with
      | .scalar text plain =>
        skip
        closeAnchor number (.scalar given.line (Tag.ofScalar given.tag plain text) text)
      | .flowSequenceStart =>
        skip
        closeAnchor number (.list given.line (← flowItems fuel true))
      | .flowMappingStart =>
        skip
        closeAnchor number (.object given.line (← flowEntries fuel true))
      | .blockEntry =>
        if indentless then
          closeAnchor number (.list given.line (← indentlessItems fuel))
        else bare number given
      | .blockSequenceStart =>
        if block then
          skip
          closeAnchor number (.list given.line (← blockItems fuel))
        else bare number given
      | .blockMappingStart =>
        if block then
          skip
          closeAnchor number (.object given.line (← blockEntries fuel))
        else bare number given
      | _ => bare number given

/-- A node that has properties and nothing else. -/
def bare (number : Option Nat) (given : Properties) : Compose Node :=
  if given.anchor.isSome || given.tag ≠ "" then
    closeAnchor number (.scalar given.line (Tag.ofScalar given.tag true "") "")
  else refuse

/-- The rest of a block sequence with its end. -/
def blockItems : Nat → Compose (List Node)
  | 0 => refuse
  | fuel + 1 => do
    let lexeme ← peek
    match lexeme.kind with
    | .blockEntry =>
      let after ← next
      let item ←
        if after.kind = .blockEntry || after.kind = .blockEnd then pure (nothing lexeme.line)
        else node fuel true false
      return item :: (← blockItems fuel)
    | .blockEnd =>
      skip
      return []
    | _ => refuse

/-- The rest of a block sequence without indentation of its own, which needs no end. -/
def indentlessItems : Nat → Compose (List Node)
  | 0 => refuse
  | fuel + 1 => do
    let lexeme ← peek
    match lexeme.kind with
    | .blockEntry =>
      let after ← next
      let item ←
        if after.kind = .blockEntry || endsBlockNode after.kind then pure (nothing lexeme.line)
        else node fuel true false
      return item :: (← indentlessItems fuel)
    | _ => return []

/-- The rest of a block mapping with its end. -/
def blockEntries : Nat → Compose (List (Node × Node))
  | 0 => refuse
  | fuel + 1 => do
    let lexeme ← peek
    match lexeme.kind with
    | .key =>
      let after ← next
      let key ←
        if endsBlockNode after.kind then pure (nothing lexeme.line) else node fuel true true
      let mark ← peek
      let value ←
        if mark.kind = .value then
          let after ← next
          if endsBlockNode after.kind then pure (nothing mark.line) else node fuel true true
        else pure (nothing mark.line)
      return (key, value) :: (← blockEntries fuel)
    | .blockEnd =>
      skip
      return []
    | _ => refuse

/-- The rest of a flow sequence with its end. An entry with a key is an object of its own. -/
def flowItems : Nat → (isFirst : Bool) → Compose (List Node)
  | 0, _ => refuse
  | fuel + 1, isFirst => do
    let lexeme ← peek
    if lexeme.kind = .flowSequenceEnd then
      skip
      return []
    let lexeme ←
      if isFirst then pure lexeme
      else if lexeme.kind = .flowEntry then next
      else refuse
    match lexeme.kind with
    | .flowSequenceEnd =>
      skip
      return []
    | .key =>
      skip
      let item := Node.object lexeme.line [← flowPair fuel]
      return item :: (← flowItems fuel false)
    | _ =>
      let item ← node fuel false false
      return item :: (← flowItems fuel false)

/-- The key and the value of an entry of a flow sequence. A key that is left out takes the lexeme
that shows it along. -/
def flowPair : Nat → Compose (Node × Node)
  | 0 => refuse
  | fuel + 1 => do
    let lexeme ← peek
    let key ←
      if lexeme.kind = .value || endsFlowNode .flowSequenceEnd lexeme.kind then
        skip
        pure (nothing lexeme.line)
      else node fuel false false
    let mark ← peek
    if mark.kind = .value then
      let after ← next
      if endsFlowNode .flowSequenceEnd after.kind then return (key, nothing mark.line)
      else return (key, ← node fuel false false)
    else return (key, nothing mark.line)

/-- The rest of a flow mapping with its end. -/
def flowEntries : Nat → (isFirst : Bool) → Compose (List (Node × Node))
  | 0, _ => refuse
  | fuel + 1, isFirst => do
    let lexeme ← peek
    if lexeme.kind = .flowMappingEnd then
      skip
      return []
    let lexeme ←
      if isFirst then pure lexeme
      else if lexeme.kind = .flowEntry then next
      else refuse
    match lexeme.kind with
    | .flowMappingEnd =>
      skip
      return []
    | .key =>
      let after ← next
      let key ←
        if after.kind = .value || endsFlowNode .flowMappingEnd after.kind then
          pure (nothing after.line)
        else node fuel false false
      let mark ← peek
      let value ←
        if mark.kind = .value then
          let after ← next
          if endsFlowNode .flowMappingEnd after.kind then pure (nothing after.line)
          else node fuel false false
        else pure (nothing mark.line)
      return (key, value) :: (← flowEntries fuel false)
    | _ =>
      let key ← node fuel false false
      let value := nothing (← peek).line
      return (key, value) :: (← flowEntries fuel false)

end

/-! ### Documents -/

/-- The handles that need no directive. -/
def commonHandles : List (String × String) :=
  [("!", "!"), ("!!", Tag.commonNamespace)]

/-- Adds a handle, which must be new. -/
def addHandle (name start : String) : Compose Unit := do
  let state ← get
  if state.handles.any fun (other, _) => other = name then refuse
  set { state with handles := state.handles ++ [(name, start)] }

/-- Reads the directives before a document. At most one gives a version, which is the one known. -/
def directives : Nat → (versioned : Bool) → Compose Unit
  | 0, _ => refuse
  | fuel + 1, versioned => do
    match (← peek).kind with
    | .version major minor =>
      if versioned || major ≠ 1 || minor ≠ 1 then refuse
      skip
      directives fuel true
    | .handle name start =>
      addHandle name start
      skip
      directives fuel versioned
    | _ =>
      modify fun state => { state with
        handles := state.handles ++ commonHandles.filter fun (name, _) =>
          !(state.handles.any fun (other, _) => other = name) }

/-- Whether the lexeme shows that a document has no content. -/
def endsDocument : LexemeKind → Bool
  | .version .. | .handle .. | .documentStart | .documentEnd | .streamEnd => true
  | _ => false

/-- The root of the first document, if there is a document. -/
def root (fuel : Nat) : Compose (Option Node) := do
  let first ← peek
  match first.kind with
  | .streamEnd => return none
  | .version .. | .handle .. | .documentStart =>
    directives fuel false
    if (← peek).kind ≠ .documentStart then refuse
    let content ← next
    let node ←
      if endsDocument content.kind then pure (nothing content.line) else node fuel true false
    let _ ← peek
    return some node
  | _ =>
    directives fuel false
    let node ← node fuel true false
    let _ ← peek
    return some node

end Compose

end Oxide.Document
