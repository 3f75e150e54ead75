/-
This file keeps what is known while a text is divided into lexemes: the lexemes that are found and
not let go yet, the open collections, and the keys that may be under way. A key without a mark is
known as a key only once the colon behind it is found. A lexeme that may turn out to start such a
key is therefore held back, together with everything behind it, until the colon comes or can no
longer come. On every level of flow collections one lexeme at most is pending in this way.
-/

import Oxide.Document.Lexeme
import Oxide.Document.Comment

namespace Oxide.Document

/-! ### The state -/

/-- The last lexeme of a level that could be the start of a key without a mark. -/
structure PendingKey where
  /-- Whether it still can be one. -/
  possible : Bool
  /-- Whether only a key can stand there. -/
  required : Bool
  /-- How many lexemes were found before it. -/
  number : Nat
  place : Place

/-- The key of a level on which no lexeme has come yet. -/
def PendingKey.absent (number : Nat) : PendingKey :=
  { possible := false, required := false, number, place := {} }

/-- The state of dividing a text. -/
structure Lexer where
  cursor : Cursor
  /-- More than the count of characters of the whole text. -/
  fuel : Nat
  /-- The lexemes that are found and not let go yet. -/
  queue : List Lexeme := []
  /-- How many lexemes are let go. -/
  released : Nat := 0
  /-- The columns of the open block collections, the innermost first. -/
  indents : List Nat := []
  /-- The pending key of the current level. -/
  key : PendingKey := .absent 0
  /-- The pending keys around the open flow collections, the innermost first. -/
  outerKeys : List PendingKey := []
  /-- How many flow collections are open. -/
  level : Nat := 0
  /-- The numbers of lexemes that are held back, each with the level whose pending key decides on
  it. -/
  watched : List (Nat × Nat) := []
  /-- Whether a key without a mark may start here. -/
  keyAllowed : Bool := true
  /-- The comments that no lexeme has taken yet, the last one first. -/
  comments : List Comment := []

namespace Lexer

/-- Whether a flow collection is open. -/
def inFlow (lexer : Lexer) : Bool :=
  !lexer.outerKeys.isEmpty

/-- How many flow collections may be open, and how many block collections. -/
def deepest : Nat := 10000

/-- The least column of what belongs to the innermost block collection. -/
def limit (lexer : Lexer) : Nat :=
  (lexer.indents.head?.map (· + 1)).getD 0

/-- The place of the cursor. -/
def place (lexer : Lexer) : Place :=
  lexer.cursor.toPlace

/-- How many lexemes are found. -/
def count (lexer : Lexer) : Nat :=
  lexer.released + lexer.queue.length

/-- Adds a lexeme behind all others. -/
def push (lexer : Lexer) (place : Place) (kind : LexemeKind) : Lexer :=
  { lexer with queue := lexer.queue ++ [kind.at place] }

/-- Puts a lexeme in the place of the one with the given number, which comes behind it. If that one
is let go already, it is too late, and the lexeme comes behind all others. -/
def insert (lexer : Lexer) (number : Nat) (place : Place) (kind : LexemeKind) : Lexer :=
  if number < lexer.released then lexer.push place kind
  else
    let before := number - lexer.released
    { lexer with
      queue := lexer.queue.take before ++ kind.at place :: lexer.queue.drop before }

/-- Adds a lexeme that takes up the given count of characters. -/
def take (lexer : Lexer) (count : Nat) (kind : LexemeKind) : Lexer :=
  { lexer.push lexer.place kind with cursor := lexer.cursor.skipBy count }

/-! ### Indentation -/

/-- The ends of block collections of the given indentations, the innermost first, behind the given
place. -/
def blockEnds (comments : List Comment) : List Nat → Place → List Lexeme
  | [], _ => []
  | indent :: outer, place =>
    let place := Comment.blockEnd indent comments place.index place
    LexemeKind.blockEnd.at place :: blockEnds comments outer place

/-- Closes the block collections that are indented deeper than the given column, or all of them.
What belongs to them ends before `start`. In a flow collection the columns mean nothing. -/
def closeBlocks (lexer : Lexer) (column : Option Nat) (start : Place) : Lexer :=
  if lexer.inFlow then lexer
  else
    let closed := lexer.indents.takeWhile fun indent =>
      match column with
      | some column => column < indent
      | none => true
    { lexer with
      indents := lexer.indents.drop closed.length
      queue := lexer.queue ++
        blockEnds lexer.comments closed { start with index := start.index - 1 } }

/-- Whether a block collection in the given column would be a new one. -/
def isDeeper (lexer : Lexer) (column : Nat) : Bool :=
  !lexer.inFlow &&
    match lexer.indents with
    | indent :: _ => indent < column
    | [] => true

/-- Notes that a block collection is open in the given column. -/
def indent (lexer : Lexer) (column : Nat) : Option Lexer :=
  let indents := column :: lexer.indents
  if deepest < indents.length then none else some { lexer with indents }

/-- Opens a block collection at the cursor, unless it is open already. -/
def openBlock (lexer : Lexer) (kind : LexemeKind) : Option Lexer :=
  if lexer.isDeeper lexer.cursor.column then
    (lexer.push lexer.place kind).indent lexer.cursor.column
  else some lexer

/-! ### Keys without a mark -/

/-- Whether the colon behind a key can no longer come: a key ends on its line and within 1024
characters. -/
def isStale (lexer : Lexer) (key : PendingKey) : Bool :=
  key.place.line < lexer.cursor.line || key.place.index + 1024 < lexer.cursor.index

/-- Whether a pending key can still be one, and the key with that finding. Fails if it has to be one
and can no longer be. -/
def examine (lexer : Lexer) (key : PendingKey) : Option (Bool × PendingKey) :=
  if !key.possible then some (false, key)
  else if lexer.isStale key then
    if key.required then none else some (false, { key with possible := false })
  else some (true, key)

/-- Holds a lexeme back no longer. -/
def unwatch (lexer : Lexer) (number : Nat) : Lexer :=
  { lexer with watched := lexer.watched.filter (·.1 ≠ number) }

/-- Gives up the key at the current level, which fails if only a key can stand there. -/
def dropKey (lexer : Lexer) : Option Lexer :=
  if !lexer.key.possible then some lexer
  else if lexer.key.required then none
  else some ({ lexer with key := { lexer.key with possible := false } }.unwatch lexer.key.number)

/-- Notes that the lexeme at the cursor may start a key, if one may start there. -/
def noteKey (lexer : Lexer) : Option Lexer :=
  if lexer.keyAllowed then do
    let lexer ← lexer.dropKey
    let key : PendingKey :=
      { possible := true
        required := !lexer.inFlow && lexer.indents.head? = some lexer.cursor.column
        number := lexer.count
        place := lexer.place }
    return { lexer with key, watched := (key.number, lexer.level) :: lexer.watched }
  else some lexer

/-- The lexer with another pending key at a level. -/
def setKey (lexer : Lexer) (level : Nat) (key : PendingKey) : Lexer :=
  if level = lexer.level then { lexer with key }
  else { lexer with outerKeys := lexer.outerKeys.set (lexer.level - 1 - level) key }

/-- The pending key of a level, if there is such a level. -/
def key? (lexer : Lexer) (level : Nat) : Option PendingKey :=
  if level ≤ lexer.level then (lexer.key :: lexer.outerKeys)[lexer.level - level]? else none

/-- Whether the first lexeme of the queue can be let go. Fails if it has to be a key and can no
longer be one. -/
def isSettled (lexer : Lexer) : Option (Bool × Lexer) :=
  if lexer.queue.length ≤ 2 then some (false, lexer)
  else
    match lexer.watched.lookup lexer.released with
    | none => some (true, lexer)
    | some level =>
      match lexer.key? level with
      | none => some (true, lexer)
      | some key => (lexer.examine key).map fun (valid, key) => (!valid, lexer.setKey level key)

end Lexer

end Oxide.Document
