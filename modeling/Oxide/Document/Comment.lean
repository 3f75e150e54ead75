/-
This file reads comments. They say nothing, yet they show where a block collection ends: if the
comments behind it are indented as it is, it ends where the first of them starts. Comments that
follow each other are read as one, unless an empty line or the indentation tells that the earlier
ones close what lies before them and the later ones head what comes next.
-/

import Oxide.Document.Cursor

namespace Oxide.Document

/-- A comment, which stays until a lexeme takes it. -/
structure Comment where
  /-- Only lexemes at this index or behind it take the comment. -/
  owner : Nat
  /-- Whether the comment heads what comes next, so that the end of a block does not take it. -/
  heading : Bool
  /-- The index from which on only blanks, breaks and comments lie before it. -/
  origin : Nat
  start : Place
  /-- The index up to which only blanks and breaks lie behind it. It is zero if the comment stands
  behind a lexeme on the same line. -/
  stop : Nat

namespace Comment

/-- Where a block collection of the given indentation ends: at the first comment that is indented
as it is, as far as the comments reach back from `stop` without a break, and otherwise at `place`.
The last comment comes first. -/
def blockEnd (indent : Nat) : List Comment → Nat → Place → Place
  | [], _, place => place
  | comment :: earlier, stop, place =>
    if comment.stop < stop then place
    else
      let place := if comment.start.column = indent then comment.start else place
      blockEnd indent earlier comment.origin place

/-! ### What follows a comment -/

/-- How far ahead a comment is looked for. -/
def reach : Nat := 512

/-- The bytes in reach: the first byte of a character stands for it, and the others stand for
nothing. -/
def bytesInReach (text : List Char) : List (Option Char) :=
  (text.take reach).flatMap fun c => some c :: List.replicate (c.utf8Size - 1) none

/-- What the comments in a gap between lexemes are judged by. -/
structure Surroundings where
  /-- Whether a flow collection is open. -/
  flow : Bool
  /-- The indentation of the innermost block collection. -/
  margin : Nat
  /-- The line below what lies before the gap. -/
  footLine : Option Nat
  /-- Whether a value is to come. -/
  afterValue : Bool

/-- The state of reading comments. -/
structure Reading where
  cursor : Cursor
  /-- The comments that are read, the last one first. -/
  comments : List Comment
  /-- The owner of the next comment. -/
  owner : Nat
  /-- The origin of the next comment. -/
  origin : Nat
  /-- The start of the comment that is under way. -/
  current : Option Place := none
  /-- The line and the column of the byte that is looked at. -/
  line : Nat
  column : Nat
  /-- Whether no empty line has come yet. -/
  compact : Bool
  /-- Whether the line before was empty. -/
  afterEmpty : Bool := false

namespace Reading

/-- Ends the comment that is under way, which closes what lies before it. -/
def closeFoot (reading : Reading) (owner stop : Nat) : Reading :=
  match reading.current with
  | none => reading
  | some start =>
    let comment := { owner, heading := false, origin := reading.origin, start, stop }
    { reading with
      comments := comment :: reading.comments, owner := stop, origin := stop, current := none }

/-- Ends the comment that is under way, which heads what comes next. -/
def closeHead (reading : Reading) (stop : Nat) : List Comment :=
  match reading.current with
  | none => reading.comments
  | some start =>
    { owner := start.index, heading := true, origin := reading.origin, start, stop } ::
      reading.comments

/-- Whether the comment that is under way stands left of the innermost block collection. -/
def isOutside (reading : Reading) (around : Surroundings) : Bool :=
  match reading.current with
  | some start => start.column < around.margin
  | none => false

/-- Whether the comment that is under way stands directly below what lies before it. -/
def isBelow (reading : Reading) (around : Surroundings) : Bool :=
  match reading.current with
  | some start => around.footLine = some start.line && !around.afterValue
  | none => false

/-- What becomes of the comment that is under way at an empty line, at the end of the text or at
the end of a flow collection. -/
def pause (reading : Reading) (around : Surroundings) (closing : Bool) (stop : Nat) : Reading :=
  let outside := reading.isOutside around
  if closing ||
      (!reading.afterEmpty && reading.compact && (reading.isBelow around || outside)) then
    let owner := match reading.current with
      | some start => if outside then start.index else reading.owner
      | none => reading.owner
    reading.closeFoot owner stop
  else reading

/-- What becomes of the comment that is under way at a character that is no blank. -/
def meet (reading : Reading) (around : Surroundings) (stop : Nat) : Reading :=
  match reading.current with
  | some start =>
    if reading.column - 1 < around.margin && reading.column - 1 ≠ start.column then
      reading.closeFoot reading.owner stop
    else reading
  | none => reading

/-- Looks over blanks and breaks from the given offset on. Gives whether a comment follows them, and
the offset behind them. -/
def search (around : Surroundings) :
    Nat → Nat → List (Option Char) → Reading → Option (Bool × Nat × Reading)
  | 0, offset, _, reading => some (false, offset, reading)
  | left + 1, offset, bytes, reading => do
    let cursor ← reading.cursor.look (offset + 1)
    let reading := { reading with cursor, column := reading.column + 1 }
    let stop := cursor.index + offset
    match bytes with
    | [] => return (false, offset, reading.pause around false stop)
    | none :: _ => return (false, offset, reading.meet around stop)
    | some c :: bytes =>
      if isBlank c then search around left (offset + 1) bytes reading
      else if around.flow && (c = ']' || c = '\x7d') then
        return (false, offset, reading.pause around true stop)
      else if isBreak c then
        let reading := reading.pause around false stop
        search around left (offset + 1) bytes
          { reading with
            compact := false, afterEmpty := true, line := reading.line + 1, column := 0 }
      else return (c = '#', offset, reading.meet around stop)

end Reading

/-- Goes on over blanks and breaks up to the given index. The fuel bounds their count. -/
def approach (index : Nat) : Nat → Cursor → Option Cursor
  | 0, _ => none
  | fuel + 1, cursor => do
    let cursor ← cursor.look 1
    if index ≤ cursor.index then return cursor
    else if atLineEnd cursor.rest then approach index fuel (← cursor.takeBreak)
    else approach index fuel cursor.skip

/-- Reads comments that follow each other with nothing but blanks and breaks between them. The break
behind a comment is not looked at again. The fuel bounds the count of comments. -/
def readAll (around : Surroundings) :
    Nat → Nat → Reading → Option (List Comment × Cursor)
  | 0, _, _ => none
  | fuel + 1, offset, reading => do
    let bytes := (bytesInReach reading.cursor.rest).drop offset
    let (found, stop, reading) ← reading.search around (reach - offset) offset bytes
    let index := reading.cursor.index + stop
    if found then
      let start : Place := { index, line := reading.line, column := reading.column - 1 }
      let cursor ← (← approach index (stop + 1) reading.cursor).skipLine
      readAll around fuel 1
        { reading with
          cursor
          current := reading.current.or (some start)
          line := cursor.line
          column := 0
          afterEmpty := false }
    else return (reading.closeHead (index - 1), reading.cursor)

end Comment

end Oxide.Document
