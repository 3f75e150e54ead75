/-
This file skips what lies between lexemes, which is blanks, line breaks and comments. A comment
behind a lexeme on the same line is read with that lexeme, and all others are read together with
the blanks around them.
-/

import Oxide.Document.Lexer.State

namespace Oxide.Document.Lexer

/-- The lexeme to which a comment at the cursor belongs. A comma has no comments of its own. -/
def commented (lexer : Lexer) : Option Lexeme :=
  match lexer.queue.reverse with
  | last :: before => if last.kind = .flowEntry then before.head? else some last
  | [] => none

/-- Reads the comments at the cursor, which lie in the gap that starts at the given place. -/
def readComments (lexer : Lexer) (start : Place) : Option Lexer := do
  let cursor := lexer.cursor
  let below := if cursor.breaks = 0 && 1 < cursor.column then 2 else 1
  let around : Comment.Surroundings :=
    { flow := lexer.inFlow
      margin := lexer.indents.head?.getD 0
      footLine := if start.line = 0 then none else some (cursor.line - cursor.breaks + below)
      afterValue := lexer.commented.map (·.kind) = some .value }
  let (comments, cursor) ← Comment.readAll around lexer.fuel 0
    { cursor
      comments := lexer.comments
      owner := (lexer.commented.map (·.index)).getD 0
      origin := start.index
      line := cursor.line
      column := cursor.column
      compact := cursor.breaks ≤ 1 }
  return { lexer with cursor, comments }

/-- Notes a comment on the line of a lexeme, which is the owner. -/
def noteLineComment (lexer : Lexer) (owner : Nat) (start : Place) : Lexer :=
  let comment := { owner, heading := false, origin := 0, start, stop := 0 }
  { lexer with comments := comment :: lexer.comments }

/-- Looks whether a comment follows the blanks at the cursor. The offset is the count of those that
are seen already. -/
def searchLineComment : Nat → Nat → List Char → Cursor → Option (Option Nat × Cursor)
  | 0, _, _, cursor => some (none, cursor)
  | left + 1, offset, rest, cursor => do
    let cursor ← cursor.look (offset + 1)
    match rest with
    | [] => return (none, cursor)
    | c :: rest =>
      if isBlank c then searchLineComment left (offset + 1) rest cursor
      else return (if c = '#' then some offset else none, cursor)

/-- Reads a comment behind a lexeme on the same line, unless the line has just begun. -/
def readLineComment (lexer : Lexer) (owner : Nat) : Option Lexer :=
  if 0 < lexer.cursor.breaks then some lexer
  else do
    let (found, cursor) ←
      searchLineComment Comment.reach 0 lexer.cursor.rest lexer.cursor
    let lexer := { lexer with cursor }
    match found with
    | none => return lexer
    | some blanks =>
      let cursor ← cursor.pass 1 (cursor.rest.take blanks)
      let lexer := lexer.noteLineComment owner cursor.toPlace
      return { lexer with cursor := ← cursor.skipLine }

/-- Skips blanks, comments and line breaks up to the next lexeme, from the given place on. In a
block a tab cannot stand where a key without a mark may start, and a new line allows one. The fuel
bounds the count of lines. -/
def skipToLexeme (start : Place) : Nat → Lexer → Option Lexer
  | 0, _ => none
  | fuel + 1, lexer => do
    let cursor ← lexer.cursor.look 1
    let cursor := if cursor.column = 0 && cursor.marked then cursor.skip else cursor
    let tabs := lexer.inFlow || !lexer.keyAllowed
    let cursor ← (← cursor.look 1).skipWhile fun c => c = ' ' || (c = '\t' && tabs)
    let lexer := { lexer with cursor }
    let lexer ← if cursor.rest.head? = some '#' then lexer.readComments start else some lexer
    if lexer.cursor.rest.isEmpty || !atLineEnd lexer.cursor.rest then return lexer
    let cursor ← lexer.cursor.takeBreak
    skipToLexeme start fuel
      { lexer with cursor, keyAllowed := !lexer.inFlow || lexer.keyAllowed }

end Oxide.Document.Lexer
