/-
This file reads directives. There are two of them: one gives the version of the format, and one
gives a handle to the beginning of tags.
-/

import Oxide.Document.Lexeme
import Oxide.Document.TagNotation

namespace Oxide.Document.Directive

/-- The parts of a version number are one digit or two. -/
def versionPart? (cursor : Cursor) : Option (Nat × Cursor) := do
  let cursor ← cursor.look 1
  let digits := cursor.rest.takeWhile Char.isDigit
  if digits.isEmpty || 2 < digits.length then none
  return (← number? 10 digits, ← cursor.pass 1 digits)

/-- The version of the format, which a directive gives. -/
def version? (cursor : Cursor) : Option (LexemeKind × Cursor) := do
  let (major, cursor) ← versionPart? cursor
  if cursor.rest.head? ≠ some '.' then none
  let (minor, cursor) ← versionPart? cursor.skip
  return (.version major minor, cursor)

/-- The handle for the beginning of tags, which a directive gives. -/
def shorthand? (fuel : Nat) (cursor : Cursor) : Option (LexemeKind × Cursor) := do
  let (handle, complete, cursor) ← TagNotation.handle? cursor
  if !complete && handle.length ≠ 1 then none
  let cursor ← cursor.look 1
  if !(cursor.rest.head?.map isBlank).getD false then none
  let cursor ← cursor.skipWhile isBlank
  let (start, cursor) ← TagNotation.text fuel [] cursor
  let cursor ← cursor.look 1
  if start.isEmpty || !atGap cursor.rest then none
  return (.handle (String.ofList handle) (String.ofList start), cursor)

/-- What a directive says. The cursor lies behind its percent sign. -/
def scan (fuel : Nat) (cursor : Cursor) : Option (LexemeKind × Cursor) := do
  let cursor ← cursor.look 1
  let name := cursor.rest.takeWhile isWord
  let cursor ← cursor.pass 1 name
  if !atGap cursor.rest then none
  let cursor ← (← cursor.look 1).skipWhile isBlank
  if name = ['Y', 'A', 'M', 'L'] then version? cursor
  else if name = ['T', 'A', 'G'] then shorthand? fuel cursor
  else none

end Oxide.Document.Directive
