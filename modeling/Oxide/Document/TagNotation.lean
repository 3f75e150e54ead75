/-
This file reads tags as they are written: a handle, which stands for the beginning of the tag, and
a suffix, or the whole tag in angle brackets. Characters that tags cannot hold are written byte by
byte with percent signs.
-/

import Oxide.Document.Cursor

namespace Oxide.Document.TagNotation

/-- The characters of tags besides those of names. -/
def punctuation : List Char :=
  [';', '/', '?', ':', '@', '&', '=', '+', '$', ',', '.', '!', '~', '*', '\x27', '(', ')', '[', ']']

/-- How many bytes the character has whose first byte is given. -/
def sequenceLength? (byte : Nat) : Option Nat :=
  if byte < 0x80 then some 1
  else if 0xC0 ≤ byte && byte < 0xE0 then some 2
  else if 0xE0 ≤ byte && byte < 0xF0 then some 3
  else if 0xF0 ≤ byte && byte < 0xF8 then some 4
  else none

/-- A byte written as a percent sign and two hexadecimal digits. -/
def percentByte? (cursor : Cursor) : Option (Nat × Cursor) := do
  let cursor ← cursor.look 3
  match cursor.rest with
  | '%' :: a :: b :: _ => return (← number? 16 [a, b], cursor.skipBy 3)
  | _ => none

/-- The given count of further bytes of a character. -/
def percentTail? : Nat → Nat → Cursor → Option (Nat × Cursor)
  | 0, code, cursor => some (code, cursor)
  | count + 1, code, cursor =>
    match percentByte? cursor with
    | some (byte, cursor) =>
      if 0x80 ≤ byte && byte < 0xC0 then percentTail? count (code * 64 + (byte - 0x80)) cursor
      else none
    | none => none

/-- A character whose bytes are all written with percent signs. -/
def percentCharacter? (cursor : Cursor) : Option (Char × Cursor) := do
  let (byte, cursor) ← percentByte? cursor
  let length ← sequenceLength? byte
  let lead := if length = 1 then byte else byte % Nat.pow 2 (7 - length)
  let (code, cursor) ← percentTail? (length - 1) lead cursor
  return ((character? code).getD '\ufffd', cursor)

/-- The longest text of characters that tags are made of. `taken` holds what is read so far, the
last character first, and the fuel bounds their count. -/
def text : Nat → List Char → Cursor → Option (List Char × Cursor)
  | 0, _, _ => none
  | fuel + 1, taken, cursor => do
    let cursor ← cursor.look 1
    match cursor.rest with
    | [] => return (taken.reverse, cursor)
    | c :: _ =>
      if c = '%' then
        let (c, cursor) ← percentCharacter? cursor
        text fuel (c :: taken) cursor
      else if isWord c || punctuation.contains c then text fuel (c :: taken) cursor.skip
      else return (taken.reverse, cursor)

/-- A handle, which is an exclamation mark, a name and, if it is there, another exclamation mark.
Gives the handle and whether it has its second mark. -/
def handle? (cursor : Cursor) : Option (List Char × Bool × Cursor) := do
  let cursor ← cursor.look 1
  if cursor.rest.head? ≠ some '!' then none
  let cursor ← cursor.skip.look 1
  let name := cursor.rest.takeWhile isWord
  let cursor ← cursor.pass 1 name
  if cursor.rest.head? = some '!' then return ('!' :: name ++ ['!'], true, cursor.skip)
  else return ('!' :: name, false, cursor)

/-- The handle and the suffix of a tag. A tag in angle brackets and the tag of a single mark have no
handle. -/
def parts? (fuel : Nat) (cursor : Cursor) : Option (List Char × List Char × Cursor) := do
  let cursor ← cursor.look 2
  if cursor.rest.tail.head? = some '<' then
    let (suffix, cursor) ← text fuel [] (cursor.skipBy 2)
    if suffix.isEmpty || cursor.rest.head? ≠ some '>' then none
    return ([], suffix, cursor.skip)
  else
    let (handle, complete, cursor) ← handle? cursor
    let (suffix, cursor) ← text fuel [] cursor
    if complete then
      if suffix.isEmpty then none
      return (handle, suffix, cursor)
    else
      let suffix := handle.tail ++ suffix
      return if suffix.isEmpty then ([], handle, cursor) else (['!'], suffix, cursor)

end Oxide.Document.TagNotation
