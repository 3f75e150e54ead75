/-
This file reads scalars without quotes. Such a scalar ends before a comment, before a colon that is
followed by a blank, before the marker of a document's edge, in a flow collection also before its
punctuation, and elsewhere before a line that is not indented deeply enough.
-/

import Oxide.Document.Gap

namespace Oxide.Document.Plain

/-- The punctuation that ends a plain scalar inside a flow collection. -/
def flowPunctuation : List Char :=
  [',', '?', '[', ']', '\x7b', '\x7d']

/-- Whether a character ends a piece of the scalar, given what follows it. -/
def endsPiece (flow : Bool) (c : Char) (rest : List Char) : Bool :=
  isBlank c || isBreak c || (c = ':' && atGap rest) || (flow && flowPunctuation.contains c)

/-- The characters up to the next blank, break or punctuation, behind those that are taken already,
the last one first. -/
def piece (flow : Bool) (taken : List Char) : List Char → List Char
  | [] => taken.reverse
  | c :: rest => if endsPiece flow c rest then taken.reverse else piece flow (c :: taken) rest

/-- A plain scalar: its text, whether the gap behind it ends the line, and the cursor behind that
gap. -/
structure Result where
  text : List Char
  broken : Bool
  cursor : Cursor

/-- Reads on behind a gap. `done` holds the pieces and the gaps before that gap, the last one first.
The fuel bounds the count of pieces. -/
def scanFrom (flow : Bool) (limit : Nat) :
    Nat → List (List Char) → Gap → Cursor → Option Result
  | 0, _, _, _ => none
  | fuel + 1, done, gap, cursor => do
    let cursor ← cursor.look 4
    let taken :=
      if (cursor.column = 0 && atMarker cursor.rest) || cursor.rest.head? = some '#' then []
      else piece flow [] cursor.rest
    if taken.isEmpty then
      return { text := done.reverse.flatten, broken := gap.broken, cursor }
    let done := taken :: gap.text :: done
    let cursor ← cursor.pass 2 taken
    if cursor.rest.isEmpty || !atGap cursor.rest then
      return { text := done.reverse.flatten, broken := false, cursor }
    let cursor ← cursor.look 1
    let (gap, cursor) ← Gap.scan limit (fuel + 1) {} cursor
    if !flow && cursor.column < limit then
      return { text := done.reverse.flatten, broken := gap.broken, cursor }
    scanFrom flow limit fuel done gap cursor

/-- Reads a plain scalar. `limit` is the least indentation of its later lines, and the fuel is more
than the count of its characters. -/
def scan (fuel : Nat) (flow : Bool) (limit : Nat) (cursor : Cursor) : Option Result :=
  scanFrom flow limit fuel [] {} cursor

end Oxide.Document.Plain
