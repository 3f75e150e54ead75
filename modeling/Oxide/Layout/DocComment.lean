/-
This file turns a documentation text into the lines of a comment. Blanks at the ends of the lines
and blank lines at both edges go, and so does the indentation that the lines have in common. The
first line takes no part in measuring that indentation unless it starts with a space, but it is cut
by it like every other line, and since indentation is counted in bytes the cut can fall inside a
character. That is why the lines are bytes and not texts.
-/

import Oxide.Text.Bytes

namespace Oxide.DocComment

open Text

/-- A space or a tab. -/
def isIndent (byte : UInt8) : Bool :=
  byte = 0x20 || byte = 0x09

/-- A byte that is dropped from the end of a line. -/
def isTrailing (byte : UInt8) : Bool :=
  isIndent byte || byte = 0x0D

/-- The pieces between the line feeds; there is one more of them than line feeds. -/
def splitLines : Bytes → List Bytes
  | [] => [[]]
  | byte :: rest =>
    if byte = 0x0A then [] :: splitLines rest
    else match splitLines rest with
      | line :: lines => (byte :: line) :: lines
      | [] => [[byte]]

/-- A line without the blanks at its end. -/
def trimEnd (line : Bytes) : Bytes :=
  (line.reverse.dropWhile isTrailing).reverse

/-- The lines without the empty ones at the edges. -/
def trimEdges (lines : List Bytes) : List Bytes :=
  ((lines.dropWhile List.isEmpty).reverse.dropWhile List.isEmpty).reverse

/-- How many bytes of indentation a line has. -/
def indentation (line : Bytes) : Nat :=
  (line.takeWhile isIndent).length

/-- Whether the first line is indented by a space, which lets it take part in the measure. -/
def startsWithSpace : Bytes → Bool
  | byte :: _ => byte = 0x20
  | [] => false

/-- The lines whose indentation counts: all that are not empty, without the first one unless it
starts with a space. -/
def measured : List Bytes → List Bytes
  | [] => []
  | first :: rest =>
    (if startsWithSpace first then [first] else []) ++ rest.filter fun line => !line.isEmpty

/-- The least indentation of the lines that count, or nothing if none does. -/
def commonIndentation (lines : List Bytes) : Nat :=
  ((measured lines).map indentation).min?.getD 0

/-- A line without the common indentation, if it is long enough to have it. -/
def cut (width : Nat) (line : Bytes) : Bytes :=
  if width ≤ line.length then line.drop width else line

/-- The lines with all indentation of the first one gone. -/
def flushFirst : List Bytes → List Bytes
  | [] => []
  | first :: rest => first.dropWhile isIndent :: rest

/-- The lines of a documentation text. -/
def lines (text : Bytes) : List Bytes :=
  let kept := trimEdges ((splitLines text).map trimEnd)
  flushFirst (kept.map (cut (commonIndentation kept)))

end Oxide.DocComment
