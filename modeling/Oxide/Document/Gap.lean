/-
This file treats the blanks and line breaks between two pieces of a scalar that goes over several
lines. Blanks on one line are kept. A single line feed becomes a space, and of several line feeds
all but the first are kept; the other line breaks stand for themselves.
-/

import Oxide.Document.Cursor

namespace Oxide.Document

/-- What lies between two pieces of a scalar. -/
structure Gap where
  /-- The blanks before the first break, the last one first. -/
  blanks : List Char := []
  /-- Whether the line has ended. -/
  broken : Bool := false
  /-- The first break, unless it was escaped. -/
  first : Option Char := none
  /-- The breaks behind the first one, the last one first. -/
  later : List Char := []

namespace Gap

/-- A gap that starts with an escaped line break. -/
def escaped : Gap := { broken := true }

/-- The gap with one more blank, which leaves no trace once the line has ended. -/
def addBlank (gap : Gap) (c : Char) : Gap :=
  if gap.broken then gap else { gap with blanks := c :: gap.blanks }

/-- The gap with one more break. -/
def addBreak (gap : Gap) (c : Char) : Gap :=
  if gap.broken then { gap with later := c :: gap.later }
  else { gap with broken := true, first := some c }

/-- What the gap leaves in the scalar. -/
def text (gap : Gap) : List Char :=
  if !gap.broken then gap.blanks.reverse
  else match gap.first with
    | none => gap.later.reverse
    | some '\n' => if gap.later.isEmpty then [' '] else gap.later.reverse
    | some c => c :: gap.later.reverse

/-- Reads on while there are blanks and breaks, or fails if a tab stands in the indentation of a
later line. The fuel bounds their count. -/
def scan (limit : Nat) : Nat → Gap → Cursor → Option (Gap × Cursor)
  | 0, _, _ => none
  | fuel + 1, gap, cursor =>
    match cursor.rest with
    | [] => some (gap, cursor)
    | c :: _ =>
      if isBlank c then
        if gap.broken && cursor.column < limit && c = '\t' then none
        else match cursor.skip.look 1 with
          | some cursor => scan limit fuel (gap.addBlank c) cursor
          | none => none
      else match break? c with
        | none => some (gap, cursor)
        | some b =>
          match cursor.takeBreak.bind (·.look 1) with
          | some cursor => scan limit fuel (gap.addBreak b) cursor
          | none => none

end Gap

end Oxide.Document
