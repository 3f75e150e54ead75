/-
This file follows the place up to which a text is read: how many characters, lines and columns lie
behind it, and how many line breaks have come since the last character that is no blank. The text
is loaded only as far as the reading looks ahead, one portion after the other, and every loading
begins anew at the cursor. If an order mark stands there at that time, then until the next loading
the first character of every line passes for the mark and is skipped.
-/

import Oxide.Document.Portion

namespace Oxide.Document

/-- A place in a text. Lines and columns are counted from zero. -/
structure Place where
  index : Nat := 0
  line : Nat := 0
  column : Nat := 0
  deriving DecidableEq, Inhabited

/-- A place in a text and what follows it. -/
structure Cursor extends Place where
  rest : List Char
  /-- How many characters from here on are loaded. Behind its last character the text goes on with
  marks of its end, of which each loading brings one. -/
  loaded : Nat := 0
  /-- What is still to be loaded. -/
  portions : List Portion := []
  /-- Whether the last loading began at an order mark. -/
  marked : Bool := false
  /-- How many line breaks have come since the last character that is no blank. -/
  breaks : Nat := 0

namespace Cursor

/-- The start of a text whose first portion has room for the given count of bytes. -/
def start (left : Nat) (source : Source) : Cursor :=
  { rest := source.map Prod.fst, portions := Portion.divide left .empty source }

/-- The start of a text. An order mark there is no part of the text but takes up its room. -/
def ofSource : Source → Cursor
  | ('\ufeff', width) :: rest => start (Source.room - width) rest
  | source => start Source.room source

/-! ### Loading -/

/-- Loads portions until the given count of characters is there or the text is over. -/
def load (cursor : Cursor) (count : Nat) : List Portion → Option Cursor
  | [] => some { cursor with loaded := cursor.loaded + 1, portions := [] }
  | portion :: portions =>
    if !portion.allowed then none
    else
      let cursor := { cursor with loaded := cursor.loaded + portion.size, portions }
      if count ≤ cursor.loaded then some cursor else cursor.load count portions

/-- Looks at the given count of characters. Fails if one of them lies in a portion that holds a
character which no text may hold. -/
def look (cursor : Cursor) (count : Nat) : Option Cursor :=
  if count ≤ cursor.loaded then some cursor
  else
    { cursor with marked := cursor.rest.head? = some '\ufeff' }.load count cursor.portions

/-! ### Going on -/

/-- Goes on behind one character, which is not taken for a line break. -/
def skip (cursor : Cursor) : Cursor :=
  let blank := (cursor.rest.head?.map isBlank).getD false
  { cursor with
    rest := cursor.rest.tail
    loaded := cursor.loaded - 1
    index := cursor.index + 1
    column := cursor.column + 1
    breaks := if blank then cursor.breaks else 0 }

/-- Goes on behind a count of characters. -/
def skipBy : Nat → Cursor → Cursor
  | 0, cursor => cursor
  | count + 1, cursor => skipBy count cursor.skip

/-- Goes on behind the line break at the cursor, if there is one. -/
def skipBreak (cursor : Cursor) : Cursor :=
  let width := breakWidth cursor.rest
  if width = 0 then cursor
  else
    { cursor with
      rest := cursor.rest.drop width
      loaded := cursor.loaded - width
      index := cursor.index + width
      line := cursor.line + 1
      column := 0
      breaks := cursor.breaks + 1 }

/-- Goes on behind the given characters, which stand at the cursor, and looks ahead behind each. -/
def pass (ahead : Nat) : List Char → Cursor → Option Cursor
  | [], cursor => some cursor
  | _ :: more, cursor =>
    match cursor.skip.look ahead with
    | some cursor => pass ahead more cursor
    | none => none

/-- Goes on while the characters pass a test. -/
def skipWhile (cursor : Cursor) (test : Char → Bool) : Option Cursor :=
  cursor.pass 1 (cursor.rest.takeWhile test)

/-- Goes on to the end of the line. -/
def skipLine (cursor : Cursor) : Option Cursor := do
  (← cursor.look 1).skipWhile (!isBreak ·)

/-- Goes on behind the line break at the cursor, and looks whether it has two characters. -/
def takeBreak (cursor : Cursor) : Option Cursor :=
  (cursor.look 2).map skipBreak

end Cursor

end Oxide.Document
