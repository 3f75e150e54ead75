/-
This file reads block scalars: a header and then all lines that are indented deeply enough. In the
literal style line breaks are kept. In the folded style a break between two lines that start with
neither a blank becomes a space, as in a plain scalar. The header says what becomes of the breaks at
the end, and it may give the indentation, which is otherwise that of the first line with a text.
-/

import Oxide.Document.Cursor

namespace Oxide.Document.Block

/-- What becomes of the line breaks at the end. -/
inductive Chomping where
  | strip
  | clip
  | keep
  deriving DecidableEq

/-- The way of chomping that a sign stands for. -/
def chomping? : Char → Option Chomping
  | '+' => some .keep
  | '-' => some .strip
  | _ => none

/-- The indentation that a header gives, where none is zero. A zero that is written is refused. -/
def width (cursor : Cursor) : Option (Nat × Cursor) :=
  match cursor.rest with
  | digit :: _ =>
    if digit = '0' then none
    else if digit.isDigit then some (digit.toNat - '0'.toNat, cursor.skip)
    else some (0, cursor)
  | [] => some (0, cursor)

/-- The indicators of a header, in any order: how to chomp, and the indentation or zero. -/
def indicators (cursor : Cursor) : Option (Chomping × Nat × Cursor) := do
  let cursor ← cursor.look 1
  match cursor.rest.head?.bind chomping? with
  | some chomping =>
    let cursor ← cursor.skip.look 1
    let (width, cursor) ← width cursor
    return (chomping, width, cursor)
  | none =>
    let (width, cursor) ← width cursor
    let cursor ← cursor.look 1
    if width = 0 then return (.clip, width, cursor)
    match cursor.rest.head?.bind chomping? with
    | some chomping => return (chomping, width, cursor.skip)
    | none => return (.clip, width, cursor)

/-- The cursor behind the header's line and whether there is a comment on it, or nothing if the
header has more on it than blanks and a comment. -/
def afterHeader? (cursor : Cursor) : Option (Bool × Cursor) := do
  let cursor ← (← cursor.look 1).skipWhile isBlank
  let remark := cursor.rest.head? = some '#'
  let cursor ← if remark then cursor.skipLine else some cursor
  if !atLineEnd cursor.rest then none
  let cursor ← if cursor.rest.isEmpty then some cursor else cursor.takeBreak
  return (remark, cursor)

/-- The indentation and the empty lines before a line with a text. -/
structure Margin where
  /-- The breaks of the empty lines, the last one first. -/
  breaks : List Char := []
  /-- The widest indentation among these lines. -/
  widest : Nat := 0

/-- Skips indentation, at most as much as the scalar has if that is known, and empty lines. Gives
nothing if a tab stands in the indentation. The fuel bounds the count of characters. -/
def skipMargin (indent : Nat) : Nat → Margin → Cursor → Option (Margin × Cursor)
  | 0, _, _ => none
  | fuel + 1, margin, cursor => do
    let cursor ← cursor.look 1
    let inside := indent = 0 || cursor.column < indent
    let margin := { margin with widest := max margin.widest cursor.column }
    match cursor.rest with
    | [] => return (margin, cursor)
    | c :: _ =>
      if inside && c = ' ' then skipMargin indent fuel margin cursor.skip
      else if inside && c = '\t' then none
      else match break? c with
        | none => return (margin, cursor)
        | some b =>
          let cursor ← cursor.takeBreak
          skipMargin indent fuel { margin with breaks := b :: margin.breaks } cursor

/-- Reads the lines of a scalar. `done` holds what is read so far, the last part first, `ending` is
the break of the line before and `breaks` are those of the empty lines behind it. The fuel bounds
the count of characters. -/
def linesFrom (literal : Bool) (chomping : Chomping) (indent : Nat) :
    Nat → List (List Char) → Option Char → List Char → Bool → Cursor → Option (List Char × Cursor)
  | 0, _, _, _, _, _ => none
  | fuel + 1, done, ending, breaks, blankBefore, cursor => do
    if cursor.column = indent && !cursor.rest.isEmpty then
      let blankNow := (cursor.rest.head?.map isBlank).getD false
      let folded := !literal && !blankBefore && !blankNow && ending = some '\n'
      let joint := if folded then (if breaks.isEmpty then [' '] else []) else ending.toList
      let line := cursor.rest.takeWhile (!isBreak ·)
      let cursor ← (← cursor.pass 1 line).look 2
      let ending := cursor.rest.head?.bind break?
      let (margin, cursor) ← skipMargin indent (fuel + 1) {} cursor.skipBreak
      let done := line :: breaks :: joint :: done
      linesFrom literal chomping indent fuel done ending margin.breaks.reverse blankNow cursor
    else
      let ending := if chomping = .strip then [] else ending.toList
      let breaks := if chomping = .keep then breaks else []
      return ((breaks :: ending :: done).reverse.flatten, cursor)

/-- A block scalar: its text, whether there is a comment in its header, and the cursor behind it. -/
structure Result where
  text : List Char
  remark : Bool
  cursor : Cursor

/-- Reads a block scalar behind its indicator. `outer` is the indentation of the collection around
it, if there is one. The fuel is more than the count of characters. -/
def scan (fuel : Nat) (literal : Bool) (outer : Option Nat) (cursor : Cursor) : Option Result := do
  let (chomping, width, cursor) ← indicators cursor
  let (remark, cursor) ← afterHeader? cursor
  let given := if width = 0 then 0 else outer.getD 0 + width
  let (margin, cursor) ← skipMargin given fuel {} cursor
  let least := (outer.map (· + 1)).getD 0
  let indent := if given = 0 then max 1 (max least margin.widest) else given
  let cursor ← cursor.look 1
  let (text, cursor) ←
    linesFrom literal chomping indent fuel [] none margin.breaks.reverse false cursor
  return { text, remark, cursor }

end Oxide.Document.Block
