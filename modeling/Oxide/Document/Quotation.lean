/-
This file reads scalars in quotes. In single quotes only the quote itself is special and is written
twice; in double quotes a backslash starts an escape. Both may go over several lines.
-/

import Oxide.Document.Gap

namespace Oxide.Document.Quotation

/-! ### Escapes -/

/-- The character that a letter behind a backslash stands for. -/
def escape? : Char → Option Char
  | '0' => some '\x00'
  | 'a' => some '\x07'
  | 'b' => some '\x08'
  | 't' | '\t' => some '\t'
  | 'n' => some '\n'
  | 'v' => some '\x0b'
  | 'f' => some '\x0c'
  | 'r' => some '\r'
  | 'e' => some '\x1b'
  | ' ' => some ' '
  | '\x22' => some '\x22'
  | '\x27' => some '\x27'
  | '\\' => some '\\'
  | 'N' => some '\u0085'
  | '_' => some '\u00a0'
  | 'L' => some '\u2028'
  | 'P' => some '\u2029'
  | _ => none

/-- How many hexadecimal digits follow a letter behind a backslash. -/
def digitCount? : Char → Option Nat
  | 'x' => some 2
  | 'u' => some 4
  | 'U' => some 8
  | _ => none

/-- The character whose code point is written with the given count of hexadecimal digits at the
start of a text. -/
def coded? (count : Nat) (text : List Char) : Option Char :=
  let digits := text.take count
  if digits.length = count then (number? 16 digits).bind character? else none

/-- The character that an escape stands for and the cursor behind the escape. The given cursor lies
behind its letter. -/
def escaped? (letter : Char) (cursor : Cursor) : Option (Char × Cursor) :=
  match digitCount? letter with
  | some count => do
    let cursor ← cursor.look count
    let c ← coded? count cursor.rest
    return (c, cursor.skipBy count)
  | none => (escape? letter).map (·, cursor)

/-! ### Pieces -/

/-- A piece of a scalar without blanks, whether an escaped line break ended it, and the cursor
behind it. -/
structure Piece where
  text : List Char
  escaped : Bool
  cursor : Cursor

/-- Reads a piece up to a blank, a break or the closing quote, or fails if an escape is not one.
`taken` holds its characters so far, the last one first, and the fuel bounds their count. -/
def piece (quote : Char) : Nat → List Char → Cursor → Option Piece
  | 0, _, _ => none
  | fuel + 1, taken, cursor =>
    match cursor.rest with
    | [] => some { text := taken.reverse, escaped := false, cursor }
    | c :: rest =>
      if isBlank c || isBreak c then some { text := taken.reverse, escaped := false, cursor }
      else if c = quote then
        if quote = '\x27' && rest.head? = some '\x27' then do
          let cursor ← (cursor.skipBy 2).look 2
          piece quote fuel (c :: taken) cursor
        else some { text := taken.reverse, escaped := false, cursor }
      else if quote = '\x22' && c = '\\' then
        match rest with
        | [] => none
        | letter :: _ =>
          if isBreak letter then do
            let cursor ← cursor.look 3
            return { text := taken.reverse, escaped := true, cursor := cursor.skip.skipBreak }
          else do
            let (c, cursor) ← escaped? letter (cursor.skipBy 2)
            let cursor ← cursor.look 2
            piece quote fuel (c :: taken) cursor
      else do
        let cursor ← cursor.skip.look 2
        piece quote fuel (c :: taken) cursor

/-! ### Whole scalars -/

/-- Reads on up to the closing quote, and gives the text and the cursor behind the quote. `done`
holds the pieces and gaps so far, the last one first, and the fuel bounds their count. At a line's
start the marker of a document's edge must not stand. -/
def scanFrom (quote : Char) : Nat → List (List Char) → Cursor → Option (List Char × Cursor)
  | 0, _, _ => none
  | fuel + 1, done, cursor => do
    let cursor ← cursor.look 4
    if cursor.rest.isEmpty || (cursor.column = 0 && atMarker cursor.rest) then none
    let piece ← piece quote (fuel + 1) [] cursor
    let cursor ← piece.cursor.look 1
    let done := piece.text :: done
    if cursor.rest.head? = some quote then
      return (done.reverse.flatten, cursor.skip)
    let (gap, cursor) ← Gap.scan 0 (fuel + 1) (if piece.escaped then Gap.escaped else {}) cursor
    scanFrom quote fuel (gap.text :: done) cursor

/-- Reads a scalar whose opening quote is already behind. The fuel is more than the count of its
characters. -/
def scan (fuel : Nat) (quote : Char) (cursor : Cursor) : Option (List Char × Cursor) :=
  scanFrom quote fuel [] cursor

end Oxide.Document.Quotation
