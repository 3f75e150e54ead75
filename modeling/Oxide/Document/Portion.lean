/-
This file divides a text into the portions in which it is loaded. A portion has room for 512 bytes,
and a character that does not fit whole into it goes to the next one. Whether a text may hold its
characters is judged portion by portion, so that a portion which nobody asks for refuses nothing.
-/

import Oxide.Document.Character
import Oxide.Document.Source

namespace Oxide.Document

/-- A run of characters that are loaded at once. -/
structure Portion where
  /-- How many characters it has. -/
  size : Nat
  /-- Whether a text may hold all of them. -/
  allowed : Bool
  deriving DecidableEq

namespace Portion

/-- The portion without characters. -/
def empty : Portion := { size := 0, allowed := true }

/-- The portion with one more character. -/
def add (portion : Portion) (c : Char) : Portion :=
  { size := portion.size + 1, allowed := portion.allowed && isAllowed c }

/-- The portions of a text, of which the first has some characters already and has room for the
given count of further bytes. -/
def divide (left : Nat) (current : Portion) : Source → List Portion
  | [] => if current.size = 0 then [] else [current]
  | (c, width) :: rest =>
    if width ≤ left then divide (left - width) (current.add c) rest
    else current :: divide (Source.room - width) (empty.add c) rest

end Portion

end Oxide.Document
