/-
This file defines the lexemes of documents: the words and the punctuation, the beginnings and the
ends of collections that only the indentation shows, and the marks that make a node a key or a
value. Of its place in the text a lexeme keeps the index, counted from zero, and the line, counted
from one.
-/

import Oxide.Document.Cursor

namespace Oxide.Document

/-- The kinds of lexemes. -/
inductive LexemeKind where
  | streamEnd
  /-- The directive that gives the version of the format. -/
  | version (major minor : Nat)
  /-- The directive that gives a short handle to the beginning of tags. -/
  | handle (name start : String)
  | documentStart
  | documentEnd
  | blockSequenceStart
  | blockMappingStart
  | blockEnd
  | flowSequenceStart
  | flowSequenceEnd
  | flowMappingStart
  | flowMappingEnd
  | blockEntry
  | flowEntry
  | key
  | value
  | reference (name : String)
  | anchor (name : String)
  | tag (handle suffix : String)
  | scalar (text : String) (plain : Bool)
  /-- The place from which on the text cannot be divided into lexemes. -/
  | broken
  deriving DecidableEq, Inhabited

/-- A lexeme and where it starts. -/
structure Lexeme where
  kind : LexemeKind
  index : Nat
  line : Nat
  deriving DecidableEq, Inhabited

/-- The lexeme of a kind at a place. -/
def LexemeKind.at (kind : LexemeKind) (place : Place) : Lexeme :=
  { kind, index := place.index, line := place.line + 1 }

end Oxide.Document
