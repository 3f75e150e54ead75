/-
This file reads texts as documents. A text is refused if its first document cannot be divided into
lexemes, or if these are not in order; what comes behind that document is hardly looked at.
-/

import Oxide.Document.Composition
import Oxide.Document.Fault

namespace Oxide.Document

/-- The root of the first document of a text, or nothing if there is no document. -/
def read (text : Text.Bytes) : Except Fault (Option Node) :=
  let lexemes := Lexeme.ofSource (Source.ofBytes text)
  match (Compose.root (4 * lexemes.length + 8)).run { lexemes } with
  | some (root, _) => .ok root
  | none => .error .arrangement

end Oxide.Document
