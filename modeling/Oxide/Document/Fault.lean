/-
This file names the ways in which a text can fail to be the document that is wanted. They all have
one wording.
-/

namespace Oxide.Document

/-- Why a text is refused. -/
inductive Fault where
  /-- It is no document. -/
  | arrangement
  /-- A node of it is not a value of the kind that is wanted. -/
  | value
  /-- Too much of it is there only by aliases. -/
  | aliases
  deriving DecidableEq

/-- The wording of a fault, which does not go into its cause. -/
def Fault.message (_ : Fault) : String :=
  "yaml"

end Oxide.Document
