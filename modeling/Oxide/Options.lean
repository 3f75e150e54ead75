/-
This file defines the settings of the output.
-/

import Oxide.Ty

namespace Oxide

/-- The settings of the output. -/
structure Options where
  /-- The path of the runtime library, or nothing for the usual one. -/
  space : String := ""
  /-- Whether the dynamic type is written with that path. -/
  qualifyObjects : Bool := false
  /-- Whether modules start by using everything of the runtime library. -/
  useRuntime : Bool := false
  /-- Whether documentation texts are left out. -/
  noDocstrings : Bool := false
  deriving DecidableEq, Inhabited

namespace Options

/-- The path of the runtime library where none is set. -/
def usualRuntime : String := "stdpython"

/-- The path of the runtime library. -/
def runtime (options : Options) : String :=
  if options.space = "" then usualRuntime else options.space

/-- The type of values about which nothing is known. -/
def object (options : Options) : Ty :=
  .object (if options.qualifyObjects then options.runtime else "")

end Options

end Oxide
