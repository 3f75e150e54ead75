/-
This file puts the steps together: a text is read as a tree, the tree is lowered to tokens, and the
tokens are laid out. Each step adds its place to the trail of a failure.
-/

import Oxide.Host
import Oxide.Layout
import Oxide.Lower.Module
import Oxide.Options.Reader
import Oxide.Tree.Reader
import Oxide.Workspace

namespace Oxide

/-- Why the program fails, step by step. -/
inductive ProgramFault where
  | tree (fault : ReadFault)
  | lowering (fault : LowerFault)
  | layout (fault : Layout.Fault)
  | options (fault : Document.Fault)
  | file (fault : FileFault)

/-- The wording of a fault. -/
def ProgramFault.message : ProgramFault → String
  | .tree fault => fault.message
  | .lowering fault => fault.message
  | .layout fault => fault.message
  | .options fault => fault.message
  | .file fault => fault.message

namespace Program

open Text (Bytes)

/-- The result of a step, or a fault and the way to it. -/
abbrev Step (α : Type) := Attempt ProgramFault α

/-- The text for a module, with the table of its functions. -/
def render (options : Options) (source : Module) : Table × Step Bytes :=
  let (table, lowered) := Lower.module options Table.new source
  (table, do
    let stream ← Attempt.widen .lowering lowered
    Attempt.inside "format" (Attempt.widen .layout (Attempt.ofExcept (Layout.layout stream))))

/-- The tree of a text with the given name. -/
def readTree (name : String) (text : Bytes) : Step Module :=
  Attempt.inside ("decode " ++ name) (Attempt.widen .tree (Read.moduleOfText text))

/-- The text for a text with the given name. -/
def compile (options : Options) (name : String) (text : Bytes) : Step Bytes := do
  let source ← readTree name text
  Attempt.inside ("translate " ++ name) (render options source).2

/-- The listing of the functions of a text with the given name, and of the place where their scope
is made, if it is known. -/
def listSymbols (origin? : Option String) (name : String) (text : Bytes) : Step String := do
  let source ← readTree name text
  let (table, text) := render {} source
  let _ ← Attempt.inside ("translate " ++ name) text
  return table.listing fun _ => origin?

/-! ### Files -/

/-- The content of a file, as a host answers. -/
def fileContent (answer : Except FileFault Bytes) : Step Bytes :=
  Attempt.widen .file (Attempt.ofExcept answer)

/-- The text for a file of a host. -/
def compileFile (host : Host) (options : Options) (name : String) : Step Bytes := do
  let text ← Attempt.inside "read file" (fileContent (host.file name))
  compile options name text

/-- The settings of a text. -/
def parseOptions (text : Bytes) : Step Options :=
  Attempt.inside "parse options" (Attempt.widen .options (Attempt.ofExcept (Options.ofText text)))

/-- The settings of a file, as a host answers. -/
def optionsOf (answer : Except FileFault Bytes) : Step Options := do
  let text ← Attempt.inside "read options" (fileContent answer)
  parseOptions text

/-- The settings of a file of a host. -/
def loadOptions (host : Host) (name : String) : Step Options :=
  optionsOf (host.file name)

end Program

end Oxide
