/-
This file describes how the program deals with the host that it runs on. A session is all that the
program does from its start to its end: it asks the host for something and goes on as the answer
tells it. A host answers every request. It may refuse to read or to write a file, and it may break
off while it takes what is printed or written, of which the beginning is then there all the same.
-/

import Oxide.Text.Bytes

namespace Oxide

open Text (Bytes)

/-! ### Faults -/

/-- Why a file cannot be used. -/
inductive FileTrouble where
  | missing
  | directory
  | notDirectory
  | denied
  | other (reason : String)
  deriving DecidableEq

/-- The wording of a trouble. -/
def FileTrouble.reason : FileTrouble → String
  | .missing => "no such file or directory"
  | .directory => "is a directory"
  | .notDirectory => "not a directory"
  | .denied => "permission denied"
  | .other reason => reason

/-- An operation on a file that fails. -/
structure FileFault where
  operation : String
  name : String
  trouble : FileTrouble
  deriving DecidableEq

/-- The wording of a fault. -/
def FileFault.message (fault : FileFault) : String :=
  fault.operation ++ " " ++ fault.name ++ ": " ++ fault.trouble.reason

/-! ### Sessions -/

/-- What the program can ask of its host, with the type of the answer. -/
inductive Request : Type → Type where
  /-- The content of a file. -/
  | readFile (name : String) : Request (Except FileFault Bytes)
  /-- Whether the standard input is a terminal. -/
  | isTerminal : Request Bool
  /-- All of the standard input. -/
  | readInput : Request (Except FileFault Bytes)
  /-- To put something out, answered with the fault that breaks it off. -/
  | print (content : Bytes) : Request (Option FileFault)
  /-- To make something the content of a file, answered in the same way. -/
  | writeFile (name : String) (content : Bytes) : Request (Option FileFault)
  /-- The place in the program's own text where the scope of a module is made, if it is known. -/
  | origin : Request (Option String)

/-- What is done with a host until there is a result. -/
inductive Session (α : Type) : Type 1 where
  | done (result : α)
  | ask {Answer : Type} (request : Request Answer) (next : Answer → Session α)

namespace Session

variable {α β : Type}

/-- Goes on with the result of a session. -/
def bind : Session α → (α → Session β) → Session β
  | .done result, further => further result
  | .ask request next, further => .ask request fun answer => (next answer).bind further

instance : Monad Session where
  pure := .done
  bind := bind

/-- Asks for one thing. -/
def request {Answer : Type} (request : Request Answer) : Session Answer :=
  .ask request .done

/-- Holds a session with somebody who answers. -/
def hold {m : Type → Type} [Monad m]
    (answer : {Answer : Type} → Request Answer → m Answer) : Session α → m α
  | .done result => pure result
  | .ask request next => do hold answer (next (← answer request))

end Session

/-! ### Hosts -/

/-- What breaks off the taking of bytes, and how many are taken before. -/
structure Shortfall where
  taken : Nat
  fault : FileFault

/-- What is there of some bytes after a shortfall, or after none. -/
def Shortfall.cut (shortfall? : Option Shortfall) (content : Bytes) : Bytes :=
  match shortfall? with
  | none => content
  | some shortfall => content.take shortfall.taken

/-- A host by its answers. Its files do not change but for what is written to them. -/
structure Host where
  file : String → Except FileFault Bytes
  terminal : Bool
  input : Except FileFault Bytes
  /-- What breaks off the printing, for each time that something is printed. -/
  printing : Nat → Option Shortfall
  /-- Why a file cannot be opened to be written, or what breaks off the writing. A file that is
  opened has lost its content. -/
  writing : String → Except FileFault (Option Shortfall)
  origin? : Option String

/-- What a session leaves behind: the pieces that are printed, and the files that are written with
their new contents, both in order. -/
structure Effects where
  printed : List Bytes := []
  written : Array (String × Bytes) := #[]

namespace Host

/-- The answer to a request, and what the host does. -/
def answer (host : Host) {Answer : Type} : Request Answer → StateM Effects Answer
  | .readFile name => return host.file name
  | .isTerminal => return host.terminal
  | .readInput => return host.input
  | .origin => return host.origin?
  | .print content => modifyGet fun effects =>
    let shortfall? := host.printing effects.printed.length
    (shortfall?.map Shortfall.fault,
      { effects with printed := effects.printed ++ [Shortfall.cut shortfall? content] })
  | .writeFile name content => modifyGet fun effects =>
    match host.writing name with
    | .error fault => (some fault, effects)
    | .ok shortfall? =>
      (shortfall?.map Shortfall.fault,
        { effects with written := effects.written.push (name, Shortfall.cut shortfall? content) })

/-- The result of a session with a host and what it leaves behind, after what is there already. -/
def perform {α : Type} (host : Host) (session : Session α) (effects : Effects) : α × Effects :=
  (session.hold host.answer).run effects

end Host

end Oxide
