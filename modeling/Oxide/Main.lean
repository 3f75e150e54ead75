/-
This file runs the command line: it answers the requests of a session with what the system does.
-/

import Oxide.Command

namespace Oxide.Main

open Text (Bytes)

/-! ### Faults -/

/-- The trouble with a file that an error tells of. -/
def troubleOf : IO.Error → FileTrouble
  | .noFileOrDirectory .. => .missing
  | .permissionDenied .. => .denied
  | .inappropriateType _ _ details => .other details.decapitalize
  | .resourceExhausted _ _ details => .other details.decapitalize
  | error => .other (toString error)

/-- What an operation on a file gives, or the fault that it ends with. -/
def attempt {α : Type} (operation name : String) (action : IO α) : IO (Except FileFault α) := do
  try return .ok (← action)
  catch error => return .error ⟨operation, name, troubleOf error⟩

/-- The fault that an operation ends with. -/
def faultOf : Except FileFault Unit → Option FileFault
  | .ok () => none
  | .error fault => some fault

/-! ### Bytes -/

/-- All bytes that are left to be read. -/
partial def readAll (read : USize → IO ByteArray) (before : ByteArray) : IO ByteArray := do
  let bytes ← read 65536
  if bytes.isEmpty then return before else readAll read (before ++ bytes)

/-- The bytes that are left to be read, as a list. -/
def contentOf (read : USize → IO ByteArray) : IO Bytes :=
  ByteArray.toList <$> readAll read ByteArray.empty

/-! ### Answers -/

/-- Opens a file and goes on with it. -/
def withFile {α : Type} (name : String) (mode : IO.FS.Mode) (operation : String)
    (action : IO.FS.Handle → IO α) : IO (Except FileFault α) := do
  match ← attempt "open" name (IO.FS.Handle.mk name mode) with
  | .ok handle => attempt operation name (action handle)
  | .error fault => return .error fault

/-- Does what is asked for. -/
def answer {Answer : Type} : Request Answer → IO Answer
  | .readFile name => withFile name .read "read" fun handle => contentOf handle.read
  | .isTerminal => do (← IO.getStdin).isTty
  | .readInput => do
    let stdin ← IO.getStdin
    attempt "read" "/dev/stdin" (contentOf stdin.read)
  | .print content => do
    let stdout ← IO.getStdout
    faultOf <$> attempt "write" "/dev/stdout" do
      stdout.write (ByteArray.mk content.toArray)
      stdout.flush
  | .writeFile name content =>
    faultOf <$> withFile name .write "write" fun handle => do
      handle.write (ByteArray.mk content.toArray)
      handle.flush
  | .origin => return none

end Oxide.Main

/-- Runs the program on its arguments. -/
def main (arguments : List String) : IO UInt32 := do
  let result ← (Oxide.Command.session arguments).run.hold Oxide.Main.answer
  let outcome := Oxide.Command.Outcome.ofResult result {}
  match outcome.complaint? with
  | some complaint => IO.eprintln complaint
  | none => pure ()
  return outcome.status.toUInt32
