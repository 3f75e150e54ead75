/-
This file reads the arguments of a command. Flags and words may come in any order; a flag has one
or two dashes and perhaps a value behind an equals sign. Two dashes alone end the flags.
-/

import Oxide.Failure

namespace Oxide

/-! ### Faults -/

/-- Why arguments are refused. -/
inductive UsageFault where
  | noSuchFlag
  | valueRequired
  | notBool
  | unexpectedWord (word : String)
  deriving DecidableEq

/-- The wording of a fault. -/
def UsageFault.message : UsageFault → String
  | .noSuchFlag => "no such flag"
  | .valueRequired => "flag value is required"
  | .notBool => "not a bool value"
  | .unexpectedWord word => "no args expected, got " ++ word

namespace Flags

/-! ### Single arguments -/

/-- What a flag sets. -/
inductive Setter (Settings : Type) where
  | text (set : String → Settings → Settings)
  | truth (set : Bool → Settings → Settings)

/-- Whether an argument is a flag. -/
def isFlag (argument : String) : Bool :=
  argument.startsWith "-" && argument ≠ "-" && argument ≠ "--"

/-- The characters of a flag behind its dashes. -/
def withoutDashes : List Char → List Char
  | '-' :: '-' :: rest => rest
  | '-' :: rest => rest
  | characters => characters

/-- The name of a flag and the value behind the equals sign, if there is one. -/
def split (argument : String) : String × Option String :=
  let characters := withoutDashes argument.toList
  let name := characters.takeWhile (· ≠ '=')
  let value? := match characters.dropWhile (· ≠ '=') with
    | _ :: value => some (String.ofList value)
    | [] => none
  (String.ofList name, value?)

/-- The truth value of a word, in small or capital letters; no word at all is true. -/
def truth? (word : String) : Option Bool :=
  let word := String.ofList (word.toList.map Char.toLower)
  if ["", "true", "t", "yes", "y", "1"].contains word then some true
  else if ["false", "f", "no", "n", "0"].contains word then some false
  else none

/-! ### All arguments -/

variable {Settings : Type}

/-- Reads the arguments of a command: its settings, and the words in their order. -/
def read (setter? : String → Option (Setter Settings)) (settings : Settings) :
    List String → Attempt UsageFault (Settings × List String)
  | [] => .ok (settings, [])
  | argument :: rest =>
    if argument = "--" then .ok (settings, rest)
    else if !isFlag argument then do
      let (settings, words) ← read setter? settings rest
      return (settings, argument :: words)
    else
      let place := "parse flag: " ++ argument
      let (name, value?) := split argument
      match setter? name, value?, rest with
      | none, _, _ => Attempt.inside place (Attempt.fail .noSuchFlag)
      | some (.truth set), value?, rest =>
        match truth? (value?.getD "") with
        | some truth => read setter? (set truth settings) rest
        | none => Attempt.inside place (Attempt.fail .notBool)
      | some (.text set), some value, rest => read setter? (set value settings) rest
      | some (.text set), none, value :: rest => read setter? (set value settings) rest
      | some (.text _), none, [] => Attempt.inside place (Attempt.fail .valueRequired)

end Flags

end Oxide
