/-
This file spells constants. A number is written as it was read, except that a float always shows
that it is one, and that the floats which are no numbers have names.
-/

import Oxide.Token
import Oxide.Tree.Expr

namespace Oxide.Lower

/-- The small letter for a letter of the words that name floats; the capital I with a dot counts
as a capital of the plain letter. -/
def smallLetter (c : Char) : Char :=
  if c = 'İ' then 'i' else c.toLower

/-- The name of the float that a text spells as a word, where the text may have a plus before it. -/
def floatName? (text : String) : Option String :=
  let characters := match text.toList with
    | '+' :: rest => rest
    | characters => characters
  let word := String.ofList (characters.map smallLetter)
  if [".inf", "inf", "infinity"].contains word then some "INFINITY"
  else if ["-.inf", "-inf", "-infinity"].contains word then some "NEG_INFINITY"
  else if [".nan", "nan"].contains word then some "NAN"
  else none

/-- Whether a text shows that it is a float. -/
def looksLikeFloat (text : String) : Bool :=
  text.toList.any fun c => c = '.' || c = 'e' || c = 'E'

/-- The spelling of a float. -/
def float (text : String) : Stream :=
  match floatName? text with
  | some name => Stream.path [] ["f64", name]
  | none => Stream.literal [] (if looksLikeFloat text then text else text ++ ".0")

/-- The spelling of a constant. -/
def constant : Constant → Stream
  | .none => Stream.ident [] "None"
  | .bool true => Stream.keyword [] "true"
  | .bool false => Stream.keyword [] "false"
  | .int text => Stream.literal [] text
  | .float text => float text
  | .str text => Stream.str [] text

/-- The spelling of a name; three names are constants. -/
def name (id : String) : Stream :=
  if id = "True" then constant (.bool true)
  else if id = "False" then constant (.bool false)
  else if id = "None" then constant .none
  else Stream.ident [] id

end Oxide.Lower
