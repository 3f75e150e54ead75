/-
This file says what kind of value a scalar has. A tag that is written beside the scalar decides it;
without one, a quoted scalar is a string, and the kind of a plain scalar follows from its text.
-/

import Oxide.Document.Number
import Oxide.Document.Timestamp

namespace Oxide.Document

/-- The kind of a scalar's value. -/
inductive Tag where
  | null
  | bool
  | int
  | float
  | str
  | merge
  | timestamp
  | binary
  | other (name : String)
  deriving DecidableEq, Inhabited

namespace Tag

/-- The words for nothing, true, false, and the numbers that are not finite. -/
def ofWord? (text : String) : Option Tag :=
  if ["", "~", "null", "Null", "NULL"].contains text then some .null
  else if ["true", "True", "TRUE", "false", "False", "FALSE"].contains text then some .bool
  else if [".nan", ".NaN", ".NAN", ".inf", ".Inf", ".INF", "+.inf", "+.Inf", "+.INF",
      "-.inf", "-.Inf", "-.INF"].contains text then some .float
  else none

/-- The value of a word for true or false. -/
def truth? (text : String) : Option Bool :=
  if ["true", "True", "TRUE"].contains text then some true
  else if ["false", "False", "FALSE"].contains text then some false
  else none

/-- The range of a plain integer. -/
def integerRange? (text : List Char) : Option IntegerRange :=
  (range? selfBased? text).or (prefixedRange? text)

/-- The kind of a plain scalar that starts with a digit or a sign. A decimal is looked for before
the integers with a sign behind their base. -/
def ofNumeral (text : List Char) : Tag :=
  if isTimestamp text then .timestamp
  else
    let plain := withoutUnderscores text
    if (range? selfBased? plain).isSome then .int
    else if isFiniteDecimal plain then .float
    else if (prefixedRange? plain).isSome then .int
    else .str

/-- The kind of a plain scalar. -/
def ofPlain (text : String) : Tag :=
  if text = "<<" then .merge
  else match ofWord? text with
    | some tag => tag
    | none =>
      match text.toList with
      | '.' :: rest =>
        if separatesDigits ('.' :: rest) && isFiniteDecimal (withoutUnderscores ('.' :: rest))
        then .float else .str
      | c :: rest =>
        if c.isDigit || c = '+' || c = '-' then ofNumeral (c :: rest) else .str
      | [] => .null

/-- The beginning that the tags of the common kinds share. -/
def commonNamespace : String := "tag:yaml.org,2002:"

/-- The kind that a tag names. -/
def ofName (name : String) : Tag :=
  let short :=
    if commonNamespace.isPrefixOf name then "!!" ++ (name.drop commonNamespace.length).toString
    else name
  match short with
  | "!!null" => .null
  | "!!bool" => .bool
  | "!!int" => .int
  | "!!float" => .float
  | "!!str" => .str
  | "!!merge" => .merge
  | "!!timestamp" => .timestamp
  | "!!binary" => .binary
  | unknown => .other unknown

/-- The kind of a scalar from the tag beside it, whether it is plain, and its text. A single
exclamation mark is no tag. -/
def ofScalar (name : String) (plain : Bool) (text : String) : Tag :=
  if name ≠ "" && name ≠ "!" then ofName name
  else if plain then ofPlain text
  else .str

/-- Whether a text can be read as a value of the kind. Strings, bytes and the kinds that say nothing
about the text take any text, and an integer may stand for a decimal if a sign would still fit
beside it. -/
def accepts (tag : Tag) (text : String) : Bool :=
  match tag with
  | .str | .binary | .merge | .other _ => true
  | .float =>
    ofPlain text = .float ||
      (ofPlain text = .int && integerRange? (withoutUnderscores text.toList) = some .signed)
  | tag => ofPlain text = tag

end Tag

end Oxide.Document
