/-
This file recognises points in time: a date, or a date and a time of day. The time follows a letter
and then ends with a zone, or it follows blanks and has none.
-/

import Oxide.Document.Character

namespace Oxide.Document

/-- One digit or two, as many as there are, and the rest of the text. -/
def shortNumber? : List Char → Option (Nat × List Char)
  | a :: b :: rest =>
    if a.isDigit && b.isDigit then (number? 10 [a, b]).map (·, rest)
    else if a.isDigit then (number? 10 [a]).map (·, b :: rest)
    else none
  | [a] => if a.isDigit then (number? 10 [a]).map (·, []) else none
  | [] => none

/-- The rest of a text behind the given character. -/
def behind? (mark : Char) : List Char → Option (List Char)
  | c :: rest => if c = mark then some rest else none
  | [] => none

/-- The length of a month. -/
def daysIn (year month : Nat) : Nat :=
  if month = 2 then
    if year % 4 = 0 && (year % 100 ≠ 0 || year % 400 = 0) then 29 else 28
  else if month = 4 || month = 6 || month = 9 || month = 11 then 30
  else 31

/-- A date at the start of a text, and the rest of the text. -/
def date? (text : List Char) : Option (List Char) := do
  let digits := text.takeWhile Char.isDigit
  if digits.length ≠ 4 then none
  let year ← number? 10 digits
  let rest ← behind? '-' (text.drop 4)
  let (month, rest) ← shortNumber? rest
  let rest ← behind? '-' rest
  let (day, rest) ← shortNumber? rest
  if 1 ≤ month && month ≤ 12 && 1 ≤ day && day ≤ daysIn year month then some rest else none

/-- A text without the fraction of a second that it may start with. -/
def dropFraction : List Char → List Char
  | mark :: digit :: rest =>
    if (mark = '.' || mark = ',') && digit.isDigit then rest.dropWhile Char.isDigit
    else mark :: digit :: rest
  | text => text

/-- A time of day at the start of a text, and the rest of the text. -/
def timeOfDay? (text : List Char) : Option (List Char) := do
  let (hour, rest) ← shortNumber? text
  let rest ← behind? ':' rest
  let (minute, rest) ← shortNumber? rest
  let rest ← behind? ':' rest
  let (second, rest) ← shortNumber? rest
  if hour < 24 && minute < 60 && second < 60 then some (dropFraction rest) else none

/-- Whether a text is a time zone. -/
def isZone : List Char → Bool
  | ['Z'] => true
  | [sign, a, b, ':', c, d] =>
    (sign = '+' || sign = '-') &&
      match number? 10 [a, b], number? 10 [c, d] with
      | some hours, some minutes => hours ≤ 24 && minutes ≤ 60
      | _, _ => false
  | _ => false

/-- Whether a text is a point in time. -/
def isTimestamp (text : List Char) : Bool :=
  match date? text with
  | none => false
  | some [] => true
  | some (mark :: rest) =>
    if mark = 'T' || mark = 't' then ((timeOfDay? rest).map isZone).getD false
    else if mark = ' ' then
      ((timeOfDay? (rest.dropWhile (· = ' '))).map List.isEmpty).getD false
    else false

end Oxide.Document
