/-
This file decides which plain texts are numbers. An integer may have a sign and a base, given by the
letter behind a leading zero, or by the zero alone for base eight, and it must fit into 64 bits. A
decimal may have a fraction and an exponent, and the nearest number of double precision must be
finite, which is decided exactly and not by computing that number.
-/

import Oxide.Document.Character

namespace Oxide.Document

/-! ### Integers -/

/-- How many bits an integer needs. -/
inductive IntegerRange where
  /-- It fits into 64 bits with a sign. -/
  | signed
  /-- It is positive and fits into 64 bits only without a sign. -/
  | unsigned
  deriving DecidableEq

/-- The absolute value of an integer whose base its own beginning tells. -/
def selfBased? : List Char → Option Nat
  | [] => none
  | '0' :: letter :: digit :: rest =>
    if letter = 'b' || letter = 'B' then number? 2 (digit :: rest)
    else if letter = 'o' || letter = 'O' then number? 8 (digit :: rest)
    else if letter = 'x' || letter = 'X' then number? 16 (digit :: rest)
    else number? 8 (letter :: digit :: rest)
  | '0' :: rest => number? 8 rest
  | digits => number? 10 digits

/-- The absolute value of an integer in a given base, which needs a digit. -/
def based? (base : Nat) (digits : List Char) : Option Nat :=
  if digits.isEmpty then none else number? base digits

/-- Reads an optional sign and then an absolute value, and tells the range of the integer. Only an
integer without a sign may use the upper half of the unsigned range. -/
def range? (absolute? : List Char → Option Nat) (text : List Char) : Option IntegerRange :=
  let (negative, marked, digits) : Bool × Bool × List Char :=
    match text with
    | '-' :: digits => (true, true, digits)
    | '+' :: digits => (false, true, digits)
    | digits => (false, false, digits)
  match absolute? digits with
  | none => none
  | some value =>
    if value < Nat.pow 2 63 || (negative && value = Nat.pow 2 63) then some .signed
    else if !marked && value < Nat.pow 2 64 then some .unsigned
    else none

/-- The range of an integer whose base stands before its sign. -/
def prefixedRange? : List Char → Option IntegerRange
  | '0' :: 'b' :: rest => range? (based? 2) rest
  | '0' :: 'o' :: rest => range? (based? 8) rest
  | _ => none

/-! ### Decimals -/

/-- A decimal number without its sign: the digits, and how far the point is moved to the right of
the last of them. -/
structure Decimal where
  digits : List Char
  exponent : Int

/-- An exponent that takes up the whole of a text; no text is no exponent. -/
def exponent? : List Char → Option Int
  | [] => some 0
  | mark :: rest =>
    if mark = 'e' || mark = 'E' then
      let (negative, digits) : Bool × List Char :=
        match rest with
        | '-' :: digits => (true, digits)
        | '+' :: digits => (false, digits)
        | digits => (false, digits)
      (based? 10 digits).map fun value => if negative then -(value : Int) else value
    else none

/-- A decimal that takes up the whole of a text. There is a digit before the point, or else there is
one behind it. -/
def decimal? (text : List Char) : Option Decimal :=
  let unsigned := match text with
    | '-' :: rest => rest
    | '+' :: rest => rest
    | rest => rest
  let whole := unsigned.takeWhile Char.isDigit
  match unsigned.dropWhile Char.isDigit with
  | '.' :: rest =>
    let fraction := rest.takeWhile Char.isDigit
    if whole.isEmpty && fraction.isEmpty then none
    else (exponent? (rest.dropWhile Char.isDigit)).map fun exponent =>
      { digits := whole ++ fraction, exponent := exponent - fraction.length }
  | rest =>
    if whole.isEmpty then none
    else (exponent? rest).map fun exponent => { digits := whole, exponent }

/-- The least number that double precision rounds to infinity. -/
def overflowBound : Nat :=
  Nat.pow 2 1024 - Nat.pow 2 970

/-- Whether the nearest number of double precision is finite. Below 308 places it always is and
above 310 places it never is, and in between the numbers are compared. -/
def Decimal.isFinite (decimal : Decimal) : Bool :=
  let digits := decimal.digits.dropWhile (· = '0')
  let places : Int := digits.length + decimal.exponent
  if digits.isEmpty || places < 308 then true
  else if 310 < places then false
  else
    let value := (number? 10 digits).getD 0
    if decimal.exponent < 0 then value < overflowBound * Nat.pow 10 decimal.exponent.natAbs
    else value * Nat.pow 10 decimal.exponent.natAbs < overflowBound

/-- Whether a text is a decimal with a finite value. -/
def isFiniteDecimal (text : List Char) : Bool :=
  ((decimal? text).map Decimal.isFinite).getD false

/-! ### Underscores -/

/-- Whether every underscore of a text stands between two digits, given whether a digit and
whether an underscore stands before it. -/
def underscoresFrom (afterDigit afterUnderscore : Bool) : List Char → Bool
  | [] => !afterUnderscore
  | '_' :: rest => afterDigit && underscoresFrom false true rest
  | c :: rest =>
    if c.isDigit then underscoresFrom true false rest
    else !afterUnderscore && underscoresFrom false false rest

/-- Whether every underscore of a text stands between two digits. -/
def separatesDigits (text : List Char) : Bool :=
  underscoresFrom false false text

/-- A text without its underscores. -/
def withoutUnderscores (text : List Char) : List Char :=
  text.filter (· ≠ '_')

end Oxide.Document
