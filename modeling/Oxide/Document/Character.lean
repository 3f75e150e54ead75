/-
This file names the classes of characters that documents are made of, and the small readings that
start at a given place of a text: a line break, a marker of a document's edge, a code point written
in hexadecimal.
-/

namespace Oxide.Document

/-- A space or a tab. -/
def isBlank (c : Char) : Bool :=
  c = ' ' || c = '\t'

/-- The break that a character stands for. Carriage returns and the next-line character count as
line feeds, the line and the paragraph separator stay what they are. -/
def break? (c : Char) : Option Char :=
  if c = '\n' || c = '\r' || c = '\u0085' then some '\n'
  else if c = '\u2028' || c = '\u2029' then some c
  else none

/-- Whether a character ends a line. -/
def isBreak (c : Char) : Bool :=
  (break? c).isSome

/-- A letter, a digit, an underscore or a hyphen: what names of anchors and handles are made of. -/
def isWord (c : Char) : Bool :=
  c.isAlphanum || c = '_' || c = '-'

/-- Whether a text may hold the character at all. -/
def isAllowed (c : Char) : Bool :=
  let code := c.toNat
  code = 0x09 || code = 0x0A || code = 0x0D || (0x20 ≤ code && code ≤ 0x7E) || code = 0x85 ||
    (0xA0 ≤ code && code ≤ 0xD7FF) || (0xE000 ≤ code && code ≤ 0xFFFD) || 0x10000 ≤ code

/-- Whether a text is over or goes on with a line break. -/
def atLineEnd : List Char → Bool
  | [] => true
  | c :: _ => isBreak c

/-- Whether a text is over or goes on with a blank or a line break. -/
def atGap : List Char → Bool
  | [] => true
  | c :: _ => isBlank c || isBreak c

/-- How many characters the break at the start of a text takes up; a carriage return and a line feed
are one break. -/
def breakWidth : List Char → Nat
  | '\r' :: '\n' :: _ => 2
  | c :: _ => if isBreak c then 1 else 0
  | [] => 0

/-- Whether three of the given character stand alone at the start of a text. -/
def atMarkerOf (mark : Char) : List Char → Bool
  | a :: b :: c :: rest => a = mark && b = mark && c = mark && atGap rest
  | _ => false

/-- Whether a text goes on with the marker that opens or the marker that ends a document. -/
def atMarker (text : List Char) : Bool :=
  atMarkerOf '-' text || atMarkerOf '.' text

/-- The value of a digit in the bases up to 36. -/
def digitValue? (c : Char) : Option Nat :=
  if '0' ≤ c && c ≤ '9' then some (c.toNat - '0'.toNat)
  else if 'a' ≤ c && c ≤ 'z' then some (c.toNat - 'a'.toNat + 10)
  else if 'A' ≤ c && c ≤ 'Z' then some (c.toNat - 'A'.toNat + 10)
  else none

/-- The number that digits spell in a base, if they all are digits of it. -/
def number? (base : Nat) (digits : List Char) : Option Nat :=
  digits.foldl (fun value? c => do
    let value ← value?
    let digit ← digitValue? c
    if digit < base then some (value * base + digit) else none) (some 0)

/-- The character with the given code point, if there is one. -/
def character? (code : Nat) : Option Char :=
  if code < 0xD800 || (0xDFFF < code && code ≤ 0x10FFFF) then some (Char.ofNat code) else none

end Oxide.Document
