/-
This file makes a text out of bytes. How the characters are encoded shows at the first two bytes,
which may be an order mark in one of two byte orders. A character keeps the count of the bytes that
it takes up, since a text is loaded by bytes. Bytes that encode no character become one that no
document may hold.
-/

import Oxide.Text.Bytes

namespace Oxide.Document

open Text (Bytes)

/-- The characters of a text, each with the count of bytes that have to be there to read it. -/
abbrev Source := List (Char × Nat)

namespace Source

/-- How many bytes are loaded at once. -/
def room : Nat := 512

/-! ### Broken encodings -/

/-- What stands for bytes that encode no character, of which so many have to be there to see it. -/
def broken (width : Nat) : Char × Nat :=
  ('\uffff', width)

/-- What stands for a character that the end of the text cuts off. This is seen only when the end
is reached, which is not before everything else is loaded. -/
def cutOff : Char × Nat :=
  broken (room + 1)

/-- The character with the given code, unless no character has it or a shorter encoding would do. -/
def char? (least code : Nat) : Option Char :=
  if least ≤ code && code.isValidChar then some (Char.ofNat code) else none

/-! ### Encodings in single bytes -/

/-- The bytes and the lowest code of a character that begins with the given byte, and what the
byte adds to the code. -/
def leading? (byte : UInt8) : Option (Nat × Nat × Nat) :=
  let bits := byte.toNat
  if bits < 0x80 then some (1, 0, bits)
  else if bits < 0xC0 then none
  else if bits < 0xE0 then some (2, 0x80, bits - 0xC0)
  else if bits < 0xF0 then some (3, 0x800, bits - 0xE0)
  else if bits < 0xF8 then some (4, 0x10000, bits - 0xF0)
  else none

/-- Whether a byte goes on with a character. -/
def isTrailing (byte : UInt8) : Bool :=
  0x80 ≤ byte && byte < 0xC0

/-- The code that trailing bytes make of what the leading byte adds to it. -/
def codeOf (start : Nat) (trailing : Bytes) : Nat :=
  trailing.foldl (fun code byte => code * 64 + byte.toNat % 64) start

/-- The first character of some bytes, one to four bytes to a character. -/
def firstOfBytes (byte : UInt8) (rest : Bytes) : Char × Nat :=
  match leading? byte with
  | none => broken 1
  | some (width, least, start) =>
    let trailing := rest.take (width - 1)
    if trailing.length < width - 1 then cutOff
    else if !trailing.all isTrailing then broken width
    else
      match char? least (codeOf start trailing) with
      | some c => (c, width)
      | none => broken width

/-! ### Encodings in pairs of bytes -/

/-- The number that two bytes make. -/
def unit (bigEndian : Bool) (first second : UInt8) : Nat :=
  if bigEndian then first.toNat * 256 + second.toNat else second.toNat * 256 + first.toNat

/-- The first character of some bytes, one or two pairs of bytes to a character. -/
def firstOfPairs (bigEndian : Bool) (byte : UInt8) : Bytes → Char × Nat
  | [] => cutOff
  | second :: rest =>
    let high := unit bigEndian byte second
    if high / 0x400 = 0xDC00 / 0x400 then broken 2
    else if high / 0x400 = 0xD800 / 0x400 then
      match rest with
      | third :: fourth :: _ =>
        let low := unit bigEndian third fourth
        if low / 0x400 = 0xDC00 / 0x400 then
          (Char.ofNat (0x10000 + high % 0x400 * 0x400 + low % 0x400), 4)
        else broken 4
      | _ => cutOff
    else (Char.ofNat high, 2)

/-! ### Whole texts -/

/-- The characters of some bytes, given how the first of them is read, and how many bytes belong to
the character before. -/
def decode (first : UInt8 → Bytes → Char × Nat) : Nat → Bytes → Source
  | _, [] => []
  | skipped + 1, _ :: rest => decode first skipped rest
  | 0, byte :: rest =>
    let (c, width) := first byte rest
    (c, width) :: decode first (width - 1) rest

/-- The characters of some bytes. Two bytes of an order mark tell the byte order. -/
def ofBytes (bytes : Bytes) : Source :=
  let (mark, rest) := bytes.splitAt 2
  if mark = [0xFF, 0xFE] then ('\ufeff', 2) :: decode (firstOfPairs false) 0 rest
  else if mark = [0xFE, 0xFF] then ('\ufeff', 2) :: decode (firstOfPairs true) 0 rest
  else decode firstOfBytes 0 bytes

end Source

end Oxide.Document
