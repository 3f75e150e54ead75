/-
This file fixes how texts become bytes. A text that was cut at a byte offset need not be a text any
more, so whatever is rendered is a list of bytes, and the texts it is made of are encoded character
by character. Where bytes are wanted, a text stands for its own.
-/

namespace Oxide.Text

/-- Rendered output. -/
abbrev Bytes := List UInt8

/-- The bytes of a text in UTF-8. -/
def utf8 (text : String) : Bytes :=
  text.toList.flatMap String.utf8EncodeChar

instance : Coe String Bytes := ⟨utf8⟩

/-- The bytes of a number in the given count of places, the most significant first. -/
def bigEndian : Nat → Nat → Bytes
  | 0, _ => []
  | places + 1, n => bigEndian places (n / 256) ++ [UInt8.ofNat n]

/-- A text as one item of a binary log: a header with the count of its bytes, then the bytes. The
header holds a count below 24 itself, and else says how many bytes of the count follow it. -/
def logItem (text : String) : Bytes :=
  let bytes := utf8 text
  let count := bytes.length
  let header :=
    if count < 24 then [UInt8.ofNat (0x60 + count)]
    else if count < 0x100 then 0x78 :: bigEndian 1 count
    else if count < 0x10000 then 0x79 :: bigEndian 2 count
    else 0x7A :: bigEndian 4 count
  header ++ bytes

end Oxide.Text
