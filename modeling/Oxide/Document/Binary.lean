/-
This file reads bytes that are written as letters, six bits to a letter. Four letters are three
bytes, the last four may end with one or two equals signs for the bytes that they lack, and line
breaks do not count.
-/

namespace Oxide.Document

/-- The six bits that a letter stands for. -/
def sixBits? (c : Char) : Option Nat :=
  if 'A' ≤ c && c ≤ 'Z' then some (c.toNat - 'A'.toNat)
  else if 'a' ≤ c && c ≤ 'z' then some (c.toNat - 'a'.toNat + 26)
  else if '0' ≤ c && c ≤ '9' then some (c.toNat - '0'.toNat + 52)
  else if c = '+' then some 62
  else if c = '/' then some 63
  else none

/-- The bytes of a text without line breaks. -/
def lettersToBytes? : List Char → Option (List UInt8)
  | [] => some []
  | [a, b, '=', '='] => do
    let high ← sixBits? a
    let low ← sixBits? b
    return [UInt8.ofNat (high * 4 + low / 16)]
  | [a, b, c, '='] => do
    let word := (← sixBits? a) * 4096 + (← sixBits? b) * 64 + (← sixBits? c)
    return [UInt8.ofNat (word / 1024), UInt8.ofNat (word / 4)]
  | a :: b :: c :: d :: rest => do
    let high := (← sixBits? a) * 64 + (← sixBits? b)
    let word := high * 4096 + (← sixBits? c) * 64 + (← sixBits? d)
    let bytes ← lettersToBytes? rest
    return UInt8.ofNat (word / 65536) :: UInt8.ofNat (word / 256) :: UInt8.ofNat word :: bytes
  | _ => none

/-- The text whose bytes are written as letters. -/
def binaryText? (text : String) : Option String := do
  let bytes ← lettersToBytes? (text.toList.filter fun c => c ≠ '\r' && c ≠ '\n')
  String.fromUTF8? ⟨bytes.toArray⟩

end Oxide.Document
