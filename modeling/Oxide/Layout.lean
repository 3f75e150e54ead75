/-
This file lays a stream of tokens out as text. Braces and semicolons end lines, every open brace
indents what follows by one tab, and between two tokens of a line there is a space unless one of
them forbids it. A stream is laid out if and only if its braces are balanced, and otherwise the
fault says where they are not.
-/

import Oxide.Token
import Oxide.Failure
import Oxide.Layout.DocComment

namespace Oxide.Layout

open Text

/-- How the braces of a stream can fail to balance. -/
inductive Fault where
  /-- A closing brace, at this position in the stream, that nothing has opened. -/
  | closedTooOften (position : Nat)
  /-- This many braces are still open at the end. -/
  | leftOpen (depth : Nat)
  deriving DecidableEq

/-- The wording of a fault. -/
def Fault.message : Fault → String
  | .closedTooOften position => "unbalanced \x7d at token " ++ toString position
  | .leftOpen depth => "unbalanced \x7b: depth " ++ toString depth ++ " at the end"

/-! ### Spaces -/

/-- Punctuation that has no space before it. -/
def leansLeft : List String :=
  [",", ";", ")", "]", ".", ":", "::", "?"]

/-- Punctuation that has no space behind it. -/
def leansRight : List String :=
  ["(", "[", ".", "::"]

/-- Whether an opening delimiter behind this token belongs to it, as in a call or in a subscript. -/
def takesDelimiter (token : Token) : Bool :=
  token.kind = .ident || token.kind = .literal || token.isPunct ")" || token.isPunct "]"

/-- Whether a space stands between two tokens of one line. -/
def spaced (previous next : Token) : Bool :=
  if previous.joint then false
  else if next.kind = .punct && leansLeft.contains next.text then false
  else if (next.isPunct "(" || next.isPunct "[") && takesDelimiter previous then false
  else !(previous.kind = .punct && leansRight.contains previous.text)

/-! ### Lines -/

/-- What a token does to the lines. -/
inductive Role where
  | comment
  | opening
  | closing
  | terminator
  | word

/-- The part that a token plays. -/
def roleOf (token : Token) : Role :=
  if token.kind = .doc then .comment
  else if token.isPunct openBrace then .opening
  else if token.isPunct closeBrace then .closing
  else if token.isPunct ";" then .terminator
  else .word

def newline : Bytes := [0x0A]

def space : Bytes := [0x20]

/-- One tab for every open brace. -/
def indent (depth : Nat) : Bytes :=
  List.replicate depth 0x09

/-- A documentation text as comment lines. -/
def comment (depth : Nat) (text : String) : Bytes :=
  (DocComment.lines (utf8 text)).flatMap fun line =>
    indent depth ++ (if line.isEmpty then utf8 "///" else utf8 "/// " ++ line) ++ newline

/-- The empty line between two items at the outermost level. -/
def separation (depth : Nat) (rest : List Token) : Bytes :=
  if depth = 0 && !rest.isEmpty then newline else []

/-- Whether the stream goes on with the other branch of a condition, which stays on the line. -/
def continuesLine : List Token → Bool
  | token :: _ => token.isKeyword "else"
  | [] => false

/-- Lays out the rest of a stream, given the position of its first token, the count of open braces,
whether a line has just begun, and the token before the first one. -/
def layoutFrom (position depth : Nat) (fresh : Bool) (previous : Token) :
    List Token → Except Fault Bytes
  | [] =>
    if depth ≠ 0 then .error (.leftOpen depth)
    else .ok (if fresh then [] else newline)
  | token :: rest =>
    match roleOf token with
    | .comment =>
      (comment depth token.text ++ ·) <$> layoutFrom (position + 1) depth true token rest
    | .opening =>
      ((if fresh then [] else space) ++ utf8 token.text ++ newline ++ ·) <$>
        layoutFrom (position + 1) (depth + 1) true token rest
    | .closing =>
      match depth with
      | 0 => .error (.closedTooOften position)
      | outer + 1 =>
        let text := (if fresh then [] else newline) ++ indent outer ++ utf8 token.text
        match rest with
        | [] => (text ++ newline ++ ·) <$> layoutFrom (position + 1) outer true token []
        | next :: later =>
          if next.isPunct ";" then
            if continuesLine later then
              (text ++ ·) <$> layoutFrom (position + 2) outer false next later
            else
              (text ++ newline ++ separation outer later ++ ·) <$>
                layoutFrom (position + 2) outer true next later
          else if continuesLine (next :: later) then
            (text ++ ·) <$> layoutFrom (position + 1) outer false token (next :: later)
          else
            (text ++ newline ++ separation outer (next :: later) ++ ·) <$>
              layoutFrom (position + 1) outer true token (next :: later)
    | .terminator =>
      ((if fresh then indent depth else []) ++ utf8 token.text ++ newline ++
          separation depth rest ++ ·) <$>
        layoutFrom (position + 1) depth true token rest
    | .word =>
      ((if fresh then indent depth else if spaced previous token then space else []) ++
          utf8 token.text ++ ·) <$>
        layoutFrom (position + 1) depth false token rest

/-- The text of a stream. -/
def layout (stream : Stream) : Except Fault Bytes :=
  layoutFrom 0 0 true default stream

/-- The text of a stream behind what is written already. -/
def layoutBehind (written : Bytes) (stream : Stream) : Except Fault Bytes :=
  (written ++ ·) <$> layout stream

/-! ### Several streams -/

/-- Lays out the streams from the given number on. -/
def layoutEach (number : Nat) : List Stream → Attempt Fault (List Bytes)
  | [] => .ok []
  | stream :: rest => do
    let text ← Attempt.inside ("stream " ++ toString number)
      (Attempt.ofExcept (layout stream))
    let texts ← layoutEach (number + 1) rest
    return text :: texts

/-- The texts of several streams with an empty line between any two of them. -/
def layoutAll (streams : List Stream) : Attempt Fault Bytes := do
  let texts ← layoutEach 0 streams
  return newline.intercalate texts

end Oxide.Layout
