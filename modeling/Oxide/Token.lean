/-
This file defines the tokens of the source code that is written and the streams of them. A stream
only grows: every operation here gives the old stream with tokens added at its end, and the one
exception is `Stream.join`, which also marks the token that was last.
-/

import Oxide.Text.Quoted
import Oxide.Text.Bytes

namespace Oxide

/-! ### Tokens -/

/-- The kinds of tokens; `unknown` is any kind beyond the five that are written. -/
inductive TokenKind where
  | ident
  | keyword
  | literal
  | punct
  | doc
  | unknown
  deriving DecidableEq, Inhabited

/-- The name of a kind. -/
def TokenKind.label : TokenKind → String
  | .ident => "ident"
  | .keyword => "keyword"
  | .literal => "literal"
  | .punct => "punct"
  | .doc => "doc"
  | .unknown => "invalid"

/-- The kind with the given number. -/
def TokenKind.ofNumber : Int → TokenKind
  | 0 => .ident
  | 1 => .keyword
  | 2 => .literal
  | 3 => .punct
  | 4 => .doc
  | _ => .unknown

/-- A token; a joint one has no space after it. -/
structure Token where
  kind : TokenKind
  text : String
  joint : Bool := false
  deriving DecidableEq, Inhabited

namespace Token

/-- Whether the token is the given piece of punctuation. -/
def isPunct (token : Token) (text : String) : Bool :=
  token.kind = .punct && token.text = text

/-- Whether the token is the given keyword. -/
def isKeyword (token : Token) (text : String) : Bool :=
  token.kind = .keyword && token.text = text

/-- A token as a stream shows it: a documentation text becomes an attribute that holds it. -/
def shown (token : Token) : String :=
  match token.kind with
  | .doc => "#[doc = " ++ Text.quote token.text ++ "]"
  | _ => token.text

end Token

/-! ### Identifiers -/

/-- The words that the written language keeps for itself. -/
def keywords : List String := [
  "as", "async", "await", "break", "const", "continue", "crate", "dyn", "else", "enum", "extern",
  "false", "fn", "for", "if", "impl", "in", "let", "loop", "match", "mod", "move", "mut", "pub",
  "ref", "return", "static", "struct", "trait", "true", "type", "unsafe", "use", "where", "while",
  "abstract", "become", "box", "do", "final", "macro", "override", "priv", "typeof", "unsized",
  "virtual", "yield", "try"]

/-- The names that not even the raw form of an identifier can spell. -/
def reservedNames : List String :=
  ["self", "Self", "super", "crate", "_"]

/-- Whether a word is kept by the written language. -/
def isKeyword (word : String) : Bool :=
  keywords.contains word

/-- The identifier for a name: a keyword becomes a raw identifier, and a name that cannot be raw
gets an underscore. -/
def identName (name : String) : String :=
  if reservedNames.contains name then name ++ "_"
  else if isKeyword name then "r#" ++ name
  else name

/-! ### Streams -/

/-- The brace that opens a block. -/
def openBrace : String := "\x7b"

/-- The brace that closes a block. -/
def closeBrace : String := "\x7d"

/-- Tokens that are not laid out yet. -/
abbrev Stream := List Token

namespace Stream

/-- Adds an identifier for the name. -/
def ident (stream : Stream) (name : String) : Stream :=
  stream ++ [{ kind := .ident, text := identName name }]

/-- Adds a keyword. -/
def keyword (stream : Stream) (word : String) : Stream :=
  stream ++ [{ kind := .keyword, text := word }]

/-- Adds a piece of punctuation. -/
def punct (stream : Stream) (text : String) : Stream :=
  stream ++ [{ kind := .punct, text := text }]

/-- Adds a literal as it is spelled. -/
def literal (stream : Stream) (text : String) : Stream :=
  stream ++ [{ kind := .literal, text := text }]

/-- Adds a string literal for the text. -/
def str (stream : Stream) (text : String) : Stream :=
  stream.literal (Text.quote text)

/-- Adds a documentation text. -/
def doc (stream : Stream) (text : String) : Stream :=
  stream ++ [{ kind := .doc, text := text }]

/-- Marks the last token as joint. -/
def join : Stream → Stream
  | [] => []
  | [last] => [{ last with joint := true }]
  | token :: next :: rest => token :: join (next :: rest)

/-- Adds a path, its parts divided by double colons. -/
def path (stream : Stream) : List String → Stream
  | [] => stream
  | [last] => stream.ident last
  | part :: next :: rest =>
    path (Stream.join (Stream.punct (Stream.join (Stream.ident stream part)) "::")) (next :: rest)

/-- Adds a name with an exclamation mark that is joint with the delimiter to come. -/
def bang (stream : Stream) (name : String) : Stream :=
  Stream.join (Stream.punct (Stream.join (stream.ident name)) "!")

/-- Adds a stream between two delimiters; only a brace keeps a space behind it. -/
def group (stream : Stream) (opening closing : String) (inner : Stream) : Stream :=
  let opened := stream.punct opening
  let opened := if opening = openBrace then opened else join opened
  Stream.punct (opened ++ inner) closing

/-- The streams one after another with commas between them. -/
def comma : List Stream → Stream
  | [] => []
  | [last] => last
  | first :: next :: rest => Stream.punct first "," ++ comma (next :: rest)

/-- The tokens with a space between any two of them. -/
def shown (stream : Stream) : String :=
  " ".intercalate (stream.map Token.shown)

end Stream

end Oxide
