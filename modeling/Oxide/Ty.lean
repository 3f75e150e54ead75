/-
This file describes the types that are written in signatures and declarations, and how each of them
is spelled in tokens. A spelling is added to the stream so far and changes nothing in it.
-/

import Oxide.Token

namespace Oxide

/-- A type of the written language. -/
inductive Ty where
  /-- A named type, possibly a path with double colons. -/
  | named (name : String)
  /-- An integer; no width means the widest common one. -/
  | int (bits : Int) (signed : Bool)
  | float (bits : Int)
  | bool
  | str
  | unit
  /-- The dynamic value of the runtime library, found through its namespace if there is one. -/
  | object (space : String)
  | vec (item : Ty)
  | map (key value : Ty)
  | set (item : Ty)
  | option (item : Ty)
  | tuple (items : List Ty)
  | ref (target : Ty) (mutable : Bool)
  | generic (name : String) (arguments : List Ty)
  deriving Inhabited

namespace Ty

/-- The pieces of a text between double colons, found from the left; the first argument holds the
characters of the piece under way, the last one first. -/
def splitPathFrom (piece : List Char) : List Char → List String
  | [] => [String.ofList piece.reverse]
  | ':' :: ':' :: rest => String.ofList piece.reverse :: splitPathFrom [] rest
  | c :: rest => splitPathFrom (c :: piece) rest

/-- The parts of a path; there is always at least one. -/
def splitPath (path : String) : List String :=
  splitPathFrom [] path.toList

/-- The name of an integer type. -/
def intName (bits : Int) (signed : Bool) : String :=
  (if signed then "i" else "u") ++ toString (if bits = 0 then 64 else bits)

/-- Adds the name of a generic type and the opening of its arguments. -/
def openArguments (stream : Stream) (name : String) : Stream :=
  Stream.join (Stream.punct (Stream.join (stream.path (splitPath name))) "<")

/-- Adds the closing of the arguments of a generic type. -/
def closeArguments (stream : Stream) : Stream :=
  Stream.punct (Stream.join stream) ">"

mutual

/-- Adds the spelling of a type to a stream. -/
def emit : Ty → Stream → Stream
  | .named name, stream => stream.path (splitPath name)
  | .int bits signed, stream => stream.ident (intName bits signed)
  | .float bits, stream => stream.ident (if bits = 32 then "f32" else "f64")
  | .bool, stream => stream.ident "bool"
  | .str, stream => stream.ident "String"
  | .unit, stream => Stream.punct (Stream.join (stream.punct "(")) ")"
  | .object space, stream =>
    if space = "" then stream.ident "PyObject" else stream.path [space, "PyObject"]
  | .vec item, stream => closeArguments (item.emit (openArguments stream "Vec"))
  | .map key value, stream =>
    closeArguments (value.emit (Stream.punct
      (key.emit (openArguments stream "std::collections::HashMap")) ","))
  | .set item, stream =>
    closeArguments (item.emit (openArguments stream "std::collections::HashSet"))
  | .option item, stream => closeArguments (item.emit (openArguments stream "Option"))
  | .tuple items, stream =>
    let inner := emitList items (Stream.join (stream.punct "("))
    let inner := if items.length = 1 then inner.punct "," else inner
    Stream.punct (Stream.join inner) ")"
  | .ref target mutable, stream =>
    let opened := Stream.join (stream.punct "&")
    target.emit (if mutable then opened.keyword "mut" else opened)
  | .generic name arguments, stream =>
    closeArguments (emitList arguments (openArguments stream name))

/-- Adds the spellings of several types with commas between them. -/
def emitList : List Ty → Stream → Stream
  | [], stream => stream
  | first :: rest, stream => emitTail rest (first.emit stream)

/-- Adds the spellings of several types with a comma before each. -/
def emitTail : List Ty → Stream → Stream
  | [], stream => stream
  | first :: rest, stream => emitTail rest (first.emit (stream.punct ","))

end

/-- The spelling of a type on its own. -/
def tokens (type : Ty) : Stream :=
  type.emit []

end Ty

end Oxide
