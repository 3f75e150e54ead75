/-
This file says where a definition stands and what follows from it and from its name for the head
of the function that is written: how far it can be seen, and whether it is asynchronous.
-/

import Oxide.Token

namespace Oxide

/-! ### Contexts -/

/-- Where a node stands: in a module, or in a function that is waited for or not; `unknown` is
none of these. -/
inductive Context where
  | module
  | sync (function : String)
  | async (function : String)
  | unknown
  deriving DecidableEq, Inhabited

namespace Context

/-- Whether it is possible to wait here. -/
def isAsync : Context → Bool
  | .async _ => true
  | _ => false

/-- The description of a context. -/
def label : Context → String
  | .module => "module"
  | .sync function => "sync(" ++ function ++ ")"
  | .async function => "async(" ++ function ++ ")"
  | .unknown => "invalid"

end Context

/-! ### Visibility -/

/-- How far a name can be seen; `unknown` is any other degree and is written like `hidden`. -/
inductive Visibility where
  | hidden
  | internal
  | everywhere
  | unknown
  deriving DecidableEq, Inhabited

namespace Visibility

/-- The visibility that a name asks for: one underscore in front hides it, two on either side keep
it inside. -/
def ofName (name : String) : Visibility :=
  if name.startsWith "_" && !name.startsWith "__" then .hidden
  else if name.startsWith "__" && name.endsWith "__" then .internal
  else .everywhere

/-- The visibility with the given number. -/
def ofNumber : Int → Visibility
  | 0 => .hidden
  | 1 => .internal
  | 2 => .everywhere
  | _ => .unknown

/-- The name of a visibility. -/
def label : Visibility → String
  | .hidden => "private"
  | .internal => "internal"
  | .everywhere => "public"
  | .unknown => "invalid"

/-- Adds the spelling of a visibility. -/
def emit (visibility : Visibility) (stream : Stream) : Stream :=
  match visibility with
  | .everywhere => stream.keyword "pub"
  | .internal =>
    (Stream.join (stream.keyword "pub")).group "(" ")" (Stream.join (Stream.keyword [] "crate"))
  | _ => stream

end Visibility

/-! ### Qualifiers -/

/-- Whether a function is to be waited for. -/
inductive Qualifier where
  | sync
  | async
  deriving DecidableEq, Inhabited

namespace Qualifier

/-- The qualifier of the functions in a context, which the definition itself has no say in. -/
def ofContext (context : Context) : Qualifier :=
  if context.isAsync then .async else .sync

/-- The qualifier with the given number. -/
def ofNumber : Int → Qualifier
  | 1 => .async
  | _ => .sync

/-- The name of a qualifier. -/
def label : Qualifier → String
  | .sync => "sync"
  | .async => "async"

/-- Adds the spelling of a qualifier. -/
def emit (qualifier : Qualifier) (stream : Stream) : Stream :=
  match qualifier with
  | .async => stream.keyword "async"
  | .sync => stream

end Qualifier

end Oxide
