/-
This file describes how a step of the program fails: with a cause, and with the trail of the places
on the way to it. A place is added to the trail by the caller that knows it, so the trail is read
from the outermost place inwards, and the message puts the places and the cause one after another.
-/

namespace Oxide

/-- A cause and the places that lead to it, the outermost first. -/
structure Failure (Cause : Type) where
  trail : List String
  cause : Cause

namespace Failure

variable {Cause : Type}

/-- The same failure seen from one place further out. -/
def within (place : String) (failure : Failure Cause) : Failure Cause :=
  { failure with trail := place :: failure.trail }

/-- The places and the wording of the cause, divided by colons. -/
def message (wording : Cause → String) (failure : Failure Cause) : String :=
  ": ".intercalate (failure.trail ++ [wording failure.cause])

/-- The same failure with its cause seen as one of a wider kind. -/
def widen {Wider : Type} (embed : Cause → Wider) (failure : Failure Cause) : Failure Wider :=
  ⟨failure.trail, embed failure.cause⟩

end Failure

/-- A result or a failure. -/
abbrev Attempt (Cause α : Type) := Except (Failure Cause) α

namespace Attempt

variable {Cause α : Type}

/-- Fails here for the given cause. -/
def fail (cause : Cause) : Attempt Cause α :=
  .error ⟨[], cause⟩

/-- Adds a place to the trail of a failure and leaves a result alone. -/
def inside (place : String) : Attempt Cause α → Attempt Cause α
  | .ok result => .ok result
  | .error failure => .error (failure.within place)

/-- The failure of an attempt. -/
def failure? : Attempt Cause α → Option (Failure Cause)
  | .ok _ => none
  | .error failure => some failure

/-- The same attempt with its cause seen as one of a wider kind. -/
def widen {Wider : Type} (embed : Cause → Wider) : Attempt Cause α → Attempt Wider α
  | .ok result => .ok result
  | .error failure => .error (failure.widen embed)

/-- A result or a cause, seen as an attempt that has just started. -/
def ofExcept : Except Cause α → Attempt Cause α
  | .ok result => .ok result
  | .error cause => fail cause

end Attempt

end Oxide
