/-
This file counts the nodes that are looked at while a value is read. An alias is read as the node
that it points to, and a short text can ask in this way for an enormous value, so nearly all of the
nodes must not lie behind aliases: of a small value 99 percent may, and of a very large one 10
percent.
-/

import Oxide.Document.Fault

namespace Oxide.Document

/-- How many nodes were looked at, and how many of them behind aliases. -/
structure Visits where
  total : Nat := 0
  aliased : Nat := 0
  deriving DecidableEq

namespace Visits

/-- Up to this count of nodes a value is small. -/
def smallValue : Nat := 400000

/-- From this count of nodes on a value is very large. -/
def largeValue : Nat := 4000000

/-- Whether the share of nodes behind aliases is greater than allowed. Between the small and the
very large values the allowed share falls evenly from 99 to 10 percent. -/
def exceedsShare (visits : Visits) : Bool :=
  if visits.total ≤ smallValue then visits.total * 99 < visits.aliased * 100
  else if largeValue ≤ visits.total then visits.total * 10 < visits.aliased * 100
  else
    let width := largeValue - smallValue
    visits.total * (99 * width - 89 * (visits.total - smallValue)) <
      visits.aliased * (100 * width)

/-- Whether too many nodes lie behind aliases. A few of them are never too many. -/
def isExcessive (visits : Visits) : Bool :=
  100 < visits.aliased && 1000 < visits.total && visits.exceedsShare

/-- Counts one more node, and fails if too many lie behind aliases. -/
def add (visits : Visits) (aliased : Bool) : Except Fault Visits :=
  let visits : Visits :=
    { total := visits.total + 1
      aliased := if aliased then visits.aliased + 1 else visits.aliased }
  if visits.isExcessive then .error .aliases else .ok visits

/-- Nodes that lie behind no alias are never too many. -/
theorem add_false_of_aliased_eq_zero {visits : Visits} (none : visits.aliased = 0) :
    visits.add false = .ok { total := visits.total + 1, aliased := 0 } := by
  simp [add, isExcessive, none]

end Visits

end Oxide.Document
