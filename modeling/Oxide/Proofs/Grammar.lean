/-
This file defines the expressions of the written language as trees and the grammar by which a bare
stream of tokens is read as one. An expression has a level, which says how tightly it binds:

    0 `..`   1 `||`   2 `&&`   3 comparisons   4 `|`   5 `^`   6 `&`   7 shifts   8 `+ -`
    9 `* / %`   10 `as`   11 signs in front   12 fields   13 calls and the like   14 names

Anything that binds more tightly can stand where a looser expression is expected. The two operands
of a range or of a comparison bind more tightly than it does; every other operator groups to the
left. The grammar is unambiguous: a reader that climbs the levels finds every tree that the grammar
gives to a stream, and the reader is a function.
-/

import Mathlib.Tactic.SplitIfs
import Oxide.Proofs.Bare

namespace Oxide

namespace Grammar

/-! ### Trees -/

/-- An expression of the written language. -/
inductive Term where
  | literal (text : String)
  | truth (value : Bool)
  | path (parts : List String)
  | unary (sign : String) (operand : Term)
  | binary (sign : String) (left right : Term)
  | cast (value : Term) (type : String)
  | call (function : Term) (arguments : List Term)
  | method (receiver : Term) (name : String) (arguments : List Term)
  | field (value : Term) (name : String)
  | index (value index : Term)
  | await (value : Term)
  | tuple (items : List Term)
  | bang (name : String) (arguments : List Term)

/-! ### The grammar -/

/-- The level of a sign between two operands. -/
def infixLevel? (sign : String) : Option Nat :=
  if sign = ".." then some 0
  else if sign = "||" then some 1
  else if sign = "&&" then some 2
  else if ["==", "!=", "<", "<=", ">", ">="].contains sign then some 3
  else if sign = "|" then some 4
  else if sign = "^" then some 5
  else if sign = "&" then some 6
  else if ["<<", ">>"].contains sign then some 7
  else if ["+", "-"].contains sign then some 8
  else if ["*", "/", "%"].contains sign then some 9
  else none

/-- All signs between operands bind less tightly than a cast. -/
theorem infixLevel?_le {sign : String} {level : Nat} (known : infixLevel? sign = some level) :
    level ≤ 9 := by
  unfold infixLevel? at known
  split_ifs at known <;> cases known <;> decide

/-- The least level of a left operand: ranges and comparisons do not group. -/
def leftLevel (level : Nat) : Nat :=
  if level = 0 ∨ level = 3 then level + 1 else level

/-- The left operand of a sign binds at least as tightly as the sign. -/
theorem le_leftLevel (level : Nat) : level ≤ leftLevel level := by
  unfold leftLevel
  split <;> omega

/-- The signs in front of an operand. -/
def frontSigns : List String := ["!", "-", "&"]

/-- The text of a literal, which has no sign. -/
def isUnsigned (text : String) : Bool :=
  match text.toList with
  | [] => false
  | first :: _ => first ≠ '+' && first ≠ '-'

/-- An identifier as it is spelled. -/
def identifier (text : String) : Token := { kind := .ident, text }

/-- The delimiters that can hold the arguments of a macro. -/
def bangDelimiters : List (String × String) := [("(", ")"), ("[", "]")]

mutual

/-- `Reads level stream term` holds if the stream is an expression of the level and the term is its
tree. -/
inductive Reads : Nat → Stream → Term → Prop where
  | weaken {level : Nat} {stream : Stream} {term : Term} (read : Reads (level + 1) stream term) :
      Reads level stream term
  | binary {level : Nat} {sign : String} {first second : Stream} {left right : Term}
      (known : infixLevel? sign = some level) (leftRead : Reads (leftLevel level) first left)
      (rightRead : Reads (level + 1) second right) :
      Reads level (first ++ .punct sign :: second) (.binary sign left right)
  | cast {stream : Stream} {value : Term} (type : String) (valueRead : Reads 10 stream value) :
      Reads 10 (stream ++ [.keyword "as", identifier type]) (.cast value type)
  | unary {sign : String} {stream : Stream} {operand : Term} (known : sign ∈ frontSigns)
      (operandRead : Reads 11 stream operand) :
      Reads 11 (.punct sign :: stream) (.unary sign operand)
  | field {stream : Stream} {value : Term} (name : String) (valueRead : Reads 12 stream value) :
      Reads 12 (stream ++ [.punct ".", identifier name]) (.field value name)
  | method {stream inner : Stream} {receiver : Term} {arguments : List Term} (name : String)
      (receiverRead : Reads 12 stream receiver) (argumentsRead : Items inner arguments) :
      Reads 13 (stream ++ .punct "." :: identifier name :: .punct "(" :: (inner ++ [.punct ")"]))
        (.method receiver name arguments)
  | call {stream inner : Stream} {function : Term} {arguments : List Term}
      (functionRead : Reads 13 stream function) (argumentsRead : Items inner arguments) :
      Reads 13 (stream ++ .punct "(" :: (inner ++ [.punct ")"])) (.call function arguments)
  | index {stream inner : Stream} {value index : Term} (valueRead : Reads 12 stream value)
      (indexRead : Reads 0 inner index) :
      Reads 13 (stream ++ .punct "[" :: (inner ++ [.punct "]"])) (.index value index)
  | await {stream : Stream} {value : Term} (valueRead : Reads 12 stream value) :
      Reads 13 (stream ++ [.punct ".", .keyword "await"]) (.await value)
  | literal {text : String} (unsigned : isUnsigned text) :
      Reads 13 [.literal text] (.literal text)
  | trueWord : Reads 13 [.keyword "true"] (.truth true)
  | falseWord : Reads 13 [.keyword "false"] (.truth false)
  | group {stream : Stream} {term : Term} (read : Reads 0 stream term) :
      Reads 13 (.punct "(" :: (stream ++ [.punct ")"])) term
  | unit : Reads 13 [.punct "(", .punct ")"] (.tuple [])
  | tuple {stream inner : Stream} {first : Term} {rest : List Term}
      (firstRead : Reads 0 stream first) (restRead : Items inner rest) :
      Reads 13 (.punct "(" :: (stream ++ .punct "," :: (inner ++ [.punct ")"])))
        (.tuple (first :: rest))
  | bang {opening closing : String} {inner : Stream} {arguments : List Term} (name : String)
      (known : (opening, closing) ∈ bangDelimiters) (argumentsRead : Items inner arguments) :
      Reads 13 (identifier name :: .punct "!" :: .punct opening :: (inner ++ [.punct closing]))
        (.bang name arguments)
  | name (text : String) : Reads 14 [identifier text] (.path [text])
  | scoped {stream : Stream} {parts : List String} (text : String)
      (read : Reads 14 stream (.path parts)) :
      Reads 14 (stream ++ [.punct "::", identifier text]) (.path (parts ++ [text]))

/-- Expressions with commas between them, and maybe one behind the last. -/
inductive Items : Stream → List Term → Prop where
  | nil : Items [] []
  | last {stream : Stream} {term : Term} (read : Reads 0 stream term) : Items stream [term]
  | cons {stream rest : Stream} {term : Term} {terms : List Term} (read : Reads 0 stream term)
      (restRead : Items rest terms) : Items (stream ++ .punct "," :: rest) (term :: terms)

end

/-- What is read at a level is read at every lower level. -/
theorem Reads.weaken_of_le {level least : Nat} {stream : Stream} {term : Term}
    (read : Reads level stream term) (bound : least ≤ level) : Reads least stream term := by
  induction bound with
  | refl => exact read
  | step _ inductionHypothesis => exact inductionHypothesis read.weaken

/-! ### How a stream goes on -/

/-- What a token makes of the expression before it. -/
inductive Join where
  | sign (text : String) (level : Nat)
  | cast
  | dot
  | index
  | call
  | scope
  | bang

namespace Join

/-- The level that an expression must have to be continued. -/
def level : Join → Nat
  | .sign _ level => level
  | .cast => 10
  | .dot => 12
  | .index => 12
  | .call => 13
  | .scope => 14
  | .bang => 14

/-- How a piece of punctuation continues an expression. -/
def ofSign? (text : String) : Option Join :=
  if text = "." then some .dot
  else if text = "[" then some .index
  else if text = "(" then some .call
  else if text = "::" then some .scope
  else if text = "!" then some .bang
  else (infixLevel? text).map (.sign text)

/-- How a token continues an expression. -/
def of? (token : Token) : Option Join :=
  match token.kind with
  | .punct => ofSign? token.text
  | .keyword => if token.text = "as" then some .cast else none
  | _ => none

theorem of?_sign {sign : String} {level : Nat} (known : infixLevel? sign = some level) :
    of? (.punct sign) = some (.sign sign level) := by
  have other {text : String} (unknown : infixLevel? text = none) : sign ≠ text := by
    rintro rfl
    rw [unknown] at known
    cases known
  change ofSign? sign = _
  rw [ofSign?, if_neg (other (by decide)), if_neg (other (by decide)), if_neg (other (by decide)),
    if_neg (other (by decide)), if_neg (other (by decide)), known]
  rfl

/-- A sign in front of an operand is no join, so the level of such signs has none. -/
theorem level_ne {token : Token} {join : Join} (continues : of? token = some join) :
    join.level ≠ 11 := by
  unfold of? at continues
  split at continues
  · unfold ofSign? at continues
    split_ifs at continues
    case neg =>
      obtain ⟨level, known, rfl⟩ := Option.map_eq_some_iff.mp continues
      exact Nat.ne_of_lt (Nat.lt_of_le_of_lt (infixLevel?_le known) (by decide))
    all_goals
      cases continues
      decide
  · split at continues
    · cases continues
      decide
    · cases continues
  · cases continues

end Join

/-- Whether a stream does not continue an expression before it at this level or a tighter one. -/
def Ends (level : Nat) (rest : Stream) : Prop :=
  ∀ token ∈ rest.head?, ∀ join ∈ Join.of? token, join.level < level

/-- What ends an expression ends every expression that binds more tightly. -/
theorem Ends.mono {level higher : Nat} {rest : Stream} (ends : Ends level rest)
    (bound : level ≤ higher) : Ends higher rest :=
  fun token isFirst join continues => Nat.lt_of_lt_of_le (ends token isFirst join continues) bound

theorem Ends.eleven {rest : Stream} (ends : Ends 12 rest) : Ends 11 rest :=
  fun token isFirst join continues =>
    Nat.lt_of_le_of_ne (Nat.le_of_lt_succ (ends token isFirst join continues))
      (Join.level_ne continues)

theorem ends_nil (level : Nat) : Ends level [] := nofun

/-- A token that binds less tightly ends an expression. -/
theorem ends_cons {level : Nat} {token : Token} {rest : Stream} {join : Join}
    (continues : Join.of? token = some join) (below : join.level < level) :
    Ends level (token :: rest) := by
  rintro _ ⟨⟩ other otherContinues
  rw [continues] at otherContinues
  cases otherContinues
  exact below

/-- A token that continues nothing ends every expression. -/
theorem ends_of_none {level : Nat} {token : Token} {rest : Stream} (stops : Join.of? token = none) :
    Ends level (token :: rest) := by
  rintro _ ⟨⟩ other otherContinues
  rw [stops] at otherContinues
  cases otherContinues

/-! ### The reader -/

mutual

/-- Reads an expression of at least the given level, with so much fuel. -/
def readExpr : Nat → Nat → Stream → Option (Term × Stream)
  | 0, _, _ => none
  | _ + 1, _, [] => none
  | fuel + 1, level, token :: rest =>
    match token.kind with
    | .literal => readMore fuel level (.literal token.text) rest
    | .ident => readMore fuel level (.path [token.text]) rest
    | .keyword => readMore fuel level (.truth (token.text = "true")) rest
    | .punct =>
      if token.text = "(" then
        if rest.head? = some (.punct ")") then readMore fuel level (.tuple []) rest.tail
        else do
          let (first, rest) ← readExpr fuel 0 rest
          if rest.head? = some (.punct ",") then do
            let (others, rest) ← readItems fuel (.punct ")") rest.tail
            readMore fuel level (.tuple (first :: others)) rest
          else readMore fuel level first rest.tail
      else do
        let (operand, rest) ← readExpr fuel 11 rest
        readMore fuel level (.unary token.text operand) rest
    | _ => none

/-- Reads on behind an expression, as long as what follows binds tightly enough. -/
def readMore : Nat → Nat → Term → Stream → Option (Term × Stream)
  | 0, _, _, _ => none
  | _ + 1, _, left, [] => some (left, [])
  | fuel + 1, level, left, token :: rest =>
    match Join.of? token with
    | none => some (left, token :: rest)
    | some join =>
      if join.level < level then some (left, token :: rest)
      else
        match join, left, rest with
        | .sign sign signLevel, left, rest => do
          let (right, rest) ← readExpr fuel (signLevel + 1) rest
          readMore fuel level (.binary sign left right) rest
        | .cast, left, type :: rest => readMore fuel level (.cast left type.text) rest
        | .dot, left, name :: rest =>
          if name = .keyword "await" then readMore fuel level (.await left) rest
          else if rest.head? = some (.punct "(") then do
            let (arguments, rest) ← readItems fuel (.punct ")") rest.tail
            readMore fuel level (.method left name.text arguments) rest
          else readMore fuel level (.field left name.text) rest
        | .index, left, rest => do
          let (index, rest) ← readExpr fuel 0 rest
          readMore fuel level (.index left index) rest.tail
        | .call, left, rest => do
          let (arguments, rest) ← readItems fuel (.punct ")") rest
          readMore fuel level (.call left arguments) rest
        | .scope, .path parts, part :: rest =>
          readMore fuel level (.path (parts ++ [part.text])) rest
        | .bang, .path [name], opening :: rest => do
          let closing := if opening = .punct "(" then ")" else "]"
          let (arguments, rest) ← readItems fuel (.punct closing) rest
          readMore fuel level (.bang name arguments) rest
        | _, _, _ => none

/-- Reads expressions with commas between them up to the given token. -/
def readItems : Nat → Token → Stream → Option (List Term × Stream)
  | 0, _, _ => none
  | _ + 1, _, [] => none
  | fuel + 1, closing, token :: rest =>
    if token = closing then some ([], rest)
    else do
      let (first, rest) ← readExpr fuel 0 (token :: rest)
      if rest.head? = some (.punct ",") then do
        let (others, rest) ← readItems fuel closing rest.tail
        return (first :: others, rest)
      else return ([first], rest.tail)

end

/-- Whether something holds with enough fuel. -/
def Settled (holds : Nat → Prop) : Prop :=
  ∃ least, ∀ fuel, least ≤ fuel → holds fuel

namespace Settled

variable {first second next : Nat → Prop}

/-- What holds for all large enough amounts of fuel still does after a step that takes one. -/
theorem step (settled : Settled first) (follows : ∀ fuel, first fuel → next (fuel + 1)) :
    Settled next := by
  obtain ⟨least, always⟩ := settled
  refine ⟨least + 1, fun fuel bound => ?_⟩
  obtain ⟨fuel, rfl⟩ := Nat.exists_eq_add_of_le' (Nat.le_trans (Nat.le_add_left 1 least) bound)
  exact follows fuel (always fuel (Nat.le_of_succ_le_succ bound))

theorem both (firstSettled : Settled first) (secondSettled : Settled second) :
    Settled fun fuel => first fuel ∧ second fuel := by
  obtain ⟨least, always⟩ := firstSettled
  obtain ⟨otherLeast, otherAlways⟩ := secondSettled
  exact ⟨max least otherLeast, fun fuel bound =>
    ⟨always fuel (Nat.le_trans (Nat.le_max_left ..) bound),
      otherAlways fuel (Nat.le_trans (Nat.le_max_right ..) bound)⟩⟩

theorem start (holds : ∀ fuel, next (fuel + 1)) : Settled next :=
  step ⟨0, fun _ _ => trivial⟩ fun fuel _ => holds fuel

end Settled

/-- Reading an expression gives this term and leaves this rest. -/
def FindsExpr (level : Nat) (stream : Stream) (term : Term) (rest : Stream) : Prop :=
  Settled fun fuel => readExpr fuel level stream = some (term, rest)

/-- Reading on behind an expression gives this term and leaves this rest. -/
def FindsMore (level : Nat) (left : Term) (stream : Stream) (term : Term) (rest : Stream) : Prop :=
  Settled fun fuel => readMore fuel level left stream = some (term, rest)

/-- Reading expressions up to a token gives these terms and leaves this rest. -/
def FindsItems (closing : Token) (stream : Stream) (terms : List Term) (rest : Stream) : Prop :=
  Settled fun fuel => readItems fuel closing stream = some (terms, rest)

/-! ### What the reader finds behind an expression -/

section

variable {level : Nat} {left term : Term} {stream rest : Stream}

/-- Where an expression ends, nothing more is found. -/
theorem findsMore_of_ends (ends : Ends level stream) : FindsMore level left stream left stream := by
  refine .start fun fuel => ?_
  cases stream with
  | nil => rfl
  | cons token later =>
    rw [readMore]
    cases continues : Join.of? token with
    | none => rfl
    | some join => simp [ends token rfl join continues]

/-- A sign that binds tightly enough takes the term so far as its left operand. -/
theorem findsMore_sign {sign : String} {signLevel : Nat} {right : Term} {later : Stream}
    (known : infixLevel? sign = some signLevel) (bound : level ≤ signLevel)
    (found : FindsExpr (signLevel + 1) stream right later)
    (more : FindsMore level (.binary sign left right) later term rest) :
    FindsMore level left (.punct sign :: stream) term rest := by
  refine (found.both more).step fun fuel ⟨found, more⟩ => ?_
  simp only [readMore, Join.of?_sign known, Join.level, Nat.not_lt.mpr bound, if_false, found]
  exact more

/-- A cast takes the term so far as its operand. -/
theorem findsMore_cast {type : String} (bound : level ≤ 10)
    (more : FindsMore level (.cast left type) stream term rest) :
    FindsMore level left (.keyword "as" :: identifier type :: stream) term rest := by
  refine more.step fun fuel more => ?_
  have opened : readMore (fuel + 1) level left (.keyword "as" :: identifier type :: stream) =
      if 10 < level then _ else readMore fuel level (.cast left type) stream := rfl
  rw [opened, if_neg (Nat.not_lt.mpr bound)]
  exact more

theorem findsMore_await (bound : level ≤ 12)
    (more : FindsMore level (.await left) stream term rest) :
    FindsMore level left (.punct "." :: .keyword "await" :: stream) term rest := by
  refine more.step fun fuel more => ?_
  have opened : readMore (fuel + 1) level left (.punct "." :: .keyword "await" :: stream) =
      if 12 < level then _ else readMore fuel level (.await left) stream := rfl
  rw [opened, if_neg (Nat.not_lt.mpr bound)]
  exact more

/-- A dot and a name are a field, unless a list of arguments follows. -/
theorem findsMore_field {name : String} (bound : level ≤ 12) (ends : Ends 13 stream)
    (more : FindsMore level (.field left name) stream term rest) :
    FindsMore level left (.punct "." :: identifier name :: stream) term rest := by
  refine more.step fun fuel more => ?_
  have notCall : stream.head? ≠ some (.punct "(") := fun opens =>
    absurd (ends (.punct "(") opens .call rfl) (Nat.lt_irrefl 13)
  have opened : readMore (fuel + 1) level left (.punct "." :: identifier name :: stream) =
      if 12 < level then _
      else if identifier name = .keyword "await" then _
      else if stream.head? = some (.punct "(") then _
      else readMore fuel level (.field left name) stream := rfl
  rw [opened, if_neg (Nat.not_lt.mpr bound), if_neg nofun, if_neg notCall]
  exact more

/-- A dot, a name and a list of arguments are a call of a method. -/
theorem findsMore_method {name : String} {arguments : List Term} {later : Stream}
    (bound : level ≤ 12) (found : FindsItems (.punct ")") stream arguments later)
    (more : FindsMore level (.method left name arguments) later term rest) :
    FindsMore level left (.punct "." :: identifier name :: .punct "(" :: stream) term rest := by
  refine (found.both more).step fun fuel ⟨found, more⟩ => ?_
  have opened : readMore (fuel + 1) level left
        (.punct "." :: identifier name :: .punct "(" :: stream) =
      if 12 < level then _
      else if identifier name = .keyword "await" then _
      else (do
        let (arguments, rest) ← readItems fuel (.punct ")") stream
        readMore fuel level (.method left name arguments) rest) := rfl
  rw [opened, if_neg (Nat.not_lt.mpr bound), if_neg nofun, found]
  exact more

theorem findsMore_index {index : Term} {later : Stream} (bound : level ≤ 12)
    (found : FindsExpr 0 stream index (.punct "]" :: later))
    (more : FindsMore level (.index left index) later term rest) :
    FindsMore level left (.punct "[" :: stream) term rest := by
  refine (found.both more).step fun fuel ⟨found, more⟩ => ?_
  have opened : readMore (fuel + 1) level left (.punct "[" :: stream) =
      if 12 < level then _
      else (do
        let (index, rest) ← readExpr fuel 0 stream
        readMore fuel level (.index left index) rest.tail) := rfl
  rw [opened, if_neg (Nat.not_lt.mpr bound), found]
  exact more

theorem findsMore_call {arguments : List Term} {later : Stream} (bound : level ≤ 12)
    (found : FindsItems (.punct ")") stream arguments later)
    (more : FindsMore level (.call left arguments) later term rest) :
    FindsMore level left (.punct "(" :: stream) term rest := by
  refine (found.both more).step fun fuel ⟨found, more⟩ => ?_
  have enough : ¬ 13 < level := by omega
  have opened : readMore (fuel + 1) level left (.punct "(" :: stream) =
      if 13 < level then _
      else (do
        let (arguments, rest) ← readItems fuel (.punct ")") stream
        readMore fuel level (.call left arguments) rest) := rfl
  rw [opened, if_neg enough, found]
  exact more

theorem findsMore_scope {parts : List String} {part : String} (bound : level ≤ 12)
    (more : FindsMore level (.path (parts ++ [part])) stream term rest) :
    FindsMore level (.path parts) (.punct "::" :: identifier part :: stream) term rest := by
  refine more.step fun fuel more => ?_
  have enough : ¬ 14 < level := by omega
  have opened : readMore (fuel + 1) level (.path parts)
        (.punct "::" :: identifier part :: stream) =
      if 14 < level then _ else readMore fuel level (.path (parts ++ [part])) stream := rfl
  rw [opened, if_neg enough]
  exact more

/-- A name and a bang are a macro call with any of its delimiters. -/
theorem findsMore_bang {name opening closing : String} {arguments : List Term} {later : Stream}
    (bound : level ≤ 12) (known : (opening, closing) ∈ bangDelimiters)
    (found : FindsItems (.punct closing) stream arguments later)
    (more : FindsMore level (.bang name arguments) later term rest) :
    FindsMore level (.path [name]) (.punct "!" :: .punct opening :: stream) term rest := by
  refine (found.both more).step fun fuel ⟨found, more⟩ => ?_
  have closes : (if Token.punct opening = .punct "(" then ")" else "]") = closing := by
    simp only [bangDelimiters, List.mem_cons, List.not_mem_nil, or_false, Prod.mk.injEq] at known
    obtain ⟨rfl, rfl⟩ | ⟨rfl, rfl⟩ := known <;> rfl
  have enough : ¬ 14 < level := by omega
  have opened : readMore (fuel + 1) level (.path [name])
        (.punct "!" :: .punct opening :: stream) =
      if 14 < level then _
      else (do
        let (arguments, rest) ← readItems fuel
          (.punct (if Token.punct opening = .punct "(" then ")" else "]")) stream
        readMore fuel level (.bang name arguments) rest) := rfl
  rw [opened, if_neg enough, closes, found]
  exact more

end

/-! ### What the reader finds in front -/

section

variable {level : Nat} {term : Term} {stream rest : Stream}

theorem findsExpr_literal {text : String}
    (more : FindsMore level (.literal text) stream term rest) :
    FindsExpr level (.literal text :: stream) term rest :=
  more.step fun _ more => more

theorem findsExpr_name {text : String} (more : FindsMore level (.path [text]) stream term rest) :
    FindsExpr level (identifier text :: stream) term rest :=
  more.step fun _ more => more

theorem findsExpr_true (more : FindsMore level (.truth true) stream term rest) :
    FindsExpr level (.keyword "true" :: stream) term rest :=
  more.step fun _ more => more

theorem findsExpr_false (more : FindsMore level (.truth false) stream term rest) :
    FindsExpr level (.keyword "false" :: stream) term rest :=
  more.step fun _ more => more

/-- A sign in front takes an operand that binds tightly enough. -/
theorem findsExpr_unary {sign : String} {operand : Term} {later : Stream}
    (known : sign ∈ frontSigns) (found : FindsExpr 11 stream operand later)
    (more : FindsMore level (.unary sign operand) later term rest) :
    FindsExpr level (.punct sign :: stream) term rest := by
  refine (found.both more).step fun fuel ⟨found, more⟩ => ?_
  have notGroup : sign ≠ "(" := by
    rintro rfl
    exact absurd known (by decide)
  have opened : readExpr (fuel + 1) level (.punct sign :: stream) =
      if sign = "(" then _
      else (do
        let (operand, rest) ← readExpr fuel 11 stream
        readMore fuel level (.unary sign operand) rest) := rfl
  rw [opened, if_neg notGroup, found]
  exact more

theorem findsExpr_unit (more : FindsMore level (.tuple []) stream term rest) :
    FindsExpr level (.punct "(" :: .punct ")" :: stream) term rest :=
  more.step fun _ more => more

/-- What opens with a parenthesis and is not empty starts with an expression. -/
theorem readExpr_group {fuel : Nat} (nonempty : stream.head? ≠ some (.punct ")")) :
    readExpr (fuel + 1) level (.punct "(" :: stream) = (do
      let (first, rest) ← readExpr fuel 0 stream
      if rest.head? = some (.punct ",") then do
        let (others, rest) ← readItems fuel (.punct ")") rest.tail
        readMore fuel level (.tuple (first :: others)) rest
      else readMore fuel level first rest.tail) :=
  if_neg nonempty

/-- An expression in parentheses is read as itself. -/
theorem findsExpr_group {inner : Term} {later : Stream}
    (nonempty : stream.head? ≠ some (.punct ")"))
    (found : FindsExpr 0 stream inner (.punct ")" :: later))
    (more : FindsMore level inner later term rest) :
    FindsExpr level (.punct "(" :: stream) term rest := by
  refine (found.both more).step fun fuel ⟨found, more⟩ => ?_
  rw [readExpr_group nonempty, found]
  exact more

/-- A comma in parentheses makes a tuple. -/
theorem findsExpr_tuple {first : Term} {others : List Term} {inner later : Stream}
    (nonempty : stream.head? ≠ some (.punct ")"))
    (found : FindsExpr 0 stream first (.punct "," :: inner))
    (foundOthers : FindsItems (.punct ")") inner others later)
    (more : FindsMore level (.tuple (first :: others)) later term rest) :
    FindsExpr level (.punct "(" :: stream) term rest := by
  refine ((found.both foundOthers).both more).step fun fuel ⟨⟨found, foundOthers⟩, more⟩ => ?_
  have opened : readExpr (fuel + 1) level (.punct "(" :: stream) = (do
      let (others, rest) ← readItems fuel (.punct ")") inner
      readMore fuel level (.tuple (first :: others)) rest) := by
    rw [readExpr_group nonempty, found]
    rfl
  rw [opened, foundOthers]
  exact more

end

/-! ### What the reader finds up to a token -/

section

variable {closing : Token} {first : Term} {stream rest : Stream}

theorem findsItems_nil : FindsItems closing (closing :: rest) [] rest := by
  refine .start fun fuel => ?_
  simp only [readItems, if_true]

/-- An expression is never read from nothing. -/
theorem exists_cons_of_read {fuel level : Nat} {result : Term × Stream}
    (found : readExpr fuel level stream = some result) (nonempty : stream.head? ≠ some closing) :
    ∃ token later, stream = token :: later ∧ token ≠ closing := by
  cases stream with
  | nil => cases fuel <;> cases found
  | cons token later => exact ⟨token, later, rfl, fun same => nonempty (congrArg some same)⟩

/-- The last item of a list stands before the closing delimiter. -/
theorem findsItems_last (other : closing ≠ .punct ",") (nonempty : stream.head? ≠ some closing)
    (found : FindsExpr 0 stream first (closing :: rest)) :
    FindsItems closing stream [first] rest := by
  refine found.step fun fuel found => ?_
  obtain ⟨token, later, rfl, different⟩ := exists_cons_of_read found nonempty
  have noComma : (closing :: rest).head? ≠ some (.punct ",") := fun same =>
    other (Option.some.inj same)
  simp only [readItems, different, if_false, found]
  simp only [bind, Option.bind, noComma, if_false]
  rfl

/-- An item before a comma stands before the other items. -/
theorem findsItems_cons {others : List Term} {inner : Stream}
    (nonempty : stream.head? ≠ some closing)
    (found : FindsExpr 0 stream first (.punct "," :: inner))
    (foundOthers : FindsItems closing inner others rest) :
    FindsItems closing stream (first :: others) rest := by
  refine (found.both foundOthers).step fun fuel ⟨found, foundOthers⟩ => ?_
  obtain ⟨token, later, rfl, different⟩ := exists_cons_of_read found nonempty
  have opened : readItems (fuel + 1) closing (token :: later) = (do
      let (others, rest) ← readItems fuel closing inner
      return (first :: others, rest)) := by
    simp only [readItems, different, if_false, found]
    rfl
  rw [opened, foundOthers]
  rfl

end

/-! ### The grammar is unambiguous -/

/-- Whether a token closes what a reader has opened. -/
def isClosing (token : Token) : Bool :=
  token = .punct ")" || token = .punct "]"

theorem eq_of_isClosing {token : Token} (closes : isClosing token) :
    token = .punct ")" ∨ token = .punct "]" := by
  rwa [isClosing, Bool.or_eq_true, decide_eq_true_iff, decide_eq_true_iff] at closes

/-- A closing delimiter continues no expression. -/
theorem join_of_isClosing {token : Token} (closes : isClosing token) : Join.of? token = none := by
  obtain rfl | rfl := eq_of_isClosing closes <;> rfl

theorem ne_comma_of_isClosing {token : Token} (closes : isClosing token) :
    token ≠ .punct "," := by
  obtain rfl | rfl := eq_of_isClosing closes <;> decide

theorem isClosing_of_mem_bangDelimiters {opening closing : String}
    (known : (opening, closing) ∈ bangDelimiters) : isClosing (.punct closing) := by
  have all : ∀ pair ∈ bangDelimiters, isClosing (.punct pair.2) := by decide
  exact all _ known

/-- An expression does not start with a token that closes something. -/
theorem Reads.head_isClosing : {level : Nat} → {stream : Stream} → {term : Term} →
    Reads level stream term → ∃ token rest, stream = token :: rest ∧ ¬ isClosing token
  | _, _, _, .weaken read => read.head_isClosing
  | _, _, _, .binary _ read _ => by
    obtain ⟨token, rest, rfl, opens⟩ := read.head_isClosing
    exact ⟨token, _, rfl, opens⟩
  | _, _, _, .cast _ read => by
    obtain ⟨token, rest, rfl, opens⟩ := read.head_isClosing
    exact ⟨token, _, rfl, opens⟩
  | _, _, _, .field _ read => by
    obtain ⟨token, rest, rfl, opens⟩ := read.head_isClosing
    exact ⟨token, _, rfl, opens⟩
  | _, _, _, .method _ read _ => by
    obtain ⟨token, rest, rfl, opens⟩ := read.head_isClosing
    exact ⟨token, _, rfl, opens⟩
  | _, _, _, .call read _ => by
    obtain ⟨token, rest, rfl, opens⟩ := read.head_isClosing
    exact ⟨token, _, rfl, opens⟩
  | _, _, _, .index read _ => by
    obtain ⟨token, rest, rfl, opens⟩ := read.head_isClosing
    exact ⟨token, _, rfl, opens⟩
  | _, _, _, .await read => by
    obtain ⟨token, rest, rfl, opens⟩ := read.head_isClosing
    exact ⟨token, _, rfl, opens⟩
  | _, _, _, .scoped _ read => by
    obtain ⟨token, rest, rfl, opens⟩ := read.head_isClosing
    exact ⟨token, _, rfl, opens⟩
  | _, _, _, .unary known _ => by
    have opens : ∀ sign ∈ frontSigns, ¬ isClosing (.punct sign) := by decide
    exact ⟨_, _, rfl, opens _ known⟩
  | _, _, _, .literal _ => ⟨_, _, rfl, by simp [isClosing, Token.literal, Token.punct]⟩
  | _, _, _, .trueWord => ⟨_, _, rfl, by decide⟩
  | _, _, _, .falseWord => ⟨_, _, rfl, by decide⟩
  | _, _, _, .group _ => ⟨_, _, rfl, by decide⟩
  | _, _, _, .unit => ⟨_, _, rfl, by decide⟩
  | _, _, _, .tuple _ _ => ⟨_, _, rfl, by decide⟩
  | _, _, _, .bang _ _ _ => ⟨_, _, rfl, by simp [isClosing, identifier, Token.punct]⟩
  | _, _, _, .name _ => ⟨_, _, rfl, by simp [isClosing, identifier, Token.punct]⟩

/-- Behind an expression, a token that closes something is not the first one. -/
theorem Reads.head?_append_ne {level : Nat} {stream rest : Stream} {term : Term} {closing : Token}
    (read : Reads level stream term) (closes : isClosing closing) :
    (stream ++ rest).head? ≠ some closing := by
  obtain ⟨token, later, rfl, opens⟩ := read.head_isClosing
  rintro ⟨⟩
  exact opens closes

mutual

/-- The reader finds what the grammar reads, and goes on behind it. -/
theorem Reads.found : {level : Nat} → {stream : Stream} → {term : Term} →
    Reads level stream term → ∀ {least : Nat} {rest : Stream} {result : Term} {later : Stream},
      least ≤ level → least ≤ 12 → Ends (level + 1) rest →
        FindsMore least term rest result later → FindsExpr least (stream ++ rest) result later
  | _, _, _, .weaken read, _, _, _, _, bound, low, ends, more =>
    read.found (Nat.le_succ_of_le bound) low (ends.mono (Nat.le_succ _)) more
  | _, _, _, .binary known leftRead rightRead, _, _, _, _, bound, low, ends, more => by
    have rightLow := Nat.succ_le_succ (infixLevel?_le known)
    have rightFound := rightRead.found (Nat.le_refl _) (Nat.le_trans rightLow (by decide))
      (ends.mono (Nat.le_succ _)) (findsMore_of_ends ends)
    rw [List.append_assoc, List.cons_append]
    refine leftRead.found (Nat.le_trans bound (le_leftLevel _)) low ?_
      (findsMore_sign known bound rightFound more)
    exact ends_cons (Join.of?_sign known) (Nat.lt_succ_of_le (le_leftLevel _))
  | _, _, _, .cast type read, _, _, _, _, bound, low, ends, more => by
    rw [List.append_assoc]
    refine read.found bound low ?_ (findsMore_cast bound more)
    exact @ends_cons _ _ _ .cast rfl (by decide)
  | _, _, _, .unary known read, _, _, _, _, bound, low, ends, more =>
    findsExpr_unary known
      (read.found (Nat.le_refl _) (by decide) ends (findsMore_of_ends ends.eleven)) more
  | _, _, _, .field name read, _, _, _, _, bound, low, ends, more => by
    rw [List.append_assoc]
    refine read.found low low ?_ (findsMore_field low ends more)
    exact @ends_cons _ _ _ .dot rfl (by decide)
  | _, _, _, .method name read argumentsRead, _, _, _, _, _, low, _, more => by
    rw [List.append_assoc, List.cons_append, List.cons_append, List.cons_append, List.append_assoc]
    refine read.found low low ?_ (findsMore_method low (argumentsRead.found (by decide)) more)
    exact @ends_cons _ _ _ .dot rfl (by decide)
  | _, _, _, .call read argumentsRead, _, _, _, _, bound, low, _, more => by
    rw [List.append_assoc, List.cons_append, List.append_assoc]
    refine read.found bound low ?_ (findsMore_call low (argumentsRead.found (by decide)) more)
    exact @ends_cons _ _ _ .call rfl (by decide)
  | _, _, _, .index read indexRead, _, _, _, _, _, low, _, more => by
    rw [List.append_assoc, List.cons_append, List.append_assoc]
    refine read.found low low ?_
      (findsMore_index low (indexRead.found (Nat.le_refl 0) (by decide) ?_ ?_) more)
    · exact @ends_cons _ _ _ .index rfl (by decide)
    · exact ends_of_none rfl
    · exact findsMore_of_ends (ends_of_none rfl)
  | _, _, _, .await read, _, _, _, _, _, low, _, more => by
    rw [List.append_assoc]
    refine read.found low low ?_ (findsMore_await low more)
    exact @ends_cons _ _ _ .dot rfl (by decide)
  | _, _, _, .literal _, _, _, _, _, _, _, _, more => findsExpr_literal more
  | _, _, _, .trueWord, _, _, _, _, _, _, _, more => findsExpr_true more
  | _, _, _, .falseWord, _, _, _, _, _, _, _, more => findsExpr_false more
  | _, _, _, .group read, _, _, _, _, _, _, _, more => by
    rw [List.cons_append, List.append_assoc]
    refine findsExpr_group (read.head?_append_ne (by decide))
      (read.found (Nat.le_refl 0) (by decide) ?_ ?_) more
    · exact ends_of_none rfl
    · exact findsMore_of_ends (ends_of_none rfl)
  | _, _, _, .unit, _, _, _, _, _, _, _, more => findsExpr_unit more
  | _, _, _, .tuple read restRead, _, _, _, _, _, _, _, more => by
    rw [List.cons_append, List.append_assoc, List.cons_append, List.append_assoc]
    refine findsExpr_tuple (read.head?_append_ne (by decide))
      (read.found (Nat.le_refl 0) (by decide) ?_ ?_) (restRead.found (by decide)) more
    · exact ends_of_none rfl
    · exact findsMore_of_ends (ends_of_none rfl)
  | _, _, _, .bang name known argumentsRead, _, _, _, _, _, low, _, more => by
    rw [List.cons_append, List.cons_append, List.cons_append, List.append_assoc]
    exact findsExpr_name (findsMore_bang low known
      (argumentsRead.found (isClosing_of_mem_bangDelimiters known)) more)
  | _, _, _, .name text, _, _, _, _, _, _, _, more => findsExpr_name more
  | _, _, _, .scoped text read, _, _, _, _, bound, low, _, more => by
    rw [List.append_assoc]
    refine read.found bound low ?_ (findsMore_scope low more)
    exact @ends_cons _ _ _ .scope rfl (by decide)

/-- The reader finds the expressions of a list up to the token that closes it. -/
theorem Items.found : {stream : Stream} → {terms : List Term} → Items stream terms →
    ∀ {closing : Token} {rest : Stream}, isClosing closing →
      FindsItems closing (stream ++ closing :: rest) terms rest
  | _, _, .nil, _, _, _ => findsItems_nil
  | _, _, .last read, _, _, closes => by
    refine findsItems_last ?_ (read.head?_append_ne closes)
      (read.found (Nat.le_refl 0) (by decide) ?_ ?_)
    · exact ne_comma_of_isClosing closes
    · exact ends_of_none (join_of_isClosing closes)
    · exact findsMore_of_ends (ends_of_none (join_of_isClosing closes))
  | _, _, .cons read restRead, _, _, closes => by
    rw [List.append_assoc, List.cons_append]
    refine findsItems_cons (read.head?_append_ne closes)
      (read.found (Nat.le_refl 0) (by decide) ?_ ?_) (restRead.found closes)
    · exact ends_of_none rfl
    · exact findsMore_of_ends (ends_of_none rfl)

end

/-- A derivation in the grammar is found by the parser, with nothing left over. -/
theorem Reads.findsExpr {stream : Stream} {term : Term} (read : Reads 0 stream term) :
    FindsExpr 0 stream term [] := by
  have found := read.found (Nat.le_refl 0) (by decide) (ends_nil 1) (findsMore_of_ends (ends_nil 0))
  rwa [List.append_nil] at found

/-- No stream is read as two different terms. -/
theorem Reads.unique {stream : Stream} {first second : Term} (firstRead : Reads 0 stream first)
    (secondRead : Reads 0 stream second) : first = second := by
  obtain ⟨least, settled⟩ := firstRead.findsExpr.both secondRead.findsExpr
  obtain ⟨firstFound, secondFound⟩ := settled least (Nat.le_refl least)
  rw [firstFound] at secondFound
  cases secondFound
  rfl

end Grammar

end Oxide
