/-
This file counts how often a name is written. Wherever an expression has a name, its stream has one
identifier for it, with one exception: an operand that stands between two comparisons of a chain
belongs to both of them, and all that it holds is written twice. An assignment whose operator is a
method writes its place twice in the same way. So the names of a repeated operand, and the calls
that they belong to, occur more often in what is written than in what was read, and no others do.
-/

import Oxide.Proofs.IntegerArithmetic
import Oxide.Proofs.StmtEmission

namespace Oxide

/-! ### Identifiers of a stream -/

namespace Stream

/-- How often a stream has an identifier. -/
def identCount (text : String) (stream : Stream) : Nat :=
  stream.countP fun token => token.kind = .ident && token.text = text

section

variable {text : String}

@[simp] theorem identCount_nil : identCount text [] = 0 := rfl

@[simp] theorem identCount_append (first second : Stream) :
    identCount text (first ++ second) = identCount text first + identCount text second :=
  List.countP_append

@[simp] theorem identCount_join (stream : Stream) :
    identCount text (join stream) = identCount text stream := by
  fun_induction join stream with
  | case1 => rfl
  | case2 last => rfl
  | case3 token next rest inductionHypothesis =>
    rw [← List.singleton_append, identCount_append, inductionHypothesis, ← identCount_append,
      List.singleton_append]

@[simp] theorem identCount_punct (stream : Stream) (sign : String) :
    identCount text (stream.punct sign) = identCount text stream :=
  identCount_append stream _

@[simp] theorem identCount_keyword (stream : Stream) (word : String) :
    identCount text (stream.keyword word) = identCount text stream :=
  identCount_append stream _

@[simp] theorem identCount_literal (stream : Stream) (spelled : String) :
    identCount text (stream.literal spelled) = identCount text stream :=
  identCount_append stream _

@[simp] theorem identCount_str (stream : Stream) (value : String) :
    identCount text (stream.str value) = identCount text stream :=
  identCount_literal stream _

/-- An identifier is counted if it is spelled as the name is. -/
theorem identCount_ident (stream : Stream) (name : String) :
    identCount text (stream.ident name) =
      identCount text stream + if identName name = text then 1 else 0 := by
  rw [ident, identCount_append]
  by_cases same : identName name = text
  · simp [identCount, same]
  · simp [identCount, same]

@[simp] theorem identCount_group (stream : Stream) (opening closing : String) (inner : Stream) :
    identCount text (stream.group opening closing inner) =
      identCount text stream + identCount text inner := by
  unfold group
  by_cases brace : opening = openBrace
  · simp [brace]
  · simp [brace]

/-- Signs between streams are no names. -/
@[simp] theorem identCount_separated (sign : String) (streams : List Stream) :
    identCount text (Lower.separated sign streams) = (streams.map (identCount text)).sum := by
  fun_induction Lower.separated sign streams with
  | case1 => rfl
  | case2 last => simp
  | case3 first next rest inductionHypothesis => simp [inductionHypothesis]

@[simp] theorem identCount_comma (streams : List Stream) :
    identCount text (comma streams) = (streams.map (identCount text)).sum := by
  rw [comma_eq_separated, identCount_separated]

@[simp] theorem identCount_parenthesized (stream : Stream) :
    identCount text (Lower.parenthesized stream) = identCount text stream := by
  simp [Lower.parenthesized]

@[simp] theorem identCount_dotted (stream : Stream) :
    identCount text (Lower.dotted stream) = identCount text stream := by
  simp [Lower.dotted]

@[simp] theorem identCount_operand (value : Expr) (stream : Stream) :
    identCount text (Lower.operand value stream) = identCount text stream := by
  unfold Lower.operand
  split
  · exact identCount_parenthesized stream
  · rfl

end

end Stream

/-! ### Names of an expression -/

/-- How often an expression has a name. -/
def Expr.occurrences (id : String) (value : Expr) : Nat :=
  value.nodes.countP (Expr.isName id)

mutual

/-- How often a name is written for an expression, where a chain of comparisons writes every operand
between two of them twice. -/
def Expr.writings (id : String) : Expr → Nat
  | .name other => if other = id then 1 else 0
  | .binOp left _ right => left.writings id + right.writings id
  | .unaryOp _ value => value.writings id
  | .boolOp _ values => writingsOf id values
  | .compare left _ comparators => left.writings id + writingsInChain id comparators
  | .call function arguments _ => function.writings id + writingsOf id arguments
  | .attribute value _ => value.writings id
  | .subscript value slice => value.writings id + slice.writings id
  | .list items => writingsOf id items
  | .tuple items => writingsOf id items
  | .await value => value.writings id
  | _ => 0

/-- How often a name is written for several expressions. -/
def Expr.writingsOf (id : String) : List Expr → Nat
  | [] => 0
  | first :: rest => first.writings id + writingsOf id rest

/-- How often a name is written for the operands of a chain behind the first one. -/
def Expr.writingsInChain (id : String) : List Expr → Nat
  | [] => 0
  | [last] => last.writings id
  | operand :: next :: rest => 2 * operand.writings id + writingsInChain id (next :: rest)

end

namespace Lower

/-! ### Names that are written as they are -/

/-- The functions that are known by their names, unless something else is bound to these. -/
def knownFunctions : List String := ["print", "len", "str", "range"]

/-- The identifiers that expressions are written with of themselves. -/
def introducedNames : List String :=
  ["None", "f64", "INFINITY", "NEG_INFINITY", "NAN", "pow", "div_euclid", "contains", "is_none",
    "is_some", "println", "len", "to_string", "step_by", "usize", "vec"]

/-- Whether an identifier can only be there for a name: the name is its own identifier, it is none
that has a meaning of its own, and none that expressions are written with anyway. -/
structure Traceable (id : String) : Prop where
  notConstant : id ∉ constantNames
  notKnown : id ∉ knownFunctions
  notIntroduced : id ∉ introducedNames
  kept : identName id = id

/-- Whether a node has no field of the given name, and no other name becomes the same identifier. -/
def isApart (id : String) : Expr → Bool
  | .name other => identName other = id → other = id
  | .attribute _ attr => identName attr ≠ id
  | _ => true

variable {id : String}

/-- A traceable name is spelled as none of those that are introduced. -/
theorem Traceable.ne_of_mem (traceable : Traceable id) {name : String}
    (member : name ∈ introducedNames) : identName name ≠ id := by
  have own : ∀ name ∈ introducedNames, identName name = name := by decide
  rw [own name member]
  rintro rfl
  exact traceable.notIntroduced member

theorem identCount_introduced (traceable : Traceable id) {name : String}
    (member : name ∈ introducedNames) (stream : Stream) :
    (stream.ident name).identCount id = stream.identCount id := by
  rw [Stream.identCount_ident, if_neg (traceable.ne_of_mem member), Nat.add_zero]

/-- A method that is introduced leaves the count to its receiver and its arguments. -/
theorem identCount_method (traceable : Traceable id) {name : String}
    (member : name ∈ introducedNames) (receiver arguments : Stream) :
    (method receiver name arguments).identCount id =
      receiver.identCount id + arguments.identCount id := by
  simp [method, identCount_introduced traceable member]

theorem identCount_bang (traceable : Traceable id) {name : String}
    (member : name ∈ introducedNames) : (Stream.bang [] name).identCount id = 0 := by
  simp [Stream.bang, identCount_introduced traceable member]

theorem identCount_range (start stop : Stream) :
    (range start stop).identCount id = start.identCount id + stop.identCount id := by
  simp [range]

/-- A constant spells no traceable name. -/
theorem identCount_constant (traceable : Traceable id) (value : Constant) :
    (constant value).identCount id = 0 := by
  cases value with
  | none => exact identCount_introduced traceable (by decide) []
  | bool value => cases value <;> rfl
  | int text => rfl
  | str text => rfl
  | float text =>
    rw [constant, float]
    split
    · rename_i name named
      have isFloat : "f64" ∈ introducedNames := by decide
      have introduced : name ∈ introducedNames := by
        simp only [floatName?] at named
        split_ifs at named <;> cases named <;> decide
      simp [Stream.path, identCount_introduced traceable introduced,
        identCount_introduced traceable isFloat]
    · rfl

/-- A name is counted where it stands, and no other name is taken for it. -/
theorem identCount_name (traceable : Traceable id) {other : String}
    (apart : identName other = id → other = id) :
    (name other).identCount id = if other = id then 1 else 0 := by
  by_cases same : other = id
  · subst same
    have notTrue : other ≠ "True" := by
      rintro rfl
      exact traceable.notConstant (by decide)
    have notFalse : other ≠ "False" := by
      rintro rfl
      exact traceable.notConstant (by decide)
    have notNone : other ≠ "None" := by
      rintro rfl
      exact traceable.notConstant (by decide)
    rw [name, if_neg notTrue, if_neg notFalse, if_neg notNone, Stream.identCount_ident,
      if_pos traceable.kept, if_pos rfl]
    rfl
  · rw [if_neg same]
    unfold name
    split_ifs
    · exact identCount_constant traceable (.bool true)
    · exact identCount_constant traceable (.bool false)
    · exact identCount_constant traceable .none
    · rw [Stream.identCount_ident, if_neg fun written => same (apart written)]
      rfl

/-! ### Comparisons and calls -/

/-- An expression that stands for nothing holds no name. -/
theorem writings_of_isNone (traceable : Traceable id) {value : Expr} (nothing : value.isNone) :
    value.writings id = 0 := by
  unfold Expr.isNone at nothing
  split at nothing
  · rfl
  · rename_i other
    have other : other ≠ id := by
      rintro rfl
      rw [decide_eq_true_iff] at nothing
      subst nothing
      exact traceable.notConstant (by decide)
    rw [Expr.writings, if_neg other]
  · exact absurd nothing Bool.false_ne_true

/-- One comparison writes each of its operands once. -/
theorem identCount_comparison (traceable : Traceable id) {left right : Expr}
    {first second piece : Stream} {op : String}
    (compared : Comparison left first op right second piece)
    (leftCounted : first.identCount id = left.writings id)
    (rightCounted : second.identCount id = right.writings id) :
    piece.identCount id = left.writings id + right.writings id := by
  cases compared with
  | contains =>
    rw [identCount_method traceable (by decide)]
    simp [leftCounted, rightCounted, Nat.add_comm]
  | excludes =>
    rw [Stream.identCount_append, identCount_method traceable (by decide)]
    simp [leftCounted, rightCounted, Nat.add_comm]
  | isNone right second nothing =>
    rw [identCount_method traceable (by decide), writings_of_isNone traceable nothing]
    simp [leftCounted]
  | isSome right second nothing =>
    rw [identCount_method traceable (by decide), writings_of_isNone traceable nothing]
    simp [leftCounted]
  | signed => simp [leftCounted, rightCounted]

/-- A chain writes the operands between its ends twice. -/
theorem identCount_comparisons (traceable : Traceable id) {left right : Expr}
    {first : Stream} {ops : List String} {rights : List Expr} {streams pieces : List Stream}
    (compared : Comparisons left first ops (right :: rights) streams pieces)
    (leftCounted : first.identCount id = left.writings id)
    (rightsCounted : List.Forall₂ (fun right stream =>
      Stream.identCount id stream = right.writings id) (right :: rights) streams) :
    (pieces.map (Stream.identCount id)).sum =
      left.writings id + Expr.writingsInChain id (right :: rights) := by
  induction rights generalizing left first right ops streams pieces with
  | nil =>
    obtain _ | ⟨rightCounted, _⟩ := rightsCounted
    obtain _ | ⟨single, ⟨⟩⟩ := compared
    rw [List.map_singleton, List.sum_singleton, Expr.writingsInChain]
    exact identCount_comparison traceable single leftCounted rightCounted
  | cons next rights inductionHypothesis =>
    obtain _ | ⟨rightCounted, restCounted⟩ := rightsCounted
    obtain _ | ⟨single, rest⟩ := compared
    rw [List.map_cons, List.sum_cons, inductionHypothesis rest rightCounted restCounted,
      identCount_comparison traceable single leftCounted rightCounted, Expr.writingsInChain]
    omega

theorem identCount_conjunction (pieces : List Stream) :
    (conjunction pieces).identCount id = (pieces.map (Stream.identCount id)).sum := by
  unfold conjunction
  split
  · rw [List.map_singleton, List.sum_singleton]
  · rw [Stream.identCount_separated, List.map_map]
    congr 2
    funext piece
    exact Stream.identCount_parenthesized piece

/-- The call of a known function writes each of its arguments once. -/
theorem identCount_special (traceable : Traceable id) {table : Table} {function : Expr}
    {arguments : List Expr} {streams : List Stream} {stream : Stream}
    (known : SpecialCall table function arguments streams stream) :
    stream.identCount id = function.writings id + (streams.map (Stream.identCount id)).sum := by
  have unnamed {known : String} (member : known ∈ knownFunctions) :
      (Expr.name known).writings id = 0 := by
    rw [Expr.writings, if_neg]
    rintro rfl
    exact traceable.notKnown member
  cases known with
  | print =>
    rw [unnamed (by decide), printLine, Stream.identCount_group,
      identCount_bang traceable (by decide)]
    cases streams <;> simp
  | len =>
    rw [unnamed (by decide), identCount_method traceable (by decide)]
    simp
  | str =>
    rw [unnamed (by decide), identCount_method traceable (by decide)]
    simp
  | rangeTo =>
    rw [unnamed (by decide), identCount_range]
    simp
  | rangeFrom =>
    rw [unnamed (by decide), identCount_range]
    simp
  | rangeBy =>
    rw [unnamed (by decide), identCount_method traceable (by decide), identCount_range,
      identCount_introduced traceable (by decide)]
    simp [Nat.add_assoc]

/-! ### Expressions -/

/-- Whether the stream of an expression has the identifier as often as the name is to be written, if
nothing else in the expression has that identifier. -/
def Counted (id : String) (value : Expr) (stream : Stream) : Prop :=
  (∀ node ∈ value.nodes, isApart id node) → stream.identCount id = value.writings id

theorem counted_all {items : List Expr} {streams : List Stream}
    (all : List.Forall₂ (Counted id) items streams)
    (apart : ∀ node ∈ Expr.nodesOf items, isApart id node) :
    List.Forall₂ (fun item stream => Stream.identCount id stream = item.writings id) items
      streams := by
  induction all with
  | nil => exact .nil
  | cons counted _ inductionHypothesis =>
    rw [Expr.nodesOf, List.forall_mem_append] at apart
    exact .cons (counted apart.1) (inductionHypothesis apart.2)

/-- The names in several streams are counted as in their expressions. -/
theorem sum_identCount {items : List Expr} {streams : List Stream}
    (all : List.Forall₂ (Counted id) items streams)
    (apart : ∀ node ∈ Expr.nodesOf items, isApart id node) :
    (streams.map (Stream.identCount id)).sum = Expr.writingsOf id items := by
  have counted := counted_all all apart
  clear all apart
  induction counted with
  | nil => rfl
  | cons counted _ inductionHypothesis =>
    rw [List.map_cons, List.sum_cons, counted, inductionHypothesis, Expr.writingsOf]

theorem sum_identCount_operands {items : List Expr} {streams : List Stream}
    (same : items.length = streams.length) :
    ((List.zipWith operand items streams).map (Stream.identCount id)).sum =
      (streams.map (Stream.identCount id)).sum := by
  induction items generalizing streams with
  | nil =>
    obtain rfl := List.length_eq_zero_iff.mp same.symm
    rfl
  | cons item items inductionHypothesis =>
    obtain _ | ⟨stream, streams⟩ := streams
    · cases same
    rw [List.zipWith_cons_cons, List.map_cons, List.sum_cons, List.map_cons, List.sum_cons,
      Stream.identCount_operand, inductionHypothesis (Nat.succ.inj same)]

/-- The methods that stand for operators are names that are introduced. -/
theorem binaryMethod_mem_introducedNames {op name : String} (known : binaryMethod? op = some name) :
    name ∈ introducedNames := by
  unfold binaryMethod? at known
  split_ifs at known <;> cases known <;> decide

theorem identCount_unarySign {op : String} {sign : Stream} (known : unarySign? op = some sign) :
    sign.identCount id = 0 := by
  unfold unarySign? at known
  split_ifs at known <;> cases known <;> rfl

/-- The rules of emission write every name as often as it is to be written. -/
theorem countedRules (traceable : Traceable id) {context : Context} {table : Table} :
    ExprRules context table (Counted id) where
  constant value _ := identCount_constant traceable value
  name other apart := by
    have own := apart (.name other) List.mem_cons_self
    rw [isApart, decide_eq_true_iff] at own
    rw [identCount_name traceable own, Expr.writings]
  binaryMethod left op right name first second known leftCounted rightCounted apart := by
    rw [Expr.nodes, List.forall_mem_cons, List.forall_mem_append] at apart
    rw [identCount_method traceable (binaryMethod_mem_introducedNames known),
      Stream.identCount_operand, leftCounted apart.2.1, rightCounted apart.2.2, Expr.writings]
  binarySign left op right sign first second noMethod known leftCounted rightCounted apart := by
    rw [Expr.nodes, List.forall_mem_cons, List.forall_mem_append] at apart
    rw [Stream.identCount_append, Stream.identCount_punct, Stream.identCount_operand,
      Stream.identCount_operand, leftCounted apart.2.1, rightCounted apart.2.2, Expr.writings]
  unary op value sign stream known counted apart := by
    rw [Expr.nodes, List.forall_mem_cons] at apart
    rw [Stream.identCount_append, identCount_unarySign known, Stream.identCount_operand,
      counted apart.2, Expr.writings, Nat.zero_add]
  logical op values sign streams known counted apart := by
    rw [Expr.nodes, List.forall_mem_cons] at apart
    rw [Stream.identCount_separated, sum_identCount_operands counted.length_eq,
      sum_identCount counted apart.2, Expr.writings]
  compare left ops rights first streams pieces nonempty emitted leftCounted rightsCounted
      apart := by
    rw [Expr.nodes, List.forall_mem_cons, List.forall_mem_append] at apart
    rw [identCount_conjunction, Expr.writings]
    cases rights with
    | nil =>
      cases emitted
      exact absurd rfl nonempty
    | cons right rights =>
      exact identCount_comparisons traceable emitted (leftCounted apart.2.1)
        (counted_all rightsCounted apart.2.2)
  special function arguments streams stream known counted apart := by
    rw [Expr.nodes, List.forall_mem_cons, List.forall_mem_append] at apart
    rw [identCount_special traceable known, sum_identCount counted apart.2.2, Expr.writings]
  call function arguments callee streams unknown functionCounted counted apart := by
    rw [Expr.nodes, List.forall_mem_cons, List.forall_mem_append] at apart
    rw [Stream.identCount_group, Stream.identCount_join, Stream.identCount_join,
      Stream.identCount_operand, Stream.identCount_comma, functionCounted apart.2.1,
      sum_identCount counted apart.2.2, Expr.writings]
  field value attr stream counted apart := by
    rw [Expr.nodes, List.forall_mem_cons, isApart, decide_eq_true_iff] at apart
    rw [Stream.identCount_ident, Stream.identCount_dotted, Stream.identCount_operand,
      counted apart.2, if_neg apart.1, Expr.writings, Nat.add_zero]
  subscript value slice stream index valueCounted sliceCounted apart := by
    rw [Expr.nodes, List.forall_mem_cons, List.forall_mem_append] at apart
    rw [Stream.identCount_group, Stream.identCount_join, Stream.identCount_join,
      Stream.identCount_operand, valueCounted apart.2.1, sliceCounted apart.2.2, Expr.writings]
  list items streams counted apart := by
    rw [Expr.nodes, List.forall_mem_cons] at apart
    rw [Stream.identCount_group, Stream.identCount_join, Stream.identCount_comma,
      identCount_bang traceable (by decide), sum_identCount counted apart.2, Expr.writings,
      Nat.zero_add]
  tuple items streams counted apart := by
    rw [Expr.nodes, List.forall_mem_cons] at apart
    have inner : (if streams.length = 1 then (Stream.comma streams).punct ","
        else Stream.comma streams).identCount id = (Stream.comma streams).identCount id := by
      split
      · exact Stream.identCount_punct _ _
      · rfl
    rw [Stream.identCount_parenthesized, inner, Stream.identCount_comma,
      sum_identCount counted apart.2, Expr.writings]
  await value stream waiting counted apart := by
    rw [Expr.nodes, List.forall_mem_cons] at apart
    rw [Stream.identCount_keyword, Stream.identCount_dotted, Stream.identCount_operand,
      counted apart.2, Expr.writings]

/-! ### Names that are written more often than they occur -/

/-- The operands of a node that stand between two comparisons. -/
def sharedOperands : Expr → List Expr
  | .compare _ _ comparators => comparators.dropLast
  | _ => []

/-- Whether a node shares no operand that holds the name. -/
def Unshared (id : String) (node : Expr) : Prop :=
  ∀ operand ∈ sharedOperands node, .name id ∉ operand.nodes

theorem isName_iff {node : Expr} : node.isName id ↔ node = .name id := by
  cases node <;> simp [Expr.isName]

/-- A name that does not occur is counted zero times. -/
theorem not_mem_nodes_iff {nodes : List Expr} :
    .name id ∉ nodes ↔ nodes.countP (Expr.isName id) = 0 := by
  rw [List.countP_eq_zero]
  constructor
  · intro absent node member named
    rw [isName_iff] at named
    exact absent (named ▸ member)
  · exact fun none member => none _ member (isName_iff.mpr rfl)

/-- How often something is written, compared with how often it occurs: never if it does not occur,
and otherwise at least as often, and just as often if and only if a condition holds. -/
structure Tally (occurring written : Nat) (once : Prop) : Prop where
  least : occurring ≤ written
  none : occurring = 0 → written = 0
  exact_iff : written = occurring ↔ once

namespace Tally

variable {occurring written more others : Nat} {once also : Prop}

theorem zero (holds : once) : Tally 0 0 once :=
  ⟨Nat.le_refl 0, fun _ => rfl, iff_of_true rfl holds⟩

theorem congr (tally : Tally occurring written once) (same : once ↔ also) :
    Tally occurring written also :=
  ⟨tally.least, tally.none, tally.exact_iff.trans same⟩

/-- Tallies add up, and all is written once if it is on both sides. -/
theorem add (first : Tally occurring written once) (second : Tally others more also) :
    Tally (occurring + others) (written + more) (once ∧ also) := by
  have firstLeast := first.least
  have secondLeast := second.least
  refine ⟨by omega, fun none => ?_, ?_⟩
  · have firstNone := first.none (by omega)
    have secondNone := second.none (by omega)
    omega
  · rw [← first.exact_iff, ← second.exact_iff]
    omega

/-- What is written twice over is written as often as it occurs only if it does not occur. -/
theorem twice (tally : Tally occurring written once) :
    Tally occurring (2 * written) (occurring = 0) := by
  have least := tally.least
  have none := tally.none
  refine ⟨by omega, fun zero => by rw [none zero], ?_⟩
  constructor
  · omega
  · intro zero
    rw [none zero, zero]

end Tally

/-- The tally of a name over some nodes. -/
def NodeTally (id : String) (nodes : List Expr) (written : Nat) : Prop :=
  Tally (nodes.countP (Expr.isName id)) written (∀ node ∈ nodes, Unshared id node)

/-- The tally of a name over the operands of a chain behind the first one. -/
def ChainTally (id : String) (operands : List Expr) (written : Nat) : Prop :=
  Tally ((Expr.nodesOf operands).countP (Expr.isName id)) written
    ((∀ operand ∈ operands.dropLast, .name id ∉ operand.nodes) ∧
      ∀ node ∈ Expr.nodesOf operands, Unshared id node)

namespace NodeTally

variable {nodes others : List Expr} {written more : Nat}

theorem append (first : NodeTally id nodes written) (second : NodeTally id others more) :
    NodeTally id (nodes ++ others) (written + more) := by
  rw [NodeTally, List.countP_append]
  exact (first.add second).congr List.forall_mem_append.symm

/-- Where a name does not occur, no operand that holds it is shared. -/
theorem unshared_of_absent (tally : NodeTally id nodes written)
    (absent : nodes.countP (Expr.isName id) = 0) : ∀ node ∈ nodes, Unshared id node := by
  rw [← tally.exact_iff, tally.none absent, absent]

/-- A node that is no name and shares nothing changes no count. -/
theorem cons {node : Expr} (noName : node.isName id = false) (alone : sharedOperands node = [])
    (tally : NodeTally id nodes written) : NodeTally id (node :: nodes) written := by
  have unshared : Unshared id node := by
    rw [Unshared, alone]
    exact List.forall_mem_nil _
  rw [NodeTally, List.countP_cons_of_neg (by simp [noName])]
  refine tally.congr ?_
  rw [List.forall_mem_cons]
  exact (and_iff_right unshared).symm

theorem single {node : Expr} (noName : node.isName id = false)
    (alone : sharedOperands node = []) : NodeTally id [node] 0 :=
  cons noName alone (.zero (List.forall_mem_nil _))

theorem name (other : String) : NodeTally id [.name other] (if other = id then 1 else 0) := by
  have count : [Expr.name other].countP (Expr.isName id) = if other = id then 1 else 0 := by
    simp [Expr.isName, List.countP_cons]
  rw [NodeTally, count]
  refine ⟨Nat.le_refl _, fun none => none, iff_of_true rfl ?_⟩
  rw [List.forall_mem_singleton]
  exact List.forall_mem_nil _

theorem last {operand : Expr} (tally : NodeTally id operand.nodes written) :
    ChainTally id [operand] written := by
  rw [ChainTally, Expr.nodesOf, Expr.nodesOf, List.append_nil]
  exact tally.congr (and_iff_right (List.forall_mem_nil _)).symm

/-- An operand that another one follows is written twice, so it must not hold the name at all. -/
theorem shared {operand next : Expr} {rest : List Expr}
    (tally : NodeTally id operand.nodes written) (chain : ChainTally id (next :: rest) more) :
    ChainTally id (operand :: next :: rest) (2 * written + more) := by
  have nodes : Expr.nodesOf (operand :: next :: rest) =
      operand.nodes ++ Expr.nodesOf (next :: rest) := by rw [Expr.nodesOf]
  rw [ChainTally, nodes, List.countP_append]
  refine (tally.twice.add chain).congr ?_
  rw [List.forall_mem_append, List.dropLast_cons_cons, List.forall_mem_cons, not_mem_nodes_iff]
  constructor
  · rintro ⟨absent, between, later⟩
    exact ⟨⟨absent, between⟩, tally.unshared_of_absent absent, later⟩
  · rintro ⟨⟨absent, between⟩, _, later⟩
    exact ⟨absent, between, later⟩

/-- A chain shares all its operands but the first and the last one. -/
theorem compare {left : Expr} {ops : List String} {comparators : List Expr}
    (tally : NodeTally id left.nodes written) (chain : ChainTally id comparators more) :
    NodeTally id (.compare left ops comparators :: (left.nodes ++ Expr.nodesOf comparators))
      (written + more) := by
  rw [NodeTally, List.countP_cons_of_neg (by simp [Expr.isName]), List.countP_append]
  refine (tally.add chain).congr ?_
  rw [List.forall_mem_cons, List.forall_mem_append]
  exact and_left_comm

end NodeTally

mutual

/-- A name is written as often as it occurs exactly if it is in no shared operand, by induction over
the expression. -/
theorem nodeTally_expr (id : String) : (value : Expr) →
    NodeTally id value.nodes (value.writings id)
  | .name other => by
    rw [Expr.writings]
    exact .name other
  | .binOp left op right => by
    rw [Expr.nodes, Expr.writings]
    exact ((nodeTally_expr id left).append (nodeTally_expr id right)).cons rfl rfl
  | .unaryOp op value => by
    rw [Expr.nodes, Expr.writings]
    exact (nodeTally_expr id value).cons rfl rfl
  | .boolOp op values => by
    rw [Expr.nodes, Expr.writings]
    exact (nodeTally_all id values).cons rfl rfl
  | .compare left ops comparators => by
    rw [Expr.nodes, Expr.writings]
    exact (nodeTally_expr id left).compare (chainTally_all id comparators)
  | .call function arguments keywords => by
    rw [Expr.nodes, Expr.writings]
    exact ((nodeTally_expr id function).append (nodeTally_all id arguments)).cons rfl rfl
  | .attribute value attr => by
    rw [Expr.nodes, Expr.writings]
    exact (nodeTally_expr id value).cons rfl rfl
  | .subscript value slice => by
    rw [Expr.nodes, Expr.writings]
    exact ((nodeTally_expr id value).append (nodeTally_expr id slice)).cons rfl rfl
  | .list items => by
    rw [Expr.nodes, Expr.writings]
    exact (nodeTally_all id items).cons rfl rfl
  | .tuple items => by
    rw [Expr.nodes, Expr.writings]
    exact (nodeTally_all id items).cons rfl rfl
  | .await value => by
    rw [Expr.nodes, Expr.writings]
    exact (nodeTally_expr id value).cons rfl rfl
  | .absent => .single rfl rfl
  | .constant value => .single rfl rfl
  | .lambda params body => .single rfl rfl
  | .dict keys values => .single rfl rfl
  | .joinedStr values => .single rfl rfl

theorem nodeTally_all (id : String) : (items : List Expr) →
    NodeTally id (Expr.nodesOf items) (Expr.writingsOf id items)
  | [] => .zero (List.forall_mem_nil _)
  | item :: rest => by
    rw [Expr.nodesOf, Expr.writingsOf]
    exact (nodeTally_expr id item).append (nodeTally_all id rest)

/-- In a chain the operands between the ends are shared. -/
theorem chainTally_all (id : String) : (operands : List Expr) →
    ChainTally id operands (Expr.writingsInChain id operands)
  | [] => .zero ⟨List.forall_mem_nil _, List.forall_mem_nil _⟩
  | [last] => (nodeTally_expr id last).last
  | operand :: next :: rest =>
    (nodeTally_expr id operand).shared (chainTally_all id (next :: rest))

end

/-! ### Assignments with an operator -/

/-- How often a place is written that is assigned to with an operator. -/
def placeWritings (op : String) : Nat :=
  if (binaryMethod? op).isSome then 2 else 1

/-- With a sign the place of an assignment is written once. -/
theorem placeWritings_of_sign {op sign : String} (known : binarySign? op = some sign) :
    placeWritings op = 1 := by
  have noMethod : binaryMethod? op = none := by
    unfold binaryMethod?
    split_ifs
    · subst op
      cases known
    · subst op
      cases known
    · rfl
  rw [placeWritings, noMethod]
  rfl

/-- With a method the place of an assignment is written twice. -/
theorem placeWritings_of_method {op name : String} (known : binaryMethod? op = some name) :
    placeWritings op = 2 := by
  rw [placeWritings, known]
  rfl

/-- A name is emitted as often as the expression writes it. -/
theorem identCount_expr (traceable : Traceable id) {context : Context} {table : Table}
    {value : Expr} {stream : Stream} (apart : ∀ node ∈ value.nodes, isApart id node)
    (lowered : expr context table value = .ok stream) :
    stream.identCount id = value.writings id :=
  (countedRules traceable).sound value stream lowered apart

/-- A name is emitted as often as the place and the value write it, where the place counts as often
as it is written. -/
theorem identCount_augAssign (traceable : Traceable id) {options : Options} {context : Context}
    {table : Table} {place value : Expr} {op : String} {stream : Stream}
    (placeApart : ∀ node ∈ place.nodes, isApart id node)
    (valueApart : ∀ node ∈ value.nodes, isApart id node)
    (lowered : stmt options (.augAssign place op value) context table = .ok stream) :
    stream.identCount id = placeWritings op * place.writings id + value.writings id := by
  cases emits_of_stmt _ _ _ _ lowered with
  | augSign known placed valueLowered =>
    rw [Stream.identCount_append, Stream.identCount_punct, placeWritings_of_sign known,
      identCount_expr traceable placeApart placed,
      identCount_expr traceable valueApart valueLowered, Nat.one_mul]
  | augMethod noSign known placed resultLowered =>
    have apart : ∀ node ∈ (Expr.binOp place op value).nodes, isApart id node := by
      rw [Expr.nodes, List.forall_mem_cons, List.forall_mem_append]
      exact ⟨rfl, placeApart, valueApart⟩
    rw [Stream.identCount_append, Stream.identCount_punct, placeWritings_of_method known,
      identCount_expr traceable placeApart placed, identCount_expr traceable apart resultLowered,
      Expr.writings]
    omega

/-- An assignment with an operator writes a name once for each occurrence unless it stands in a
place that is written twice or in a shared operand. -/
theorem tally_augAssign (id op : String) (place value : Expr) :
    Tally (place.occurrences id + value.occurrences id)
      (placeWritings op * place.writings id + value.writings id)
      (((binaryMethod? op).isSome → .name id ∉ place.nodes) ∧
        (∀ node ∈ place.nodes, Unshared id node) ∧ ∀ node ∈ value.nodes, Unshared id node) := by
  have placeTally := nodeTally_expr id place
  have valueTally := nodeTally_expr id value
  rw [placeWritings]
  by_cases isMethod : (binaryMethod? op).isSome
  · rw [if_pos isMethod]
    refine (placeTally.twice.add valueTally).congr ?_
    rw [not_mem_nodes_iff, forall_prop_of_true isMethod]
    constructor
    · rintro ⟨absent, unshared⟩
      exact ⟨absent, placeTally.unshared_of_absent absent, unshared⟩
    · rintro ⟨absent, _, unshared⟩
      exact ⟨absent, unshared⟩
  · rw [if_neg isMethod, Nat.one_mul]
    refine (placeTally.add valueTally).congr ?_
    exact (and_iff_right fun method => absurd method isMethod).symm

/-- An expression that is lowered has a name as often as it is to be written, which is as often as
it occurs if and only if no operand between two comparisons holds it. The same is true of an
assignment with an operator, if also its place does not hold the name where the operator is a
method. -/
theorem names_written_once_iff (traceable : Traceable id) :
    (∀ context table value stream, (∀ node ∈ value.nodes, isApart id node) →
      expr context table value = .ok stream →
        stream.identCount id = value.writings id ∧
        (stream.identCount id = value.occurrences id ↔ ∀ node ∈ value.nodes, Unshared id node)) ∧
    ∀ options context table place op value stream, (∀ node ∈ place.nodes, isApart id node) →
      (∀ node ∈ value.nodes, isApart id node) →
      stmt options (.augAssign place op value) context table = .ok stream →
        stream.identCount id = placeWritings op * place.writings id + value.writings id ∧
        (stream.identCount id = place.occurrences id + value.occurrences id ↔
          ((binaryMethod? op).isSome → .name id ∉ place.nodes) ∧
            (∀ node ∈ place.nodes, Unshared id node) ∧ ∀ node ∈ value.nodes, Unshared id node) := by
  constructor
  · intro context table value stream apart lowered
    have count := identCount_expr traceable apart lowered
    rw [count]
    exact ⟨rfl, (nodeTally_expr id value).exact_iff⟩
  · intro options context table place op value stream placeApart valueApart lowered
    have count := identCount_augAssign traceable placeApart valueApart lowered
    rw [count]
    exact ⟨rfl, (tally_augAssign id op place value).exact_iff⟩

/-- In `f(a) < len(f(b)) <= c` one of two calls is repeated. In `t[f()] += f(a)` none is, and the
names are written as often as they occur. -/
theorem names_written_once_iff_calls :
    let chain : Expr := .compare (.call (.name "f") [.name "a"] []) ["Lt", "LtE"]
      [.call (.name "len") [.call (.name "f") [.name "b"] []] [], .name "c"]
    let place : Expr := .subscript (.name "t") (.call (.name "f") [] [])
    let value : Expr := .call (.name "f") [.name "a"] []
    Traceable "f" ∧ (∀ node ∈ chain.nodes, isApart "f" node) ∧
      (∀ node ∈ place.nodes, isApart "f" node) ∧ (∀ node ∈ value.nodes, isApart "f" node) ∧
      (∃ stream, expr (.sync "g") Table.new chain = .ok stream ∧ stream.identCount "f" = 3) ∧
      ∃ stream, stmt {} (.augAssign place "Add" value) (.sync "g") Table.new = .ok stream ∧
        stream.identCount "f" = 2 := by
  intro chain place value
  have traceable : Traceable "f" := ⟨by decide, by decide, by decide, by decide⟩
  have chainApart : ∀ node ∈ chain.nodes, isApart "f" node := by decide
  have placeApart : ∀ node ∈ place.nodes, isApart "f" node := by decide
  have valueApart : ∀ node ∈ value.nodes, isApart "f" node := by decide
  obtain ⟨exprs, assignments⟩ := names_written_once_iff traceable
  refine ⟨traceable, chainApart, placeApart, valueApart, ⟨_, rfl, ?_⟩, ⟨_, rfl, ?_⟩⟩
  · exact (exprs (.sync "g") Table.new chain _ chainApart rfl).1
  · exact (assignments {} (.sync "g") Table.new place "Add" value _ placeApart valueApart rfl).1

/-- The call in `a < f() < c` occurs once and is written twice. -/
theorem operand_between_comparisons_written_twice :
    let value : Expr := .compare (.name "a") ["Lt", "Lt"] [.call (.name "f") [] [], .name "c"]
    Traceable "f" ∧ (∀ node ∈ value.nodes, isApart "f" node) ∧ value.occurrences "f" = 1 ∧
      ∃ stream, expr (.sync "g") Table.new value = .ok stream ∧ stream.identCount "f" = 2 := by
  intro value
  have traceable : Traceable "f" := ⟨by decide, by decide, by decide, by decide⟩
  exact ⟨traceable, by decide, by decide, _, rfl, by decide⟩

end Lower

end Oxide
