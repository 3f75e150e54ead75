/-
This file proves that the operators of an expression are not regrouped. `Lower.term?` says node by
node which expression of the written language an expression stands for, without a look at tokens:
an operator becomes an operator or a method, a chain of comparisons the conjunction of its
comparisons, a call of a known function what does the same job. The stream that is written is read
by the grammar as that tree and as no other, although the lowering compares no precedences: it puts
every operand that is built with an operator into parentheses.
-/

import Oxide.Proofs.ExprEmission
import Oxide.Proofs.Grammar

namespace Oxide

/-! ### The nodes of an expression -/

mutual

/-- An expression and all expressions inside it; those that are never lowered are not entered. -/
def Expr.nodes : Expr → List Expr
  | .binOp left op right => .binOp left op right :: (left.nodes ++ right.nodes)
  | .unaryOp op value => .unaryOp op value :: value.nodes
  | .boolOp op values => .boolOp op values :: nodesOf values
  | .compare left ops comparators =>
    .compare left ops comparators :: (left.nodes ++ nodesOf comparators)
  | .call function arguments keywords =>
    .call function arguments keywords :: (function.nodes ++ nodesOf arguments)
  | .attribute value attr => .attribute value attr :: value.nodes
  | .subscript value slice => .subscript value slice :: (value.nodes ++ slice.nodes)
  | .list items => .list items :: nodesOf items
  | .tuple items => .tuple items :: nodesOf items
  | .await value => .await value :: value.nodes
  | other => [other]

/-- The nodes of several expressions. -/
def Expr.nodesOf : List Expr → List Expr
  | [] => []
  | first :: rest => first.nodes ++ nodesOf rest

end

namespace Lower

open Grammar

/-- Whether a node is one that keeps the structure: no test of membership, no logical operator
without operands, and no number with a sign of its own. -/
def keepsStructure : Expr → Bool
  | .compare _ ops _ => !ops.contains "In" && !ops.contains "NotIn"
  | .boolOp _ values => !values.isEmpty
  | .constant (.int text) => isUnsigned text
  | .constant (.float text) => isUnsigned text
  | _ => true

/-! ### Trees node by node -/

/-- What an operator between two operands becomes. -/
def binaryForm? : String → Option (Term → Term → Term)
  | "Add" => some (.binary "+")
  | "Sub" => some (.binary "-")
  | "Mult" => some (.binary "*")
  | "Div" => some (.binary "/")
  | "Mod" => some (.binary "%")
  | "LShift" => some (.binary "<<")
  | "RShift" => some (.binary ">>")
  | "BitOr" => some (.binary "|")
  | "BitXor" => some (.binary "^")
  | "BitAnd" => some (.binary "&")
  | "Pow" => some fun left right => .method left "pow" [right]
  | "FloorDiv" => some fun left right => .method left "div_euclid" [right]
  | _ => none

/-- What an operator in front of an operand becomes. -/
def unaryForm? : String → Option (Term → Term)
  | "Not" => some (.unary "!")
  | "Invert" => some (.unary "!")
  | "USub" => some (.unary "-")
  | "UAdd" => some id
  | _ => none

/-- What an operator between truth values becomes. -/
def logicalForm? : String → Option (Term → Term → Term)
  | "And" => some (.binary "&&")
  | "Or" => some (.binary "||")
  | _ => none

/-- What a comparison becomes; one with nothing is a method. -/
def comparisonForm? (op : String) (right : Expr) : Option (Term → Term → Term) :=
  match op with
  | "Eq" => some (.binary "==")
  | "NotEq" => some (.binary "!=")
  | "Lt" => some (.binary "<")
  | "LtE" => some (.binary "<=")
  | "Gt" => some (.binary ">")
  | "GtE" => some (.binary ">=")
  | "Is" => some (if right.isNone then fun left _ => .method left "is_none" [] else .binary "==")
  | "IsNot" => some (if right.isNone then fun left _ => .method left "is_some" [] else .binary "!=")
  | "In" => some fun left right => .method right "contains" [.unary "&" left]
  | "NotIn" => some fun left right => .unary "!" (.method right "contains" [.unary "&" left])
  | _ => none

/-- The comparisons of a chain, where each right operand is compared with the next one. -/
def comparisonTerms? (left : Term) : List String → List Expr → List Term → Option (List Term)
  | op :: ops, right :: rights, term :: terms => do
    let form ← comparisonForm? op right
    let later ← comparisonTerms? term ops rights terms
    return form left term :: later
  | _, _, _ => some []

/-- Terms joined by an operator that groups to the left. -/
def leftChain? (form : Term → Term → Term) : List Term → Option Term
  | [] => none
  | first :: rest => some (rest.foldl form first)

/-- The tree of a constant. -/
def constantTerm : Constant → Term
  | .none => .path ["None"]
  | .bool value => .truth value
  | .int text => .literal text
  | .float text =>
    match floatName? text with
    | some name => .path ["f64", name]
    | none => .literal (if looksLikeFloat text then text else text ++ ".0")
  | .str text => .literal (Text.quote text)

/-- The tree of a name. -/
def nameTerm (id : String) : Term :=
  if id = "True" then .truth true
  else if id = "False" then .truth false
  else .path [identName id]

/-- What the call of a known function becomes. -/
def builtinTerm? : String → List Term → Option Term
  | "print", [] => some (.bang "println" [])
  | "print", first :: rest =>
    some (.bang "println"
      (.literal (Text.quote (displayFormat (rest.length + 1))) :: first :: rest))
  | "len", [value] => some (.method value "len" [])
  | "str", [value] => some (.method value "to_string" [])
  | "range", [stop] => some (.binary ".." (.literal "0") stop)
  | "range", [start, stop] => some (.binary ".." start stop)
  | "range", [start, stop, step] =>
    some (.method (.binary ".." start stop) "step_by" [.cast step "usize"])
  | _, _ => none

/-- The tree of a call of a name, which is known only if nothing else is bound to it. -/
def namedCall (table : Table) (id : String) (arguments : List Term) : Term :=
  match if (table.lookup id).isNone then builtinTerm? id arguments else none with
  | some term => term
  | none => .call (nameTerm id) arguments

mutual

/-- The expression of the written language that an expression stands for. -/
def term? (table : Table) : Expr → Option Term
  | .constant value => some (constantTerm value)
  | .name id => some (nameTerm id)
  | .binOp left op right => do
    return (← binaryForm? op) (← term? table left) (← term? table right)
  | .unaryOp op value => do
    return (← unaryForm? op) (← term? table value)
  | .boolOp op values => do
    leftChain? (← logicalForm? op) (← terms? table values)
  | .compare left ops comparators => do
    let first ← term? table left
    let others ← terms? table comparators
    leftChain? (.binary "&&") (← comparisonTerms? first ops comparators others)
  | .call function arguments keywords => do
    if !keywords.isEmpty then none
    else
      let terms ← terms? table arguments
      match function with
      | .name id => return namedCall table id terms
      | .attribute value attr => return .method (← term? table value) (identName attr) terms
      | other => return .call (← term? table other) terms
  | .attribute value attr => do
    return .field (← term? table value) (identName attr)
  | .subscript value slice => do
    return .index (← term? table value) (← term? table slice)
  | .list items => do
    return .bang "vec" (← terms? table items)
  | .tuple items => do
    return .tuple (← terms? table items)
  | .await value => do
    return .await (← term? table value)
  | _ => none

/-- The trees of several expressions. -/
def terms? (table : Table) : List Expr → Option (List Term)
  | [] => some []
  | first :: rest => do
    return (← term? table first) :: (← terms? table rest)

end

/-! ### Operands -/

/-- Whether the stream of an expression is read as the term. An expression that is built with an
operator needs parentheses to be an operand, and a field needs them to be called: what is written
behind it would make it a method. -/
def Readable (value : Expr) (stream : Stream) (term : Term) : Prop :=
  match value with
  | .binOp .. => Reads 0 stream.bare term
  | .boolOp .. => Reads 0 stream.bare term
  | .compare .. => Reads 0 stream.bare term
  | .unaryOp .. => Reads 0 stream.bare term
  | .attribute .. =>
    ∃ front receiver name, stream.bare = front ++ [.punct ".", identifier name] ∧
      Reads 12 front receiver ∧ term = .field receiver name
  | _ => Reads 13 stream.bare term

namespace Readable

variable {value : Expr} {stream : Stream} {term : Term}

/-- In parentheses where they are needed, an expression can be called, unless it is a field. -/
theorem callee (readable : Readable value stream term)
    (notField : ∀ inner attr, value ≠ .attribute inner attr) :
    Reads 13 (operand value stream).bare term := by
  unfold operand
  split
  · rename_i compound
    rw [Stream.bare_parenthesized]
    cases value <;> first | exact .group readable | cases compound
  · rename_i simple
    cases value <;>
      first | exact readable | exact absurd rfl (notField _ _) | exact absurd rfl simple

/-- In parentheses where they are needed, an expression can be anywhere. -/
theorem operand (readable : Readable value stream term) :
    Reads 12 (Lower.operand value stream).bare term := by
  by_cases isField : ∃ inner attr, value = .attribute inner attr
  · obtain ⟨inner, attr, rfl⟩ := isField
    obtain ⟨front, receiver, name, spelled, read, rfl⟩ := readable
    change Reads 12 stream.bare _
    rw [spelled]
    exact .field name read
  · refine (readable.callee fun inner attr same => isField ⟨inner, attr, same⟩).weaken_of_le ?_
    decide

/-- A readable expression is read as a whole. -/
theorem whole (readable : Readable value stream term) : Reads 0 stream.bare term := by
  by_cases compound : isCompound value
  · cases value <;> first | exact readable | cases compound
  · have read := readable.operand.weaken_of_le (Nat.zero_le _)
    rwa [Lower.operand, if_neg compound] at read

end Readable

/-- Streams of several expressions and the terms that they are read as. -/
inductive AllReadable : List Expr → List Stream → List Term → Prop where
  | nil : AllReadable [] [] []
  | cons {value : Expr} {stream : Stream} {term : Term} {values : List Expr}
      {streams : List Stream} {terms : List Term} (readable : Readable value stream term)
      (rest : AllReadable values streams terms) :
      AllReadable (value :: values) (stream :: streams) (term :: terms)

namespace AllReadable

variable {values : List Expr} {streams : List Stream} {terms : List Term}

/-- The arguments of a list are read one by one. -/
theorem items (all : AllReadable values streams terms) :
    Items (Stream.comma streams).bare terms := by
  rw [Stream.bare_comma]
  induction all with
  | nil => exact .nil
  | @cons value stream term values streams terms readable rest inductionHypothesis =>
    cases rest with
    | nil => exact .last readable.whole
    | cons _ _ =>
      rw [List.map_cons, List.map_cons, separated, Stream.punct, List.append_assoc]
      exact .cons readable.whole inductionHypothesis

/-- Operands bind more tightly than any sign around them. -/
theorem operands (all : AllReadable values streams terms) :
    List.Forall₂ (Reads 12) ((List.zipWith operand values streams).map Stream.bare) terms := by
  induction all with
  | nil => exact .nil
  | cons readable _ inductionHypothesis => exact .cons readable.operand inductionHypothesis

end AllReadable

/-! ### Chains -/

/-- Streams with a sign between them are grouped from the left. -/
theorem separated_cons_cons (sign : String) (first second : Stream) (rest : List Stream) :
    separated sign (first :: second :: rest) =
      separated sign ((first ++ .punct sign :: second) :: rest) := by
  cases rest with
  | nil => simp [separated, Stream.punct, Token.punct]
  | cons third rest => simp [separated, Stream.punct, Token.punct]

/-- Operands that bind more tightly than a sign are joined by it from the left. -/
theorem reads_leftChain {sign : String} {level : Nat} (known : infixLevel? sign = some level)
    (groups : leftLevel level = level) {streams : List Stream} {terms : List Term}
    (all : List.Forall₂ (Reads (level + 1)) streams terms) {first : Stream} {term : Term}
    (firstRead : Reads level first term) :
    Reads level (separated sign (first :: streams)) (terms.foldl (.binary sign) term) := by
  induction all generalizing first term with
  | nil => exact firstRead
  | cons read _ inductionHypothesis =>
    rw [separated_cons_cons]
    refine inductionHypothesis (.binary known ?_ read)
    rwa [groups]

/-- Two operands that bind as tightly as fields are joined by any sign. -/
theorem reads_binary {sign : String} {level : Nat} {first second : Stream} {left right : Term}
    (known : infixLevel? sign = some level) (leftRead : Reads 12 first left)
    (rightRead : Reads 12 second right) :
    Reads level (first ++ .punct sign :: second) (.binary sign left right) := by
  have low := infixLevel?_le known
  have leftLow : leftLevel level ≤ level + 1 := by
    unfold leftLevel
    split <;> omega
  exact .binary known (leftRead.weaken_of_le (by omega)) (rightRead.weaken_of_le (by omega))

/-- A sign between operands is read as the binary term. -/
theorem reads_punct {sign : String} {level : Nat} {first second : Stream} {left right : Term}
    (known : infixLevel? sign = some level) (leftRead : Reads 12 first.bare left)
    (rightRead : Reads 12 second.bare right) :
    Reads level (first.punct sign ++ second).bare (.binary sign left right) := by
  rw [Stream.bare_append, Stream.bare_punct, List.append_assoc]
  exact reads_binary known leftRead rightRead

/-- A method call is read as one, behind any receiver. -/
theorem reads_method {receiver arguments : Stream} {term : Term} {terms : List Term}
    (name : String) (receiverRead : Reads 12 receiver.bare term)
    (argumentsRead : Items arguments.bare terms) :
    Reads 13 (method receiver name arguments).bare (.method term (identName name) terms) := by
  rw [Stream.bare_method]
  exact .method (identName name) receiverRead argumentsRead

theorem reads_emptyMethod {receiver : Stream} {term : Term} (name : String)
    (receiverRead : Reads 12 receiver.bare term) :
    Reads 13 (method receiver name []).bare (.method term (identName name) []) :=
  @reads_method receiver [] term [] name receiverRead .nil

theorem reads_bang {opening closing : String} {arguments : Stream} {terms : List Term}
    (name : String) (known : (opening, closing) ∈ bangDelimiters)
    (argumentsRead : Items arguments.bare terms) :
    Reads 13 ((Stream.bang [] name).group opening closing (Stream.join arguments)).bare
      (.bang (identName name) terms) := by
  rw [Stream.bare_group, Stream.bare_bang, Stream.bare_join]
  exact .bang (identName name) known argumentsRead

/-! ### Operators -/

/-- An operator that is a sign is read as that sign. -/
theorem binaryForm_of_sign {op sign : String} (known : binarySign? op = some sign) :
    binaryForm? op = some (.binary sign) ∧ ∃ level, infixLevel? sign = some level := by
  unfold binarySign? at known
  split_ifs at known <;> cases known <;> subst op <;> exact ⟨rfl, _, rfl⟩

/-- An operator that is a method is read as a call of it. -/
theorem binaryForm_of_method {op name : String} (known : binaryMethod? op = some name) :
    binaryForm? op = some (fun left right => .method left (identName name) [right]) := by
  unfold binaryMethod? at known
  split_ifs at known <;> cases known <;> subst op <;> rfl

/-- A sign in front is read as itself, and no sign as the operand. -/
theorem unaryForm_of_sign {op : String} {sign : Stream} (known : unarySign? op = some sign) :
    (∃ text ∈ frontSigns, sign.bare = [.punct text] ∧ unaryForm? op = some (.unary text)) ∨
      sign = [] ∧ unaryForm? op = some id := by
  unfold unarySign? at known
  split_ifs at known with isNot isMinus isPlus
  · cases known
    rw [Bool.or_eq_true, decide_eq_true_iff, decide_eq_true_iff] at isNot
    obtain rfl | rfl := isNot <;> exact .inl ⟨"!", by decide, rfl, rfl⟩
  · cases known
    subst op
    exact .inl ⟨"-", by decide, rfl, rfl⟩
  · cases known
    subst op
    exact .inr ⟨rfl, rfl⟩

theorem logicalForm_of_sign {op sign : String} (known : logicalSign? op = some sign) :
    logicalForm? op = some (.binary sign) ∧
      ∃ level, infixLevel? sign = some level ∧ leftLevel level = level ∧ level + 1 ≤ 12 := by
  unfold logicalSign? at known
  split_ifs at known <;> cases known <;> subst op <;> exact ⟨rfl, _, rfl, rfl, by decide⟩

/-- A comparison with a sign is read as that sign. -/
theorem comparisonForm_of_sign {op sign : String} {right : Expr}
    (known : comparisonSign? op = some sign) (notNone : ¬ (op = "Is" ∧ right.isNone))
    (notSome : ¬ (op = "IsNot" ∧ right.isNone)) :
    comparisonForm? op right = some (.binary sign) ∧ infixLevel? sign = some 3 := by
  have form : (right.isNone = false ∨ op ≠ "Is" ∧ op ≠ "IsNot") := by
    cases nothing : right.isNone with
    | false => exact .inl rfl
    | true => exact .inr ⟨fun same => notNone ⟨same, nothing⟩, fun same => notSome ⟨same, nothing⟩⟩
  unfold comparisonSign? at known
  split_ifs at known <;> cases known <;> subst op <;>
    simp_all [comparisonForm?, infixLevel?]

/-! ### Comparisons -/

/-- One comparison is read as its form says, tests of membership apart. -/
theorem readable_comparison {left right : Expr} {first second piece : Stream} {op : String}
    {leftTerm rightTerm : Term} (compared : Comparison left first op right second piece)
    (notIn : op ≠ "In") (notNotIn : op ≠ "NotIn") (leftRead : Readable left first leftTerm)
    (rightRead : Readable right second rightTerm) :
    ∃ form, comparisonForm? op right = some form ∧
      Reads 3 piece.bare (form leftTerm rightTerm) := by
  cases compared with
  | contains => exact absurd rfl notIn
  | excludes => exact absurd rfl notNotIn
  | isNone right second nothing =>
    refine ⟨fun left _ => .method left "is_none" [], by simp [comparisonForm?, nothing], ?_⟩
    exact (reads_emptyMethod "is_none" leftRead.operand).weaken_of_le (by decide)
  | isSome right second nothing =>
    refine ⟨fun left _ => .method left "is_some" [], by simp [comparisonForm?, nothing], ?_⟩
    exact (reads_emptyMethod "is_some" leftRead.operand).weaken_of_le (by decide)
  | signed op right second sign notNone notSome known =>
    obtain ⟨form, level⟩ := comparisonForm_of_sign known notNone notSome
    exact ⟨_, form, reads_punct level leftRead.operand rightRead.operand⟩

/-- The pieces of a chain are read as comparisons of neighbours. -/
theorem readable_comparisons {left : Expr} {first : Stream} {ops : List String}
    {rights : List Expr} {streams pieces : List Stream} {leftTerm : Term} {terms : List Term}
    (compared : Comparisons left first ops rights streams pieces) (notIn : "In" ∉ ops)
    (notNotIn : "NotIn" ∉ ops) (leftRead : Readable left first leftTerm)
    (rightsRead : AllReadable rights streams terms) :
    ∃ results, comparisonTerms? leftTerm ops rights terms = some results ∧
      List.Forall₂ (fun piece term => Reads 3 (Stream.bare piece) term) pieces results := by
  induction compared generalizing leftTerm terms with
  | nil =>
    cases rightsRead
    exact ⟨[], rfl, .nil⟩
  | cons single rest inductionHypothesis =>
    cases rightsRead with
    | cons rightRead restRead =>
      rw [List.mem_cons, not_or] at notIn notNotIn
      obtain ⟨form, known, read⟩ := readable_comparison single (Ne.symm notIn.1)
        (Ne.symm notNotIn.1) leftRead rightRead
      obtain ⟨results, later, laterRead⟩ :=
        inductionHypothesis notIn.2 notNotIn.2 rightRead restRead
      exact ⟨_ :: results, by simp [comparisonTerms?, known, later], .cons read laterRead⟩

/-- The pieces of a chain are joined from the left. -/
theorem reads_conjunction {pieces : List Stream} {terms : List Term} (nonempty : pieces ≠ [])
    (all : List.Forall₂ (fun piece term => Reads 3 (Stream.bare piece) term) pieces terms) :
    ∃ term, leftChain? (.binary "&&") terms = some term ∧
      Reads 0 (conjunction pieces).bare term := by
  have grouped {pieces : List Stream} {terms : List Term}
      (all : List.Forall₂ (fun piece term => Reads 3 (Stream.bare piece) term) pieces terms) :
      List.Forall₂ (Reads 3) ((pieces.map parenthesized).map Stream.bare) terms := by
    rw [List.map_map, List.forall₂_map_left_iff]
    refine all.imp fun piece term read => ?_
    rw [Function.comp_apply, Stream.bare_parenthesized]
    exact (Reads.group (read.weaken_of_le (by decide))).weaken_of_le (by decide)
  cases all with
  | nil => exact absurd rfl nonempty
  | @cons piece term pieces terms read rest =>
    refine ⟨_, rfl, ?_⟩
    obtain _ | ⟨second, later⟩ := rest
    · exact read.weaken_of_le (by decide)
    · obtain _ | ⟨firstRead, restRead⟩ := grouped (.cons read (.cons second later))
      rw [conjunction, Stream.bare_separated]
      · exact (reads_leftChain rfl rfl restRead (firstRead.weaken_of_le (by decide))).weaken_of_le
          (by decide)
      · intro last impossible
        cases impossible

/-! ### Known functions -/

theorem isUnsigned_quote (text : String) : isUnsigned (Text.quote text) := by
  unfold isUnsigned Text.quote
  rw [String.toList_ofList]
  rfl

theorem reads_range {start stop : Stream} {startTerm stopTerm : Term}
    (startRead : Reads 12 start.bare startTerm) (stopRead : Reads 12 stop.bare stopTerm) :
    Reads 13 (range start stop).bare (.binary ".." startTerm stopTerm) := by
  rw [range, Stream.bare_parenthesized, Stream.bare_append, Stream.bare_join, Stream.bare_punct,
    Stream.bare_join, List.append_assoc start.bare]
  exact .group (@reads_binary ".." 0 _ _ _ _ rfl startRead stopRead)

/-- A line of output is read as a format and the values to print. -/
theorem items_printed {values : List Expr} {streams : List Stream} {terms : List Term}
    (format : String) (read : AllReadable values streams terms) :
    Items ((Stream.str [] format).punct "," ++ Stream.comma streams).bare
      (.literal (Text.quote format) :: terms) := by
  rw [Stream.bare_append, Stream.bare_punct, List.append_assoc]
  exact .cons ((Reads.literal (isUnsigned_quote format)).weaken_of_le (by decide)) read.items

theorem AllReadable.length_eq {values : List Expr} {streams : List Stream} {terms : List Term}
    (all : AllReadable values streams terms) : streams.length = terms.length := by
  induction all with
  | nil => rfl
  | cons _ _ inductionHypothesis => exact congrArg Nat.succ inductionHypothesis

/-- The call of a known function is read as the term for that function. -/
theorem readable_special {table : Table} {function : Expr} {arguments : List Expr}
    {streams : List Stream} {stream : Stream} {terms : List Term}
    (known : SpecialCall table function arguments streams stream)
    (read : AllReadable arguments streams terms) :
    ∃ id, function = .name id ∧ Reads 13 stream.bare (namedCall table id terms) := by
  cases known with
  | print free =>
    refine ⟨"print", rfl, ?_⟩
    rw [namedCall, free]
    cases read with
    | nil => exact @reads_bang _ _ [] [] "println" (by decide) .nil
    | cons first rest =>
      rw [printLine, List.isEmpty_cons, List.length_cons, rest.length_eq]
      exact reads_bang "println" (by decide) (items_printed _ (.cons first rest))
  | len free value stream =>
    refine ⟨"len", rfl, ?_⟩
    obtain _ | ⟨valueRead, ⟨⟩⟩ := read
    rw [namedCall, free]
    exact reads_emptyMethod "len" valueRead.operand
  | str free value stream =>
    refine ⟨"str", rfl, ?_⟩
    obtain _ | ⟨valueRead, ⟨⟩⟩ := read
    rw [namedCall, free]
    exact reads_emptyMethod "to_string" valueRead.operand
  | rangeTo free stop stopStream =>
    refine ⟨"range", rfl, ?_⟩
    obtain _ | ⟨stopRead, ⟨⟩⟩ := read
    rw [namedCall, free]
    exact reads_range ((Reads.literal rfl).weaken_of_le (by decide)) stopRead.operand
  | rangeFrom free start stop startStream stopStream =>
    refine ⟨"range", rfl, ?_⟩
    obtain _ | ⟨startRead, _ | ⟨stopRead, ⟨⟩⟩⟩ := read
    rw [namedCall, free]
    exact reads_range startRead.operand stopRead.operand
  | rangeBy free start stop step startStream stopStream stepStream =>
    refine ⟨"range", rfl, ?_⟩
    obtain _ | ⟨startRead, _ | ⟨stopRead, _ | ⟨stepRead, ⟨⟩⟩⟩⟩ := read
    rw [namedCall, free]
    refine reads_method "step_by"
      ((reads_range startRead.operand stopRead.operand).weaken_of_le (by decide)) (.last ?_)
    rw [Stream.bare_ident, Stream.bare_keyword, List.append_assoc]
    exact (Reads.cast "usize" (stepRead.operand.weaken_of_le (by decide))).weaken_of_le (by decide)

/-! ### Expressions -/

/-- Whether a stream reads back as the tree of the expression, if the nodes keep the structure. -/
def ReadsBack (table : Table) (value : Expr) (stream : Stream) : Prop :=
  (∀ node ∈ value.nodes, keepsStructure node) →
    ∃ term, term? table value = some term ∧ Readable value stream term

variable {context : Context} {table : Table}

/-- What is read back one by one is read back as a list. -/
theorem allReadable_of_forall₂ {values : List Expr} {streams : List Stream}
    (all : List.Forall₂ (ReadsBack table) values streams)
    (kept : ∀ node ∈ Expr.nodesOf values, keepsStructure node) :
    ∃ terms, terms? table values = some terms ∧ AllReadable values streams terms := by
  induction all with
  | nil => exact ⟨[], rfl, .nil⟩
  | cons back _ inductionHypothesis =>
    rw [Expr.nodesOf, List.forall_mem_append] at kept
    obtain ⟨term, tree, readable⟩ := back kept.1
    obtain ⟨terms, trees, rest⟩ := inductionHypothesis kept.2
    exact ⟨term :: terms, by simp [terms?, tree, trees], .cons readable rest⟩

/-- A text does not get a sign by being marked as that of a float. -/
theorem isUnsigned_floatText {text : String} (unsigned : isUnsigned text) :
    isUnsigned (if looksLikeFloat text then text else text ++ ".0") := by
  split
  · exact unsigned
  · unfold isUnsigned at unsigned ⊢
    rw [String.toList_append]
    cases characters : text.toList with
    | nil =>
      rw [characters] at unsigned
      cases unsigned
    | cons first rest =>
      rw [characters] at unsigned
      exact unsigned

theorem identName_of_floatName? {text name : String} (named : floatName? text = some name) :
    identName name = name := by
  simp only [floatName?] at named
  split_ifs at named <;> cases named <;> rfl

theorem readsBack_constant (value : Constant) :
    ReadsBack table (.constant value) (constant value) := by
  intro kept
  refine ⟨constantTerm value, by rw [term?], ?_⟩
  change Reads 13 _ _
  have unsigned := kept (.constant value) (by simp [Expr.nodes])
  cases value with
  | none => exact (Reads.name "None").weaken
  | bool value =>
    cases value with
    | true => exact .trueWord
    | false => exact .falseWord
  | int text => exact .literal unsigned
  | str text => exact .literal (isUnsigned_quote text)
  | float text =>
    rw [constant, constantTerm, float]
    cases named : floatName? text with
    | none => exact .literal (isUnsigned_floatText unsigned)
    | some name =>
      change Reads 13 [identifier "f64", .punct "::", identifier (identName name)] _
      rw [identName_of_floatName? named]
      exact (Reads.scoped name (.name "f64")).weaken

theorem readsBack_name (id : String) : ReadsBack table (.name id) (name id) := by
  intro _
  refine ⟨nameTerm id, by rw [term?], ?_⟩
  change Reads 13 _ _
  unfold name nameTerm
  split_ifs with isTrue isFalse isNone
  · exact .trueWord
  · exact .falseWord
  · subst id
    exact (Reads.name "None").weaken
  · exact (Reads.name (identName id)).weaken

theorem term?_attribute_eq_some {value : Expr} {attr name : String} {receiver : Term} :
    term? table (.attribute value attr) = some (.field receiver name) ↔
      term? table value = some receiver ∧ identName attr = name := by
  rw [term?]
  cases term? table value with
  | none => simp
  | some term => simp

/-- What is a known function for trees is one for streams. -/
theorem knownCall_of_builtinTerm {id : String} {arguments : List Expr} {streams : List Stream}
    {terms : List Term} {term : Term} (known : builtinTerm? id terms = some term)
    (read : AllReadable arguments streams terms) : knownCall? id arguments streams ≠ none := by
  unfold builtinTerm? at known
  split at known
  · nofun
  · nofun
  · obtain _ | ⟨_, ⟨⟩⟩ := read
    nofun
  · obtain _ | ⟨_, ⟨⟩⟩ := read
    nofun
  · obtain _ | ⟨_, ⟨⟩⟩ := read
    nofun
  · obtain _ | ⟨_, _ | ⟨_, ⟨⟩⟩⟩ := read
    nofun
  · obtain _ | ⟨_, _ | ⟨_, _ | ⟨_, ⟨⟩⟩⟩⟩ := read
    nofun
  · cases known

/-- The term of a call that is not special is the call of the function's term. -/
theorem term?_call {function : Expr} {arguments : List Expr} {streams : List Stream}
    {functionTerm : Term} {terms : List Term}
    (unknown : specialCall? table function arguments streams = none)
    (notField : ∀ value attr, function ≠ .attribute value attr)
    (functionTree : term? table function = some functionTerm)
    (trees : terms? table arguments = some terms) (read : AllReadable arguments streams terms) :
    term? table (.call function arguments []) = some (.call functionTerm terms) := by
  cases function with
  | name id =>
    cases functionTree
    suffices namedCall table id terms = .call (nameTerm id) terms by simp [term?, trees, this]
    unfold namedCall
    cases free : table.lookup id with
    | some symbol => rfl
    | none =>
      cases known : builtinTerm? id terms with
      | none => rfl
      | some term =>
        rw [specialCall?, free] at unknown
        exact absurd unknown (knownCall_of_builtinTerm known read)
  | «attribute» value attr => exact absurd rfl (notField value attr)
  | _ =>
    rw [term?, trees]
    simp [functionTree]

/-- A tuple is read with all its items, also if it is only one. -/
theorem reads_tuple {values : List Expr} {streams : List Stream} {terms : List Term}
    (read : AllReadable values streams terms) :
    Reads 13 (parenthesized (if streams.length = 1 then (Stream.comma streams).punct ","
      else Stream.comma streams)).bare (.tuple terms) := by
  rw [Stream.bare_parenthesized]
  cases read with
  | nil => exact .unit
  | cons first rest =>
    obtain _ | ⟨second, others⟩ := rest
    · rw [if_pos List.length_singleton, Stream.bare_punct, List.append_assoc]
      exact .tuple first.whole .nil
    · have items := (AllReadable.cons second others).items
      rw [Stream.bare_comma] at items
      rw [if_neg (by simp), Stream.bare_comma, List.map_cons, List.map_cons, separated,
        Stream.punct, List.append_assoc, List.append_assoc]
      exact .tuple first.whole items

/-! ### Parts that are operands -/

section

variable {value slice : Expr} {stream index : Stream} {term indexTerm : Term}

theorem reads_unary {op : String} {sign : Stream} (known : unarySign? op = some sign)
    (read : Readable value stream term) :
    ∃ form, unaryForm? op = some form ∧
      Reads 11 (sign ++ operand value stream).bare (form term) := by
  have operandRead := read.operand.weaken
  obtain ⟨text, isFront, spelled, form⟩ | ⟨rfl, form⟩ := unaryForm_of_sign known
  · refine ⟨_, form, ?_⟩
    rw [Stream.bare_append, spelled]
    exact .unary isFront operandRead
  · exact ⟨_, form, operandRead⟩

/-- Truth values with a sign between them are joined from the left. -/
theorem reads_logical {op sign : String} {values : List Expr} {streams : List Stream}
    {terms : List Term} (known : logicalSign? op = some sign) (nonempty : values ≠ [])
    (read : AllReadable values streams terms) :
    ∃ result, leftChain? (.binary sign) terms = some result ∧
      Reads 0 (separated sign (List.zipWith operand values streams)).bare result := by
  obtain ⟨_, level, levelKnown, groups, low⟩ := logicalForm_of_sign known
  cases read with
  | nil => exact absurd rfl nonempty
  | cons first rest =>
    refine ⟨_, rfl, ?_⟩
    rw [Stream.bare_separated, List.zipWith_cons_cons, List.map_cons]
    exact (reads_leftChain levelKnown groups
      (rest.operands.imp fun _ _ read => read.weaken_of_le low)
      (first.operand.weaken_of_le (Nat.le_of_succ_le low))).weaken_of_le (Nat.zero_le _)

theorem readable_field (read : Readable value stream term) (attr : String) :
    Readable (.attribute value attr) ((dotted (operand value stream)).ident attr)
      (.field term (identName attr)) := by
  refine ⟨_, _, identName attr, ?_, read.operand, rfl⟩
  rw [Stream.bare_ident, Stream.bare_dotted, List.append_assoc]
  rfl

/-- An index is read as an index of what stands before the bracket. -/
theorem readable_subscript (read : Readable value stream term)
    (indexRead : Readable slice index indexTerm) :
    Readable (.subscript value slice)
      ((Stream.join (operand value stream)).group "[" "]" (Stream.join index))
      (.index term indexTerm) := by
  change Reads 13 _ _
  rw [Stream.bare_group, Stream.bare_join, Stream.bare_join]
  exact .index read.operand indexRead.whole

theorem readable_await (read : Readable value stream term) :
    Readable (.await value) ((dotted (operand value stream)).keyword "await") (.await term) := by
  change Reads 13 _ _
  rw [Stream.bare_keyword, Stream.bare_dotted, List.append_assoc]
  exact .await read.operand

/-- The tree of a call; a field that is called is a method. -/
def calledTerm : Expr → Term → List Term → Term
  | .attribute .., .field receiver name, arguments => .method receiver name arguments
  | _, function, arguments => .call function arguments

theorem calledTerm_of_not_field {function : Expr}
    (notField : ∀ value attr, function ≠ .attribute value attr) (arguments : List Term) :
    calledTerm function term arguments = .call term arguments := by
  cases function with
  | «attribute» value attr => exact absurd rfl (notField value attr)
  | _ => rfl

/-- A call is read as one, and as a method if a field is called. -/
theorem reads_call {function : Expr} {callee : Stream} {arguments : List Expr}
    {streams : List Stream} {terms : List Term} (read : Readable function callee term)
    (argumentsRead : AllReadable arguments streams terms) :
    Reads 13 ((Stream.join (operand function callee)).group "(" ")"
      (Stream.join (Stream.comma streams))).bare (calledTerm function term terms) := by
  rw [Stream.bare_group, Stream.bare_join, Stream.bare_join]
  by_cases isField : ∃ value attr, function = .attribute value attr
  · obtain ⟨value, attr, rfl⟩ := isField
    obtain ⟨front, receiver, name, spelled, receiverRead, rfl⟩ := read
    change Reads 13 (callee.bare ++ _) _
    rw [spelled, List.append_assoc]
    exact .method name receiverRead argumentsRead.items
  · have notField (value : Expr) (attr : String) (same : function = .attribute value attr) :
        False := isField ⟨value, attr, same⟩
    rw [calledTerm_of_not_field notField]
    exact .call (read.callee notField) argumentsRead.items

end

/-- The rules of emission keep what streams read back as. -/
theorem readsBackRules : ExprRules context table (ReadsBack table) where
  constant value := readsBack_constant value
  name id := readsBack_name id
  binaryMethod left op right name first second known leftBack rightBack kept := by
    rw [Expr.nodes, List.forall_mem_cons, List.forall_mem_append] at kept
    obtain ⟨leftTerm, leftTree, leftRead⟩ := leftBack kept.2.1
    obtain ⟨rightTerm, rightTree, rightRead⟩ := rightBack kept.2.2
    refine ⟨_, by rw [term?, binaryForm_of_method known, leftTree, rightTree]; rfl, ?_⟩
    exact (reads_method name leftRead.operand (.last rightRead.whole)).weaken_of_le (Nat.zero_le _)
  binarySign left op right sign first second noMethod known leftBack rightBack kept := by
    rw [Expr.nodes, List.forall_mem_cons, List.forall_mem_append] at kept
    obtain ⟨leftTerm, leftTree, leftRead⟩ := leftBack kept.2.1
    obtain ⟨rightTerm, rightTree, rightRead⟩ := rightBack kept.2.2
    obtain ⟨form, level, levelKnown⟩ := binaryForm_of_sign known
    refine ⟨_, by rw [term?, form, leftTree, rightTree]; rfl, ?_⟩
    exact (reads_punct levelKnown leftRead.operand rightRead.operand).weaken_of_le (Nat.zero_le _)
  unary op value sign stream known valueBack kept := by
    rw [Expr.nodes, List.forall_mem_cons] at kept
    obtain ⟨term, tree, read⟩ := valueBack kept.2
    obtain ⟨form, formKnown, signedRead⟩ := reads_unary known read
    refine ⟨form term, by rw [term?, formKnown, tree]; rfl, ?_⟩
    exact signedRead.weaken_of_le (Nat.zero_le _)
  logical op values sign streams known valuesBack kept := by
    rw [Expr.nodes, List.forall_mem_cons] at kept
    obtain ⟨terms, trees, read⟩ := allReadable_of_forall₂ valuesBack kept.2
    have form := (logicalForm_of_sign known).1
    have nonempty : values ≠ [] := by
      rintro rfl
      exact absurd kept.1 nofun
    obtain ⟨term, joined, termRead⟩ := reads_logical known nonempty read
    exact ⟨term, by simp [term?, form, trees, joined], termRead⟩
  compare left ops rights first streams pieces nonempty emitted leftBack rightsBack kept := by
    rw [Expr.nodes, List.forall_mem_cons, List.forall_mem_append] at kept
    obtain ⟨leftTerm, leftTree, leftRead⟩ := leftBack kept.2.1
    obtain ⟨terms, trees, read⟩ := allReadable_of_forall₂ rightsBack kept.2.2
    have notIn : "In" ∉ ops ∧ "NotIn" ∉ ops := by simpa [keepsStructure] using kept.1
    obtain ⟨results, compared, piecesRead⟩ :=
      readable_comparisons emitted notIn.1 notIn.2 leftRead read
    have somePieces : pieces ≠ [] := by
      cases emitted with
      | nil => exact absurd rfl nonempty
      | cons _ _ => nofun
    obtain ⟨term, joined, termRead⟩ := reads_conjunction somePieces piecesRead
    exact ⟨term, by simp [term?, leftTree, trees, compared, joined], termRead⟩
  special function arguments streams stream known argumentsBack kept := by
    rw [Expr.nodes, List.forall_mem_cons, List.forall_mem_append] at kept
    obtain ⟨terms, trees, read⟩ := allReadable_of_forall₂ argumentsBack kept.2.2
    obtain ⟨id, rfl, callRead⟩ := readable_special known read
    exact ⟨_, by simp [term?, trees], callRead⟩
  call function arguments callee streams unknown functionBack argumentsBack kept := by
    rw [Expr.nodes, List.forall_mem_cons, List.forall_mem_append] at kept
    obtain ⟨terms, trees, read⟩ := allReadable_of_forall₂ argumentsBack kept.2.2
    obtain ⟨functionTerm, functionTree, functionRead⟩ := functionBack kept.2.1
    refine ⟨calledTerm function functionTerm terms, ?_, reads_call functionRead read⟩
    by_cases isField : ∃ value attr, function = .attribute value attr
    · obtain ⟨value, attr, rfl⟩ := isField
      obtain ⟨front, receiver, name, spelled, receiverRead, rfl⟩ := functionRead
      obtain ⟨receiverTree, rfl⟩ := term?_attribute_eq_some.mp functionTree
      simp [term?, trees, receiverTree, calledTerm]
    · have notField (value : Expr) (attr : String)
          (same : function = .attribute value attr) : False :=
        isField ⟨value, attr, same⟩
      rw [calledTerm_of_not_field notField]
      exact term?_call unknown notField functionTree trees read
  field value attr stream valueBack kept := by
    rw [Expr.nodes, List.forall_mem_cons] at kept
    obtain ⟨term, tree, read⟩ := valueBack kept.2
    exact ⟨_, by rw [term?, tree]; rfl, readable_field read attr⟩
  subscript value slice stream index valueBack sliceBack kept := by
    rw [Expr.nodes, List.forall_mem_cons, List.forall_mem_append] at kept
    obtain ⟨term, tree, read⟩ := valueBack kept.2.1
    obtain ⟨indexTerm, indexTree, indexRead⟩ := sliceBack kept.2.2
    exact ⟨_, by rw [term?, tree, indexTree]; rfl, readable_subscript read indexRead⟩
  list items streams itemsBack kept := by
    rw [Expr.nodes, List.forall_mem_cons] at kept
    obtain ⟨terms, trees, read⟩ := allReadable_of_forall₂ itemsBack kept.2
    refine ⟨_, by rw [term?, trees]; rfl, ?_⟩
    exact reads_bang "vec" (by decide) read.items
  tuple items streams itemsBack kept := by
    rw [Expr.nodes, List.forall_mem_cons] at kept
    obtain ⟨terms, trees, read⟩ := allReadable_of_forall₂ itemsBack kept.2
    exact ⟨_, by rw [term?, trees]; rfl, reads_tuple read⟩
  await value stream waiting valueBack kept := by
    rw [Expr.nodes, List.forall_mem_cons] at kept
    obtain ⟨term, tree, read⟩ := valueBack kept.2
    exact ⟨_, by rw [term?, tree]; rfl, readable_await read⟩

/-- An expression that is lowered, whose nodes keep the structure, is written as a stream that the
grammar reads as the tree of the expression and as nothing else. -/
theorem expr_reads_iff_eq_term {value : Expr} {stream : Stream}
    (lowered : expr context table value = .ok stream)
    (kept : ∀ node ∈ value.nodes, keepsStructure node) :
    ∃ tree, term? table value = some tree ∧
      ∀ other, Reads 0 stream.bare other ↔ other = tree := by
  obtain ⟨tree, known, readable⟩ := readsBackRules.sound value stream lowered kept
  refine ⟨tree, known, fun other => ⟨fun read => read.unique readable.whole, ?_⟩⟩
  rintro rfl
  exact readable.whole

/-- `-(a + 1) ** 2 < len(b) <= c.d(2)` is lowered and keeps its structure. -/
theorem expr_reads_iff_eq_term_chain :
    let power : Expr :=
      .binOp (.unaryOp "USub" (.binOp (.name "a") "Add" (.constant (.int "1")))) "Pow"
        (.constant (.int "2"))
    let value : Expr :=
      .compare power ["Lt", "LtE"] [.call (.name "len") [.name "b"] [],
        .call (.attribute (.name "c") "d") [.constant (.int "2")] []]
    ∃ stream, expr (.sync "f") Table.new value = .ok stream ∧
      (∀ node ∈ value.nodes, keepsStructure node) ∧
      ∃ tree, term? Table.new value = some tree ∧
        ∀ other, Reads 0 stream.bare other ↔ other = tree := by
  intro power value
  obtain ⟨stream, lowered⟩ : ∃ stream, expr (.sync "f") Table.new value = .ok stream := ⟨_, rfl⟩
  have kept : ∀ node ∈ value.nodes, keepsStructure node := by decide
  exact ⟨stream, lowered, kept, expr_reads_iff_eq_term lowered kept⟩

end Lower

end Oxide
