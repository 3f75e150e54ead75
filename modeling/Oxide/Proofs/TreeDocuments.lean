/-
This file writes syntax trees as documents: an object for each node of the tree, which names its
type and has one field for each part, with null where an optional part is left out. Parameters are
sorted into one list for each kind, with their default values beside them. The file also says which
trees are complete, so that nothing is lost on the way, and when a document holds another one: it
may have other lines and further fields, and may leave out what is null.
-/

import Mathlib.Data.List.Forall2
import Mathlib.Tactic.MkIffOfInductiveProp
import Oxide.Tree.Reader

namespace Oxide

open Document

/-! ### Nodes -/

namespace Document.Node

/-- A scalar in quotes. -/
def quoted (text : String) : Node :=
  .scalar 0 .str text

/-- A scalar without quotes, whose text says what kind it is of. -/
def plain (text : String) : Node :=
  .scalar 0 (Tag.ofPlain text) text

/-- What stands where something is left out. -/
def nothing : Node :=
  plain "null"

/-- A text that is left out if it is empty. -/
def optionalText (text : String) : Node :=
  if text = "" then nothing else quoted text

/-- A list. -/
def listed (items : List Node) : Node :=
  .list 0 items

/-- The entries for a type and the given fields. -/
def entriesOf (type : String) (fields : List (String × Node)) : List (Node × Node) :=
  (quoted typeKey, quoted type) :: fields.map fun (key, value) => (quoted key, value)

/-- An object of a type with the given fields. -/
def typed (type : String) (fields : List (String × Node)) : Node :=
  .object 0 (entriesOf type fields)

/-- An operator, which is an object without fields. -/
def operator (op : String) : Node :=
  typed op []

end Document.Node

open Document.Node (quoted plain nothing optionalText listed typed operator field field?)

/-! ### Expressions -/

/-- The value of a constant as a scalar. -/
def Constant.toNode : Constant → Node
  | .none => nothing
  | .bool true => plain "true"
  | .bool false => plain "false"
  | .int text => plain text
  | .float text => plain text
  | .str text => quoted text

/-- What a parameter contributes to a document: a node of its own and a default value. -/
structure ParamPart where
  kind : ParamKind
  node : Node
  value? : Option Node

namespace ParamPart

/-- The parts of the parameters of one kind. -/
def ofKind (kind : ParamKind) (parts : List ParamPart) : List ParamPart :=
  parts.filter fun part => part.kind = kind

/-- The nodes of the parameters of one kind. -/
def nodes (kind : ParamKind) (parts : List ParamPart) : List Node :=
  (ofKind kind parts).map ParamPart.node

/-- The node of the only parameter of a kind, if there is one. -/
def single (kind : ParamKind) (parts : List ParamPart) : Node :=
  (nodes kind parts).headD nothing

/-- The parameters of a function, sorted by their kinds. -/
def arguments (parts : List ParamPart) : Node :=
  typed "arguments"
    [("posonlyargs", listed (nodes .positionalOnly parts)),
      ("args", listed (nodes .positional parts)),
      ("defaults", listed
        ((ofKind .positionalOnly parts ++ ofKind .positional parts).filterMap value?)),
      ("vararg", single .varArgs parts),
      ("kwonlyargs", listed (nodes .keywordOnly parts)),
      ("kw_defaults", listed
        ((ofKind .keywordOnly parts).map fun part => part.value?.getD nothing)),
      ("kwarg", single .keywordArgs parts)]

end ParamPart

mutual

/-- An expression as a document. -/
def Expr.toNode : Expr → Node
  | .absent => nothing
  | .constant value => typed "Constant" [("value", value.toNode)]
  | .name id => typed "Name" [("id", quoted id)]
  | .binOp left op right =>
    typed "BinOp" [("left", left.toNode), ("op", operator op), ("right", right.toNode)]
  | .unaryOp op operand => typed "UnaryOp" [("op", operator op), ("operand", operand.toNode)]
  | .boolOp op values =>
    typed "BoolOp" [("op", operator op), ("values", listed (Expr.toNodes values))]
  | .compare left ops comparators =>
    typed "Compare"
      [("left", left.toNode), ("ops", listed (ops.map operator)),
        ("comparators", listed (Expr.toNodes comparators))]
  | .call function arguments keywords =>
    typed "Call"
      [("func", function.toNode), ("args", listed (Expr.toNodes arguments)),
        ("keywords", listed (Expr.keywordNodes keywords))]
  | .attribute value attr => typed "Attribute" [("value", value.toNode), ("attr", quoted attr)]
  | .subscript value slice =>
    typed "Subscript" [("value", value.toNode), ("slice", slice.toNode)]
  | .list items => typed "List" [("elts", listed (Expr.toNodes items))]
  | .tuple items => typed "Tuple" [("elts", listed (Expr.toNodes items))]
  | .await value => typed "Await" [("value", value.toNode)]
  | .lambda params body =>
    typed "Lambda"
      [("args", ParamPart.arguments (Expr.paramParts params)), ("body", body.toNode)]
  | .dict keys values =>
    typed "Dict" [("keys", listed (Expr.toNodes keys)), ("values", listed (Expr.toNodes values))]
  | .joinedStr values => typed "JoinedStr" [("values", listed (Expr.toNodes values))]

/-- Several expressions as documents. -/
def Expr.toNodes : List Expr → List Node
  | [] => []
  | first :: rest => first.toNode :: Expr.toNodes rest

/-- The keyword arguments of a call as documents. -/
def Expr.keywordNodes : List (String × Expr) → List Node
  | [] => []
  | (id, value) :: rest =>
    typed "keyword" [("arg", optionalText id), ("value", value.toNode)] ::
      Expr.keywordNodes rest

/-- What the parameters of a function contribute to a document. -/
def Expr.paramParts : List (ParamOf Expr) → List ParamPart
  | [] => []
  | ⟨id, kind, hint, defaultValue⟩ :: rest =>
    { kind
      node := typed "arg" [("arg", quoted id), ("annotation", hint.toNode)]
      value? := if defaultValue.isAbsent then none else some defaultValue.toNode } ::
      Expr.paramParts rest

end

/-! ### Statements -/

/-- An imported name as a document. -/
def Alias.toNode (name : Alias) : Node :=
  typed "alias" [("name", quoted name.name), ("asname", optionalText name.asName)]

/-- An expression that a block is entered with. -/
def withItem (value : Expr) : Node :=
  typed "withitem" [("context_expr", value.toNode)]

mutual

/-- A statement as a document. -/
def Stmt.toNode : Stmt → Node
  | .absent => nothing
  | .functionDef definition => FunctionDef.toNode "FunctionDef" definition
  | .asyncFunctionDef definition => FunctionDef.toNode "AsyncFunctionDef" definition
  | .expr value => typed "Expr" [("value", value.toNode)]
  | .assign targets value =>
    typed "Assign" [("targets", listed (Expr.toNodes targets)), ("value", value.toNode)]
  | .augAssign target op value =>
    typed "AugAssign" [("target", target.toNode), ("op", operator op), ("value", value.toNode)]
  | .annAssign target hint value =>
    typed "AnnAssign"
      [("target", target.toNode), ("annotation", hint.toNode), ("value", value.toNode)]
  | .ret value => typed "Return" [("value", value.toNode)]
  | .ifElse test body orelse =>
    typed "If"
      [("test", test.toNode), ("body", listed (Stmt.toNodes body)),
        ("orelse", listed (Stmt.toNodes orelse))]
  | .whileLoop test body orelse =>
    typed "While"
      [("test", test.toNode), ("body", listed (Stmt.toNodes body)),
        ("orelse", listed (Stmt.toNodes orelse))]
  | .forLoop target iter body orelse =>
    typed "For"
      [("target", target.toNode), ("iter", iter.toNode), ("body", listed (Stmt.toNodes body)),
        ("orelse", listed (Stmt.toNodes orelse))]
  | .pass => typed "Pass" []
  | .breakLoop => typed "Break" []
  | .continueLoop => typed "Continue" []
  | .raise exc => typed "Raise" [("exc", exc.toNode)]
  | .assert test msg => typed "Assert" [("test", test.toNode), ("msg", msg.toNode)]
  | .classDef name body =>
    typed "ClassDef" [("name", quoted name), ("body", listed (Stmt.toNodes body))]
  | .importNames names => typed "Import" [("names", listed (names.map Alias.toNode))]
  | .importFrom origin names =>
    typed "ImportFrom"
      [("module", optionalText origin), ("names", listed (names.map Alias.toNode))]
  | .globalNames names => typed "Global" [("names", listed (names.map quoted))]
  | .nonlocalNames names => typed "Nonlocal" [("names", listed (names.map quoted))]
  | .delete targets => typed "Delete" [("targets", listed (Expr.toNodes targets))]
  | .tryBlock body orelse finalbody =>
    typed "Try"
      [("body", listed (Stmt.toNodes body)), ("orelse", listed (Stmt.toNodes orelse)),
        ("finalbody", listed (Stmt.toNodes finalbody))]
  | .withBlock items body =>
    typed "With" [("items", listed (items.map withItem)), ("body", listed (Stmt.toNodes body))]

/-- Several statements as documents. -/
def Stmt.toNodes : List Stmt → List Node
  | [] => []
  | first :: rest => first.toNode :: Stmt.toNodes rest

/-- A function as a document of the given type. A decorator is a name, whatever it was before. -/
def FunctionDef.toNode (type : String) : FunctionOf Stmt → Node
  | ⟨name, params, body, decorators, returns⟩ =>
    typed type
      [("name", quoted name), ("args", ParamPart.arguments (Expr.paramParts params)),
        ("body", listed (Stmt.toNodes body)),
        ("decorator_list", listed (Expr.toNodes (decorators.map .name))),
        ("returns", returns.toNode)]

end

/-- A module as a document. -/
def Module.toNode (source : Module) : Node :=
  typed "Module" [("body", listed (Stmt.toNodes source.body))]

/-! ### Complete trees -/

/-- Whether a number is spelled so that its kind can be told from its spelling. -/
def Constant.isSpelled : Constant → Bool
  | .int text => Tag.ofPlain text = .int
  | .float text => Tag.ofPlain text = .float
  | _ => true

/-- The place of a kind of parameters in a signature. -/
def ParamKind.rank : ParamKind → Nat
  | .positionalOnly => 0
  | .positional => 1
  | .varArgs => 2
  | .keywordOnly => 3
  | .keywordArgs => 4
  | .unknown => 5

/-- Whether a parameter has no default value. -/
def ParamOf.isBare (param : Param) : Bool :=
  param.defaultValue.isAbsent

/-- A parameter without its default value. -/
def ParamOf.strip (param : Param) : Param :=
  { param with defaultValue := .absent }

/-- The parameters of one kind. -/
def ParamKind.among (kind : ParamKind) (params : List Param) : List Param :=
  params.filter fun param => param.kind = kind

/-- A list of parameters that can be a signature: the kinds come in their order, at most one
parameter collects the other positional arguments and at most one the other keyword arguments,
neither of them has a default value, and behind a positional parameter with a default value all
have one. -/
@[mk_iff] structure InOrder (params : List Param) : Prop where
  known : ∀ param ∈ params, param.kind ≠ .unknown
  sorted : params.Pairwise fun first second => first.kind.rank ≤ second.kind.rank
  varArgs : (ParamKind.varArgs.among params).length ≤ 1
  keywordArgs : (ParamKind.keywordArgs.among params).length ≤ 1
  bare : ∀ param ∈ params, param.kind = .varArgs ∨ param.kind = .keywordArgs → param.isBare
  defaults : (ParamKind.positionalOnly.among params ++ ParamKind.positional.among params).Pairwise
    fun first second => second.isBare → first.isBare

instance (params : List Param) : Decidable (InOrder params) :=
  decidable_of_iff' _ (inOrder_iff params)

mutual

/-- Whether an expression is there, and so is everything that it needs. -/
def Expr.isComplete : Expr → Bool
  | .absent => false
  | .constant value => value.isSpelled
  | .name _ => true
  | .binOp left _ right => left.isComplete && right.isComplete
  | .unaryOp _ operand => operand.isComplete
  | .boolOp _ values => Expr.allComplete values
  | .compare left ops comparators =>
    left.isComplete && ops.length = comparators.length && Expr.allComplete comparators
  | .call function arguments keywords =>
    function.isComplete && Expr.allComplete arguments && Expr.keywordsComplete keywords
  | .attribute value _ => value.isComplete
  | .subscript value slice => value.isComplete && slice.isComplete
  | .list items => Expr.allComplete items
  | .tuple items => Expr.allComplete items
  | .await value => value.isComplete
  | .lambda params body =>
    decide (InOrder params) && Expr.paramsComplete params && body.isComplete
  | .dict keys values => Expr.allComplete keys && Expr.allComplete values
  | .joinedStr values => Expr.allComplete values

/-- Whether the expressions of a list are complete, as far as they are there. -/
def Expr.allComplete : List Expr → Bool
  | [] => true
  | first :: rest => (first.isAbsent || first.isComplete) && Expr.allComplete rest

/-- Whether the values of keyword arguments are complete. -/
def Expr.keywordsComplete : List (String × Expr) → Bool
  | [] => true
  | (_, value) :: rest => value.isComplete && Expr.keywordsComplete rest

/-- Whether the hints and default values of parameters are complete, as far as they are there. -/
def Expr.paramsComplete : List (ParamOf Expr) → Bool
  | [] => true
  | ⟨_, _, hint, defaultValue⟩ :: rest =>
    (hint.isAbsent || hint.isComplete) && (defaultValue.isAbsent || defaultValue.isComplete) &&
      Expr.paramsComplete rest

end

/-- Whether an expression is complete if it is there. -/
def Expr.isOptional (value : Expr) : Bool :=
  value.isAbsent || value.isComplete

mutual

/-- Whether a statement is there, and so is everything that it needs. -/
def Stmt.isComplete : Stmt → Bool
  | .absent => false
  | .functionDef definition => FunctionDef.isComplete definition
  | .asyncFunctionDef definition => FunctionDef.isComplete definition
  | .expr value => value.isComplete
  | .assign targets value => Expr.allComplete targets && value.isComplete
  | .augAssign target _ value => target.isComplete && value.isComplete
  | .annAssign target hint value => target.isComplete && hint.isComplete && value.isOptional
  | .ret value => value.isOptional
  | .ifElse test body orelse =>
    test.isComplete && Stmt.allComplete body && Stmt.allComplete orelse
  | .whileLoop test body orelse =>
    test.isComplete && Stmt.allComplete body && Stmt.allComplete orelse
  | .forLoop target iter body orelse =>
    target.isComplete && iter.isComplete && Stmt.allComplete body && Stmt.allComplete orelse
  | .pass => true
  | .breakLoop => true
  | .continueLoop => true
  | .raise exc => exc.isOptional
  | .assert test msg => test.isComplete && msg.isOptional
  | .classDef _ body => Stmt.allComplete body
  | .importNames _ => true
  | .importFrom _ _ => true
  | .globalNames _ => true
  | .nonlocalNames _ => true
  | .delete targets => Expr.allComplete targets
  | .tryBlock body orelse finalbody =>
    Stmt.allComplete body && Stmt.allComplete orelse && Stmt.allComplete finalbody
  | .withBlock items body => items.all Expr.isComplete && Stmt.allComplete body

/-- Whether all statements of a list are complete. -/
def Stmt.allComplete : List Stmt → Bool
  | [] => true
  | first :: rest => first.isComplete && Stmt.allComplete rest

/-- Whether the parameters, the body and the result of a function are complete. -/
def FunctionDef.isComplete : FunctionOf Stmt → Bool
  | ⟨_, params, body, _, returns⟩ =>
    decide (InOrder params) && Expr.paramsComplete params && Stmt.allComplete body &&
      returns.isOptional

end

/-- Whether all statements of a module are complete. -/
def Module.isComplete (source : Module) : Bool :=
  Stmt.allComplete source.body

/-! ### Documents that say more -/

/-- Whether a node says all that another one says. Lines do not count, an object may have further
fields, and what is null may be left out. -/
inductive Document.Node.Holds : Node → Node → Prop where
  | refl (node : Node) : Holds node node
  | null (line other : Nat) (text otherText : String) :
      Holds (.scalar line .null text) (.scalar other .null otherText)
  | scalar (line other : Nat) (tag : Tag) (text : String) :
      Holds (.scalar line tag text) (.scalar other tag text)
  | list (line other : Nat) {items others : List Node} (each : List.Forall₂ Holds items others) :
      Holds (.list line items) (.list other others)
  | object (line other : Nat) {entries others : List (Node × Node)}
      (has : ∀ key part, field? others key = some part → Holds (field entries key) part) :
      Holds (.object line entries) (.object other others)

end Oxide
