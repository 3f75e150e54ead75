/-
This file reads syntax trees from documents. A node of the tree is an object that names its type
in one field and has its parts in the others; what is left out counts as null. The first fault
that is met while the fields are read in order is the one reported, with the path to it.
-/

import Oxide.Document
import Oxide.Document.Value
import Oxide.Tree.Dump
import Oxide.Failure

namespace Oxide

open Document
open Document.Node (field field?)

/-! ### Faults -/

/-- Why a document is no syntax tree. -/
inductive ReadFault where
  | document (fault : Fault)
  | objectExpected (line : Nat) (kind : String)
  | untyped (line : Nat)
  | unknownNode (line : Nat) (type : String)
  | statementsExpected (line : Nat) (kind : String)
  | expressionsExpected (line : Nat) (kind : String)
  | expressionExpected
  | operatorExpected
  | constantExpected (line : Nat) (kind : String)
  | unevenComparison (line ops comparators : Nat)
  | surplusDefaults (defaults params : Nat)
  | surplusKeywordDefaults
  deriving DecidableEq

/-- The field that names the type of a node. -/
def typeKey : String := "_type"

/-- A wording with the line put before it. -/
def atLine (line : Nat) (wording : String) : String :=
  "line " ++ toString line ++ ": " ++ wording

/-- The wording of a fault. -/
def ReadFault.message : ReadFault → String
  | .document fault => fault.message
  | .objectExpected line kind => atLine line ("object expected, got " ++ kind)
  | .untyped line => atLine line ("no " ++ typeKey ++ " key")
  | .unknownNode line type => atLine line ("unknown node type: " ++ type)
  | .statementsExpected line kind => atLine line ("statement list expected, got " ++ kind)
  | .expressionsExpected line kind => atLine line ("expression list expected, got " ++ kind)
  | .expressionExpected => "expression expected"
  | .operatorExpected => "operator expected"
  | .constantExpected line kind => atLine line ("constant scalar expected, got " ++ kind)
  | .unevenComparison line ops comparators =>
    atLine line (toString ops ++ " compare ops for " ++ toString comparators ++ " comparators")
  | .surplusDefaults defaults params =>
    toString defaults ++ " defaults for " ++ toString params ++ " parameters"
  | .surplusKeywordDefaults => "too many kw_defaults"

/-- The result of reading, or a fault and the path to it. -/
abbrev Read (α : Type) := Attempt ReadFault α

namespace Read

/-- Fails here for the given fault. -/
def fail {α : Type} (fault : ReadFault) : Read α :=
  Attempt.fail fault

/-- A result of reading a value from a document. -/
def ofDocument {α : Type} (result : Except Fault α) : Read α :=
  result.mapError fun fault => ⟨[], .document fault⟩

/-! ### Parts without parts of their own -/

/-- The entries of an object and the type that it names. -/
def typed : Node → Read (String × List (Node × Node))
  | .object line entries =>
    match field? entries typeKey with
    | some type => .ok (type.text, entries)
    | none => fail (.untyped line)
  | node => fail (.objectExpected node.line node.kind)

/-- The text of a field, which is empty if it is null. -/
def text (entries : List (Node × Node)) (key : String) : String :=
  let value := field entries key
  if value.isNull then "" else value.text

/-- A constant. -/
def constant : Node → Read Constant
  | .scalar _ tag text =>
    match tag with
    | .null => .ok .none
    | .bool =>
      match Tag.truth? text with
      | some truth => .ok (.bool truth)
      | none => Attempt.inside "bool constant" (fail (.document .value))
    | .int => .ok (.int text)
    | .float => .ok (.float text)
    | _ => .ok (.str text)
  | node => fail (.constantExpected node.line node.kind)

/-- An operator, which is an object with a type or just a name. -/
def operator (node : Node) : Read String :=
  if node.isNull then fail .operatorExpected
  else match node with
    | .scalar _ _ text => .ok text
    | node => (typed node).map Prod.fst

/-- Imported names. -/
def aliases : List Node → Read (List Alias)
  | [] => .ok []
  | first :: rest => do
    let (_, entries) ← typed first
    let others ← aliases rest
    return { name := text entries "name", asName := text entries "asname" } :: others

/-- A list of names. -/
def names (node : Node) : Read (List String) :=
  if node.isNull then .ok []
  else Attempt.inside ("line " ++ toString node.line) (ofDocument node.strings)

/-- An expression that may be left out. -/
def optional (node : Node) (result : Read Expr) : Read Expr :=
  if node.isNull then .ok .absent else result

/-! ### Defaults -/

/-- Gives the last parameters the default values, in order. -/
def withDefaults (params : List Param) (defaults : List Expr) : List Param :=
  let plain := params.length - defaults.length
  params.take plain ++
    (params.drop plain).zipWith (fun param value => { param with defaultValue := value }) defaults

/-- Gives the first parameters the default values, in order. -/
def withLeadingDefaults : List Param → List Expr → List Param
  | param :: params, value :: values =>
    { param with defaultValue := value } :: withLeadingDefaults params values
  | params, _ => params

/-! ### Parameters -/

/-- The nodes of one kind of parameters, a single one or a list, with their places. -/
def labelled (entries : List (Node × Node)) (key : String) : List (String × Node) :=
  match field entries key with
  | .object line parts => [(key, .object line parts)]
  | .list _ items =>
    items.zipIdx.map fun (node, number) => (key ++ " " ++ toString number, node)
  | _ => []

theorem weight_labelled_lt (line : Nat) (entries : List (Node × Node)) (key : String) :
    Node.weightOfItems ((labelled entries key).map Prod.snd) <
      (Node.object line entries).weight := by
  have least : 1 < (Node.object line entries).weight := by
    simp only [Node.weight]
    omega
  cases found : field? entries key with
  | none =>
    have empty : labelled entries key = [] := by simp [labelled, field, found, Node.null]
    simp only [empty, List.map_nil, Node.weightOfItems]
    omega
  | some value =>
    have bound := Node.weight_field?_add_two_le line found
    have same : field entries key = value := by simp [field, found]
    rw [labelled, same]
    cases value with
    | list listLine items =>
      simp only [List.map_map, Function.comp_def, List.zipIdx_map_fst]
      simp only [Node.weight] at bound ⊢
      omega
    | object objectLine parts =>
      simp only [List.map_cons, List.map_nil, Node.weightOfItems]
      omega
    | scalar => simp only [List.map_nil, Node.weightOfItems]; omega
    | reference => simp only [List.map_nil, Node.weightOfItems]; omega
    | circular => simp only [List.map_nil, Node.weightOfItems]; omega

/-! ### Expressions -/

mutual

/-- An expression. -/
def expr : Node → Read Expr
  | .object line entries =>
    match field? entries typeKey with
    | none => fail (.untyped line)
    | some type =>
      match type.text with
      | "Constant" => return .constant (← constant (field entries "value"))
      | "Name" => return .name (text entries "id")
      | "BinOp" => do
        let left ← Attempt.inside "binop left" (expr (field entries "left"))
        let op ← Attempt.inside "binop op" (operator (field entries "op"))
        let right ← Attempt.inside "binop right" (expr (field entries "right"))
        return .binOp left op right
      | "UnaryOp" => do
        let op ← Attempt.inside "unaryop op" (operator (field entries "op"))
        let operand ← Attempt.inside "unaryop operand" (expr (field entries "operand"))
        return .unaryOp op operand
      | "BoolOp" => do
        let op ← Attempt.inside "boolop op" (operator (field entries "op"))
        let values ← Attempt.inside "boolop values" (exprs (field entries "values"))
        return .boolOp op values
      | "Compare" => do
        let left ← Attempt.inside "compare left" (expr (field entries "left"))
        let ops ← (field entries "ops").parts.mapM fun node =>
          Attempt.inside "compare op" (operator node)
        let comparators ←
          Attempt.inside "compare comparators" (exprs (field entries "comparators"))
        if ops.length ≠ comparators.length then
          fail (.unevenComparison line ops.length comparators.length)
        return .compare left ops comparators
      | "Call" => do
        let function ← Attempt.inside "call func" (expr (field entries "func"))
        let arguments ← Attempt.inside "call args" (exprs (field entries "args"))
        let keywords ← keywords (field entries "keywords").parts
        return .call function arguments keywords
      | "Attribute" => do
        let value ← Attempt.inside "attribute value" (expr (field entries "value"))
        return .attribute value (text entries "attr")
      | "Subscript" => do
        let value ← Attempt.inside "subscript value" (expr (field entries "value"))
        let slice ← Attempt.inside "subscript slice" (expr (field entries "slice"))
        return .subscript value slice
      | "Index" => expr (field entries "value")
      | "List" => return .list (← Attempt.inside "list" (exprs (field entries "elts")))
      | "Tuple" => return .tuple (← Attempt.inside "tuple" (exprs (field entries "elts")))
      | "Await" => return .await (← Attempt.inside "await" (expr (field entries "value")))
      | "Lambda" => do
        let params ← Attempt.inside "lambda args" (params (field entries "args"))
        let body ← Attempt.inside "lambda body" (expr (field entries "body"))
        return .lambda params body
      | "Dict" => do
        let keys ← Attempt.inside "dict keys" (exprs (field entries "keys"))
        let values ← Attempt.inside "dict values" (exprs (field entries "values"))
        return .dict keys values
      | "JoinedStr" =>
        return .joinedStr (← Attempt.inside "joinedstr" (exprs (field entries "values")))
      | unknown => fail (.unknownNode line unknown)
  | node =>
    if node.isNull then fail .expressionExpected
    else fail (.objectExpected node.line node.kind)
termination_by node => node.weight
decreasing_by
  all_goals first
    | exact Node.weight_field_lt _ _ _
    | exact Nat.lt_trans (Node.weightOfItems_parts_lt _) (Node.weight_field_lt _ _ _)

/-- A list of expressions, each of which may be left out. -/
def exprs : Node → Read (List Expr)
  | .list _ items => exprItems 0 items
  | node =>
    if node.isNull then .ok [] else fail (.expressionsExpected node.line node.kind)
termination_by node => node.weight
decreasing_by
  simp only [Node.weight]
  omega

/-- The expressions of a list from the given number on. -/
def exprItems (number : Nat) : List Node → Read (List Expr)
  | [] => .ok []
  | first :: rest => do
    let value ← Attempt.inside ("expr " ++ toString number) (optional first (expr first))
    let values ← exprItems (number + 1) rest
    return value :: values
termination_by items => Node.weightOfItems items
decreasing_by
  all_goals
    simp only [Node.weightOfItems]
    omega

/-- The keyword arguments of a call. -/
def keywords : List Node → Read (List (String × Expr))
  | [] => .ok []
  | first :: rest => do
    let keyword ← Attempt.inside "call keyword" (keyword first)
    let others ← keywords rest
    return keyword :: others
termination_by items => Node.weightOfItems items
decreasing_by
  all_goals
    simp only [Node.weightOfItems]
    omega

/-- A keyword argument. -/
def keyword : Node → Read (String × Expr)
  | .object line entries =>
    match field? entries typeKey with
    | none => fail (.untyped line)
    | some _ => do
      let value ← expr (field entries "value")
      return (text entries "arg", value)
  | node => fail (.objectExpected node.line node.kind)
termination_by node => node.weight
decreasing_by exact Node.weight_field_lt _ _ _

/-- The parameters of a function in the order of its signature. Default values belong to the last of
the positional parameters, and those of the keyword parameters are listed one by one. -/
def params : Node → Read (List Param)
  | .object line entries =>
    match field? entries typeKey with
    | none => fail (.untyped line)
    | some _ => do
      let positionalOnly ← paramItems .positionalOnly (labelled entries "posonlyargs")
      let ordinary ← paramItems .positional (labelled entries "args")
      let positional := positionalOnly ++ ordinary
      let defaults ← Attempt.inside "defaults" (exprs (field entries "defaults"))
      if positional.length < defaults.length then
        fail (.surplusDefaults defaults.length positional.length)
      let varArgs ← paramItems .varArgs (labelled entries "vararg")
      let keywordOnly ← paramItems .keywordOnly (labelled entries "kwonlyargs")
      let keywordDefaults ←
        keywordDefaults keywordOnly.length 0 (field entries "kw_defaults").parts
      let keywordArgs ← paramItems .keywordArgs (labelled entries "kwarg")
      return withDefaults positional defaults ++ varArgs ++
        withLeadingDefaults keywordOnly keywordDefaults ++ keywordArgs
  | node => if node.isNull then .ok [] else fail (.objectExpected node.line node.kind)
termination_by node => node.weight
decreasing_by
  all_goals first
    | exact Node.weight_field_lt _ _ _
    | exact weight_labelled_lt _ _ _
    | exact Nat.lt_trans (Node.weightOfItems_parts_lt _) (Node.weight_field_lt _ _ _)

/-- The parameters among nodes that are given with their places. -/
def paramItems (kind : ParamKind) : List (String × Node) → Read (List Param)
  | [] => .ok []
  | (place, first) :: rest => do
    let param ← Attempt.inside place (param kind first)
    let others ← paramItems kind rest
    return param :: others
termination_by items => Node.weightOfItems (items.map Prod.snd)
decreasing_by
  all_goals
    simp only [List.map_cons, Node.weightOfItems]
    omega

/-- A parameter. -/
def param (kind : ParamKind) : Node → Read Param
  | .object line entries =>
    match field? entries typeKey with
    | none => fail (.untyped line)
    | some _ => do
      let name := text entries "arg"
      let hint ← Attempt.inside (name ++ ": annotation")
        (optional (field entries "annotation") (expr (field entries "annotation")))
      return { name, kind, hint, defaultValue := .absent }
  | node => fail (.objectExpected node.line node.kind)
termination_by node => node.weight
decreasing_by exact Node.weight_field_lt _ _ _

/-- The default values of keyword parameters from the given number on, of which there are at most as
many as parameters. -/
def keywordDefaults (count number : Nat) : List Node → Read (List Expr)
  | [] => .ok []
  | first :: rest => do
    if count ≤ number then fail .surplusKeywordDefaults
    let value ← Attempt.inside ("kw_defaults " ++ toString number) (optional first (expr first))
    let others ← keywordDefaults count (number + 1) rest
    return value :: others
termination_by items => Node.weightOfItems items
decreasing_by
  all_goals
    simp only [Node.weightOfItems]
    omega

end

/-! ### Statements -/

/-- The name of a decorator: the path of names that it starts with, or else its printed form. -/
def decoratorName : Expr → String
  | .name id => id
  | .attribute value attr => decoratorName value ++ "." ++ attr
  | .call function _ _ => decoratorName function
  | other => other.dump

/-- The expressions that a block is entered with. -/
def withItems : List Node → Read (List Expr)
  | [] => .ok []
  | first :: rest => do
    let item ← Attempt.inside "with item" do
      let (_, entries) ← typed first
      expr (field entries "context_expr")
    let others ← withItems rest
    return item :: others

/-- An expression in a field, which may be left out. -/
def optionalField (entries : List (Node × Node)) (key : String) : Read Expr :=
  optional (field entries key) (expr (field entries key))

/-- A function from its parameters, its body and the entries with its decorators and its result. -/
def signature (entries : List (Node × Node)) (params : List Param) (body : List Stmt) :
    Read FunctionDef := do
  let name := text entries "name"
  let decorators ←
    Attempt.inside ("def " ++ name ++ ": decorators") (exprs (field entries "decorator_list"))
  let returns ← Attempt.inside ("def " ++ name ++ ": returns") (optionalField entries "returns")
  return { name, params, body, decorators := decorators.map decoratorName, returns }

mutual

/-- A statement. -/
def stmt : Node → Read Stmt
  | .object line entries =>
    match field? entries typeKey with
    | none => fail (.untyped line)
    | some type =>
      match type.text with
      | "FunctionDef" | "AsyncFunctionDef" => do
        let name := text entries "name"
        let params ← Attempt.inside ("def " ++ name ++ ": args") (params (field entries "args"))
        let body ← Attempt.inside ("def " ++ name ++ ": body") (stmts (field entries "body"))
        let definition ← signature entries params body
        return if type.text = "FunctionDef" then .functionDef definition
          else .asyncFunctionDef definition
      | "Expr" => return .expr (← Attempt.inside "expr value" (expr (field entries "value")))
      | "Assign" => do
        let targets ← Attempt.inside "assign targets" (exprs (field entries "targets"))
        let value ← Attempt.inside "assign value" (expr (field entries "value"))
        return .assign targets value
      | "AugAssign" => do
        let target ← Attempt.inside "augassign target" (expr (field entries "target"))
        let op ← Attempt.inside "augassign op" (operator (field entries "op"))
        let value ← Attempt.inside "augassign value" (expr (field entries "value"))
        return .augAssign target op value
      | "AnnAssign" => do
        let target ← Attempt.inside "annassign target" (expr (field entries "target"))
        let hint ←
          Attempt.inside "annassign annotation" (expr (field entries "annotation"))
        let value ← Attempt.inside "annassign value" (optionalField entries "value")
        return .annAssign target hint value
      | "Return" =>
        return .ret (← Attempt.inside "return value" (optionalField entries "value"))
      | "If" => Attempt.inside "if" do
        let test ← Attempt.inside "test" (expr (field entries "test"))
        let body ← Attempt.inside "body" (stmts (field entries "body"))
        let orelse ← Attempt.inside "orelse" (stmts (field entries "orelse"))
        return .ifElse test body orelse
      | "While" => Attempt.inside "while" do
        let test ← Attempt.inside "test" (expr (field entries "test"))
        let body ← Attempt.inside "body" (stmts (field entries "body"))
        let orelse ← Attempt.inside "orelse" (stmts (field entries "orelse"))
        return .whileLoop test body orelse
      | "For" => do
        let target ← Attempt.inside "for target" (expr (field entries "target"))
        let iter ← Attempt.inside "for iter" (expr (field entries "iter"))
        let body ← Attempt.inside "for body" (stmts (field entries "body"))
        let orelse ← Attempt.inside "for orelse" (stmts (field entries "orelse"))
        return .forLoop target iter body orelse
      | "Pass" => return .pass
      | "Break" => return .breakLoop
      | "Continue" => return .continueLoop
      | "Raise" => return .raise (← Attempt.inside "raise exc" (optionalField entries "exc"))
      | "Assert" => do
        let test ← Attempt.inside "assert test" (expr (field entries "test"))
        let msg ← Attempt.inside "assert msg" (optionalField entries "msg")
        return .assert test msg
      | "ClassDef" => do
        let name := text entries "name"
        let body ← Attempt.inside ("class " ++ name ++ " body") (stmts (field entries "body"))
        return .classDef name body
      | "Import" =>
        return .importNames (← Attempt.inside "import" (aliases (field entries "names").parts))
      | "ImportFrom" => do
        let names ← Attempt.inside "import from" (aliases (field entries "names").parts)
        return .importFrom (text entries "module") names
      | "Global" =>
        return .globalNames (← Attempt.inside "global" (names (field entries "names")))
      | "Nonlocal" =>
        return .nonlocalNames (← Attempt.inside "nonlocal" (names (field entries "names")))
      | "Delete" =>
        return .delete (← Attempt.inside "delete" (exprs (field entries "targets")))
      | "Try" | "TryStar" => do
        let body ← Attempt.inside "try body" (stmts (field entries "body"))
        let orelse ← Attempt.inside "try orelse" (stmts (field entries "orelse"))
        let finalbody ← Attempt.inside "try finalbody" (stmts (field entries "finalbody"))
        return .tryBlock body orelse finalbody
      | "With" | "AsyncWith" => do
        let items ← withItems (field entries "items").parts
        let body ← Attempt.inside "with body" (stmts (field entries "body"))
        return .withBlock items body
      | unknown => fail (.unknownNode line unknown)
  | node => fail (.objectExpected node.line node.kind)
termination_by node => node.weight
decreasing_by all_goals exact Node.weight_field_lt _ _ _

/-- A list of statements. -/
def stmts : Node → Read (List Stmt)
  | .list _ items => stmtItems 0 items
  | node => if node.isNull then .ok [] else fail (.statementsExpected node.line node.kind)
termination_by node => node.weight
decreasing_by
  simp only [Node.weight]
  omega

/-- The statements of a list from the given number on. -/
def stmtItems (number : Nat) : List Node → Read (List Stmt)
  | [] => .ok []
  | first :: rest => do
    let statement ← Attempt.inside ("stmt " ++ toString number) (stmt first)
    let others ← stmtItems (number + 1) rest
    return statement :: others
termination_by items => Node.weightOfItems items
decreasing_by
  all_goals
    simp only [Node.weightOfItems]
    omega

end

/-! ### Modules -/

/-- A module: an object of that type, a list of statements, or a single statement. -/
def moduleOfNode : Node → Read Module
  | .list line items => return ⟨← stmts (.list line items)⟩
  | node => do
    let (type, entries) ← typed node
    if type = "Module" then
      return ⟨← Attempt.inside "module body" (stmts (field entries "body"))⟩
    else return ⟨[← stmt node]⟩

/-- The module in a text. -/
def moduleOfText (text : Text.Bytes) : Read Module := do
  match ← Attempt.inside "unmarshal" (ofDocument (Document.read text)) with
  | some root => moduleOfNode root
  | none => fail (.objectExpected 0 "unknown")

end Read

end Oxide
