/-
This file says what a tree is printed as in terms of what its parts are printed as. A node is its
name with its fields in parentheses: those fields that are there, each with its label, and a comma
before every one but the first. The text of a field is what its part is printed as on its own, so
the printer composes although it has only one count of fields for all levels.
-/

import Oxide.Proofs.DistinctDumps

namespace Oxide

open Form Dumper

/-! ### Texts of nodes -/

/-- The fields that are there, each with its label, and a comma between any two of them. -/
def fieldsText (fields : List (String × Option String)) : String :=
  ", ".intercalate (fields.filterMap fun (key, value?) =>
    value?.map fun value => key ++ "=" ++ value)

/-- A node with its fields. -/
def nodeText (name : String) (fields : List (String × Option String)) : String :=
  name ++ "(" ++ fieldsText fields ++ ")"

/-- A list. -/
def listText (items : List String) : String :=
  "[" ++ ", ".intercalate items ++ "]"

/-- An imported name; an empty second name is left out. -/
def Alias.outline (imported : Alias) : String :=
  nodeText "alias" [("name", some (dumpText imported.name)),
    ("asname", if imported.asName = "" then none else some (dumpText imported.asName))]

/-- An expression on its own, where it is there. -/
def Expr.dump? (value : Expr) : Option String :=
  if value.isAbsent then none else some value.dump

/-- A keyword argument. -/
def Expr.keywordOutline : String × Expr → String
  | (key, value) => nodeText "keyword" [("arg", some (dumpText key)), ("value", some value.dump)]

/-- A parameter; that it is positional is not said. -/
def Param.outline (param : Param) : String :=
  nodeText "arg" [("arg", some (dumpText param.name)),
    ("kind", if param.kind = .positional then none else some param.kind.label),
    ("annotation", param.hint.dump?), ("default", param.defaultValue.dump?)]

/-- A parameter list, which has its parameters in place of fields. -/
def Param.clauseOutline (params : List Param) : String :=
  "arguments(" ++ ", ".intercalate (params.map Param.outline) ++ ")"

/-- An expression, made from what its parts are printed as on their own. -/
def Expr.outline : Expr → String
  | .absent => "None"
  | .constant value => nodeText "Constant" [("value", some (Dumper.constant value))]
  | .name id => nodeText "Name" [("id", some (dumpText id))]
  | .binOp left op right =>
    nodeText "BinOp" [("left", left.dump?), ("op", some (nodeText op [])), ("right", right.dump?)]
  | .unaryOp op operand =>
    nodeText "UnaryOp" [("op", some (nodeText op [])), ("operand", operand.dump?)]
  | .boolOp op values =>
    nodeText "BoolOp" [("op", some (nodeText op [])), ("values", some (listText (values.map dump)))]
  | .compare left ops comparators =>
    nodeText "Compare" [("left", left.dump?), ("ops", some (listText (ops.map (nodeText · [])))),
      ("comparators", some (listText (comparators.map dump)))]
  | .call function arguments keywords =>
    nodeText "Call" [("func", function.dump?), ("args", some (listText (arguments.map dump))),
      ("keywords",
        if keywords.isEmpty then none else some (listText (keywords.map keywordOutline)))]
  | .attribute value attr =>
    nodeText "Attribute" [("value", value.dump?), ("attr", some (dumpText attr))]
  | .subscript value slice =>
    nodeText "Subscript" [("value", value.dump?), ("slice", slice.dump?)]
  | .list items => nodeText "List" [("elts", some (listText (items.map dump)))]
  | .tuple items => nodeText "Tuple" [("elts", some (listText (items.map dump)))]
  | .await value => nodeText "Await" [("value", value.dump?)]
  | .lambda params body =>
    nodeText "Lambda" [("args", some (Param.dumpClause params)), ("body", body.dump?)]
  | .dict keys values =>
    nodeText "Dict" [("keys", some (listText (keys.map dump))),
      ("values", some (listText (values.map dump)))]
  | .joinedStr values => nodeText "JoinedStr" [("values", some (listText (values.map dump)))]

/-- The statements of a block, where there are any. -/
def Stmt.blockDump? (body : List Stmt) : Option String :=
  if body.isEmpty then none else some (listText (body.map Stmt.dump))

/-- A function under the given node name. -/
def FunctionDef.outline (node : String) (definition : FunctionDef) : String :=
  nodeText node [("name", some (dumpText definition.name)),
    ("args", some (Param.dumpClause definition.params)),
    ("body", some (listText (definition.body.map Stmt.dump))),
    ("decorator_list", some (listText (definition.decorators.map dumpText))),
    ("returns", definition.returns.dump?)]

/-- A statement, made from what its parts are printed as on their own. -/
def Stmt.outline : Stmt → String
  | .absent => "None"
  | .functionDef definition => FunctionDef.outline "FunctionDef" definition
  | .asyncFunctionDef definition => FunctionDef.outline "AsyncFunctionDef" definition
  | .expr value => nodeText "Expr" [("value", value.dump?)]
  | .assign targets value =>
    nodeText "Assign" [("targets", some (listText (targets.map Expr.dump))),
      ("value", value.dump?)]
  | .augAssign target op value =>
    nodeText "AugAssign" [("target", target.dump?), ("op", some (nodeText op [])),
      ("value", value.dump?)]
  | .annAssign target hint value =>
    nodeText "AnnAssign" [("target", target.dump?), ("annotation", hint.dump?),
      ("value", value.dump?)]
  | .ret value => nodeText "Return" [("value", value.dump?)]
  | .ifElse test body orelse =>
    nodeText "If" [("test", test.dump?), ("body", some (listText (body.map dump))),
      ("orelse", blockDump? orelse)]
  | .whileLoop test body orelse =>
    nodeText "While" [("test", test.dump?), ("body", some (listText (body.map dump))),
      ("orelse", blockDump? orelse)]
  | .forLoop target iter body orelse =>
    nodeText "For" [("target", target.dump?), ("iter", iter.dump?),
      ("body", some (listText (body.map dump))), ("orelse", blockDump? orelse)]
  | .pass => nodeText "Pass" []
  | .breakLoop => nodeText "Break" []
  | .continueLoop => nodeText "Continue" []
  | .raise exc => nodeText "Raise" [("exc", exc.dump?)]
  | .assert test msg => nodeText "Assert" [("test", test.dump?), ("msg", msg.dump?)]
  | .classDef name body =>
    nodeText "ClassDef" [("name", some (dumpText name)),
      ("body", some (listText (body.map dump)))]
  | .importNames names =>
    nodeText "Import" [("names", some (listText (names.map Alias.outline)))]
  | .importFrom origin names =>
    nodeText "ImportFrom" [("module", some (dumpText origin)),
      ("names", some (listText (names.map Alias.outline)))]
  | .globalNames names => nodeText "Global" [("names", some (listText (names.map dumpText)))]
  | .nonlocalNames names => nodeText "Nonlocal" [("names", some (listText (names.map dumpText)))]
  | .delete targets => nodeText "Delete" [("targets", some (listText (targets.map Expr.dump)))]
  | .tryBlock body orelse finalbody =>
    nodeText "Try" [("body", some (listText (body.map dump))), ("orelse", blockDump? orelse),
      ("finalbody", blockDump? finalbody)]
  | .withBlock items body =>
    nodeText "With" [("items", some (listText (items.map Expr.dump))),
      ("body", some (listText (body.map dump)))]

/-- A module, made from what its statements are printed as on their own. -/
def Module.outline (source : Module) : String :=
  nodeText "Module" [("body", some (listText (source.body.map Stmt.dump)))]

namespace SyntaxTree

/-- Prints a tree behind what is printed already. -/
def dumpOn : SyntaxTree → Dumper → Dumper
  | .module source => fun dumper =>
    ((dumper.openNode "Module").listField "body" (Stmt.dumpListOn source.body)).closeNode
  | .stmt value => value.dumpOn
  | .expr value => value.dumpOn
  | .params values => Param.dumpClauseOn values

/-- A tree, made from what its parts are printed as on their own. -/
def outline : SyntaxTree → String
  | .module source => source.outline
  | .stmt value => value.outline
  | .expr value => value.outline
  | .params values => Param.clauseOutline values

end SyntaxTree

/-! ### Texts and forms -/

/-- The parts of a form are separated by commas. -/
theorem partsChars_eq_intercalate (parts : List (Option String × Form)) :
    partsChars parts =
      [',', ' '].intercalate (parts.map fun (label, value) => labelChars label ++ value.chars) := by
  induction parts with
  | nil => simp [partsChars]
  | cons part rest inductionHypothesis =>
    rw [partsChars, inductionHypothesis]
    cases rest <;> simp

/-- If each item is printed as its form says, so is the list of them. -/
theorem toList_listText {Item : Type} {print : Item → String} {form : Item → Form}
    (each : ∀ item, (print item).toList = (form item).chars) (items : List Item) :
    (listText (items.map print)).toList = (Form.list (items.map form)).chars := by
  simp only [listText, String.toList_append, toList_intercalate each, Form.list, chars]
  simp [opening, closing]

/-- The characters of a field that is there. -/
def fieldChars? : String × Option (List Char) → Option (List Char)
  | (key, value?) => value?.map fun value => key.toList ++ '=' :: value

/-- The fields of a node are separated by commas, and those without a value are left out. -/
theorem toList_fieldsText (fields : List (String × Option String)) :
    (fieldsText fields).toList = [',', ' '].intercalate
      ((fields.map (Prod.map id (Option.map String.toList))).filterMap fieldChars?) := by
  rw [fieldsText, String.toList_intercalate, List.map_filterMap, List.filterMap_map]
  refine congrArg (fun print => [',', ' '].intercalate (fields.filterMap print)) (funext ?_)
  rintro ⟨key, _ | value⟩ <;> simp [fieldChars?]

/-- The fields of a form are the fields that are there, separated by commas. -/
theorem partsChars_shown (forms : List (String × Option Form)) :
    partsChars (shown forms) = [',', ' '].intercalate
      ((forms.map (Prod.map id (Option.map chars))).filterMap fieldChars?) := by
  rw [partsChars_eq_intercalate, shown, List.map_filterMap, List.filterMap_map]
  refine congrArg (fun print => [',', ' '].intercalate (forms.filterMap print)) (funext ?_)
  rintro ⟨key, _ | form⟩ <;> simp [fieldChars?, labelChars]

/-- A node is spelled by fields that spell those of its form. -/
theorem toList_nodeText {name : String} {fields : List (String × Option String)}
    {forms : List (String × Option Form)}
    (spelled : fields.map (Prod.map id (Option.map String.toList)) =
      forms.map (Prod.map id (Option.map chars))) :
    (nodeText name fields).toList = (Form.node name forms).chars := by
  have fieldsSpelled : (fieldsText fields).toList = partsChars (shown forms) := by
    rw [toList_fieldsText, spelled, partsChars_shown]
  simp only [nodeText, String.toList_append, fieldsSpelled, Form.node, chars]
  simp [opening, closing]

/-! ### What is printed is what the parts make -/

/-- An expression is printed as its form says. -/
theorem toList_dump_expr (value : Expr) : value.dump.toList = value.form.chars :=
  (prints_expr value).toList_run

theorem toList_dump_stmt (value : Stmt) : value.dump.toList = value.form.chars :=
  (prints_stmt value).toList_run

theorem toList_dump_params (values : List Param) :
    (Param.dumpClause values).toList = (Param.clauseForm values).chars :=
  (prints_clause (prints_params values)).toList_run

theorem Expr.forms_eq_map (items : List Expr) : Expr.forms items = items.map Expr.form := by
  induction items with
  | nil => rfl
  | cons first rest inductionHypothesis => rw [Expr.forms, inductionHypothesis, List.map_cons]

theorem Stmt.forms_eq_map (items : List Stmt) : Stmt.forms items = items.map Stmt.form := by
  induction items with
  | nil => rfl
  | cons first rest inductionHypothesis => rw [Stmt.forms, inductionHypothesis, List.map_cons]

theorem toList_listText_exprs (items : List Expr) :
    (listText (items.map Expr.dump)).toList = (Form.list (Expr.forms items)).chars := by
  rw [Expr.forms_eq_map]
  exact toList_listText toList_dump_expr items

theorem toList_listText_stmts (items : List Stmt) :
    (listText (items.map Stmt.dump)).toList = (Form.list (Stmt.forms items)).chars := by
  rw [Stmt.forms_eq_map]
  exact toList_listText toList_dump_stmt items

theorem toList_listText_texts (texts : List String) :
    (listText (texts.map dumpText)).toList = (Form.list (texts.map .quoted)).chars :=
  toList_listText (fun _ => rfl) texts

/-- An expression that is left out is printed nowhere. -/
theorem map_toList_dump? (value : Expr) :
    value.dump?.map String.toList = (value.present value.form).map chars := by
  unfold Expr.dump? Expr.present
  split
  · rfl
  · simp [toList_dump_expr]

/-- An empty block is printed nowhere. -/
theorem map_toList_blockDump? (body : List Stmt) :
    (Stmt.blockDump? body).map String.toList =
      (Stmt.blockForm? body (Stmt.forms body)).map chars := by
  unfold Stmt.blockDump? Stmt.blockForm?
  split
  · rfl
  · simp [toList_listText_stmts]

theorem toList_outline_alias (imported : Alias) :
    imported.outline.toList = imported.form.chars := by
  refine toList_nodeText ?_
  split <;> simp [chars]

theorem toList_outline_operator (op : String) :
    (nodeText op []).toList = (Form.node op []).chars :=
  toList_nodeText rfl

/-- What a keyword argument is printed as. -/
def Expr.keywordForm : String × Expr → Form
  | (key, value) => .node "keyword" [("arg", some (.quoted key)), ("value", some value.form)]

theorem Expr.keywordForms_eq_map (keywords : List (String × Expr)) :
    Expr.keywordForms keywords = keywords.map Expr.keywordForm := by
  induction keywords with
  | nil => rfl
  | cons first rest inductionHypothesis =>
    rw [Expr.keywordForms, inductionHypothesis, List.map_cons, Expr.keywordForm]

/-- A keyword argument is composed of its name and its value. -/
theorem toList_outline_keyword (keyword : String × Expr) :
    (Expr.keywordOutline keyword).toList = (Expr.keywordForm keyword).chars :=
  toList_nodeText (by simp [chars, toList_dump_expr])

theorem toList_listText_keywords (keywords : List (String × Expr)) :
    (listText (keywords.map Expr.keywordOutline)).toList =
      (Form.list (Expr.keywordForms keywords)).chars := by
  rw [Expr.keywordForms_eq_map]
  exact toList_listText toList_outline_keyword keywords

/-- What a parameter is printed as. -/
def Param.form (param : Param) : Form :=
  .node "arg" [("arg", some (.quoted param.name)), ("kind", param.kind.form?),
    ("annotation", param.hint.present param.hint.form),
    ("default", param.defaultValue.present param.defaultValue.form)]

theorem Param.forms_eq_map (params : List Param) : Param.forms params = params.map Param.form := by
  induction params with
  | nil => rfl
  | cons first rest inductionHypothesis =>
    rw [Param.forms, inductionHypothesis, List.map_cons, Param.form]

/-- A parameter is composed of its name, its kind and what may be left out. -/
theorem toList_outline_param (param : Param) : param.outline.toList = param.form.chars := by
  refine toList_nodeText ?_
  unfold ParamKind.form?
  split <;> simp [chars, map_toList_dump?]

theorem toList_clauseOutline (params : List Param) :
    (Param.clauseOutline params).toList = (Param.clauseForm params).chars := by
  simp only [Param.clauseOutline, String.toList_append, toList_intercalate toList_outline_param,
    ← Param.forms_eq_map, Param.clauseForm, chars]
  simp [opening, closing]

/-- An expression is composed of the dumps of its parts. -/
theorem toList_outline_expr (value : Expr) : value.outline.toList = value.form.chars := by
  cases value with
  | absent => rfl
  | constant value => exact toList_nodeText (by simp [toList_constant])
  | name id => exact toList_nodeText (by simp [chars])
  | binOp left op right =>
    exact toList_nodeText (by simp [map_toList_dump?, toList_outline_operator])
  | unaryOp op operand =>
    exact toList_nodeText (by simp [map_toList_dump?, toList_outline_operator])
  | boolOp op values =>
    exact toList_nodeText (by simp [toList_outline_operator, toList_listText_exprs])
  | compare left ops comparators =>
    exact toList_nodeText (by simp [map_toList_dump?, toList_listText toList_outline_operator,
      toList_listText_exprs])
  | call function arguments keywords =>
    exact toList_nodeText (by
      split <;> simp [map_toList_dump?, toList_listText_exprs, toList_listText_keywords])
  | «attribute» value attr => exact toList_nodeText (by simp [map_toList_dump?, chars])
  | subscript value slice => exact toList_nodeText (by simp [map_toList_dump?])
  | list items => exact toList_nodeText (by simp [toList_listText_exprs])
  | tuple items => exact toList_nodeText (by simp [toList_listText_exprs])
  | await value => exact toList_nodeText (by simp [map_toList_dump?])
  | lambda params body =>
    exact toList_nodeText (by simp [map_toList_dump?, toList_dump_params, Param.clauseForm])
  | dict keys values => exact toList_nodeText (by simp [toList_listText_exprs])
  | joinedStr values => exact toList_nodeText (by simp [toList_listText_exprs])

theorem toList_outline_function (node : String) (definition : FunctionDef) :
    (FunctionDef.outline node definition).toList = (FunctionDef.form node definition).chars := by
  obtain ⟨name, params, body, decorators, returns⟩ := definition
  exact toList_nodeText (by simp [map_toList_dump?, toList_dump_params, toList_listText_stmts,
    chars, toList_listText_texts])

theorem toList_outline_stmt (value : Stmt) : value.outline.toList = value.form.chars := by
  cases value with
  | absent => rfl
  | functionDef definition => exact toList_outline_function "FunctionDef" definition
  | asyncFunctionDef definition => exact toList_outline_function "AsyncFunctionDef" definition
  | expr value => exact toList_nodeText (by simp [map_toList_dump?])
  | assign targets value =>
    exact toList_nodeText (by simp [map_toList_dump?, toList_listText_exprs])
  | augAssign target op value =>
    exact toList_nodeText (by simp [map_toList_dump?, toList_outline_operator])
  | annAssign target hint value => exact toList_nodeText (by simp [map_toList_dump?])
  | ret value => exact toList_nodeText (by simp [map_toList_dump?])
  | ifElse test body orelse =>
    exact toList_nodeText (by
      simp [map_toList_dump?, toList_listText_stmts, map_toList_blockDump?])
  | whileLoop test body orelse =>
    exact toList_nodeText (by
      simp [map_toList_dump?, toList_listText_stmts, map_toList_blockDump?])
  | forLoop target iter body orelse =>
    exact toList_nodeText (by
      simp [map_toList_dump?, toList_listText_stmts, map_toList_blockDump?])
  | pass => exact toList_nodeText rfl
  | breakLoop => exact toList_nodeText rfl
  | continueLoop => exact toList_nodeText rfl
  | raise exc => exact toList_nodeText (by simp [map_toList_dump?])
  | assert test msg => exact toList_nodeText (by simp [map_toList_dump?])
  | classDef name body => exact toList_nodeText (by simp [toList_listText_stmts, chars])
  | importNames names =>
    exact toList_nodeText (by simp [toList_listText toList_outline_alias])
  | importFrom origin names =>
    exact toList_nodeText (by simp [toList_listText toList_outline_alias, chars])
  | globalNames names =>
    exact toList_nodeText (by simp [toList_listText_texts])
  | nonlocalNames names =>
    exact toList_nodeText (by simp [toList_listText_texts])
  | delete targets => exact toList_nodeText (by simp [toList_listText_exprs])
  | tryBlock body orelse finalbody =>
    exact toList_nodeText (by simp [toList_listText_stmts, map_toList_blockDump?])
  | withBlock items body =>
    exact toList_nodeText (by simp [toList_listText_exprs, toList_listText_stmts])

namespace SyntaxTree

/-- A tree of any kind is composed of the dumps of its parts. -/
theorem toList_outline (tree : SyntaxTree) : tree.outline.toList = tree.form.chars := by
  cases tree with
  | module source => exact toList_nodeText (by simp [toList_listText_stmts])
  | stmt value => exact toList_outline_stmt value
  | expr value => exact toList_outline_expr value
  | params values => exact toList_clauseOutline values

/-- Printing appends the dump to what was printed before. -/
theorem prints_dumpOn (tree : SyntaxTree) : Prints tree.dumpOn tree.form.chars := by
  cases tree with
  | module source => exact prints_module source
  | stmt value => exact prints_stmt value
  | expr value => exact prints_expr value
  | params values => exact prints_clause (prints_params values)

/-- Behind any text and with any count of fields, the printer adds the name of the node with its
fields in parentheses, each of which holds what its part is printed as on its own. From the start,
this is what the whole tree is printed as. -/
theorem dumpOn_adds_outline (tree : SyntaxTree) (dumper : Dumper) :
    (tree.dumpOn dumper).text = dumper.text ++ tree.outline ∧ tree.dump = tree.outline := by
  constructor
  · rw [← String.toList_inj, String.toList_append, toList_outline]
    exact tree.prints_dumpOn.toList dumper
  · rw [← String.toList_inj, toList_outline]
    exact tree.toList_dump

example : (stmt (.ifElse (.constant (.int "1")) [.pass, .absent] [.ret .absent])).dump =
    "If(test=Constant(value=1), body=[Pass(), None], orelse=[Return()])" := by
  decide +kernel

end SyntaxTree

end Oxide
