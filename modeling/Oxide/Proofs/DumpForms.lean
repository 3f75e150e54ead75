/-
This file gives the form that every tree is printed as, and shows that the printer writes exactly
the characters of this form behind what is printed already. The printer has only one count of
fields, which the nodes inside a field overwrite. It is zero just as long as the node that was
opened last has no field yet, because whatever is printed inside a field leaves the count at one or
more: this is what the proofs carry from one field to the next.
-/

import Mathlib.Tactic.SplitIfs
import Oxide.Proofs.Forms

namespace Oxide

/-! ### Forms of trees -/

namespace Form

/-- The labelled parts for those fields that are there. -/
def shown (fields : List (String × Option Form)) : List (Option String × Form) :=
  fields.filterMap fun (key, value?) => value?.map fun value => (some key, value)

/-- A node with its fields. -/
def node (name : String) (fields : List (String × Option Form)) : Form :=
  .group name false (shown fields)

/-- Parts without labels. -/
def unlabelled (items : List Form) : List (Option String × Form) :=
  items.map fun item => (none, item)

/-- A list. -/
def list (items : List Form) : Form :=
  .group "" true (unlabelled items)

end Form

/-- The value of a constant: only strings are quoted. -/
def Constant.form : Constant → Form
  | .str text => .quoted text
  | value => .bare value.text

/-- An imported name. -/
def Alias.form (imported : Alias) : Form :=
  .node "alias" [("name", some (.quoted imported.name)),
    ("asname", if imported.asName = "" then none else some (.quoted imported.asName))]

/-- The form of an expression that may be left out, where it is there. -/
def Expr.present (value : Expr) (form : Form) : Option Form :=
  if value.isAbsent then none else some form

/-- The kind of a parameter, which is not said of a positional one. -/
def ParamKind.form? (kind : ParamKind) : Option Form :=
  if kind = .positional then none else some (.bare kind.label)

mutual

/-- What an expression is printed as. -/
def Expr.form : Expr → Form
  | .absent => .bare "None"
  | .constant value => .node "Constant" [("value", some value.form)]
  | .name id => .node "Name" [("id", some (.quoted id))]
  | .binOp left op right =>
    .node "BinOp" [("left", left.present left.form), ("op", some (.node op [])),
      ("right", right.present right.form)]
  | .unaryOp op operand =>
    .node "UnaryOp" [("op", some (.node op [])), ("operand", operand.present operand.form)]
  | .boolOp op values =>
    .node "BoolOp" [("op", some (.node op [])), ("values", some (.list (Expr.forms values)))]
  | .compare left ops comparators =>
    .node "Compare" [("left", left.present left.form),
      ("ops", some (.list (ops.map fun op => .node op []))),
      ("comparators", some (.list (Expr.forms comparators)))]
  | .call function arguments keywords =>
    .node "Call" [("func", function.present function.form),
      ("args", some (.list (Expr.forms arguments))),
      ("keywords",
        if keywords.isEmpty then none else some (.list (Expr.keywordForms keywords)))]
  | .attribute value attr =>
    .node "Attribute" [("value", value.present value.form), ("attr", some (.quoted attr))]
  | .subscript value slice =>
    .node "Subscript" [("value", value.present value.form), ("slice", slice.present slice.form)]
  | .list items => .node "List" [("elts", some (.list (Expr.forms items)))]
  | .tuple items => .node "Tuple" [("elts", some (.list (Expr.forms items)))]
  | .await value => .node "Await" [("value", value.present value.form)]
  | .lambda params body =>
    .node "Lambda" [
      ("args", some (.group "arguments" false (Form.unlabelled (Param.forms params)))),
      ("body", body.present body.form)]
  | .dict keys values =>
    .node "Dict" [("keys", some (.list (Expr.forms keys))),
      ("values", some (.list (Expr.forms values)))]
  | .joinedStr values => .node "JoinedStr" [("values", some (.list (Expr.forms values)))]

/-- What the elements of a list are printed as. -/
def Expr.forms : List Expr → List Form
  | [] => []
  | first :: rest => first.form :: Expr.forms rest

/-- What keyword arguments are printed as. -/
def Expr.keywordForms : List (String × Expr) → List Form
  | [] => []
  | (name, value) :: rest =>
    .node "keyword" [("arg", some (.quoted name)), ("value", some value.form)] ::
      Expr.keywordForms rest

/-- What parameters are printed as. -/
def Param.forms : List (ParamOf Expr) → List Form
  | [] => []
  | ⟨name, kind, hint, defaultValue⟩ :: rest =>
    .node "arg" [("arg", some (.quoted name)), ("kind", kind.form?),
      ("annotation", hint.present hint.form),
      ("default", defaultValue.present defaultValue.form)] :: Param.forms rest

end

/-- What a parameter list is printed as. -/
def Param.clauseForm (params : List Param) : Form :=
  .group "arguments" false (Form.unlabelled (Param.forms params))

/-- The form of a block that is left out if it is empty. -/
def Stmt.blockForm? (body : List Stmt) (forms : List Form) : Option Form :=
  if body.isEmpty then none else some (.list forms)

mutual

/-- What a statement is printed as. -/
def Stmt.form : Stmt → Form
  | .absent => .bare "None"
  | .functionDef definition => FunctionDef.form "FunctionDef" definition
  | .asyncFunctionDef definition => FunctionDef.form "AsyncFunctionDef" definition
  | .expr value => .node "Expr" [("value", value.present value.form)]
  | .assign targets value =>
    .node "Assign" [("targets", some (.list (Expr.forms targets))),
      ("value", value.present value.form)]
  | .augAssign target op value =>
    .node "AugAssign" [("target", target.present target.form), ("op", some (.node op [])),
      ("value", value.present value.form)]
  | .annAssign target hint value =>
    .node "AnnAssign" [("target", target.present target.form),
      ("annotation", hint.present hint.form), ("value", value.present value.form)]
  | .ret value => .node "Return" [("value", value.present value.form)]
  | .ifElse test body orelse =>
    .node "If" [("test", test.present test.form), ("body", some (.list (Stmt.forms body))),
      ("orelse", Stmt.blockForm? orelse (Stmt.forms orelse))]
  | .whileLoop test body orelse =>
    .node "While" [("test", test.present test.form), ("body", some (.list (Stmt.forms body))),
      ("orelse", Stmt.blockForm? orelse (Stmt.forms orelse))]
  | .forLoop target iter body orelse =>
    .node "For" [("target", target.present target.form), ("iter", iter.present iter.form),
      ("body", some (.list (Stmt.forms body))),
      ("orelse", Stmt.blockForm? orelse (Stmt.forms orelse))]
  | .pass => .node "Pass" []
  | .breakLoop => .node "Break" []
  | .continueLoop => .node "Continue" []
  | .raise exc => .node "Raise" [("exc", exc.present exc.form)]
  | .assert test msg =>
    .node "Assert" [("test", test.present test.form), ("msg", msg.present msg.form)]
  | .classDef name body =>
    .node "ClassDef" [("name", some (.quoted name)), ("body", some (.list (Stmt.forms body)))]
  | .importNames names =>
    .node "Import" [("names", some (.list (names.map Alias.form)))]
  | .importFrom origin names =>
    .node "ImportFrom" [("module", some (.quoted origin)),
      ("names", some (.list (names.map Alias.form)))]
  | .globalNames names => .node "Global" [("names", some (.list (names.map .quoted)))]
  | .nonlocalNames names => .node "Nonlocal" [("names", some (.list (names.map .quoted)))]
  | .delete targets => .node "Delete" [("targets", some (.list (Expr.forms targets)))]
  | .tryBlock body orelse finalbody =>
    .node "Try" [("body", some (.list (Stmt.forms body))),
      ("orelse", Stmt.blockForm? orelse (Stmt.forms orelse)),
      ("finalbody", Stmt.blockForm? finalbody (Stmt.forms finalbody))]
  | .withBlock items body =>
    .node "With" [("items", some (.list (Expr.forms items))),
      ("body", some (.list (Stmt.forms body)))]

/-- What a function is printed as. -/
def FunctionDef.form (name : String) : FunctionOf Stmt → Form
  | ⟨id, params, body, decorators, returns⟩ =>
    .node name [("name", some (.quoted id)), ("args", some (Param.clauseForm params)),
      ("body", some (.list (Stmt.forms body))),
      ("decorator_list", some (.list (decorators.map .quoted))),
      ("returns", returns.present returns.form)]

/-- What the statements of a list are printed as. -/
def Stmt.forms : List Stmt → List Form
  | [] => []
  | first :: rest => first.form :: Stmt.forms rest

end

/-- What a module is printed as. -/
def Module.form (source : Module) : Form :=
  .node "Module" [("body", some (.list (Stmt.forms source.body)))]

/-! ### Printings -/

namespace Form

/-- A part is printed behind the others, with a comma if there are any. -/
theorem partsChars_concat (parts : List (Option String × Form)) (label : Option String)
    (value : Form) :
    partsChars (parts ++ [(label, value)]) =
      partsChars parts ++ (if parts.isEmpty then [] else [',', ' ']) ++ labelChars label ++
        value.chars := by
  induction parts with
  | nil => simp [partsChars]
  | cons part rest inductionHypothesis =>
    obtain ⟨otherLabel, other⟩ := part
    rw [List.cons_append, partsChars, inductionHypothesis, partsChars]
    cases rest <;> simp [partsChars]

theorem shown_concat (fields : List (String × Option Form)) (key : String) (value : Form) :
    shown (fields ++ [(key, some value)]) = shown fields ++ [(some key, value)] := by
  simp [shown]

/-- A field without a value is not shown. -/
theorem shown_concat_none (fields : List (String × Option Form)) (key : String) :
    shown (fields ++ [(key, none)]) = shown fields := by
  simp [shown]

/-- Items with commas between them are the parts of a list. -/
theorem toList_intercalate {Item : Type} {print : Item → String} {form : Item → Form}
    (each : ∀ item, (print item).toList = (form item).chars) (items : List Item) :
    (", ".intercalate (items.map print)).toList = partsChars (unlabelled (items.map form)) := by
  induction items with
  | nil => simp [unlabelled, partsChars]
  | cons first rest inductionHypothesis =>
    cases rest with
    | nil => simp [unlabelled, partsChars, labelChars, each]
    | cons second rest =>
      rw [List.map_cons, List.map_cons, String.intercalate_cons_cons, String.toList_append,
        String.toList_append, ← List.map_cons, inductionHypothesis, each]
      simp [unlabelled, partsChars, labelChars]

end Form

open Form

namespace Dumper

/-- A printing that adds the given characters and does not bring the count of fields back to none.
-/
structure Prints (print : Dumper → Dumper) (chars : List Char) : Prop where
  toList (dumper : Dumper) : (print dumper).text.toList = dumper.text.toList ++ chars
  fields (dumper : Dumper) : dumper.fields ≠ 0 → (print dumper).fields ≠ 0

theorem prints_write (text : String) : Prints (fun dumper => dumper.write text) text.toList :=
  ⟨fun dumper => by simp [write], fun _ some => some⟩

namespace Prints

variable {print printNext : Dumper → Dumper} {chars more : List Char}

/-- What is printed one after another stands one behind the other. -/
theorem comp (prints : Prints print chars) (next : Prints printNext more) :
    Prints (fun dumper => printNext (print dumper)) (chars ++ more) where
  toList dumper := by rw [next.toList, prints.toList, List.append_assoc]
  fields dumper some := next.fields _ (prints.fields dumper some)

theorem of_eq (prints : Prints print chars) (same : chars = more) : Prints print more :=
  same ▸ prints

theorem optional (prints : Prints print chars) (omitted : Prop) [Decidable omitted] :
    Prints (fun dumper => if omitted then dumper else print dumper)
      (if omitted then [] else chars) := by
  split
  · exact ⟨fun dumper => by simp, fun _ some => some⟩
  · exact prints

/-- The parts of a list are printed one by one. -/
theorem cons {value : Form} {values : List Form} (first : Prints print value.chars)
    (rest : Prints printNext (partsChars (unlabelled values))) {last : Bool}
    (isLast : last = values.isEmpty) :
    Prints (fun dumper => printNext (if last then print dumper else (print dumper).write ", "))
      (partsChars (unlabelled (value :: values))) where
  toList dumper := by
    have emptyEq : (unlabelled values).isEmpty = last := by simp [isLast, unlabelled]
    have split : partsChars (unlabelled (value :: values)) =
        labelChars none ++ value.chars ++ (if last then [] else [',', ' ']) ++
          partsChars (unlabelled values) := by
      rw [← emptyEq]
      rfl
    rw [rest.toList, split]
    cases last <;> simp [write, first.toList, labelChars]
  fields dumper some := by
    refine rest.fields _ ?_
    cases last <;> exact first.fields dumper some

end Prints

/-- A printer inside a node that has the given fields so far. -/
structure Opened (start : List Char) (name : String) (fields : List (String × Option Form))
    (dumper : Dumper) : Prop where
  toList : dumper.text.toList = start ++ (name.toList ++ '(' :: partsChars (shown fields))
  count : dumper.fields = 0 ↔ shown fields = []

theorem opened (dumper : Dumper) (name : String) :
    Opened dumper.text.toList name [] (dumper.openNode name) :=
  ⟨by simp [openNode, shown, partsChars], by simp [openNode, shown]⟩

namespace Opened

variable {start : List Char} {name : String} {fields : List (String × Option Form)}
  {dumper : Dumper}

/-- A field is printed behind those before it. -/
theorem field (opened : Opened start name fields dumper) (key : String)
    {print : Dumper → Dumper} {value : Form} (prints : Prints print value.chars) :
    Opened start name (fields ++ [(key, some value)]) (print (dumper.field key)) where
  toList := by
    rw [prints.toList, shown_concat, partsChars_concat]
    by_cases none : dumper.fields = 0
    · have nothing := opened.count.mp none
      simp [Dumper.field, none, opened.toList, nothing, partsChars, labelChars]
    · have something : shown fields ≠ [] := fun nothing => none (opened.count.mpr nothing)
      simp [Dumper.field, none, opened.toList, something, labelChars]
  count := by
    have counted := prints.fields (dumper.field key) (Nat.succ_ne_zero _)
    simp [shown_concat, counted]

/-- A field that is left out changes nothing. -/
theorem skip (opened : Opened start name fields dumper) (key : String) :
    Opened start name (fields ++ [(key, none)]) dumper := by
  refine ⟨?_, ?_⟩ <;> rw [shown_concat_none]
  · exact opened.toList
  · exact opened.count

theorem writeField (opened : Opened start name fields dumper) (key : String) {text : String}
    {value : Form} (same : text.toList = value.chars) :
    Opened start name (fields ++ [(key, some value)]) ((dumper.field key).write text) :=
  opened.field key ((prints_write text).of_eq same)

/-- An expression that may be left out is a field if it is there. -/
theorem exprField (opened : Opened start name fields dumper) (key : String) (value : Expr)
    {print : Dumper → Dumper} {form : Form} (prints : Prints print form.chars) :
    Opened start name (fields ++ [(key, value.present form)])
      (dumper.exprField key value print) := by
  unfold Expr.present Dumper.exprField
  split
  · exact opened.skip key
  · exact opened.field key prints

theorem opField (opened : Opened start name fields dumper) (key op : String) :
    Opened start name (fields ++ [(key, some (.node op []))]) (dumper.opField key op) :=
  opened.writeField key (by simp [operator, node, shown, chars, partsChars, opening, closing])

theorem textField (opened : Opened start name fields dumper) (key text : String) :
    Opened start name (fields ++ [(key, some (.quoted text))]) (dumper.textField key text) :=
  opened.writeField key (by rw [chars])

/-- A field that holds a list of items, each of which is written as a text of its own. -/
theorem itemsField {Item : Type} (opened : Opened start name fields dumper) (key : String)
    {print : Item → String} {form : Item → Form}
    (each : ∀ item, (print item).toList = (form item).chars) (items : List Item) :
    Opened start name (fields ++ [(key, some (.list (items.map form)))])
      ((dumper.field key).write ("[" ++ ", ".intercalate (items.map print) ++ "]")) := by
  refine opened.writeField key ?_
  rw [String.toList_append, String.toList_append, toList_intercalate each, Form.list, chars,
    opening, closing]
  simp

/-- A list is a field in brackets. -/
theorem listField (opened : Opened start name fields dumper) (key : String)
    {print : Dumper → Dumper} {items : List Form}
    (prints : Prints print (partsChars (unlabelled items))) :
    Opened start name (fields ++ [(key, some (.list items))]) (dumper.listField key print) := by
  have bracketed := ((prints_write "[").comp prints).comp (prints_write "]")
  exact opened.field key (bracketed.of_eq (by simp [Form.list, chars, opening, closing]))

/-- A field that holds a list and is left out in some cases. -/
theorem optionalListField (opened : Opened start name fields dumper) (key : String)
    {print : Dumper → Dumper} {items : List Form}
    (prints : Prints print (partsChars (unlabelled items))) (omitted : Bool) :
    Opened start name (fields ++ [(key, if omitted then none else some (.list items))])
      (if omitted then dumper else dumper.listField key print) := by
  cases omitted with
  | true => exact opened.skip key
  | false => exact opened.listField key prints

end Opened

/-- A node is printed by printing its fields one after another. -/
theorem prints_node {print : Dumper → Dumper} {name : String}
    {fields : List (String × Option Form)}
    (closes : ∀ dumper, ∃ before, Opened dumper.text.toList name fields before ∧
      print dumper = before.closeNode) :
    Prints print (Form.node name fields).chars where
  toList dumper := by
    obtain ⟨before, opened, same⟩ := closes dumper
    rw [same, closeNode, String.toList_append, opened.toList, node, chars]
    simp [opening, closing]
  fields dumper _ := by
    obtain ⟨before, -, same⟩ := closes dumper
    rw [same]
    exact Nat.one_ne_zero

end Dumper

open Dumper

/-! ### What the printer writes -/

theorem toList_constant (value : Constant) :
    (Dumper.constant value).toList = value.form.chars := by
  cases value <;> rfl

theorem toList_operator (op : String) :
    (Dumper.operator op).toList = (Form.node op []).chars := by
  simp [Dumper.operator, node, shown, chars, partsChars, opening, closing]

theorem toList_aliasText (imported : Alias) :
    (Dumper.aliasText imported).toList = imported.form.chars := by
  unfold Dumper.aliasText Alias.form
  split <;> simp [node, shown, chars, partsChars, labelChars, opening, closing]

/-- A parameter with the parts of it that are there. -/
theorem prints_param (name : String) (kind : ParamKind) {hint defaultValue : Expr}
    (printsHint : Prints hint.dumpOn hint.form.chars)
    (printsDefault : Prints defaultValue.dumpOn defaultValue.form.chars) :
    Prints (fun dumper =>
      let dumper := dumper.write ("arg(arg=" ++ dumpText name)
      let dumper := if kind = .positional then dumper else dumper.write (", kind=" ++ kind.label)
      let dumper :=
        if hint.isAbsent then dumper else hint.dumpOn (dumper.write ", annotation=")
      let dumper :=
        if defaultValue.isAbsent then dumper
        else defaultValue.dumpOn (dumper.write ", default=")
      dumper.write ")")
      (Form.node "arg" [("arg", some (.quoted name)), ("kind", kind.form?),
        ("annotation", hint.present hint.form),
        ("default", defaultValue.present defaultValue.form)]).chars := by
  have withKind := (prints_write (", kind=" ++ kind.label)).optional (kind = .positional)
  have withHint := ((prints_write ", annotation=").comp printsHint).optional hint.isAbsent
  have withDefault :=
    ((prints_write ", default=").comp printsDefault).optional defaultValue.isAbsent
  have whole := (((prints_write ("arg(arg=" ++ dumpText name)).comp withKind).comp withHint).comp
    withDefault |>.comp (prints_write ")")
  refine whole.of_eq ?_
  unfold ParamKind.form? Expr.present
  split_ifs <;> simp [node, shown, chars, partsChars, labelChars, opening, closing]

/-- A keyword argument. -/
theorem prints_keyword (name : String) {value : Expr}
    (prints : Prints value.dumpOn value.form.chars) :
    Prints (fun dumper =>
      (value.dumpOn (dumper.write ("keyword(arg=" ++ dumpText name ++ ", value="))).write ")")
      (Form.node "keyword" [("arg", some (.quoted name)), ("value", some value.form)]).chars := by
  have whole := ((prints_write ("keyword(arg=" ++ dumpText name ++ ", value=")).comp prints).comp
    (prints_write ")")
  exact whole.of_eq (by simp [node, shown, chars, partsChars, labelChars, opening, closing])

/-- Parameters in their parentheses. -/
theorem prints_clause {params : List Param}
    (prints : Prints (Param.dumpListOn params) (partsChars (unlabelled (Param.forms params)))) :
    Prints (Param.dumpClauseOn params) (Param.clauseForm params).chars := by
  have whole := ((prints_write "arguments(").comp prints).comp (prints_write ")")
  exact whole.of_eq (by simp [Param.clauseForm, chars, opening, closing])

mutual

/-- The printer writes the form of an expression. -/
theorem prints_expr : (value : Expr) → Prints value.dumpOn value.form.chars
  | .absent => prints_write "None"
  | .constant value => prints_node fun dumper =>
    ⟨_, (opened dumper "Constant").writeField "value" (toList_constant value), rfl⟩
  | .name id => prints_node fun dumper => ⟨_, (opened dumper "Name").textField "id" id, rfl⟩
  | .binOp left op right => prints_node fun dumper =>
    ⟨_, (((opened dumper "BinOp").exprField "left" left (prints_expr left)).opField "op"
      op).exprField "right" right (prints_expr right), rfl⟩
  | .unaryOp op operand => prints_node fun dumper =>
    ⟨_, ((opened dumper "UnaryOp").opField "op" op).exprField "operand" operand
      (prints_expr operand), rfl⟩
  | .boolOp op values => prints_node fun dumper =>
    ⟨_, ((opened dumper "BoolOp").opField "op" op).listField "values" (prints_exprs values), rfl⟩
  | .compare left ops comparators => prints_node fun dumper =>
    ⟨_, (((opened dumper "Compare").exprField "left" left (prints_expr left)).itemsField "ops"
      toList_operator ops).listField "comparators" (prints_exprs comparators), rfl⟩
  | .call function arguments keywords => prints_node fun dumper =>
    ⟨_, (((opened dumper "Call").exprField "func" function (prints_expr function)).listField "args"
      (prints_exprs arguments)).optionalListField "keywords" (prints_keywords keywords)
      keywords.isEmpty, rfl⟩
  | .attribute value attr => prints_node fun dumper =>
    ⟨_, ((opened dumper "Attribute").exprField "value" value (prints_expr value)).textField "attr"
      attr, rfl⟩
  | .subscript value slice => prints_node fun dumper =>
    ⟨_, ((opened dumper "Subscript").exprField "value" value (prints_expr value)).exprField "slice"
      slice (prints_expr slice), rfl⟩
  | .list items => prints_node fun dumper =>
    ⟨_, (opened dumper "List").listField "elts" (prints_exprs items), rfl⟩
  | .tuple items => prints_node fun dumper =>
    ⟨_, (opened dumper "Tuple").listField "elts" (prints_exprs items), rfl⟩
  | .await value => prints_node fun dumper =>
    ⟨_, (opened dumper "Await").exprField "value" value (prints_expr value), rfl⟩
  | .lambda params body => prints_node fun dumper =>
    ⟨_, ((opened dumper "Lambda").field "args" (prints_clause (prints_params params))).exprField
      "body" body (prints_expr body), rfl⟩
  | .dict keys values => prints_node fun dumper =>
    ⟨_, ((opened dumper "Dict").listField "keys" (prints_exprs keys)).listField "values"
      (prints_exprs values), rfl⟩
  | .joinedStr values => prints_node fun dumper =>
    ⟨_, (opened dumper "JoinedStr").listField "values" (prints_exprs values), rfl⟩

/-- Expressions are printed as a list, with commas between them. -/
theorem prints_exprs : (items : List Expr) →
    Prints (Expr.dumpListOn items) (partsChars (unlabelled (Expr.forms items)))
  | [] => ⟨fun dumper => by simp [Expr.dumpListOn, Expr.forms, unlabelled, partsChars],
      fun _ some => some⟩
  | first :: rest =>
    (prints_expr first).cons (prints_exprs rest) (by cases rest <;> rfl)

theorem prints_keywords : (keywords : List (String × Expr)) →
    Prints (Expr.dumpKeywordsOn keywords)
      (partsChars (unlabelled (Expr.keywordForms keywords)))
  | [] => ⟨fun dumper => by simp [Expr.dumpKeywordsOn, Expr.keywordForms, unlabelled, partsChars],
      fun _ some => some⟩
  | (name, value) :: rest =>
    (prints_keyword name (prints_expr value)).cons (prints_keywords rest) (by cases rest <;> rfl)

theorem prints_params : (params : List (ParamOf Expr)) →
    Prints (Param.dumpListOn params) (partsChars (unlabelled (Param.forms params)))
  | [] => ⟨fun dumper => by simp [Param.dumpListOn, Param.forms, unlabelled, partsChars],
      fun _ some => some⟩
  | ⟨name, kind, hint, defaultValue⟩ :: rest =>
    (prints_param name kind (prints_expr hint) (prints_expr defaultValue)).cons
      (prints_params rest) (by cases rest <;> rfl)

end

mutual

/-- The printer writes the form of a statement. -/
theorem prints_stmt : (value : Stmt) → Prints value.dumpOn value.form.chars
  | .absent => prints_write "None"
  | .functionDef definition => prints_function "FunctionDef" definition
  | .asyncFunctionDef definition => prints_function "AsyncFunctionDef" definition
  | .expr value => prints_node fun dumper =>
    ⟨_, (opened dumper "Expr").exprField "value" value (prints_expr value), rfl⟩
  | .assign targets value => prints_node fun dumper =>
    ⟨_, ((opened dumper "Assign").listField "targets" (prints_exprs targets)).exprField "value"
      value (prints_expr value), rfl⟩
  | .augAssign target op value => prints_node fun dumper =>
    ⟨_, (((opened dumper "AugAssign").exprField "target" target (prints_expr target)).opField "op"
      op).exprField "value" value (prints_expr value), rfl⟩
  | .annAssign target hint value => prints_node fun dumper =>
    ⟨_, (((opened dumper "AnnAssign").exprField "target" target (prints_expr target)).exprField
      "annotation" hint (prints_expr hint)).exprField "value" value (prints_expr value), rfl⟩
  | .ret value => prints_node fun dumper =>
    ⟨_, (opened dumper "Return").exprField "value" value (prints_expr value), rfl⟩
  | .ifElse test body orelse => prints_node fun dumper =>
    ⟨_, (((opened dumper "If").exprField "test" test (prints_expr test)).listField "body"
      (prints_stmts body)).optionalListField "orelse" (prints_stmts orelse) orelse.isEmpty, rfl⟩
  | .whileLoop test body orelse => prints_node fun dumper =>
    ⟨_, (((opened dumper "While").exprField "test" test (prints_expr test)).listField "body"
      (prints_stmts body)).optionalListField "orelse" (prints_stmts orelse) orelse.isEmpty, rfl⟩
  | .forLoop target iter body orelse => prints_node fun dumper =>
    ⟨_, ((((opened dumper "For").exprField "target" target (prints_expr target)).exprField "iter"
      iter (prints_expr iter)).listField "body" (prints_stmts body)).optionalListField "orelse"
      (prints_stmts orelse) orelse.isEmpty, rfl⟩
  | .pass => prints_write "Pass()"
  | .breakLoop => prints_write "Break()"
  | .continueLoop => prints_write "Continue()"
  | .raise exc => prints_node fun dumper =>
    ⟨_, (opened dumper "Raise").exprField "exc" exc (prints_expr exc), rfl⟩
  | .assert test msg => prints_node fun dumper =>
    ⟨_, ((opened dumper "Assert").exprField "test" test (prints_expr test)).exprField "msg" msg
      (prints_expr msg), rfl⟩
  | .classDef name body => prints_node fun dumper =>
    ⟨_, ((opened dumper "ClassDef").textField "name" name).listField "body" (prints_stmts body),
      rfl⟩
  | .importNames names => prints_node fun dumper =>
    ⟨_, (opened dumper "Import").itemsField "names" toList_aliasText names, rfl⟩
  | .importFrom origin names => prints_node fun dumper =>
    ⟨_, ((opened dumper "ImportFrom").textField "module" origin).itemsField "names"
      toList_aliasText names, rfl⟩
  | .globalNames names => prints_node fun dumper =>
    ⟨_, (opened dumper "Global").itemsField "names" (fun _ => rfl) names, rfl⟩
  | .nonlocalNames names => prints_node fun dumper =>
    ⟨_, (opened dumper "Nonlocal").itemsField "names" (fun _ => rfl) names, rfl⟩
  | .delete targets => prints_node fun dumper =>
    ⟨_, (opened dumper "Delete").listField "targets" (prints_exprs targets), rfl⟩
  | .tryBlock body orelse finalbody => prints_node fun dumper =>
    ⟨_, (((opened dumper "Try").listField "body" (prints_stmts body)).optionalListField "orelse"
      (prints_stmts orelse) orelse.isEmpty).optionalListField "finalbody"
      (prints_stmts finalbody) finalbody.isEmpty, rfl⟩
  | .withBlock items body => prints_node fun dumper =>
    ⟨_, ((opened dumper "With").listField "items" (prints_exprs items)).listField "body"
      (prints_stmts body), rfl⟩

/-- A function is printed as its form says. -/
theorem prints_function (node : String) : (definition : FunctionOf Stmt) →
    Prints (FunctionDef.dumpOn node definition) (FunctionDef.form node definition).chars
  | ⟨name, params, body, decorators, returns⟩ => prints_node fun dumper =>
    ⟨_, (((((opened dumper node).textField "name" name).field "args"
      (prints_clause (prints_params params))).listField "body" (prints_stmts body)).itemsField
      "decorator_list" (fun _ => rfl) decorators).exprField "returns" returns
      (prints_expr returns), rfl⟩

theorem prints_stmts : (items : List Stmt) →
    Prints (Stmt.dumpListOn items) (partsChars (unlabelled (Stmt.forms items)))
  | [] => ⟨fun dumper => by simp [Stmt.dumpListOn, Stmt.forms, unlabelled, partsChars],
      fun _ some => some⟩
  | first :: rest =>
    (prints_stmt first).cons (prints_stmts rest) (by cases rest <;> rfl)

end

/-- A module is printed as its form says. -/
theorem prints_module (source : Module) :
    Prints (fun dumper =>
      ((dumper.openNode "Module").listField "body" (Stmt.dumpListOn source.body)).closeNode)
      source.form.chars :=
  prints_node fun dumper =>
    ⟨_, (opened dumper "Module").listField "body" (prints_stmts source.body), rfl⟩

/-- What is printed from the start are the characters of the form. -/
theorem Dumper.Prints.toList_run {print : Dumper → Dumper} {chars : List Char}
    (prints : Prints print chars) : (Dumper.run print).toList = chars := by
  rw [Dumper.run, prints.toList]
  simp

end Oxide
