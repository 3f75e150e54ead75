/-
This file says which trees are canonical: their operators are words, the kinds of their parameters
are known, and every number is spelled so that it is not taken for another kind of constant. The
form of a canonical tree is proper, so that it can be told from all other forms by its characters.
-/

import Oxide.Proofs.DumpForms

namespace Oxide

open Form

/-! ### Canonical trees -/

/-- Whether a text is a decimal integer, perhaps with a sign. -/
def isDecimal (text : String) : Bool :=
  let digits := match text.toList with
    | '-' :: rest => rest
    | '+' :: rest => rest
    | characters => characters
  !digits.isEmpty && digits.all Char.isDigit

/-- Whether a constant is spelled as the constants of its kind are and those of no other kind. -/
def Constant.isCanonical : Constant → Bool
  | .int text => isDecimal text
  | .float text =>
    text ≠ "" && isWord text && !isDecimal text && !(["None", "True", "False"].contains text)
  | _ => true

mutual

/-- Whether operators are words, kinds of parameters are known, and constants are canonical. -/
def Expr.isCanonical : Expr → Bool
  | .absent => true
  | .constant value => value.isCanonical
  | .name _ => true
  | .binOp left op right => left.isCanonical && isWord op && right.isCanonical
  | .unaryOp op operand => isWord op && operand.isCanonical
  | .boolOp op values => isWord op && Expr.allCanonical values
  | .compare left ops comparators =>
    left.isCanonical && ops.all isWord && Expr.allCanonical comparators
  | .call function arguments keywords =>
    function.isCanonical && Expr.allCanonical arguments && Expr.keywordsCanonical keywords
  | .attribute value _ => value.isCanonical
  | .subscript value slice => value.isCanonical && slice.isCanonical
  | .list items => Expr.allCanonical items
  | .tuple items => Expr.allCanonical items
  | .await value => value.isCanonical
  | .lambda params body => Param.allCanonical params && body.isCanonical
  | .dict keys values => Expr.allCanonical keys && Expr.allCanonical values
  | .joinedStr values => Expr.allCanonical values

/-- Whether all expressions of a list are canonical. -/
def Expr.allCanonical : List Expr → Bool
  | [] => true
  | first :: rest => first.isCanonical && Expr.allCanonical rest

/-- Whether the values of keyword arguments are canonical. -/
def Expr.keywordsCanonical : List (String × Expr) → Bool
  | [] => true
  | (_, value) :: rest => value.isCanonical && Expr.keywordsCanonical rest

/-- Whether all parameters of a list are canonical. -/
def Param.allCanonical : List (ParamOf Expr) → Bool
  | [] => true
  | ⟨_, kind, hint, defaultValue⟩ :: rest =>
    kind ≠ .unknown && hint.isCanonical && defaultValue.isCanonical && Param.allCanonical rest

end

mutual

/-- Whether everything in a statement is canonical. -/
def Stmt.isCanonical : Stmt → Bool
  | .functionDef definition => FunctionDef.isCanonical definition
  | .asyncFunctionDef definition => FunctionDef.isCanonical definition
  | .expr value => value.isCanonical
  | .assign targets value => Expr.allCanonical targets && value.isCanonical
  | .augAssign target op value => target.isCanonical && isWord op && value.isCanonical
  | .annAssign target hint value =>
    target.isCanonical && hint.isCanonical && value.isCanonical
  | .ret value => value.isCanonical
  | .ifElse test body orelse =>
    test.isCanonical && Stmt.allCanonical body && Stmt.allCanonical orelse
  | .whileLoop test body orelse =>
    test.isCanonical && Stmt.allCanonical body && Stmt.allCanonical orelse
  | .forLoop target iter body orelse =>
    target.isCanonical && iter.isCanonical && Stmt.allCanonical body && Stmt.allCanonical orelse
  | .raise exc => exc.isCanonical
  | .assert test msg => test.isCanonical && msg.isCanonical
  | .classDef _ body => Stmt.allCanonical body
  | .delete targets => Expr.allCanonical targets
  | .tryBlock body orelse finalbody =>
    Stmt.allCanonical body && Stmt.allCanonical orelse && Stmt.allCanonical finalbody
  | .withBlock items body => Expr.allCanonical items && Stmt.allCanonical body
  | _ => true

/-- Whether everything in a function is canonical. -/
def FunctionDef.isCanonical : FunctionOf Stmt → Bool
  | ⟨_, params, body, _, returns⟩ =>
    Param.allCanonical params && Stmt.allCanonical body && returns.isCanonical

/-- Whether all statements of a list are canonical. -/
def Stmt.allCanonical : List Stmt → Bool
  | [] => true
  | first :: rest => first.isCanonical && Stmt.allCanonical rest

end

/-! ### Forms of canonical trees are proper -/

/-- The titles of all nodes are words. -/
theorem isWord_titles :
    isWord "Constant" ∧ isWord "Name" ∧ isWord "BinOp" ∧ isWord "UnaryOp" ∧ isWord "BoolOp" ∧
    isWord "Compare" ∧ isWord "Call" ∧ isWord "Attribute" ∧ isWord "Subscript" ∧ isWord "List" ∧
    isWord "Tuple" ∧ isWord "Await" ∧ isWord "Lambda" ∧ isWord "Dict" ∧ isWord "JoinedStr" ∧
    isWord "keyword" ∧ isWord "arg" ∧ isWord "arguments" ∧ isWord "alias" ∧
    isWord "FunctionDef" ∧ isWord "AsyncFunctionDef" ∧ isWord "Expr" ∧ isWord "Assign" ∧
    isWord "AugAssign" ∧ isWord "AnnAssign" ∧ isWord "Return" ∧ isWord "If" ∧ isWord "While" ∧
    isWord "For" ∧ isWord "Pass" ∧ isWord "Break" ∧ isWord "Continue" ∧ isWord "Raise" ∧
    isWord "Assert" ∧ isWord "ClassDef" ∧ isWord "Import" ∧ isWord "ImportFrom" ∧
    isWord "Global" ∧ isWord "Nonlocal" ∧ isWord "Delete" ∧ isWord "Try" ∧ isWord "With" ∧
    isWord "Module" := by
  decide +kernel

/-- The labels of all fields are words. -/
theorem isWord_labels :
    isWord "value" ∧ isWord "id" ∧ isWord "left" ∧ isWord "op" ∧ isWord "right" ∧
    isWord "operand" ∧ isWord "values" ∧ isWord "ops" ∧ isWord "comparators" ∧ isWord "func" ∧
    isWord "args" ∧ isWord "keywords" ∧ isWord "attr" ∧ isWord "slice" ∧ isWord "elts" ∧
    isWord "body" ∧ isWord "keys" ∧ isWord "arg" ∧ isWord "kind" ∧ isWord "annotation" ∧
    isWord "default" ∧ isWord "name" ∧ isWord "asname" ∧ isWord "targets" ∧ isWord "target" ∧
    isWord "test" ∧ isWord "orelse" ∧ isWord "iter" ∧ isWord "exc" ∧ isWord "msg" ∧
    isWord "names" ∧ isWord "module" ∧ isWord "finalbody" ∧ isWord "items" ∧
    isWord "decorator_list" ∧ isWord "returns" := by
  decide +kernel

namespace Form

/-- A list of parts is proper if every label is a word and every value is proper. -/
theorem areProper_iff {parts : List (Option String × Form)} :
    areProper parts ↔ ∀ part ∈ parts, part.1.all isWord ∧ part.2.isProper := by
  induction parts with
  | nil => simp [areProper]
  | cons part rest inductionHypothesis =>
    obtain ⟨label, value⟩ := part
    simp [areProper, inductionHypothesis]

/-- A node is proper if its title and its labels are words and its fields are proper. -/
theorem isProper_node {name : String} {fields : List (String × Option Form)} (word : isWord name)
    (each : ∀ field ∈ fields, isWord field.1 ∧ field.2.all isProper) :
    (node name fields).isProper := by
  rw [node, isProper, Bool.and_eq_true, areProper_iff]
  refine ⟨word, fun part member => ?_⟩
  obtain ⟨⟨key, value?⟩, inFields, atPart⟩ := List.mem_filterMap.mp member
  obtain ⟨value, rfl, rfl⟩ := Option.map_eq_some_iff.mp atPart
  exact each _ inFields

theorem areProper_unlabelled {items : List Form} (each : items.all isProper) :
    areProper (unlabelled items) := by
  rw [areProper_iff]
  simpa [unlabelled] using each

theorem isProper_list {items : List Form} (each : items.all isProper) : (list items).isProper := by
  rw [list, isProper, Bool.and_eq_true]
  exact ⟨by decide, areProper_unlabelled each⟩

/-- What is left out is proper, since nothing is printed for it. -/
theorem all_present {form : Form} (proper : form.isProper) (value : Expr) :
    (value.present form).all isProper := by
  unfold Expr.present
  split
  · rfl
  · exact proper

end Form

theorem isPlain_of_isDigit {c : Char} (digit : c.isDigit) : isPlain c := by
  have none : ∀ c ∈ ['(', ')', '[', ']', ',', '=', '\x27'], c.isDigit = false := by simp
  rw [isPlain, Bool.not_eq_true', ← Bool.not_eq_true, List.contains_iff_mem]
  intro member
  exact absurd digit (by simp [none c member])

/-- A decimal integer is a word. -/
theorem isWord_of_isDecimal {text : String} (decimal : isDecimal text) :
    text ≠ "" ∧ isWord text := by
  have plain {digits : List Char} (all : digits.all Char.isDigit) : digits.all isPlain := by
    rw [List.all_eq_true] at all ⊢
    exact fun c member => isPlain_of_isDigit (all c member)
  unfold isDecimal at decimal
  unfold isWord
  rw [ne_eq, ← String.toList_inj]
  split at decimal <;> simp only [Bool.and_eq_true] at decimal
  case h_1 rest spelled => simpa [spelled, isPlain] using plain decimal.2
  case h_2 rest spelled => simpa [spelled, isPlain] using plain decimal.2
  case h_3 => exact ⟨by simpa using decimal.1, plain decimal.2⟩

/-- A canonical constant is a word of its own or a text in quotes. -/
theorem isProper_constant {value : Constant} (canonical : value.isCanonical) :
    value.form.isProper := by
  cases value with
  | none => decide +kernel
  | bool truth => cases truth <;> decide +kernel
  | int text =>
    obtain ⟨nonempty, word⟩ := isWord_of_isDecimal canonical
    simp [Constant.form, isProper, Constant.text, nonempty, word]
  | float text =>
    simp only [Constant.isCanonical, Bool.and_eq_true, decide_eq_true_eq] at canonical
    simp [Constant.form, isProper, Constant.text, canonical.1.1.1, canonical.1.1.2]
  | str text => rfl

mutual

/-- The form of a canonical expression is proper, by induction over the expression. -/
theorem isProper_expr : (value : Expr) → value.isCanonical → value.form.isProper
  | .absent, _ => by decide +kernel
  | .constant value, canonical =>
    isProper_node (by simp [isWord_titles])
      (by simp [isWord_labels, isProper_constant canonical])
  | .name id, _ => isProper_node (by simp [isWord_titles]) (by simp [isWord_labels, isProper])
  | .binOp left op right, canonical => by
    simp only [Expr.isCanonical, Bool.and_eq_true] at canonical
    have operator : (Form.node op []).isProper := isProper_node canonical.1.2 nofun
    exact isProper_node (by simp [isWord_titles])
      (by simp [isWord_labels, operator, all_present (isProper_expr left canonical.1.1),
        all_present (isProper_expr right canonical.2)])
  | .unaryOp op operand, canonical => by
    simp only [Expr.isCanonical, Bool.and_eq_true] at canonical
    have operator : (Form.node op []).isProper := isProper_node canonical.1 nofun
    exact isProper_node (by simp [isWord_titles])
      (by simp [isWord_labels, operator, all_present (isProper_expr operand canonical.2)])
  | .boolOp op values, canonical => by
    simp only [Expr.isCanonical, Bool.and_eq_true] at canonical
    have operator : (Form.node op []).isProper := isProper_node canonical.1 nofun
    exact isProper_node (by simp [isWord_titles])
      (by simp [isWord_labels, operator, isProper_list (isProper_exprs values canonical.2)])
  | .compare left ops comparators, canonical => by
    simp only [Expr.isCanonical, Bool.and_eq_true] at canonical
    have operators : (Form.list (ops.map fun op => .node op [])).isProper := by
      refine isProper_list ?_
      simp only [List.all_map, List.all_eq_true] at canonical ⊢
      exact fun op member => isProper_node (canonical.1.2 op member) nofun
    exact isProper_node (by simp [isWord_titles])
      (by simp [isWord_labels, operators, all_present (isProper_expr left canonical.1.1),
        isProper_list (isProper_exprs comparators canonical.2)])
  | .call function arguments keywords, canonical => by
    simp only [Expr.isCanonical, Bool.and_eq_true] at canonical
    have named := isProper_list (isProper_keywords keywords canonical.2)
    refine isProper_node (by simp [isWord_titles]) ?_
    split <;>
      simp [isWord_labels, named, all_present (isProper_expr function canonical.1.1),
        isProper_list (isProper_exprs arguments canonical.1.2)]
  | .attribute value attr, canonical =>
    isProper_node (by simp [isWord_titles])
      (by simp [isWord_labels, isProper, all_present (isProper_expr value canonical)])
  | .subscript value slice, canonical => by
    simp only [Expr.isCanonical, Bool.and_eq_true] at canonical
    exact isProper_node (by simp [isWord_titles])
      (by simp [isWord_labels, all_present (isProper_expr value canonical.1),
        all_present (isProper_expr slice canonical.2)])
  | .list items, canonical =>
    isProper_node (by simp [isWord_titles])
      (by simp [isWord_labels, isProper_list (isProper_exprs items canonical)])
  | .tuple items, canonical =>
    isProper_node (by simp [isWord_titles])
      (by simp [isWord_labels, isProper_list (isProper_exprs items canonical)])
  | .await value, canonical =>
    isProper_node (by simp [isWord_titles])
      (by simp [isWord_labels, all_present (isProper_expr value canonical)])
  | .lambda params body, canonical => by
    simp only [Expr.isCanonical, Bool.and_eq_true] at canonical
    have clause : (Form.group "arguments" false (unlabelled (Param.forms params))).isProper := by
      rw [isProper, Bool.and_eq_true]
      exact ⟨by simp [isWord_titles],
        areProper_unlabelled (isProper_params params canonical.1)⟩
    exact isProper_node (by simp [isWord_titles])
      (by simp [isWord_labels, clause, all_present (isProper_expr body canonical.2)])
  | .dict keys values, canonical => by
    simp only [Expr.isCanonical, Bool.and_eq_true] at canonical
    exact isProper_node (by simp [isWord_titles])
      (by simp [isWord_labels, isProper_list (isProper_exprs keys canonical.1),
        isProper_list (isProper_exprs values canonical.2)])
  | .joinedStr values, canonical =>
    isProper_node (by simp [isWord_titles])
      (by simp [isWord_labels, isProper_list (isProper_exprs values canonical)])

theorem isProper_exprs : (items : List Expr) → Expr.allCanonical items →
    (Expr.forms items).all isProper
  | [], _ => rfl
  | first :: rest, canonical => by
    simp only [Expr.allCanonical, Bool.and_eq_true] at canonical
    simp only [Expr.forms, List.all_cons, Bool.and_eq_true]
    exact ⟨isProper_expr first canonical.1, isProper_exprs rest canonical.2⟩

theorem isProper_keywords : (keywords : List (String × Expr)) →
    Expr.keywordsCanonical keywords → (Expr.keywordForms keywords).all isProper
  | [], _ => rfl
  | (name, value) :: rest, canonical => by
    simp only [Expr.keywordsCanonical, Bool.and_eq_true] at canonical
    simp only [Expr.keywordForms, List.all_cons, Bool.and_eq_true]
    refine ⟨isProper_node (by simp [isWord_titles]) ?_, isProper_keywords rest canonical.2⟩
    simp [isWord_labels, isProper, isProper_expr value canonical.1]

theorem isProper_params : (params : List (ParamOf Expr)) → Param.allCanonical params →
    (Param.forms params).all isProper
  | [], _ => rfl
  | ⟨name, kind, hint, defaultValue⟩ :: rest, canonical => by
    simp only [Param.allCanonical, Bool.and_eq_true] at canonical
    simp only [Param.forms, List.all_cons, Bool.and_eq_true]
    have kindProper : kind.form?.all isProper := by cases kind <;> decide +kernel
    refine ⟨isProper_node (by simp [isWord_titles]) ?_, isProper_params rest canonical.2⟩
    simp [isWord_labels, isProper, kindProper, all_present (isProper_expr hint canonical.1.1.2),
      all_present (isProper_expr defaultValue canonical.1.2)]

end

/-- The parameters of a function are proper as a group of their own. -/
theorem isProper_clause {params : List Param} (canonical : Param.allCanonical params) :
    (Param.clauseForm params).isProper := by
  rw [Param.clauseForm, isProper, Bool.and_eq_true]
  exact ⟨by simp [isWord_titles], areProper_unlabelled (isProper_params params canonical)⟩

theorem isProper_quotedList (texts : List String) : (Form.list (texts.map .quoted)).isProper := by
  refine isProper_list ?_
  simp [isProper]

theorem isProper_aliasList (names : List Alias) : (Form.list (names.map Alias.form)).isProper := by
  refine isProper_list ?_
  simp only [List.all_map, List.all_eq_true]
  intro imported _
  refine isProper_node (by simp [isWord_titles]) ?_
  split <;> simp [isWord_labels, isProper]

/-- A block that is left out if it is empty is proper either way. -/
theorem all_blockForm? {forms : List Form} (each : forms.all isProper) (body : List Stmt) :
    (Stmt.blockForm? body forms).all isProper := by
  unfold Stmt.blockForm?
  split
  · rfl
  · exact isProper_list each

mutual

/-- The form of a canonical statement is proper, by induction over the statement. -/
theorem isProper_stmt : (value : Stmt) → value.isCanonical → value.form.isProper
  | .absent, _ => by decide +kernel
  | .functionDef definition, canonical =>
    isProper_function (by simp [isWord_titles]) definition canonical
  | .asyncFunctionDef definition, canonical =>
    isProper_function (by simp [isWord_titles]) definition canonical
  | .expr value, canonical =>
    isProper_node (by simp [isWord_titles])
      (by simp [isWord_labels, all_present (isProper_expr value canonical)])
  | .assign targets value, canonical => by
    simp only [Stmt.isCanonical, Bool.and_eq_true] at canonical
    exact isProper_node (by simp [isWord_titles])
      (by simp [isWord_labels, isProper_list (isProper_exprs targets canonical.1),
        all_present (isProper_expr value canonical.2)])
  | .augAssign target op value, canonical => by
    simp only [Stmt.isCanonical, Bool.and_eq_true] at canonical
    have operator : (Form.node op []).isProper := isProper_node canonical.1.2 nofun
    exact isProper_node (by simp [isWord_titles])
      (by simp [isWord_labels, operator, all_present (isProper_expr target canonical.1.1),
        all_present (isProper_expr value canonical.2)])
  | .annAssign target hint value, canonical => by
    simp only [Stmt.isCanonical, Bool.and_eq_true] at canonical
    exact isProper_node (by simp [isWord_titles])
      (by simp [isWord_labels, all_present (isProper_expr target canonical.1.1),
        all_present (isProper_expr hint canonical.1.2),
        all_present (isProper_expr value canonical.2)])
  | .ret value, canonical =>
    isProper_node (by simp [isWord_titles])
      (by simp [isWord_labels, all_present (isProper_expr value canonical)])
  | .ifElse test body orelse, canonical => by
    simp only [Stmt.isCanonical, Bool.and_eq_true] at canonical
    exact isProper_node (by simp [isWord_titles])
      (by simp [isWord_labels, all_present (isProper_expr test canonical.1.1),
        isProper_list (isProper_stmts body canonical.1.2),
        all_blockForm? (isProper_stmts orelse canonical.2)])
  | .whileLoop test body orelse, canonical => by
    simp only [Stmt.isCanonical, Bool.and_eq_true] at canonical
    exact isProper_node (by simp [isWord_titles])
      (by simp [isWord_labels, all_present (isProper_expr test canonical.1.1),
        isProper_list (isProper_stmts body canonical.1.2),
        all_blockForm? (isProper_stmts orelse canonical.2)])
  | .forLoop target iter body orelse, canonical => by
    simp only [Stmt.isCanonical, Bool.and_eq_true] at canonical
    exact isProper_node (by simp [isWord_titles])
      (by simp [isWord_labels, all_present (isProper_expr target canonical.1.1.1),
        all_present (isProper_expr iter canonical.1.1.2),
        isProper_list (isProper_stmts body canonical.1.2),
        all_blockForm? (isProper_stmts orelse canonical.2)])
  | .pass, _ => isProper_node (by simp [isWord_titles]) nofun
  | .breakLoop, _ => isProper_node (by simp [isWord_titles]) nofun
  | .continueLoop, _ => isProper_node (by simp [isWord_titles]) nofun
  | .raise exc, canonical =>
    isProper_node (by simp [isWord_titles])
      (by simp [isWord_labels, all_present (isProper_expr exc canonical)])
  | .assert test msg, canonical => by
    simp only [Stmt.isCanonical, Bool.and_eq_true] at canonical
    exact isProper_node (by simp [isWord_titles])
      (by simp [isWord_labels, all_present (isProper_expr test canonical.1),
        all_present (isProper_expr msg canonical.2)])
  | .classDef name body, canonical =>
    isProper_node (by simp [isWord_titles])
      (by simp [isWord_labels, isProper, isProper_list (isProper_stmts body canonical)])
  | .importNames names, _ =>
    isProper_node (by simp [isWord_titles]) (by simp [isWord_labels, isProper_aliasList])
  | .importFrom origin names, _ =>
    isProper_node (by simp [isWord_titles])
      (by simp [isWord_labels, isProper, isProper_aliasList])
  | .globalNames names, _ =>
    isProper_node (by simp [isWord_titles]) (by simp [isWord_labels, isProper_quotedList])
  | .nonlocalNames names, _ =>
    isProper_node (by simp [isWord_titles]) (by simp [isWord_labels, isProper_quotedList])
  | .delete targets, canonical =>
    isProper_node (by simp [isWord_titles])
      (by simp [isWord_labels, isProper_list (isProper_exprs targets canonical)])
  | .tryBlock body orelse finalbody, canonical => by
    simp only [Stmt.isCanonical, Bool.and_eq_true] at canonical
    exact isProper_node (by simp [isWord_titles])
      (by simp [isWord_labels, isProper_list (isProper_stmts body canonical.1.1),
        all_blockForm? (isProper_stmts orelse canonical.1.2),
        all_blockForm? (isProper_stmts finalbody canonical.2)])
  | .withBlock items body, canonical => by
    simp only [Stmt.isCanonical, Bool.and_eq_true] at canonical
    exact isProper_node (by simp [isWord_titles])
      (by simp [isWord_labels, isProper_list (isProper_exprs items canonical.1),
        isProper_list (isProper_stmts body canonical.2)])

theorem isProper_function {title : String} (word : isWord title) :
    (definition : FunctionOf Stmt) → FunctionDef.isCanonical definition →
    (FunctionDef.form title definition).isProper
  | ⟨name, params, body, decorators, returns⟩, canonical => by
    simp only [FunctionDef.isCanonical, Bool.and_eq_true] at canonical
    exact isProper_node word
      (by simp [isWord_labels, isProper, isProper_clause canonical.1.1,
        isProper_list (isProper_stmts body canonical.1.2), isProper_quotedList,
        all_present (isProper_expr returns canonical.2)])

theorem isProper_stmts : (items : List Stmt) → Stmt.allCanonical items →
    (Stmt.forms items).all isProper
  | [], _ => rfl
  | first :: rest, canonical => by
    simp only [Stmt.allCanonical, Bool.and_eq_true] at canonical
    simp only [Stmt.forms, List.all_cons, Bool.and_eq_true]
    exact ⟨isProper_stmt first canonical.1, isProper_stmts rest canonical.2⟩

end

end Oxide
