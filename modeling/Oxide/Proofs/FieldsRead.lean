/-
This file shows that what is read from a document depends on nothing but the fields that are read.
Objects that name the same type and agree in the fields of their role have the same result, and
lists have it if their items agree. So a change that is seen in no field of its own role is seen
nowhere, as long as no object stands for a list: the entries of such an object would be taken one by
one.
-/

import Oxide.Proofs.Changes
import Oxide.Proofs.ReadBack

namespace Oxide

open Document
open Document.Node (field field?)

/-! ### Agreement -/

namespace Role

/-- Nodes that cannot be told apart by reading them in a role. -/
structure Agree (role : Role) (first second : Node) : Prop extends first.LooksLike second where
  result : role.result first = role.result second

/-- Entries that name the same type and agree in the fields that are read. -/
structure SameFields (role : Role) (entries others : List (Node × Node)) : Prop where
  type : (field? entries typeKey).map Node.text = (field? others typeKey).map Node.text
  parts : ∀ entry ∈ role.fieldsOf entries,
    Agree entry.2 (field entries entry.1) (field others entry.1)

/-- Entries that name a type and agree in the fields that are read for it. -/
theorem SameFields.typed_cases {role : Role} {entries others : List (Node × Node)}
    (same : SameFields role entries others) :
    field? entries typeKey = none ∧ field? others typeKey = none ∨
      ∃ type other, field? entries typeKey = some type ∧ field? others typeKey = some other ∧
        other.text = type.text ∧ ∀ entry ∈ role.fields type.text,
          Agree entry.2 (field entries entry.1) (field others entry.1) := by
  have types := same.type
  have parts := same.parts
  unfold fieldsOf at parts
  cases found : field? entries typeKey with
  | none => exact .inl ⟨rfl, by simpa [found] using types.symm⟩
  | some type =>
    rw [found] at types parts
    obtain ⟨other, otherFound, texts⟩ := Option.map_eq_some_iff.mp types.symm
    exact .inr ⟨type, other, rfl, otherFound, texts, fun entry member =>
      parts entry (List.mem_cons_of_mem _ member)⟩

end Role

open Role (Agree SameFields exprFields stmtFields paramNodes listItem? withItem? alias?)

namespace Role.Agree

variable {node other : Node} {entries others : List (Node × Node)} {key : String}

/-- Nodes that agree as blocks are read alike. -/
theorem stmts (agree : Agree .stmts node other) :
    (Read.stmts node).toOption = (Read.stmts other).toOption := agree.result

theorem stmt (agree : Agree .stmt node other) :
    (Read.stmt node).toOption = (Read.stmt other).toOption := agree.result

theorem exprs (agree : Agree .exprs node other) :
    (Read.exprs node).toOption = (Read.exprs other).toOption := agree.result

theorem expr (agree : Agree .expr node other) :
    (Read.expr node).toOption = (Read.expr other).toOption := agree.result

/-- An expression that may be left out is missing on both sides or on none. -/
theorem optional (agree : Agree .expr node other) :
    (Read.optional node (Read.expr node)).toOption =
      (Read.optional other (Read.expr other)).toOption := by
  simp only [Read.optional, agree.isNull, apply_ite Except.toOption, agree.expr]

theorem optionalField (agree : Agree .expr (field entries key) (field others key)) :
    (Read.optionalField entries key).toOption = (Read.optionalField others key).toOption :=
  agree.optional

theorem params (agree : Agree .arguments node other) :
    (Read.params node).toOption = (Read.params other).toOption := agree.result

theorem paramItems (agree : Agree .parameters (field entries key) (field others key))
    (kind : ParamKind) :
    (Read.paramItems kind (Read.labelled entries key)).toOption =
      (Read.paramItems kind (Read.labelled others key)).toOption := by
  simp only [Read.toOption_paramItems, Read.map_snd_labelled]
  exact congrFun agree.result kind

theorem keywordDefaults (agree : Agree .defaults node other) (count number : Nat) :
    (Read.keywordDefaults count number node.parts).toOption =
      (Read.keywordDefaults count number other.parts).toOption := by
  have same : node.parts.mapM listItem? = other.parts.mapM listItem? := agree.result
  simp only [Read.toOption_keywordDefaults, same]

theorem operator (agree : Agree .operator node other) :
    (Read.operator node).toOption = (Read.operator other).toOption := agree.result

theorem operators (agree : Agree .operators node other) :
    (node.parts.mapM fun part => Attempt.inside "compare op" (Read.operator part)).toOption =
      (other.parts.mapM fun part => Attempt.inside "compare op" (Read.operator part)).toOption := by
  simp only [toOption_mapM, toOption_inside]
  exact agree.result

theorem keywords (agree : Agree .keywords node other) :
    (Read.keywords node.parts).toOption = (Read.keywords other.parts).toOption := by
  simp only [Read.toOption_keywords]
  exact agree.result

theorem withItems (agree : Agree .withItems node other) :
    (Read.withItems node.parts).toOption = (Read.withItems other.parts).toOption := by
  simp only [Read.toOption_withItems]
  exact agree.result

theorem aliases (agree : Agree .aliases node other) :
    (Read.aliases node.parts).toOption = (Read.aliases other.parts).toOption := by
  simp only [Read.toOption_aliases]
  exact agree.result

theorem names (agree : Agree .names node other) :
    (Read.names node).toOption = (Read.names other).toOption := by
  have strings :
      (Read.ofDocument node.strings).toOption = (Read.ofDocument other.strings).toOption := by
    have same : node.strings.toOption = other.strings.toOption := agree.stringsFrom false {}
    unfold Read.ofDocument
    cases found : node.strings <;> cases otherFound : other.strings <;>
      simp_all [Except.toOption, Except.mapError]
  simp only [Read.names, agree.isNull, apply_ite Except.toOption, toOption_inside, strings]

/-- Fields that agree as texts have the same text. -/
theorem textField (agree : Agree .text (field entries key) (field others key)) :
    Read.text entries key = Read.text others key := by
  simp only [Read.text, agree.isNull, agree.text]

theorem constant (agree : Agree .constant node other) :
    (Read.constant node).toOption = (Read.constant other).toOption := agree.result

end Role.Agree

/-! ### Objects -/

namespace Read

variable {entries others : List (Node × Node)}

/-- An expression is read from the fields of its type and from no other. -/
theorem toOption_expr_object (line other : Nat) (same : SameFields .expr entries others) :
    (expr (.object line entries)).toOption = (expr (.object other others)).toOption := by
  obtain ⟨missing, otherMissing⟩ | ⟨type, otherType, found, otherFound, texts, parts⟩ :=
    same.typed_cases
  · simp only [expr, missing, otherMissing, toOption_readFail]
  · simp only [expr, found, otherFound, texts]
    change ∀ entry ∈ exprFields type.text, _ at parts
    generalize type.text = name at parts
    split <;> simp only [exprFields, List.forall_mem_cons] at parts
    · simp only [toOption_bind, parts.1.constant]
    · rw [parts.1.textField]
    · obtain ⟨left, op, right, -⟩ := parts
      simp only [toOption_bind, toOption_inside, left.expr, op.operator, right.expr]
    · obtain ⟨op, operand, -⟩ := parts
      simp only [toOption_bind, toOption_inside, op.operator, operand.expr]
    · obtain ⟨op, values, -⟩ := parts
      simp only [toOption_bind, toOption_inside, op.operator, values.exprs]
    · obtain ⟨left, ops, comparators, -⟩ := parts
      simp only [toOption_bind, toOption_inside, left.expr, ops.operators, comparators.exprs,
        apply_ite Except.toOption, toOption_readFail]
    · obtain ⟨function, arguments, keywords, -⟩ := parts
      simp only [toOption_bind, toOption_inside, function.expr, arguments.exprs,
        keywords.keywords]
    · obtain ⟨value, attr, -⟩ := parts
      simp only [toOption_bind, toOption_inside, value.expr, attr.textField]
    · obtain ⟨value, slice, -⟩ := parts
      simp only [toOption_bind, toOption_inside, value.expr, slice.expr]
    · exact parts.1.expr
    · simp only [toOption_bind, toOption_inside, parts.1.exprs]
    · simp only [toOption_bind, toOption_inside, parts.1.exprs]
    · simp only [toOption_bind, toOption_inside, parts.1.expr]
    · obtain ⟨params, body, -⟩ := parts
      simp only [toOption_bind, toOption_inside, params.params, body.expr]
    · obtain ⟨keys, values, -⟩ := parts
      simp only [toOption_bind, toOption_inside, keys.exprs, values.exprs]
    · simp only [toOption_bind, toOption_inside, parts.1.exprs]
    · simp only [toOption_readFail]

theorem toOption_keyword_object (line other : Nat) (same : SameFields .keyword entries others) :
    (keyword (.object line entries)).toOption = (keyword (.object other others)).toOption := by
  obtain ⟨missing, otherMissing⟩ | ⟨type, otherType, found, otherFound, texts, parts⟩ :=
    same.typed_cases
  · simp only [keyword, missing, otherMissing, toOption_readFail]
  · simp only [Role.fields, List.forall_mem_cons] at parts
    obtain ⟨id, value, -⟩ := parts
    simp only [keyword, found, otherFound, toOption_bind, value.expr, id.textField]

theorem toOption_param_object (line other : Nat) (same : SameFields .parameter entries others)
    (kind : ParamKind) :
    (param kind (.object line entries)).toOption =
      (param kind (.object other others)).toOption := by
  obtain ⟨missing, otherMissing⟩ | ⟨type, otherType, found, otherFound, texts, parts⟩ :=
    same.typed_cases
  · simp only [param, missing, otherMissing, toOption_readFail]
  · simp only [Role.fields, List.forall_mem_cons] at parts
    obtain ⟨id, hint, -⟩ := parts
    simp only [param, found, otherFound, toOption_bind, toOption_inside, hint.optional,
      id.textField]

/-- Parameters are read from their seven fields and from no other. -/
theorem toOption_params_object (line other : Nat) (same : SameFields .arguments entries others) :
    (params (.object line entries)).toOption = (params (.object other others)).toOption := by
  obtain ⟨missing, otherMissing⟩ | ⟨type, otherType, found, otherFound, texts, parts⟩ :=
    same.typed_cases
  · simp only [params, missing, otherMissing, toOption_readFail]
  · simp only [Role.fields, List.forall_mem_cons] at parts
    obtain ⟨positionalOnly, ordinary, defaults, varArgs, keywordOnly, keywordDefaults,
      keywordArgs, -⟩ := parts
    simp only [params, found, otherFound, toOption_bind, toOption_inside, positionalOnly.paramItems,
      ordinary.paramItems, defaults.exprs, varArgs.paramItems, keywordOnly.paramItems,
      keywordDefaults.keywordDefaults, keywordArgs.paramItems, apply_ite Except.toOption]

theorem withItem?_object (line other : Nat) (same : SameFields .withItem entries others) :
    withItem? (.object line entries) = withItem? (.object other others) := by
  obtain ⟨missing, otherMissing⟩ | ⟨type, otherType, found, otherFound, texts, parts⟩ :=
    same.typed_cases
  · simp only [withItem?, typed, missing, otherMissing, toOption_readFail]
  · simp only [Role.fields, List.forall_mem_cons] at parts
    simp only [withItem?, typed, found, otherFound, toOption_ok]
    exact parts.1.expr

theorem alias?_object (line other : Nat) (same : SameFields .alias entries others) :
    alias? (.object line entries) = alias? (.object other others) := by
  obtain ⟨missing, otherMissing⟩ | ⟨type, otherType, found, otherFound, texts, parts⟩ :=
    same.typed_cases
  · simp only [alias?, typed, missing, otherMissing, toOption_readFail]
  · simp only [Role.fields, List.forall_mem_cons] at parts
    obtain ⟨name, asName, -⟩ := parts
    simp only [alias?, typed, found, otherFound, toOption_ok, Option.map_some, name.textField,
      asName.textField]

theorem toOption_operator_object (line other : Nat) (same : SameFields .operator entries others) :
    (operator (.object line entries)).toOption = (operator (.object other others)).toOption := by
  obtain ⟨missing, otherMissing⟩ | ⟨type, otherType, found, otherFound, texts, parts⟩ :=
    same.typed_cases
  · simp [operator, typed, missing, otherMissing, Node.isNull]
  · simp [operator, typed, found, otherFound, Node.isNull, texts]

/-- The rest of a function is read from its name, its decorators and its result. -/
theorem toOption_signature (name : Agree .text (field entries "name") (field others "name"))
    (decorators : Agree .exprs (field entries "decorator_list") (field others "decorator_list"))
    (returns : Agree .expr (field entries "returns") (field others "returns"))
    (params : List Param) (body : List Stmt) :
    (signature entries params body).toOption = (signature others params body).toOption := by
  simp only [signature, optionalField, toOption_bind, toOption_inside, decorators.exprs,
    returns.optional, name.textField]

/-- A statement is read from the fields of its type and from no other. -/
theorem toOption_stmt_object (line other : Nat) (same : SameFields .stmt entries others) :
    (stmt (.object line entries)).toOption = (stmt (.object other others)).toOption := by
  obtain ⟨missing, otherMissing⟩ | ⟨type, otherType, found, otherFound, texts, parts⟩ :=
    same.typed_cases
  · simp only [stmt, missing, otherMissing, toOption_readFail]
  · simp only [stmt, found, otherFound, texts]
    change ∀ entry ∈ stmtFields type.text, _ at parts
    generalize type.text = type at parts
    split <;> simp only [stmtFields, List.forall_mem_cons] at parts
    · obtain ⟨id, arguments, body, decorators, returns, -⟩ := parts
      simp only [toOption_bind, toOption_inside, arguments.params, body.stmts,
        toOption_signature id decorators returns]
    · obtain ⟨id, arguments, body, decorators, returns, -⟩ := parts
      simp only [toOption_bind, toOption_inside, arguments.params, body.stmts,
        toOption_signature id decorators returns]
    · simp only [toOption_bind, toOption_inside, parts.1.expr]
    · obtain ⟨targets, value, -⟩ := parts
      simp only [toOption_bind, toOption_inside, targets.exprs, value.expr]
    · obtain ⟨target, op, value, -⟩ := parts
      simp only [toOption_bind, toOption_inside, target.expr, op.operator, value.expr]
    · obtain ⟨target, hint, value, -⟩ := parts
      simp only [toOption_bind, toOption_inside, target.expr, hint.expr, value.optionalField]
    · simp only [toOption_bind, toOption_inside, parts.1.optionalField]
    · obtain ⟨test, body, orelse, -⟩ := parts
      simp only [toOption_bind, toOption_inside, test.expr, body.stmts, orelse.stmts]
    · obtain ⟨test, body, orelse, -⟩ := parts
      simp only [toOption_bind, toOption_inside, test.expr, body.stmts, orelse.stmts]
    · obtain ⟨target, iter, body, orelse, -⟩ := parts
      simp only [toOption_bind, toOption_inside, target.expr, iter.expr, body.stmts, orelse.stmts]
    · rfl
    · rfl
    · rfl
    · simp only [toOption_bind, toOption_inside, parts.1.optionalField]
    · obtain ⟨test, message, -⟩ := parts
      simp only [toOption_bind, toOption_inside, test.expr, message.optionalField]
    · obtain ⟨id, body, -⟩ := parts
      simp only [toOption_bind, toOption_inside, id.textField, body.stmts]
    · simp only [toOption_bind, toOption_inside, parts.1.aliases]
    · obtain ⟨origin, names, -⟩ := parts
      simp only [toOption_bind, toOption_inside, origin.textField, names.aliases]
    · simp only [toOption_bind, toOption_inside, parts.1.names]
    · simp only [toOption_bind, toOption_inside, parts.1.names]
    · simp only [toOption_bind, toOption_inside, parts.1.exprs]
    · obtain ⟨body, orelse, finalbody, -⟩ := parts
      simp only [toOption_bind, toOption_inside, body.stmts, orelse.stmts, finalbody.stmts]
    · obtain ⟨body, orelse, finalbody, -⟩ := parts
      simp only [toOption_bind, toOption_inside, body.stmts, orelse.stmts, finalbody.stmts]
    · obtain ⟨items, body, -⟩ := parts
      simp only [toOption_bind, toOption_inside, items.withItems, body.stmts]
    · obtain ⟨items, body, -⟩ := parts
      simp only [toOption_bind, toOption_inside, items.withItems, body.stmts]
    · simp only [toOption_readFail]

/-- A module is read from its body and from no other field. -/
theorem toOption_moduleOfNode_object (line other : Nat)
    (same : SameFields .document entries others) :
    (moduleOfNode (.object line entries)).toOption =
      (moduleOfNode (.object other others)).toOption := by
  obtain ⟨missing, otherMissing⟩ | ⟨type, otherType, found, otherFound, texts, parts⟩ :=
    same.typed_cases
  · simp only [moduleOfNode, typed, missing, otherMissing, toOption_bind, toOption_readFail,
      Option.bind_none]
  · simp only [moduleOfNode, typed, found, otherFound, texts, Attempt.ok_bind]
    by_cases isModule : type.text = "Module"
    · simp only [Role.fields, if_pos isModule, List.forall_mem_cons] at parts
      simp only [if_pos isModule, toOption_bind, toOption_inside, parts.1.stmts]
    · have statement : SameFields .stmt entries others := by
        refine ⟨same.type, fun entry member => same.parts entry ?_⟩
        simpa only [Role.fieldsOf, found, Option.elim_some, Role.fields, if_neg isModule]
          using member
      simp only [if_neg isModule, toOption_bind, toOption_stmt_object line other statement]

end Read

namespace Role

/-! ### Changes -/

/-- Objects that agree in the fields of a role have the same result in it. -/
theorem result_object {role : Role} (line other : Nat) {entries others : List (Node × Node)}
    (whole : role.takesParts = false) (same : SameFields role entries others) :
    role.result (.object line entries) = role.result (.object other others) := by
  cases role with
  | document => exact Read.toOption_moduleOfNode_object line other same
  | stmts => simp [result, Read.stmts, Node.isNull]
  | stmt => exact Read.toOption_stmt_object line other same
  | exprs => simp [result, Read.exprs, Node.isNull]
  | expr => exact Read.toOption_expr_object line other same
  | arguments => exact Read.toOption_params_object line other same
  | parameters =>
    have parameter : SameFields .parameter entries others := ⟨same.type, same.parts⟩
    funext kind
    simp only [result, paramNodes, List.mapM_cons,
      Read.toOption_param_object line other parameter kind]
  | parameter => exact funext (Read.toOption_param_object line other same)
  | operator => exact Read.toOption_operator_object line other same
  | keyword => exact Read.toOption_keyword_object line other same
  | withItem => exact Read.withItem?_object line other same
  | «alias» => exact Read.alias?_object line other same
  | names | text | constant => rfl
  | defaults | operators | keywords | withItems | aliases => cases whole

/-- Lists whose items agree have the same result. -/
theorem result_list {role : Role} (line : Nat) (before after : List Node) {value other : Node}
    (agree : Agree role.item value other) :
    role.result (.list line (before ++ value :: after)) =
      role.result (.list line (before ++ other :: after)) := by
  cases role with
  | document =>
    have same := mapM_replace (fun item => (Read.stmt item).toOption) before after agree.stmt
    simp only [result, Read.moduleOfNode, Read.stmts, toOption_bind, Read.toOption_stmtItems, same]
  | stmts =>
    have same := mapM_replace (fun item => (Read.stmt item).toOption) before after agree.stmt
    simp only [result, Read.stmts, Read.toOption_stmtItems, same]
  | exprs =>
    have same := mapM_replace listItem? before after agree.optional
    simp only [result, Read.exprs, Read.toOption_exprItems, same]
  | parameters =>
    funext kind
    exact mapM_replace _ before after (congrFun agree.result kind)
  | defaults => exact mapM_replace _ before after agree.optional
  | operators => exact mapM_replace _ before after agree.operator
  | keywords => exact mapM_replace _ before after agree.result
  | withItems => exact mapM_replace _ before after agree.result
  | aliases => exact mapM_replace _ before after agree.result
  | names | text | constant => rfl
  | stmt => simp [result, Read.stmt]
  | expr => simp [result, Read.expr, Node.isNull]
  | arguments => simp [result, Read.params, Node.isNull]
  | parameter => simp [result, Read.param]
  | operator => simp [result, Read.operator, Read.typed, Node.isNull]
  | keyword => simp [result, Read.keyword]
  | withItem => rfl
  | «alias» => rfl

/-- No reader looks behind an alias, except for texts. -/
theorem result_reference {role : Role} (line : Nat) (anchor : String) (value other : Node) :
    role.result (.reference line anchor value) = role.result (.reference line anchor other) := by
  cases role with
  | document => rfl
  | stmts => simp [result, Read.stmts, Node.isNull]
  | stmt => simp [result, Read.stmt]
  | exprs => simp [result, Read.exprs, Node.isNull]
  | expr => simp [result, Read.expr, Node.isNull]
  | arguments => simp [result, Read.params, Node.isNull]
  | parameter => simp [result, Read.param]
  | operator => simp [result, Read.operator, Read.typed, Node.isNull]
  | keyword => simp [result, Read.keyword]
  | _ => rfl

/-- Whether no object is read where the parts of a list are taken one by one. -/
def Listed (role : Role) (node : Node) : Prop :=
  ∀ part line entries, role.Reaches node part (.object line entries) → part.takesParts = false

/-- A node that is listed where it should be has parts that are, too. -/
theorem Listed.of_mem_children {role part : Role} {node value : Node} (listed : role.Listed node)
    (member : (part, value) ∈ role.children node) : part.Listed value :=
  fun inner line entries reaches => listed inner line entries (.of_child member reaches)

/-- A node is listed where it should be if its parts are. -/
theorem listed_of_children {role : Role} {node : Node}
    (whole : ∀ line entries, node = .object line entries → role.takesParts = false)
    (each : ∀ child ∈ role.children node, child.1.Listed child.2) : role.Listed node := by
  intro inner line entries reaches
  rcases Relation.ReflTransGen.cases_head reaches with here | ⟨⟨part, value⟩, member, further⟩
  · cases here
    exact whole line entries rfl
  · exact each _ member inner line entries further

theorem Agree.refl (role : Role) (node : Node) : role.Agree node node :=
  ⟨.refl node, rfl⟩

/-- Agreement goes on from node to node. -/
theorem Agree.trans {role : Role} {first second third : Node} (before : role.Agree first second)
    (after : role.Agree second third) : role.Agree first third where
  isNull := before.isNull.trans after.isNull
  text := before.text.trans after.text
  string? aliased visits := (before.string? aliased visits).trans (after.string? aliased visits)
  stringsFrom aliased visits :=
    (before.stringsFrom aliased visits).trans (after.stringsFrom aliased visits)
  result := before.result.trans after.result

/-- A change is seen by no reader, and no object takes the place of a list. -/
theorem agree_and_listed_of_change {role : Role} {node : Node} (listed : role.Listed node) :
    ∀ other, role.Change node other → role.Agree node other ∧ role.Listed other := by
  induction role, node using induction_on_children with
  | step role node inductionHypothesis =>
    intro other change
    cases node with
    | scalar => cases change
    | circular => cases change
    | reference line anchor value =>
      cases change with
      | target _ _ _ inner =>
        refine ⟨⟨.reference line anchor inner.looksLike, result_reference ..⟩, ?_⟩
        exact listed_of_children nofun nofun
    | list line items =>
      cases change with
      | @item _ _ before after value changed inner =>
        have member : (role.item, value) ∈ role.children (.list line (before ++ value :: after)) :=
          List.mem_map.mpr ⟨value, by simp, rfl⟩
        obtain ⟨agree, changedListed⟩ :=
          inductionHypothesis _ _ member (listed.of_mem_children member) _ inner
        refine ⟨⟨.list line before after agree.toLooksLike, result_list line before after agree⟩,
          listed_of_children nofun fun child among => ?_⟩
        obtain ⟨kept, inList, rfl⟩ := List.mem_map.mp among
        by_cases atChanged : kept = changed
        · exact atChanged ▸ changedListed
        · refine listed.of_mem_children (List.mem_map.mpr ⟨kept, ?_, rfl⟩)
          simp only [List.mem_append, List.mem_cons, atChanged, false_or] at inList ⊢
          exact inList.imp_right .inr
    | object line entries =>
      have whole := listed role line entries (.refl _ _)
      obtain ⟨others, rfl, fields, each⟩ := change.of_object
      have parts : ∀ entry ∈ role.fieldsOf entries,
          Agree entry.2 (field entries entry.1) (field others entry.1) ∧
            entry.2.Listed (field others entry.1) := by
        rintro ⟨key, part⟩ read
        have member : (part, field entries key) ∈ role.children (.object line entries) := by
          simp only [children, whole]
          exact List.mem_map.mpr ⟨_, read, rfl⟩
        have partListed := listed.of_mem_children member
        obtain same | ⟨value, changed, found, otherFound, inner⟩ := each key part read
        · have equal : field others key = field entries key := by simp only [field, same]
          simpa only [equal] using And.intro (Agree.refl part _) partListed
        · have atValue : field entries key = value := by simp only [field, found, Option.getD_some]
          have atChanged : field others key = changed := by
            simp only [field, otherFound, Option.getD_some]
          simp only [atValue, atChanged] at member partListed ⊢
          exact inductionHypothesis part value member partListed changed inner
      have types :
          (field? entries typeKey).map Node.text = (field? others typeKey).map Node.text := by
        obtain same | ⟨value, changed, found, otherFound, inner⟩ :=
          each typeKey .text List.mem_cons_self
        · rw [same]
        · rw [found, otherFound, Option.map_some, Option.map_some, inner.looksLike.text]
      have same : SameFields role entries others := ⟨types, fun entry read => (parts entry read).1⟩
      refine ⟨⟨.object .., result_object line line whole same⟩,
        listed_of_children (fun _ _ _ => whole) fun child member => ?_⟩
      simp only [children, whole, ← fields] at member
      obtain ⟨entry, read, rfl⟩ := List.mem_map.mp member
      exact (parts entry read).2

end Role

namespace Read

/-- The fields of an object may stand in any order, and fields that nobody reads may be added to it
or taken from it, such as the positions that a parser leaves behind: the same module is read, or
none is read as before. -/
theorem moduleOfNode_of_changes {node other : Node} (listed : Role.document.Listed node)
    (changes : Relation.ReflTransGen Role.document.Change node other) :
    (moduleOfNode node).toOption = (moduleOfNode other).toOption := by
  have both : Role.document.Agree node other ∧ Role.document.Listed other := by
    induction changes with
    | refl => exact ⟨.refl _ _, listed⟩
    | tail _ change inductionHypothesis =>
      obtain ⟨before, middleListed⟩ := inductionHypothesis
      obtain ⟨after, otherListed⟩ := Role.agree_and_listed_of_change middleListed _ change
      exact ⟨before.trans after, otherListed⟩
  exact both.1.result

/-- The entries of a call in another order, and the position of its statement, which is no node of
any known type. -/
theorem moduleOfNode_of_changes_position :
    let source : Module := ⟨[.expr (.call (.name "f") [] [])]⟩
    let callee := Node.typed "Name" [("id", Node.quoted "f")]
    let call := Node.entriesOf "Call"
      [("func", callee), ("args", Node.listed []), ("keywords", Node.listed [])]
    let position := (Node.quoted "lineno", Node.typed "Unknown" [])
    let changed := Node.entriesOf "Expr" [("value", .object 0 call.reverse)]
    let other := Node.typed "Module" [("body", Node.listed [.object 0 (position :: changed)])]
    Role.document.Listed source.toNode ∧
      Relation.ReflTransGen Role.document.Change source.toNode other ∧
        (moduleOfNode other).toOption = some source := by
  intro source callee call position changed other
  have leaf (role : Role) (line : Nat) (tag : Tag) (text : String) :
      role.Listed (.scalar line tag text) := Role.listed_of_children nofun nofun
  have empty (role : Role) : role.Listed (Node.listed []) := Role.listed_of_children nofun nofun
  let statement := Node.entriesOf "Expr" [("value", .object 0 call)]
  have listed : Role.document.Listed source.toNode := by
    have ofCallee : Role.expr.Listed callee :=
      Role.listed_of_children (fun _ _ _ => rfl)
        (List.forall_mem_cons.mpr ⟨leaf _ _ _ _, List.forall_mem_cons.mpr ⟨leaf _ _ _ _, nofun⟩⟩)
    have ofCall : Role.expr.Listed (.object 0 call) :=
      Role.listed_of_children (fun _ _ _ => rfl)
        (List.forall_mem_cons.mpr ⟨leaf _ _ _ _, List.forall_mem_cons.mpr ⟨ofCallee,
          List.forall_mem_cons.mpr ⟨empty _, List.forall_mem_cons.mpr ⟨empty _, nofun⟩⟩⟩⟩)
    have ofStatement : Role.stmt.Listed (.object 0 statement) :=
      Role.listed_of_children (fun _ _ _ => rfl)
        (List.forall_mem_cons.mpr ⟨leaf _ _ _ _, List.forall_mem_cons.mpr ⟨ofCall, nofun⟩⟩)
    have ofBody : Role.stmts.Listed (Node.listed [.object 0 statement]) :=
      Role.listed_of_children nofun (List.forall_mem_cons.mpr ⟨ofStatement, nofun⟩)
    exact Role.listed_of_children (fun _ _ _ => rfl)
      (List.forall_mem_cons.mpr ⟨leaf _ _ _ _, List.forall_mem_cons.mpr ⟨ofBody, nofun⟩⟩)
  have changes : Relation.ReflTransGen Role.document.Change source.toNode other := by
    have inBody {first second : Node} (change : Role.stmt.Change first second) :
        Role.document.Change (Node.typed "Module" [("body", Node.listed [first])])
          (Node.typed "Module" [("body", Node.listed [second])]) :=
      .field .document 0 [(Node.quoted typeKey, Node.quoted "Module")] []
        (List.mem_cons_of_mem _ List.mem_cons_self) (.item .stmts 0 [] [] change)
    have permuted : Role.stmt.Change (.object 0 statement) (.object 0 changed) :=
      .field .stmt 0 [(Node.quoted typeKey, Node.quoted "Expr")] []
        (List.mem_cons_of_mem _ List.mem_cons_self)
        (.permute .expr 0 (by decide) (List.reverse_perm call).symm)
    have added : Role.stmt.Change (.object 0 changed) (.object 0 (position :: changed)) :=
      .add .stmt 0 [] changed _ _ (by decide)
    exact .tail (.single (inBody permuted)) (inBody added)
  refine ⟨listed, changes, ?_⟩
  rw [← moduleOfNode_of_changes listed changes, moduleOfNode_of_holds (by decide) (.refl _)]
  rfl

end Read

end Oxide
