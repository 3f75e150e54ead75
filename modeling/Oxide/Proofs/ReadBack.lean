/-
This file proves that a complete syntax tree is read back from its document. Each form of node is
read from the fields that it was written with, whatever else its document says, and the induction
over the tree carries this to any depth: through the values of an expression, the default values of
a lambda, and the blocks of a statement.
-/

import Oxide.Proofs.ReadParts

namespace Oxide.Read

open Document
open Document.Node

variable {node : Node} {entries : List (Node × Node)} {key : String}

/-! ### Expressions -/

theorem isNull_of_expr {value : Expr} (read : expr node = .ok value) : node.isNull = false := by
  rw [Bool.eq_false_iff]
  intro null
  unfold isNull at null
  split at null
  · simp [expr, isNull, fail, Attempt.fail] at read
  · cases null

/-- An expression that may be left out is found if it can be read when it is there. -/
theorem finds_of_holds {value : Expr} (optional : value.isOptional)
    (read : value.isComplete → expr node = .ok value) (holds : node.Holds value.toNode) :
    Finds node value := by
  rw [Expr.isOptional, Bool.or_eq_true] at optional
  rcases optional with absent | complete
  · unfold Expr.isAbsent at absent
    split at absent
    · rw [Expr.toNode] at holds
      rw [Finds, Read.optional, if_pos holds.isNull]
    · cases absent
  · rw [Finds, Read.optional, isNull_of_expr (read complete), if_neg Bool.false_ne_true,
      read complete]

mutual

/-- A complete expression is read from any node that holds its document. -/
theorem expr_of_holds : (value : Expr) → value.isComplete → (node : Node) →
    node.Holds value.toNode → expr node = .ok value
  | .absent, complete, _, _ => by
    rw [Expr.isComplete] at complete
    cases complete
  | .constant value, complete, node, holds => by
    rw [Expr.isComplete] at complete
    rw [Expr.toNode] at holds
    -- The type that the object names leaves one branch of the reader.
    obtain ⟨line, entries, name, rfl, found, named, has⟩ := Holds.of_typed holds rfl
    have valueRead := constant_of_holds complete (has "value" _ rfl)
    rw [expr, found]
    simp only [named, valueRead, Attempt.ok_bind]
    rfl
  | .name id, _, node, holds => by
    rw [Expr.toNode] at holds
    obtain ⟨line, entries, name, rfl, found, named, has⟩ := Holds.of_typed holds rfl
    have idText := text_of_quoted (has "id" _ rfl)
    rw [expr, found]
    simp only [named, idText]
    rfl
  | .binOp left op right, complete, node, holds => by
    rw [Expr.isComplete, Bool.and_eq_true] at complete
    rw [Expr.toNode] at holds
    obtain ⟨line, entries, name, rfl, found, named, has⟩ := Holds.of_typed holds rfl
    have leftRead := expr_of_holds left complete.1 _ (has "left" _ rfl)
    have opRead := operator_of_holds (has "op" _ rfl)
    have rightRead := expr_of_holds right complete.2 _ (has "right" _ rfl)
    rw [expr, found]
    simp only [named, leftRead, opRead, rightRead, Attempt.inside_ok, Attempt.ok_bind]
    rfl
  | .unaryOp op operand, complete, node, holds => by
    rw [Expr.isComplete] at complete
    rw [Expr.toNode] at holds
    obtain ⟨line, entries, name, rfl, found, named, has⟩ := Holds.of_typed holds rfl
    have opRead := operator_of_holds (has "op" _ rfl)
    have operandRead := expr_of_holds operand complete _ (has "operand" _ rfl)
    rw [expr, found]
    simp only [named, opRead, operandRead, Attempt.inside_ok, Attempt.ok_bind]
    rfl
  | .boolOp op values, complete, node, holds => by
    rw [Expr.isComplete] at complete
    rw [Expr.toNode] at holds
    obtain ⟨line, entries, name, rfl, found, named, has⟩ := Holds.of_typed holds rfl
    have opRead := operator_of_holds (has "op" _ rfl)
    have valuesRead := exprs_of_listed (has "values" _ rfl) (forall₂_finds values complete)
    rw [expr, found]
    simp only [named, opRead, valuesRead, Attempt.inside_ok, Attempt.ok_bind]
    rfl
  | .compare left ops comparators, complete, node, holds => by
    rw [Expr.isComplete, Bool.and_eq_true, Bool.and_eq_true, decide_eq_true_eq] at complete
    rw [Expr.toNode] at holds
    obtain ⟨line, entries, name, rfl, found, named, has⟩ := Holds.of_typed holds rfl
    obtain ⟨_, nodes, isList, each⟩ := Holds.of_listed (has "ops" _ rfl)
    have leftRead := expr_of_holds left complete.1.1 _ (has "left" _ rfl)
    have comparatorsRead :=
      exprs_of_listed (has "comparators" _ rfl) (forall₂_finds comparators complete.2)
    rw [expr, found]
    simp only [named, leftRead, isList, parts, operators_of_holds each, comparatorsRead,
      Attempt.inside_ok, Attempt.ok_bind]
    -- The lengths are compared once both lists are read.
    rw [if_neg (not_not.mpr complete.1.2)]
    rfl
  | .call function arguments keywords, complete, node, holds => by
    rw [Expr.isComplete, Bool.and_eq_true, Bool.and_eq_true] at complete
    rw [Expr.toNode] at holds
    obtain ⟨line, entries, name, rfl, found, named, has⟩ := Holds.of_typed holds rfl
    obtain ⟨_, nodes, isList, each⟩ := Holds.of_listed (has "keywords" _ rfl)
    have funcRead := expr_of_holds function complete.1.1 _ (has "func" _ rfl)
    have argsRead := exprs_of_listed (has "args" _ rfl) (forall₂_finds arguments complete.1.2)
    have keywordsRead := keywords_of_holds keywords complete.2 nodes each
    rw [expr, found]
    simp only [named, funcRead, isList, parts, argsRead, keywordsRead, Attempt.inside_ok,
      Attempt.ok_bind]
    rfl
  | .attribute value attr, complete, node, holds => by
    rw [Expr.isComplete] at complete
    rw [Expr.toNode] at holds
    obtain ⟨line, entries, name, rfl, found, named, has⟩ := Holds.of_typed holds rfl
    have valueRead := expr_of_holds value complete _ (has "value" _ rfl)
    have attrText := text_of_quoted (has "attr" _ rfl)
    rw [expr, found]
    simp only [named, valueRead, attrText, Attempt.inside_ok, Attempt.ok_bind]
    rfl
  | .subscript value slice, complete, node, holds => by
    rw [Expr.isComplete, Bool.and_eq_true] at complete
    rw [Expr.toNode] at holds
    obtain ⟨line, entries, name, rfl, found, named, has⟩ := Holds.of_typed holds rfl
    have valueRead := expr_of_holds value complete.1 _ (has "value" _ rfl)
    have sliceRead := expr_of_holds slice complete.2 _ (has "slice" _ rfl)
    rw [expr, found]
    simp only [named, valueRead, sliceRead, Attempt.inside_ok, Attempt.ok_bind]
    rfl
  | .list items, complete, node, holds => by
    rw [Expr.isComplete] at complete
    rw [Expr.toNode] at holds
    obtain ⟨line, entries, name, rfl, found, named, has⟩ := Holds.of_typed holds rfl
    have eltsRead := exprs_of_listed (has "elts" _ rfl) (forall₂_finds items complete)
    rw [expr, found]
    simp only [named, eltsRead, Attempt.inside_ok, Attempt.ok_bind]
    rfl
  | .tuple items, complete, node, holds => by
    rw [Expr.isComplete] at complete
    rw [Expr.toNode] at holds
    obtain ⟨line, entries, name, rfl, found, named, has⟩ := Holds.of_typed holds rfl
    have eltsRead := exprs_of_listed (has "elts" _ rfl) (forall₂_finds items complete)
    rw [expr, found]
    simp only [named, eltsRead, Attempt.inside_ok, Attempt.ok_bind]
    rfl
  | .await value, complete, node, holds => by
    rw [Expr.isComplete] at complete
    rw [Expr.toNode] at holds
    obtain ⟨line, entries, name, rfl, found, named, has⟩ := Holds.of_typed holds rfl
    have valueRead := expr_of_holds value complete _ (has "value" _ rfl)
    rw [expr, found]
    simp only [named, valueRead, Attempt.inside_ok, Attempt.ok_bind]
    rfl
  | .lambda parameters body, complete, node, holds => by
    rw [Expr.isComplete, Bool.and_eq_true, Bool.and_eq_true, decide_eq_true_eq] at complete
    rw [Expr.toNode] at holds
    obtain ⟨line, entries, name, rfl, found, named, has⟩ := Holds.of_typed holds rfl
    have argsRead :=
      params_of_holds complete.1.1 (findsParams parameters complete.1.2) (has "args" _ rfl)
    have bodyRead := expr_of_holds body complete.2 _ (has "body" _ rfl)
    rw [expr, found]
    simp only [named, argsRead, bodyRead, Attempt.inside_ok, Attempt.ok_bind]
    rfl
  | .dict keys values, complete, node, holds => by
    rw [Expr.isComplete, Bool.and_eq_true] at complete
    rw [Expr.toNode] at holds
    obtain ⟨line, entries, name, rfl, found, named, has⟩ := Holds.of_typed holds rfl
    have keysRead := exprs_of_listed (has "keys" _ rfl) (forall₂_finds keys complete.1)
    have valuesRead := exprs_of_listed (has "values" _ rfl) (forall₂_finds values complete.2)
    rw [expr, found]
    simp only [named, keysRead, valuesRead, Attempt.inside_ok, Attempt.ok_bind]
    rfl
  | .joinedStr values, complete, node, holds => by
    rw [Expr.isComplete] at complete
    rw [Expr.toNode] at holds
    obtain ⟨line, entries, name, rfl, found, named, has⟩ := Holds.of_typed holds rfl
    have valuesRead := exprs_of_listed (has "values" _ rfl) (forall₂_finds values complete)
    rw [expr, found]
    simp only [named, valuesRead, Attempt.inside_ok, Attempt.ok_bind]
    rfl

theorem forall₂_finds : (values : List Expr) → Expr.allComplete values → (nodes : List Node) →
    List.Forall₂ Holds nodes (Expr.toNodes values) → List.Forall₂ Finds nodes values
  | [], _, nodes, each => by
    rw [Expr.toNodes] at each
    cases each
    exact .nil
  | first :: rest, complete, nodes, each => by
    rw [Expr.allComplete, Bool.and_eq_true] at complete
    rw [Expr.toNodes] at each
    obtain _ | ⟨holds, others⟩ := each
    exact .cons (finds_of_holds complete.1 (fun there => expr_of_holds first there _ holds) holds)
      (forall₂_finds rest complete.2 _ others)

theorem keywords_of_holds : (values : List (String × Expr)) → Expr.keywordsComplete values →
    (nodes : List Node) → List.Forall₂ Holds nodes (Expr.keywordNodes values) →
      keywords nodes = .ok values
  | [], _, nodes, each => by
    rw [Expr.keywordNodes] at each
    cases each
    rw [keywords]
  | (id, value) :: rest, complete, nodes, each => by
    rw [Expr.keywordsComplete, Bool.and_eq_true] at complete
    rw [Expr.keywordNodes] at each
    obtain _ | ⟨holds, others⟩ := each
    obtain ⟨line, entries, _, rfl, found, _, has⟩ := Holds.of_typed holds rfl
    rw [keywords, keyword, found]
    simp only [expr_of_holds value complete.1 _ (has "value" _ rfl),
      text_of_optionalText (has "arg" _ rfl), keywords_of_holds rest complete.2 _ others,
      Attempt.ok_bind]
    rfl

theorem findsParams : (parameters : List (ParamOf Expr)) → Expr.paramsComplete parameters →
    List.Forall₂ FindsParam (Expr.paramParts parameters) parameters
  | [], _ => by
    rw [Expr.paramParts]
    exact .nil
  | ⟨id, kind, hint, defaultValue⟩ :: rest, complete => by
    rw [Expr.paramsComplete, Bool.and_eq_true, Bool.and_eq_true] at complete
    rw [Expr.paramParts]
    refine .cons ⟨rfl, fun node holds => ?_, ?_, fun value isValue node holds => ?_⟩
      (findsParams rest complete.2)
    · obtain ⟨line, entries, _, rfl, found, _, has⟩ := Holds.of_typed holds rfl
      have hinted := finds_of_holds complete.1.1
        (fun there => expr_of_holds hint there _ (has "annotation" _ rfl)) (has "annotation" _ rfl)
      rw [param, found]
      simp only [text_of_quoted (has "arg" _ rfl), show optional _ _ = _ from hinted,
        Attempt.inside_ok, Attempt.ok_bind]
      rfl
    · cases absent : defaultValue.isAbsent <;> simp [ParamOf.isBare, absent]
    · split at isValue
      · cases isValue
      · cases isValue
        exact finds_of_holds complete.1.2
          (fun there => expr_of_holds defaultValue there _ holds) holds

end

/-! ### Statements -/

theorem optionalField_of_holds {value : Expr} (complete : value.isOptional)
    (holds : (field entries key).Holds value.toNode) : optionalField entries key = .ok value :=
  finds_of_holds complete (fun there => expr_of_holds value there _ holds) holds

theorem exprs_of_holds {values : List Expr} (complete : Expr.allComplete values)
    (holds : node.Holds (listed (Expr.toNodes values))) : exprs node = .ok values :=
  exprs_of_listed holds (forall₂_finds values complete)

theorem withItems_of_holds {nodes : List Node} {values : List Expr}
    (complete : values.all Expr.isComplete)
    (each : List.Forall₂ Holds nodes (values.map withItem)) : withItems nodes = .ok values := by
  induction values generalizing nodes with
  | nil =>
    cases each
    rfl
  | cons value rest inductionHypothesis =>
    rw [List.all_cons, Bool.and_eq_true] at complete
    obtain _ | ⟨first, others⟩ := each
    obtain ⟨line, entries, _, rfl, found, _, has⟩ := Holds.of_typed first rfl
    simp only [withItems, typed, found, Attempt.ok_bind,
      expr_of_holds value complete.1 _ (has "context_expr" _ rfl), Attempt.inside_ok,
      inductionHypothesis complete.2 others]
    rfl

theorem allComplete_names (ids : List String) : Expr.allComplete (ids.map .name) := by
  induction ids with
  | nil => rfl
  | cons id rest inductionHypothesis =>
    rw [List.map_cons, Expr.allComplete, Expr.isComplete, Bool.or_true, Bool.true_and,
      inductionHypothesis]

/-- The decorators and the result of a function, behind its parameters and its body. -/
theorem signature_of_holds {definition : FunctionDef} (complete : definition.returns.isOptional)
    (named : (field entries "name").Holds (quoted definition.name))
    (decorated : (field entries "decorator_list").Holds
      (listed (Expr.toNodes (definition.decorators.map .name))))
    (returned : (field entries "returns").Holds definition.returns.toNode) :
    signature entries definition.params definition.body = .ok definition := by
  have spelled : (definition.decorators.map Expr.name).map decoratorName =
      definition.decorators := by
    simp [Function.comp_def, decoratorName]
  simp only [signature, text_of_quoted named, exprs_of_holds (allComplete_names _) decorated,
    optionalField_of_holds complete returned, Attempt.inside_ok, Attempt.ok_bind, spelled]
  rfl

/-- Whether a block is read from any node that holds its document. -/
def ReadsBlock (values : List Stmt) : Prop :=
  ∀ node : Node, node.Holds (listed (Stmt.toNodes values)) → stmts node = .ok values

theorem readsBlock_of_items {values : List Stmt}
    (read : ∀ nodes, List.Forall₂ Holds nodes (Stmt.toNodes values) →
      stmtItems 0 nodes = .ok values) : ReadsBlock values := by
  intro node holds
  obtain ⟨line, nodes, rfl, each⟩ := Holds.of_listed holds
  rw [stmts, read nodes each]

theorem allComplete_body {definition : FunctionDef} (complete : FunctionDef.isComplete definition) :
    Stmt.allComplete definition.body := by
  rw [FunctionDef.isComplete, Bool.and_eq_true, Bool.and_eq_true] at complete
  exact complete.1.2

/-- A function is read alike whether it is asynchronous or not: its type is looked at last. -/
theorem function_of_holds {type : String} {definition : FunctionDef}
    (known : type = "FunctionDef" ∨ type = "AsyncFunctionDef")
    (complete : FunctionDef.isComplete definition) (block : ReadsBlock definition.body)
    (holds : node.Holds (FunctionDef.toNode type definition)) :
    stmt node = .ok (if type = "FunctionDef" then .functionDef definition
      else .asyncFunctionDef definition) := by
  obtain ⟨id, parameters, body, decorators, returns⟩ := definition
  simp only [FunctionDef.isComplete, Bool.and_eq_true, decide_eq_true_eq] at complete
  rw [FunctionDef.toNode] at holds
  obtain ⟨line, entries, name, rfl, found, named, has⟩ := Holds.of_typed holds rfl
  have argsRead :=
    params_of_holds complete.1.1.1 (findsParams parameters complete.1.1.2) (has "args" _ rfl)
  have bodyRead := block _ (has "body" _ rfl)
  have definitionRead := @signature_of_holds _ ⟨id, parameters, body, decorators, returns⟩
    complete.2 (has "name" _ rfl) (has "decorator_list" _ rfl) (has "returns" _ rfl)
  rw [stmt, found]
  rcases known with rfl | rfl <;>
    simp only [named, argsRead, bodyRead, Attempt.inside_ok, Attempt.ok_bind, definitionRead] <;>
    rfl

/-- The two statements with a condition have the same fields. -/
theorem conditional_of_holds {type : String} {test : Expr} {body orelse : List Stmt}
    (known : type = "If" ∨ type = "While") (complete : test.isComplete)
    (block : ReadsBlock body) (otherBlock : ReadsBlock orelse)
    (holds : node.Holds (Node.typed type
      [("test", test.toNode), ("body", listed (Stmt.toNodes body)),
        ("orelse", listed (Stmt.toNodes orelse))])) :
    stmt node = .ok (if type = "If" then .ifElse test body orelse
      else .whileLoop test body orelse) := by
  obtain ⟨line, entries, name, rfl, found, named, has⟩ := Holds.of_typed holds rfl
  have testRead := expr_of_holds test complete _ (has "test" _ rfl)
  have bodyRead := block _ (has "body" _ rfl)
  have orelseRead := otherBlock _ (has "orelse" _ rfl)
  rw [stmt, found]
  rcases known with rfl | rfl <;>
    simp only [named, testRead, bodyRead, orelseRead, Attempt.inside_ok, Attempt.ok_bind] <;>
    rfl

/-- The two statements that say where names belong have the same field. -/
theorem outerNames_of_holds {type : String} {ids : List String}
    (known : type = "Global" ∨ type = "Nonlocal")
    (holds : node.Holds (Node.typed type [("names", listed (ids.map quoted))])) :
    stmt node = .ok (if type = "Global" then .globalNames ids else .nonlocalNames ids) := by
  obtain ⟨line, entries, name, rfl, found, named, has⟩ := Holds.of_typed holds rfl
  have namesRead := names_of_holds (has "names" _ rfl)
  rw [stmt, found]
  rcases known with rfl | rfl <;>
    simp only [named, namesRead, Attempt.inside_ok, Attempt.ok_bind] <;> rfl

/-- A statement that is a single word has no fields. -/
theorem word_of_holds {type : String} {value : Stmt}
    (known : (type, value) ∈ [("Pass", Stmt.pass), ("Break", .breakLoop),
      ("Continue", .continueLoop)])
    (holds : node.Holds (Node.typed type [])) : stmt node = .ok value := by
  obtain ⟨line, entries, name, rfl, found, named, _⟩ := Holds.of_typed holds rfl
  rw [stmt, found]
  simp only [List.mem_cons, Prod.mk.injEq, List.not_mem_nil, or_false] at known
  rcases known with ⟨rfl, rfl⟩ | ⟨rfl, rfl⟩ | ⟨rfl, rfl⟩ <;> simp only [named] <;> rfl

mutual

/-- A complete statement is read from any node that holds its document. -/
theorem stmt_of_holds : (value : Stmt) → value.isComplete → (node : Node) →
    node.Holds value.toNode → stmt node = .ok value
  | .absent, complete, _, _ => by
    rw [Stmt.isComplete] at complete
    cases complete
  | .functionDef ⟨id, parameters, body, decorators, returns⟩, complete, node, holds => by
    rw [Stmt.isComplete] at complete
    rw [Stmt.toNode] at holds
    exact function_of_holds (.inl rfl) complete
      (readsBlock_of_items (stmtItems_of_holds body (allComplete_body complete) 0)) holds
  | .asyncFunctionDef ⟨id, parameters, body, decorators, returns⟩, complete, node, holds => by
    rw [Stmt.isComplete] at complete
    rw [Stmt.toNode] at holds
    exact function_of_holds (.inr rfl) complete
      (readsBlock_of_items (stmtItems_of_holds body (allComplete_body complete) 0)) holds
  | .expr value, complete, node, holds => by
    rw [Stmt.isComplete] at complete
    rw [Stmt.toNode] at holds
    obtain ⟨line, entries, name, rfl, found, named, has⟩ := Holds.of_typed holds rfl
    have valueRead := expr_of_holds value complete _ (has "value" _ rfl)
    rw [stmt, found]
    simp only [named, valueRead, Attempt.inside_ok, Attempt.ok_bind]
    rfl
  | .assign targets value, complete, node, holds => by
    rw [Stmt.isComplete, Bool.and_eq_true] at complete
    rw [Stmt.toNode] at holds
    obtain ⟨line, entries, name, rfl, found, named, has⟩ := Holds.of_typed holds rfl
    have targetsRead := exprs_of_holds complete.1 (has "targets" _ rfl)
    have valueRead := expr_of_holds value complete.2 _ (has "value" _ rfl)
    rw [stmt, found]
    simp only [named, targetsRead, valueRead, Attempt.inside_ok, Attempt.ok_bind]
    rfl
  | .augAssign target op value, complete, node, holds => by
    rw [Stmt.isComplete, Bool.and_eq_true] at complete
    rw [Stmt.toNode] at holds
    obtain ⟨line, entries, name, rfl, found, named, has⟩ := Holds.of_typed holds rfl
    have targetRead := expr_of_holds target complete.1 _ (has "target" _ rfl)
    have opRead := operator_of_holds (has "op" _ rfl)
    have valueRead := expr_of_holds value complete.2 _ (has "value" _ rfl)
    rw [stmt, found]
    simp only [named, targetRead, opRead, valueRead, Attempt.inside_ok, Attempt.ok_bind]
    rfl
  | .annAssign target hint value, complete, node, holds => by
    rw [Stmt.isComplete, Bool.and_eq_true, Bool.and_eq_true] at complete
    rw [Stmt.toNode] at holds
    obtain ⟨line, entries, name, rfl, found, named, has⟩ := Holds.of_typed holds rfl
    have targetRead := expr_of_holds target complete.1.1 _ (has "target" _ rfl)
    have annotationRead := expr_of_holds hint complete.1.2 _ (has "annotation" _ rfl)
    have valueRead := optionalField_of_holds complete.2 (has "value" _ rfl)
    rw [stmt, found]
    simp only [named, targetRead, annotationRead, valueRead, Attempt.inside_ok, Attempt.ok_bind]
    rfl
  | .ret value, complete, node, holds => by
    rw [Stmt.isComplete] at complete
    rw [Stmt.toNode] at holds
    obtain ⟨line, entries, name, rfl, found, named, has⟩ := Holds.of_typed holds rfl
    have valueRead := optionalField_of_holds complete (has "value" _ rfl)
    rw [stmt, found]
    simp only [named, valueRead, Attempt.inside_ok, Attempt.ok_bind]
    rfl
  | .ifElse test body orelse, complete, node, holds => by
    rw [Stmt.isComplete, Bool.and_eq_true, Bool.and_eq_true] at complete
    rw [Stmt.toNode] at holds
    exact conditional_of_holds (.inl rfl) complete.1.1
      (readsBlock_of_items (stmtItems_of_holds body complete.1.2 0))
      (readsBlock_of_items (stmtItems_of_holds orelse complete.2 0)) holds
  | .whileLoop test body orelse, complete, node, holds => by
    rw [Stmt.isComplete, Bool.and_eq_true, Bool.and_eq_true] at complete
    rw [Stmt.toNode] at holds
    exact conditional_of_holds (.inr rfl) complete.1.1
      (readsBlock_of_items (stmtItems_of_holds body complete.1.2 0))
      (readsBlock_of_items (stmtItems_of_holds orelse complete.2 0)) holds
  | .forLoop target iter body orelse, complete, node, holds => by
    rw [Stmt.isComplete, Bool.and_eq_true, Bool.and_eq_true, Bool.and_eq_true] at complete
    rw [Stmt.toNode] at holds
    obtain ⟨line, entries, name, rfl, found, named, has⟩ := Holds.of_typed holds rfl
    have targetRead := expr_of_holds target complete.1.1.1 _ (has "target" _ rfl)
    have iterRead := expr_of_holds iter complete.1.1.2 _ (has "iter" _ rfl)
    have bodyRead :=
      readsBlock_of_items (stmtItems_of_holds body complete.1.2 0) _ (has "body" _ rfl)
    have orelseRead :=
      readsBlock_of_items (stmtItems_of_holds orelse complete.2 0) _ (has "orelse" _ rfl)
    rw [stmt, found]
    simp only [named, targetRead, iterRead, bodyRead, orelseRead, Attempt.inside_ok,
      Attempt.ok_bind]
    rfl
  | .pass, _, node, holds => by
    rw [Stmt.toNode] at holds
    exact word_of_holds (.head _) holds
  | .breakLoop, _, node, holds => by
    rw [Stmt.toNode] at holds
    exact word_of_holds (.tail _ (.head _)) holds
  | .continueLoop, _, node, holds => by
    rw [Stmt.toNode] at holds
    exact word_of_holds (.tail _ (.tail _ (.head _))) holds
  | .raise exc, complete, node, holds => by
    rw [Stmt.isComplete] at complete
    rw [Stmt.toNode] at holds
    obtain ⟨line, entries, name, rfl, found, named, has⟩ := Holds.of_typed holds rfl
    have excRead := optionalField_of_holds complete (has "exc" _ rfl)
    rw [stmt, found]
    simp only [named, excRead, Attempt.inside_ok, Attempt.ok_bind]
    rfl
  | .assert test msg, complete, node, holds => by
    rw [Stmt.isComplete, Bool.and_eq_true] at complete
    rw [Stmt.toNode] at holds
    obtain ⟨line, entries, name, rfl, found, named, has⟩ := Holds.of_typed holds rfl
    have testRead := expr_of_holds test complete.1 _ (has "test" _ rfl)
    have msgRead := optionalField_of_holds complete.2 (has "msg" _ rfl)
    rw [stmt, found]
    simp only [named, testRead, msgRead, Attempt.inside_ok, Attempt.ok_bind]
    rfl
  | .classDef id body, complete, node, holds => by
    rw [Stmt.isComplete] at complete
    rw [Stmt.toNode] at holds
    obtain ⟨line, entries, name, rfl, found, named, has⟩ := Holds.of_typed holds rfl
    have nameText := text_of_quoted (has "name" _ rfl)
    have bodyRead := readsBlock_of_items (stmtItems_of_holds body complete 0) _ (has "body" _ rfl)
    rw [stmt, found]
    simp only [named, nameText, bodyRead, Attempt.inside_ok, Attempt.ok_bind]
    rfl
  | .importNames names, _, node, holds => by
    rw [Stmt.toNode] at holds
    obtain ⟨line, entries, name, rfl, found, named, has⟩ := Holds.of_typed holds rfl
    obtain ⟨_, nodes, isList, each⟩ := Holds.of_listed (has "names" _ rfl)
    have namesRead := aliases_of_holds each
    rw [stmt, found]
    simp only [named, isList, parts, namesRead, Attempt.inside_ok, Attempt.ok_bind]
    rfl
  | .importFrom origin names, _, node, holds => by
    rw [Stmt.toNode] at holds
    obtain ⟨line, entries, name, rfl, found, named, has⟩ := Holds.of_typed holds rfl
    obtain ⟨_, nodes, isList, each⟩ := Holds.of_listed (has "names" _ rfl)
    have namesRead := aliases_of_holds each
    have moduleText := text_of_optionalText (has "module" _ rfl)
    rw [stmt, found]
    simp only [named, isList, parts, namesRead, moduleText, Attempt.inside_ok, Attempt.ok_bind]
    rfl
  | .globalNames names, _, node, holds => by
    rw [Stmt.toNode] at holds
    exact outerNames_of_holds (.inl rfl) holds
  | .nonlocalNames names, _, node, holds => by
    rw [Stmt.toNode] at holds
    exact outerNames_of_holds (.inr rfl) holds
  | .delete targets, complete, node, holds => by
    rw [Stmt.isComplete] at complete
    rw [Stmt.toNode] at holds
    obtain ⟨line, entries, name, rfl, found, named, has⟩ := Holds.of_typed holds rfl
    have targetsRead := exprs_of_holds complete (has "targets" _ rfl)
    rw [stmt, found]
    simp only [named, targetsRead, Attempt.inside_ok, Attempt.ok_bind]
    rfl
  | .tryBlock body orelse finalbody, complete, node, holds => by
    rw [Stmt.isComplete, Bool.and_eq_true, Bool.and_eq_true] at complete
    rw [Stmt.toNode] at holds
    obtain ⟨line, entries, name, rfl, found, named, has⟩ := Holds.of_typed holds rfl
    have bodyRead :=
      readsBlock_of_items (stmtItems_of_holds body complete.1.1 0) _ (has "body" _ rfl)
    have orelseRead :=
      readsBlock_of_items (stmtItems_of_holds orelse complete.1.2 0) _ (has "orelse" _ rfl)
    have finalbodyRead :=
      readsBlock_of_items (stmtItems_of_holds finalbody complete.2 0) _ (has "finalbody" _ rfl)
    rw [stmt, found]
    simp only [named, bodyRead, orelseRead, finalbodyRead, Attempt.inside_ok, Attempt.ok_bind]
    rfl
  | .withBlock items body, complete, node, holds => by
    rw [Stmt.isComplete, Bool.and_eq_true] at complete
    rw [Stmt.toNode] at holds
    obtain ⟨line, entries, name, rfl, found, named, has⟩ := Holds.of_typed holds rfl
    obtain ⟨_, nodes, isList, each⟩ := Holds.of_listed (has "items" _ rfl)
    have itemsRead := withItems_of_holds complete.1 each
    have bodyRead := readsBlock_of_items (stmtItems_of_holds body complete.2 0) _ (has "body" _ rfl)
    rw [stmt, found]
    simp only [named, isList, parts, itemsRead, bodyRead, Attempt.inside_ok, Attempt.ok_bind]
    rfl

theorem stmtItems_of_holds : (values : List Stmt) → Stmt.allComplete values → (number : Nat) →
    (nodes : List Node) → List.Forall₂ Holds nodes (Stmt.toNodes values) →
      stmtItems number nodes = .ok values
  | [], _, _, nodes, each => by
    rw [Stmt.toNodes] at each
    cases each
    rw [stmtItems]
  | first :: rest, complete, number, nodes, each => by
    rw [Stmt.allComplete, Bool.and_eq_true] at complete
    rw [Stmt.toNodes] at each
    obtain _ | ⟨holds, others⟩ := each
    rw [stmtItems, stmt_of_holds first complete.1 _ holds,
      stmtItems_of_holds rest complete.2 _ _ others]
    rfl

end

/-! ### Modules -/

theorem moduleOfNode_of_holds {source : Module} (complete : source.isComplete)
    (holds : node.Holds source.toNode) : moduleOfNode node = .ok source := by
  obtain ⟨line, entries, name, rfl, found, named, has⟩ := Holds.of_typed holds rfl
  unfold moduleOfNode
  simp only [typed, found, named, Attempt.ok_bind, if_true, Attempt.inside_ok,
    readsBlock_of_items (stmtItems_of_holds source.body complete 0) _ (has "body" _ rfl)]
  rfl

/-- A complete module is read back from its document, and from every document that says the same
in other lines, with further fields, or without the fields that are null. -/
theorem module_read_back {source : Module} (complete : source.isComplete) :
    moduleOfNode source.toNode = .ok source ∧
      ∀ node : Node, node.Holds source.toNode → moduleOfNode node = .ok source :=
  ⟨moduleOfNode_of_holds complete (.refl _), fun _ => moduleOfNode_of_holds complete⟩

/-- A function with parameters of all kinds, whose default values are a number and a lambda with a
default value of its own, and a loop around a statement with optional parts. -/
theorem module_read_back_nested :
    let parameter (name : String) (kind : ParamKind) (defaultValue : Expr) : Param :=
      ⟨name, kind, .absent, defaultValue⟩
    let negation : Expr := .lambda [parameter "x" .positional (.constant (.float "0.5"))]
      (.unaryOp "USub" (.name "x"))
    let definition : FunctionDef :=
      { name := "f"
        params := [parameter "a" .positionalOnly .absent, ⟨"b", .positional, .name "int",
          .constant (.int "1")⟩, parameter "rest" .varArgs .absent,
          parameter "key" .keywordOnly negation, parameter "flag" .keywordOnly .absent,
          parameter "named" .keywordArgs .absent]
        body := [.forLoop (.name "i") (.name "rest") [.annAssign (.name "y") (.name "int") .absent,
            .ret (.compare (.name "i") ["Lt", "Is"] [.name "y", .constant .none])] [],
          .importFrom "" [⟨"m", ""⟩, ⟨"n", "k"⟩]]
        decorators := ["functools.cache"]
        returns := .absent }
    let source : Module := ⟨[.asyncFunctionDef definition, .globalNames ["g"],
      .expr (.dict [.absent] [.name "m"])]⟩
    source.isComplete ∧ moduleOfNode source.toNode = .ok source ∧
      ∀ node : Node, node.Holds source.toNode → moduleOfNode node = .ok source := by
  intro parameter negation definition source
  have complete : source.isComplete := by decide +kernel
  exact ⟨complete, module_read_back complete⟩

end Oxide.Read
