/-
This file says what the nodes of a document give when they are read in their roles, or nothing if
reading fails; which fault is reported does not matter here. A list is read item by item, so its
result is put together from the results of its items.
-/

import Oxide.Proofs.Roles

namespace Oxide

open Document
open Document.Node (field field?)

/-! ### Results without their faults -/

section

variable {Cause First Second : Type}

@[simp] theorem toOption_ok (value : First) :
    (Except.ok value : Except Cause First).toOption = some value := rfl

theorem toOption_eq_some_iff {result : Except Cause First} {value : First} :
    result.toOption = some value ↔ result = .ok value := by
  cases result <;> simp [Except.toOption]

@[simp] theorem toOption_pure (value : First) :
    (pure value : Except Cause First).toOption = some value := rfl

/-- An attempt behind another one gives a result only if both do. -/
@[simp] theorem toOption_bind (result : Except Cause First) (next : First → Except Cause Second) :
    (result >>= next).toOption = result.toOption.bind fun value => (next value).toOption := by
  cases result <;> rfl

@[simp] theorem toOption_map (change : First → Second) (result : Except Cause First) :
    (result.map change).toOption = result.toOption.map change := by
  cases result <;> rfl

@[simp] theorem toOption_readFail (fault : ReadFault) :
    (Read.fail fault : Read First).toOption = none := rfl

/-- The place of a failure does not matter to the result. -/
@[simp] theorem toOption_inside (place : String) (result : Attempt Cause First) :
    (Attempt.inside place result).toOption = result.toOption := by
  cases result <;> rfl

/-- A list is read if all its items are. -/
theorem toOption_mapM (step : First → Except Cause Second) (items : List First) :
    (items.mapM step).toOption = items.mapM fun item => (step item).toOption := by
  induction items with
  | nil => rfl
  | cons first rest inductionHypothesis =>
    simp only [List.mapM_cons, toOption_bind, toOption_pure, inductionHypothesis]
    rfl

/-- An item can be replaced by another one that is read alike. -/
theorem mapM_replace (step : First → Option Second) (before after : List First)
    {value other : First} (same : step value = step other) :
    (before ++ value :: after).mapM step = (before ++ other :: after).mapM step := by
  simp only [List.mapM_append, List.mapM_cons, same]

end

/-! ### Results -/

namespace Role

/-- The nodes of the parameters of one kind. -/
def paramNodes : Node → List Node
  | .object line entries => [.object line entries]
  | .list _ items => items
  | _ => []

/-- The expression in an item of a list, which may be left out. -/
def listItem? (node : Node) : Option Expr :=
  (Read.optional node (Read.expr node)).toOption

/-- The expression that a block is entered with. -/
def withItem? (node : Node) : Option Expr :=
  (Read.typed node).toOption.bind fun (_, entries) =>
    (Read.expr (field entries "context_expr")).toOption

/-- An imported name. -/
def alias? (node : Node) : Option Alias :=
  (Read.typed node).toOption.map fun (_, entries) =>
    { name := Read.text entries "name", asName := Read.text entries "asname" }

/-- What can be read in a role. Texts are left to those who look at them. -/
abbrev Result : Role → Type
  | .document => Option Module
  | .stmts => Option (List Stmt)
  | .stmt => Option Stmt
  | .exprs | .defaults | .withItems => Option (List Expr)
  | .expr | .withItem => Option Expr
  | .arguments => Option (List Param)
  | .parameters => ParamKind → Option (List Param)
  | .parameter => ParamKind → Option Param
  | .operators => Option (List String)
  | .operator => Option String
  | .keywords => Option (List (String × Expr))
  | .keyword => Option (String × Expr)
  | .aliases => Option (List Alias)
  | .alias => Option Alias
  | .names | .text => Unit
  | .constant => Option Constant

/-- What a node is read as in a role, if it can be. -/
def result : (role : Role) → Node → role.Result
  | .document, node => (Read.moduleOfNode node).toOption
  | .stmts, node => (Read.stmts node).toOption
  | .stmt, node => (Read.stmt node).toOption
  | .exprs, node => (Read.exprs node).toOption
  | .expr, node => (Read.expr node).toOption
  | .arguments, node => (Read.params node).toOption
  | .parameters, node => fun kind =>
    (paramNodes node).mapM fun part => (Read.param kind part).toOption
  | .parameter, node => fun kind => (Read.param kind node).toOption
  | .defaults, node => node.parts.mapM listItem?
  | .operators, node => node.parts.mapM fun part => (Read.operator part).toOption
  | .operator, node => (Read.operator node).toOption
  | .keywords, node => node.parts.mapM fun part => (Read.keyword part).toOption
  | .keyword, node => (Read.keyword node).toOption
  | .withItems, node => node.parts.mapM withItem?
  | .withItem, node => withItem? node
  | .aliases, node => node.parts.mapM alias?
  | .alias, node => alias? node
  | .names, _ => ()
  | .text, _ => ()
  | .constant, node => (Read.constant node).toOption

end Role

open Role (paramNodes listItem? withItem? alias?)

namespace Read

/-! ### Lists -/

/-- The number of an item only matters to failures. -/
theorem toOption_exprItems (number : Nat) (items : List Node) :
    (exprItems number items).toOption = items.mapM listItem? := by
  induction items generalizing number with
  | nil => simp only [exprItems, toOption_ok, List.mapM_nil, pure]
  | cons first rest inductionHypothesis =>
    simp only [exprItems, toOption_bind, toOption_inside, toOption_pure, inductionHypothesis,
      List.mapM_cons, listItem?]
    rfl

/-- The number of a statement only matters to failures. -/
theorem toOption_stmtItems (number : Nat) (items : List Node) :
    (stmtItems number items).toOption = items.mapM fun item => (stmt item).toOption := by
  induction items generalizing number with
  | nil => simp only [stmtItems, toOption_ok, List.mapM_nil, pure]
  | cons first rest inductionHypothesis =>
    simp only [stmtItems, toOption_bind, toOption_inside, toOption_pure, inductionHypothesis,
      List.mapM_cons]
    rfl

theorem toOption_keywords (items : List Node) :
    (keywords items).toOption = items.mapM fun item => (keyword item).toOption := by
  induction items with
  | nil => simp only [keywords, toOption_ok, List.mapM_nil, pure]
  | cons first rest inductionHypothesis =>
    simp only [keywords, toOption_bind, toOption_inside, toOption_pure, inductionHypothesis,
      List.mapM_cons]
    rfl

theorem toOption_paramItems (kind : ParamKind) (items : List (String × Node)) :
    (paramItems kind items).toOption =
      (items.map Prod.snd).mapM fun item => (param kind item).toOption := by
  induction items with
  | nil => simp only [paramItems, toOption_ok, List.map_nil, List.mapM_nil, pure]
  | cons item rest inductionHypothesis =>
    obtain ⟨place, first⟩ := item
    simp only [paramItems, toOption_bind, toOption_inside, toOption_pure, inductionHypothesis,
      List.map_cons, List.mapM_cons]
    rfl

/-- The labels of parameters only matter to failures. -/
theorem map_snd_labelled (entries : List (Node × Node)) (key : String) :
    (labelled entries key).map Prod.snd = paramNodes (field entries key) := by
  unfold labelled paramNodes
  cases field entries key with
  | list line items =>
    simp only [List.map_map, Function.comp_def, List.zipIdx_map_fst]
  | _ => rfl

theorem toOption_withItems (items : List Node) :
    (withItems items).toOption = items.mapM withItem? := by
  induction items with
  | nil => rfl
  | cons first rest inductionHypothesis =>
    simp only [withItems, toOption_bind, toOption_inside, toOption_pure, inductionHypothesis,
      List.mapM_cons, withItem?]
    rfl

theorem toOption_aliases (items : List Node) :
    (aliases items).toOption = items.mapM alias? := by
  induction items with
  | nil => rfl
  | cons first rest inductionHypothesis =>
    simp only [aliases, toOption_bind, toOption_pure, inductionHypothesis, List.mapM_cons, alias?]
    cases (typed first).toOption <;> rfl

/-- Default values are read one by one, as long as there are not too many. -/
theorem toOption_keywordDefaults (count number : Nat) (items : List Node) :
    (keywordDefaults count number items).toOption =
      (items.mapM listItem?).bind fun values =>
        if values.length ≤ count - number then some values else none := by
  induction items generalizing number with
  | nil => simp only [keywordDefaults, toOption_ok, List.mapM_nil]; rfl
  | cons first rest inductionHypothesis =>
    have step : (keywordDefaults count number (first :: rest)).toOption =
        if count ≤ number then none else (listItem? first).bind fun value =>
          (keywordDefaults count (number + 1) rest).toOption.bind fun values =>
            some (value :: values) := by
      by_cases full : count ≤ number <;>
        simp only [keywordDefaults, full, if_true, if_false, toOption_bind, toOption_readFail,
          toOption_inside, toOption_pure, Option.bind_none, listItem?]
    rw [step, inductionHypothesis, List.mapM_cons]
    cases listItem? first with
    | none => simp
    | some value =>
      cases rest.mapM listItem? with
      | none => simp
      | some values =>
        have one_less : values.length + 1 ≤ count - number ↔
            ¬ count ≤ number ∧ values.length ≤ count - (number + 1) := by omega
        by_cases full : count ≤ number
        · simp [full]
        · by_cases fits : values.length ≤ count - (number + 1) <;> simp [full, one_less, fits]

end Read

end Oxide
