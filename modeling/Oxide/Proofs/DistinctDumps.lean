/-
This file shows that trees which are printed alike are the same tree. The printed text determines a
form, so it is enough that different trees have different forms. Every node has a title of its own,
its fields have distinct labels, and a field that is left out cannot be mistaken for the one behind
it.
-/

import Oxide.Proofs.CanonicalTrees

namespace Oxide

open Form

/-! ### Different trees have different forms -/

namespace Form

/-- The name of a group, or a bare word. -/
def title : Form → String
  | .group name _ _ => name
  | .quoted _ => ""
  | .bare word => word

@[simp] theorem title_node (name : String) (fields : List (String × Option Form)) :
    (node name fields).title = name := rfl

@[simp] theorem title_bare (word : String) : (bare word).title = word := rfl

@[simp] theorem title_function (name : String) (definition : FunctionDef) :
    (FunctionDef.form name definition).title = name := by
  obtain ⟨⟩ := definition
  rfl

/-- Only fields that are there are shown. -/
theorem mem_of_mem_shown {fields : List (String × Option Form)} {key : String} {value : Form}
    (member : (some key, value) ∈ shown fields) : key ∈ fields.map Prod.fst := by
  obtain ⟨⟨other, value?⟩, inFields, atPart⟩ := List.mem_filterMap.mp member
  obtain ⟨_, _, same⟩ := Option.map_eq_some_iff.mp atPart
  obtain rfl : other = key := Option.some.inj (Prod.mk.inj same).1
  exact List.mem_map.mpr ⟨_, inFields, rfl⟩

/-- The fields that are shown tell which fields are left out, as long as their labels differ. -/
theorem shown_inj {fields others : List (String × Option Form)}
    (keys : fields.map Prod.fst = others.map Prod.fst) (distinct : (fields.map Prod.fst).Nodup)
    (same : shown fields = shown others) : fields = others := by
  induction fields generalizing others with
  | nil =>
    cases others with
    | nil => rfl
    | cons => simp at keys
  | cons field rest inductionHypothesis =>
    cases others with
    | nil => simp at keys
    | cons other otherRest =>
      obtain ⟨key, value?⟩ := field
      obtain ⟨otherKey, otherValue?⟩ := other
      obtain ⟨rfl, restKeys⟩ := List.cons.inj keys
      obtain ⟨fresh, restDistinct⟩ := List.nodup_cons.mp distinct
      cases value? with
      | none =>
        cases otherValue? with
        | none => rw [inductionHypothesis restKeys restDistinct same]
        | some value =>
          have member : (some key, value) ∈ shown rest := same ▸ List.mem_cons_self
          exact absurd (mem_of_mem_shown member) fresh
      | some value =>
        cases otherValue? with
        | none =>
          have member : (some key, value) ∈ shown otherRest := same ▸ List.mem_cons_self
          exact absurd (restKeys ▸ mem_of_mem_shown member) fresh
        | some otherValue =>
          obtain ⟨heads, tails⟩ := List.cons.inj same
          rw [inductionHypothesis restKeys restDistinct tails, (Prod.mk.inj heads).2]

/-- A node is determined by its fields if it names them in the same order. -/
theorem fields_inj {name : String} {fields others : List (String × Option Form)}
    (same : node name fields = node name others)
    (keys : fields.map Prod.fst = others.map Prod.fst)
    (distinct : (fields.map Prod.fst).Nodup) : fields = others :=
  shown_inj keys distinct (Form.group.inj same).2.2

/-- A node with one field is determined by what the field holds. -/
theorem onlyField_inj {name key : String} {part other : Option Form}
    (same : node name [(key, part)] = node name [(key, other)]) : part = other := by
  have fields := fields_inj same rfl (by simp)
  exact (Prod.mk.inj (List.cons.inj fields).1).2

/-- A node with two fields is determined by what they hold. -/
theorem bothFields_inj {name key label : String} {part other second otherSecond : Option Form}
    (distinct : key ≠ label)
    (same : node name [(key, part), (label, second)] =
      node name [(key, other), (label, otherSecond)]) : part = other ∧ second = otherSecond := by
  have fields := fields_inj same rfl (by simpa using distinct)
  simpa using fields

theorem unlabelled_inj {items others : List Form} (same : unlabelled items = unlabelled others) :
    items = others :=
  (List.map_inj_right fun _ _ pairs => (Prod.mk.inj pairs).2).mp same

/-- A list is determined by the forms of its items. -/
theorem list_inj {items others : List Form} (same : some (list items) = some (list others)) :
    items = others :=
  unlabelled_inj (Form.group.inj (Option.some.inj same)).2.2

theorem operator_inj {op other : String} (same : some (node op []) = some (node other [])) :
    op = other :=
  (Form.group.inj (Option.some.inj same)).1

theorem quoted_inj {text other : String} (same : some (quoted text) = some (quoted other)) :
    text = other :=
  Form.quoted.inj (Option.some.inj same)

theorem operators_inj {ops others : List String}
    (same : some (list (ops.map fun op => node op [])) =
      some (list (others.map fun op => node op []))) : ops = others :=
  (List.map_inj_right fun _ _ nodes => operator_inj (congrArg some nodes)).mp (list_inj same)

theorem texts_inj {texts others : List String}
    (same : some (list (texts.map quoted)) = some (list (others.map quoted))) : texts = others :=
  (List.map_inj_right fun _ _ => Form.quoted.inj).mp (list_inj same)

/-- An imported name is determined by its form. -/
theorem alias_inj {imported other : Alias} (same : imported.form = other.form) :
    imported = other := by
  obtain ⟨name, asName⟩ := imported
  obtain ⟨otherName, otherAsName⟩ := other
  obtain ⟨nameEq, asNameEq⟩ := bothFields_inj (by decide) same
  have names : name = otherName := quoted_inj nameEq
  have asNames : asName = otherAsName := by
    split at asNameEq <;> split at asNameEq <;> simp_all
  rw [names, asNames]

theorem aliases_inj {names others : List Alias}
    (same : some (list (names.map Alias.form)) = some (list (others.map Alias.form))) :
    names = others :=
  (List.map_inj_right fun _ _ => alias_inj).mp (list_inj same)

/-- A list of parameters is determined by its group. -/
theorem clause_inj {params others : List Param}
    (inj : Param.forms params = Param.forms others → params = others)
    (same : some (Param.clauseForm params) = some (Param.clauseForm others)) : params = others :=
  inj (unlabelled_inj (Form.group.inj (Option.some.inj same)).2.2)

/-- A list that is left out if it is empty is determined by its form if there is one. -/
theorem optionalList_inj {Item : Type} {items others : List Item} {forms otherForms : List Form}
    (inj : forms = otherForms → items = others)
    (same : (if items.isEmpty then none else some (list forms)) =
      if others.isEmpty then none else some (list otherForms)) : items = others := by
  split at same <;> split at same
  case isTrue.isTrue => simp_all
  case isFalse.isFalse => exact inj (list_inj same)
  all_goals cases same

/-- An expression that may be left out is determined by its form if there is one. -/
theorem present_inj {value other : Expr} (inj : value.form = other.form → value = other)
    (same : value.present value.form = other.present other.form) : value = other := by
  unfold Expr.present at same
  split at same <;> split at same
  case isTrue.isTrue absent otherAbsent =>
    cases value <;> cases other <;> first | rfl | contradiction
  all_goals simp_all

end Form

/-- The constant that a bare word is the text of. -/
def Constant.ofWord (word : String) : Constant :=
  if word = "None" then .none
  else if word = "True" then .bool true
  else if word = "False" then .bool false
  else if isDecimal word then .int word
  else .float word

theorem ofWord_text {value : Constant} (canonical : value.isCanonical)
    (bare : value.form = .bare value.text) : Constant.ofWord value.text = value := by
  have decimals : ¬isDecimal "None" ∧ ¬isDecimal "True" ∧ ¬isDecimal "False" := by decide +kernel
  cases value with
  | none => simp [Constant.text, Constant.ofWord]
  | bool truth => cases truth <;> simp [Constant.text, Constant.ofWord]
  | int text =>
    have decimal : isDecimal text := canonical
    have notNone : text ≠ "None" := fun same => decimals.1 (same ▸ decimal)
    have notTrue : text ≠ "True" := fun same => decimals.2.1 (same ▸ decimal)
    have notFalse : text ≠ "False" := fun same => decimals.2.2 (same ▸ decimal)
    simp [Constant.text, Constant.ofWord, notNone, notTrue, notFalse, decimal]
  | float text =>
    simp only [Constant.isCanonical, Bool.and_eq_true, Bool.not_eq_true'] at canonical
    obtain ⟨⟨-, notDecimal⟩, other⟩ := canonical
    have notWord : text ≠ "None" ∧ text ≠ "True" ∧ text ≠ "False" := by simpa using other
    simp [Constant.text, Constant.ofWord, notWord, notDecimal]
  | str text => cases bare

/-- A canonical constant is determined by its form: a number is told from a word. -/
theorem constant_inj {value other : Constant} (canonical : value.isCanonical)
    (otherCanonical : other.isCanonical) (same : value.form = other.form) : value = other := by
  have split (value : Constant) :
      (∃ text, value = .str text) ∨ value.form = .bare value.text := by
    cases value with
    | str text => exact .inl ⟨text, rfl⟩
    | _ => exact .inr rfl
  rcases split value with ⟨text, rfl⟩ | bare <;> rcases split other with ⟨text, rfl⟩ | otherBare
  · rw [Form.quoted.inj same]
  · cases same.trans otherBare
  · cases bare.symm.trans same
  · have words : value.text = other.text := Form.bare.inj (bare.symm.trans (same.trans otherBare))
    rw [← ofWord_text canonical bare, words, ofWord_text otherCanonical otherBare]

/-- The titles of expressions, in the order of their kinds. -/
def Expr.titles : List String :=
  ["None", "Constant", "Name", "BinOp", "UnaryOp", "BoolOp", "Compare", "Call", "Attribute",
    "Subscript", "List", "Tuple", "Await", "Lambda", "Dict", "JoinedStr"]

/-- The title of a form tells which kind of expression it is. -/
theorem Expr.ctorIdx_eq_of_form_eq {first second : Expr} (same : first.form = second.form) :
    first.ctorIdx = second.ctorIdx := by
  have place (value : Expr) : Expr.titles.idxOf value.form.title = value.ctorIdx := by
    cases value <;> rfl
  rw [← place first, same, place second]

/-- The titles of statements, in the order of their kinds. -/
def Stmt.titles : List String :=
  ["None", "FunctionDef", "AsyncFunctionDef", "Expr", "Assign", "AugAssign", "AnnAssign", "Return",
    "If", "While", "For", "Pass", "Break", "Continue", "Raise", "Assert", "ClassDef", "Import",
    "ImportFrom", "Global", "Nonlocal", "Delete", "Try", "With"]

/-- The title of a form tells which kind of statement it is. -/
theorem Stmt.ctorIdx_eq_of_form_eq {first second : Stmt} (same : first.form = second.form) :
    first.ctorIdx = second.ctorIdx := by
  have place (value : Stmt) : Stmt.titles.idxOf value.form.title = value.ctorIdx := by
    cases value <;> first | rfl | (simp only [Stmt.form, title_function]; rfl)
  rw [← place first, same, place second]

theorem kind_inj {kind other : ParamKind} (same : kind.form? = other.form?) : kind = other := by
  cases kind <;> cases other <;> simp_all [ParamKind.form?, ParamKind.label]

mutual

/-- A canonical expression is determined by its form, by induction over both expressions. -/
theorem expr_inj : (first second : Expr) → first.isCanonical → second.isCanonical →
    first.form = second.form → first = second
  | .absent, second, _, _, same => by
    cases second with
    | absent => rfl
    | _ => cases Expr.ctorIdx_eq_of_form_eq same
  | .constant value, second, canonical, otherCanonical, same => by
    cases second with
    | constant other =>
      rw [constant_inj canonical otherCanonical (Option.some.inj (onlyField_inj same))]
    | _ => cases Expr.ctorIdx_eq_of_form_eq same
  | .name id, second, _, _, same => by
    cases second with
    | name other =>
      rw [quoted_inj (onlyField_inj same)]
    | _ => cases Expr.ctorIdx_eq_of_form_eq same
  | .binOp left op right, second, canonical, otherCanonical, same => by
    cases second with
    | binOp otherLeft otherOp otherRight =>
      simp only [Expr.isCanonical, Bool.and_eq_true] at canonical otherCanonical
      have fields := fields_inj same rfl (by simp)
      simp only [List.cons.injEq, Prod.mk.injEq, true_and, and_true] at fields
      obtain ⟨leftEq, opEq, rightEq⟩ := fields
      rw [present_inj (expr_inj left otherLeft canonical.1.1 otherCanonical.1.1) leftEq,
        operator_inj opEq,
        present_inj (expr_inj right otherRight canonical.2 otherCanonical.2) rightEq]
    | _ => cases Expr.ctorIdx_eq_of_form_eq same
  | .unaryOp op operand, second, canonical, otherCanonical, same => by
    cases second with
    | unaryOp otherOp otherOperand =>
      simp only [Expr.isCanonical, Bool.and_eq_true] at canonical otherCanonical
      obtain ⟨opEq, operandEq⟩ := bothFields_inj (by decide) same
      rw [operator_inj opEq,
        present_inj (expr_inj operand otherOperand canonical.2 otherCanonical.2) operandEq]
    | _ => cases Expr.ctorIdx_eq_of_form_eq same
  | .boolOp op values, second, canonical, otherCanonical, same => by
    cases second with
    | boolOp otherOp otherValues =>
      simp only [Expr.isCanonical, Bool.and_eq_true] at canonical otherCanonical
      obtain ⟨opEq, valuesEq⟩ := bothFields_inj (by decide) same
      rw [operator_inj opEq,
        exprs_inj values otherValues canonical.2 otherCanonical.2 (list_inj valuesEq)]
    | _ => cases Expr.ctorIdx_eq_of_form_eq same
  | .compare left ops comparators, second, canonical, otherCanonical, same => by
    cases second with
    | compare otherLeft otherOps otherComparators =>
      simp only [Expr.isCanonical, Bool.and_eq_true] at canonical otherCanonical
      have fields := fields_inj same rfl (by simp)
      simp only [List.cons.injEq, Prod.mk.injEq, true_and, and_true] at fields
      obtain ⟨leftEq, opsEq, comparatorsEq⟩ := fields
      rw [present_inj (expr_inj left otherLeft canonical.1.1 otherCanonical.1.1) leftEq,
        operators_inj opsEq,
        exprs_inj comparators otherComparators canonical.2 otherCanonical.2
          (list_inj comparatorsEq)]
    | _ => cases Expr.ctorIdx_eq_of_form_eq same
  | .call function arguments keywords, second, canonical, otherCanonical, same => by
    cases second with
    | call otherFunction otherArguments otherKeywords =>
      simp only [Expr.isCanonical, Bool.and_eq_true] at canonical otherCanonical
      have fields := fields_inj same rfl (by simp)
      simp only [List.cons.injEq, Prod.mk.injEq, true_and, and_true] at fields
      obtain ⟨functionEq, argumentsEq, keywordsEq⟩ := fields
      rw [present_inj (expr_inj function otherFunction canonical.1.1 otherCanonical.1.1) functionEq,
        exprs_inj arguments otherArguments canonical.1.2 otherCanonical.1.2 (list_inj argumentsEq),
        optionalList_inj (keywords_inj keywords otherKeywords canonical.2 otherCanonical.2)
          keywordsEq]
    | _ => cases Expr.ctorIdx_eq_of_form_eq same
  | .attribute value attr, second, canonical, otherCanonical, same => by
    cases second with
    | «attribute» otherValue otherAttr =>
      obtain ⟨valueEq, attrEq⟩ := bothFields_inj (by decide) same
      rw [present_inj (expr_inj value otherValue canonical otherCanonical) valueEq,
        quoted_inj attrEq]
    | _ => cases Expr.ctorIdx_eq_of_form_eq same
  | .subscript value slice, second, canonical, otherCanonical, same => by
    cases second with
    | subscript otherValue otherSlice =>
      simp only [Expr.isCanonical, Bool.and_eq_true] at canonical otherCanonical
      obtain ⟨valueEq, sliceEq⟩ := bothFields_inj (by decide) same
      rw [present_inj (expr_inj value otherValue canonical.1 otherCanonical.1) valueEq,
        present_inj (expr_inj slice otherSlice canonical.2 otherCanonical.2) sliceEq]
    | _ => cases Expr.ctorIdx_eq_of_form_eq same
  | .list items, second, canonical, otherCanonical, same => by
    cases second with
    | list otherItems =>
      rw [exprs_inj items otherItems canonical otherCanonical (list_inj (onlyField_inj same))]
    | _ => cases Expr.ctorIdx_eq_of_form_eq same
  | .tuple items, second, canonical, otherCanonical, same => by
    cases second with
    | tuple otherItems =>
      rw [exprs_inj items otherItems canonical otherCanonical (list_inj (onlyField_inj same))]
    | _ => cases Expr.ctorIdx_eq_of_form_eq same
  | .await value, second, canonical, otherCanonical, same => by
    cases second with
    | await otherValue =>
      rw [present_inj (expr_inj value otherValue canonical otherCanonical) (onlyField_inj same)]
    | _ => cases Expr.ctorIdx_eq_of_form_eq same
  | .lambda params body, second, canonical, otherCanonical, same => by
    cases second with
    | lambda otherParams otherBody =>
      simp only [Expr.isCanonical, Bool.and_eq_true] at canonical otherCanonical
      obtain ⟨paramsEq, bodyEq⟩ := bothFields_inj (by decide) same
      rw [clause_inj (params_inj params otherParams canonical.1 otherCanonical.1) paramsEq,
        present_inj (expr_inj body otherBody canonical.2 otherCanonical.2) bodyEq]
    | _ => cases Expr.ctorIdx_eq_of_form_eq same
  | .dict keys values, second, canonical, otherCanonical, same => by
    cases second with
    | dict otherKeys otherValues =>
      simp only [Expr.isCanonical, Bool.and_eq_true] at canonical otherCanonical
      obtain ⟨keysEq, valuesEq⟩ := bothFields_inj (by decide) same
      rw [exprs_inj keys otherKeys canonical.1 otherCanonical.1 (list_inj keysEq),
        exprs_inj values otherValues canonical.2 otherCanonical.2 (list_inj valuesEq)]
    | _ => cases Expr.ctorIdx_eq_of_form_eq same
  | .joinedStr values, second, canonical, otherCanonical, same => by
    cases second with
    | joinedStr otherValues =>
      rw [exprs_inj values otherValues canonical otherCanonical (list_inj (onlyField_inj same))]
    | _ => cases Expr.ctorIdx_eq_of_form_eq same

theorem exprs_inj : (first second : List Expr) → Expr.allCanonical first →
    Expr.allCanonical second → Expr.forms first = Expr.forms second → first = second
  | [], [], _, _, _ => rfl
  | [], _ :: _, _, _, same => by cases same
  | _ :: _, [], _, _, same => by cases same
  | first :: rest, second :: others, canonical, otherCanonical, same => by
    simp only [Expr.allCanonical, Bool.and_eq_true] at canonical otherCanonical
    obtain ⟨heads, tails⟩ := List.cons.inj same
    rw [expr_inj first second canonical.1 otherCanonical.1 heads,
      exprs_inj rest others canonical.2 otherCanonical.2 tails]

theorem keywords_inj : (first second : List (String × Expr)) → Expr.keywordsCanonical first →
    Expr.keywordsCanonical second → Expr.keywordForms first = Expr.keywordForms second →
    first = second
  | [], [], _, _, _ => rfl
  | [], _ :: _, _, _, same => by cases same
  | _ :: _, [], _, _, same => by cases same
  | (name, value) :: rest, (otherName, otherValue) :: others, canonical, otherCanonical,
      same => by
    simp only [Expr.keywordsCanonical, Bool.and_eq_true] at canonical otherCanonical
    obtain ⟨heads, tails⟩ := List.cons.inj same
    obtain ⟨nameEq, valueEq⟩ := bothFields_inj (by decide) heads
    rw [quoted_inj nameEq, keywords_inj rest others canonical.2 otherCanonical.2 tails,
      expr_inj value otherValue canonical.1 otherCanonical.1 (Option.some.inj valueEq)]

/-- Canonical parameters are determined by their forms. -/
theorem params_inj : (first second : List (ParamOf Expr)) → Param.allCanonical first →
    Param.allCanonical second → Param.forms first = Param.forms second → first = second
  | [], [], _, _, _ => rfl
  | [], _ :: _, _, _, same => by cases same
  | _ :: _, [], _, _, same => by cases same
  | ⟨name, kind, hint, defaultValue⟩ :: rest,
      ⟨otherName, otherKind, otherHint, otherDefault⟩ :: others, canonical, otherCanonical,
      same => by
    simp only [Param.allCanonical, Bool.and_eq_true] at canonical otherCanonical
    obtain ⟨heads, tails⟩ := List.cons.inj same
    have fields := fields_inj heads rfl (by simp)
    simp only [List.cons.injEq, Prod.mk.injEq, true_and, and_true] at fields
    obtain ⟨nameEq, kindEq, hintEq, defaultEq⟩ := fields
    rw [quoted_inj nameEq, kind_inj kindEq,
      present_inj (expr_inj hint otherHint canonical.1.1.2 otherCanonical.1.1.2) hintEq,
      present_inj (expr_inj defaultValue otherDefault canonical.1.2 otherCanonical.1.2) defaultEq,
      params_inj rest others canonical.2 otherCanonical.2 tails]

end

/-- The two statements with a condition have the same fields. -/
theorem conditional_inj {title : String} {test otherTest : Expr}
    {body otherBody orelse otherOrelse : List Stmt}
    (tests : test.form = otherTest.form → test = otherTest)
    (bodies : Stmt.forms body = Stmt.forms otherBody → body = otherBody)
    (orelses : Stmt.forms orelse = Stmt.forms otherOrelse → orelse = otherOrelse)
    (same : node title
        [("test", test.present test.form), ("body", some (list (Stmt.forms body))),
          ("orelse", Stmt.blockForm? orelse (Stmt.forms orelse))] =
      node title
        [("test", otherTest.present otherTest.form), ("body", some (list (Stmt.forms otherBody))),
          ("orelse", Stmt.blockForm? otherOrelse (Stmt.forms otherOrelse))]) :
    test = otherTest ∧ body = otherBody ∧ orelse = otherOrelse := by
  have fields := fields_inj same rfl (by simp)
  simp only [List.cons.injEq, Prod.mk.injEq, true_and, and_true] at fields
  obtain ⟨testEq, bodyEq, orelseEq⟩ := fields
  exact ⟨present_inj tests testEq, bodies (list_inj bodyEq), optionalList_inj orelses orelseEq⟩

mutual

/-- A canonical statement is determined by its form, by induction over both statements. -/
theorem stmt_inj : (first second : Stmt) → first.isCanonical → second.isCanonical →
    first.form = second.form → first = second
  | .absent, second, _, _, same => by
    cases second with
    | absent => rfl
    | _ => cases Stmt.ctorIdx_eq_of_form_eq same
  | .functionDef definition, second, canonical, otherCanonical, same => by
    cases second with
    | functionDef other => rw [function_inj definition other canonical otherCanonical same]
    | _ => cases Stmt.ctorIdx_eq_of_form_eq same
  | .asyncFunctionDef definition, second, canonical, otherCanonical, same => by
    cases second with
    | asyncFunctionDef other => rw [function_inj definition other canonical otherCanonical same]
    | _ => cases Stmt.ctorIdx_eq_of_form_eq same
  | .expr value, second, canonical, otherCanonical, same => by
    cases second with
    | expr otherValue =>
      rw [present_inj (expr_inj value otherValue canonical otherCanonical) (onlyField_inj same)]
    | _ => cases Stmt.ctorIdx_eq_of_form_eq same
  | .assign targets value, second, canonical, otherCanonical, same => by
    cases second with
    | assign otherTargets otherValue =>
      simp only [Stmt.isCanonical, Bool.and_eq_true] at canonical otherCanonical
      obtain ⟨targetsEq, valueEq⟩ := bothFields_inj (by decide) same
      rw [exprs_inj targets otherTargets canonical.1 otherCanonical.1 (list_inj targetsEq),
        present_inj (expr_inj value otherValue canonical.2 otherCanonical.2) valueEq]
    | _ => cases Stmt.ctorIdx_eq_of_form_eq same
  | .augAssign target op value, second, canonical, otherCanonical, same => by
    cases second with
    | augAssign otherTarget otherOp otherValue =>
      simp only [Stmt.isCanonical, Bool.and_eq_true] at canonical otherCanonical
      have fields := fields_inj same rfl (by simp)
      simp only [List.cons.injEq, Prod.mk.injEq, true_and, and_true] at fields
      obtain ⟨targetEq, opEq, valueEq⟩ := fields
      rw [present_inj (expr_inj target otherTarget canonical.1.1 otherCanonical.1.1) targetEq,
        operator_inj opEq,
        present_inj (expr_inj value otherValue canonical.2 otherCanonical.2) valueEq]
    | _ => cases Stmt.ctorIdx_eq_of_form_eq same
  | .annAssign target hint value, second, canonical, otherCanonical, same => by
    cases second with
    | annAssign otherTarget otherHint otherValue =>
      simp only [Stmt.isCanonical, Bool.and_eq_true] at canonical otherCanonical
      have fields := fields_inj same rfl (by simp)
      simp only [List.cons.injEq, Prod.mk.injEq, true_and, and_true] at fields
      obtain ⟨targetEq, hintEq, valueEq⟩ := fields
      rw [present_inj (expr_inj target otherTarget canonical.1.1 otherCanonical.1.1) targetEq,
        present_inj (expr_inj hint otherHint canonical.1.2 otherCanonical.1.2) hintEq,
        present_inj (expr_inj value otherValue canonical.2 otherCanonical.2) valueEq]
    | _ => cases Stmt.ctorIdx_eq_of_form_eq same
  | .ret value, second, canonical, otherCanonical, same => by
    cases second with
    | ret otherValue =>
      rw [present_inj (expr_inj value otherValue canonical otherCanonical) (onlyField_inj same)]
    | _ => cases Stmt.ctorIdx_eq_of_form_eq same
  | .ifElse test body orelse, second, canonical, otherCanonical, same => by
    cases second with
    | ifElse otherTest otherBody otherOrelse =>
      simp only [Stmt.isCanonical, Bool.and_eq_true] at canonical otherCanonical
      obtain ⟨rfl, rfl, rfl⟩ := conditional_inj
        (expr_inj test otherTest canonical.1.1 otherCanonical.1.1)
        (stmts_inj body otherBody canonical.1.2 otherCanonical.1.2)
        (stmts_inj orelse otherOrelse canonical.2 otherCanonical.2) same
      rfl
    | _ => cases Stmt.ctorIdx_eq_of_form_eq same
  | .whileLoop test body orelse, second, canonical, otherCanonical, same => by
    cases second with
    | whileLoop otherTest otherBody otherOrelse =>
      simp only [Stmt.isCanonical, Bool.and_eq_true] at canonical otherCanonical
      obtain ⟨rfl, rfl, rfl⟩ := conditional_inj
        (expr_inj test otherTest canonical.1.1 otherCanonical.1.1)
        (stmts_inj body otherBody canonical.1.2 otherCanonical.1.2)
        (stmts_inj orelse otherOrelse canonical.2 otherCanonical.2) same
      rfl
    | _ => cases Stmt.ctorIdx_eq_of_form_eq same
  | .forLoop target iter body orelse, second, canonical, otherCanonical, same => by
    cases second with
    | forLoop otherTarget otherIter otherBody otherOrelse =>
      simp only [Stmt.isCanonical, Bool.and_eq_true] at canonical otherCanonical
      have fields := fields_inj same rfl (by simp)
      simp only [List.cons.injEq, Prod.mk.injEq, true_and, and_true] at fields
      obtain ⟨targetEq, iterEq, bodyEq, orelseEq⟩ := fields
      rw [present_inj (expr_inj target otherTarget canonical.1.1.1 otherCanonical.1.1.1) targetEq,
        present_inj (expr_inj iter otherIter canonical.1.1.2 otherCanonical.1.1.2) iterEq,
        stmts_inj body otherBody canonical.1.2 otherCanonical.1.2 (list_inj bodyEq),
        optionalList_inj (stmts_inj orelse otherOrelse canonical.2 otherCanonical.2) orelseEq]
    | _ => cases Stmt.ctorIdx_eq_of_form_eq same
  | .pass, second, _, _, same => by
    cases second with
    | pass => rfl
    | _ => cases Stmt.ctorIdx_eq_of_form_eq same
  | .breakLoop, second, _, _, same => by
    cases second with
    | breakLoop => rfl
    | _ => cases Stmt.ctorIdx_eq_of_form_eq same
  | .continueLoop, second, _, _, same => by
    cases second with
    | continueLoop => rfl
    | _ => cases Stmt.ctorIdx_eq_of_form_eq same
  | .raise exc, second, canonical, otherCanonical, same => by
    cases second with
    | raise otherExc =>
      rw [present_inj (expr_inj exc otherExc canonical otherCanonical) (onlyField_inj same)]
    | _ => cases Stmt.ctorIdx_eq_of_form_eq same
  | .assert test msg, second, canonical, otherCanonical, same => by
    cases second with
    | assert otherTest otherMsg =>
      simp only [Stmt.isCanonical, Bool.and_eq_true] at canonical otherCanonical
      obtain ⟨testEq, msgEq⟩ := bothFields_inj (by decide) same
      rw [present_inj (expr_inj test otherTest canonical.1 otherCanonical.1) testEq,
        present_inj (expr_inj msg otherMsg canonical.2 otherCanonical.2) msgEq]
    | _ => cases Stmt.ctorIdx_eq_of_form_eq same
  | .classDef name body, second, canonical, otherCanonical, same => by
    cases second with
    | classDef otherName otherBody =>
      obtain ⟨nameEq, bodyEq⟩ := bothFields_inj (by decide) same
      rw [quoted_inj nameEq, stmts_inj body otherBody canonical otherCanonical (list_inj bodyEq)]
    | _ => cases Stmt.ctorIdx_eq_of_form_eq same
  | .importNames names, second, _, _, same => by
    cases second with
    | importNames otherNames =>
      rw [aliases_inj (onlyField_inj same)]
    | _ => cases Stmt.ctorIdx_eq_of_form_eq same
  | .importFrom origin names, second, _, _, same => by
    cases second with
    | importFrom otherOrigin otherNames =>
      obtain ⟨originEq, namesEq⟩ := bothFields_inj (by decide) same
      rw [quoted_inj originEq, aliases_inj namesEq]
    | _ => cases Stmt.ctorIdx_eq_of_form_eq same
  | .globalNames names, second, _, _, same => by
    cases second with
    | globalNames otherNames =>
      rw [texts_inj (onlyField_inj same)]
    | _ => cases Stmt.ctorIdx_eq_of_form_eq same
  | .nonlocalNames names, second, _, _, same => by
    cases second with
    | nonlocalNames otherNames =>
      rw [texts_inj (onlyField_inj same)]
    | _ => cases Stmt.ctorIdx_eq_of_form_eq same
  | .delete targets, second, canonical, otherCanonical, same => by
    cases second with
    | delete otherTargets =>
      rw [exprs_inj targets otherTargets canonical otherCanonical (list_inj (onlyField_inj same))]
    | _ => cases Stmt.ctorIdx_eq_of_form_eq same
  | .tryBlock body orelse finalbody, second, canonical, otherCanonical, same => by
    cases second with
    | tryBlock otherBody otherOrelse otherFinalbody =>
      simp only [Stmt.isCanonical, Bool.and_eq_true] at canonical otherCanonical
      have fields := fields_inj same rfl (by simp)
      simp only [List.cons.injEq, Prod.mk.injEq, true_and, and_true] at fields
      obtain ⟨bodyEq, orelseEq, finalbodyEq⟩ := fields
      rw [stmts_inj body otherBody canonical.1.1 otherCanonical.1.1 (list_inj bodyEq),
        optionalList_inj (stmts_inj orelse otherOrelse canonical.1.2 otherCanonical.1.2) orelseEq,
        optionalList_inj (stmts_inj finalbody otherFinalbody canonical.2 otherCanonical.2)
          finalbodyEq]
    | _ => cases Stmt.ctorIdx_eq_of_form_eq same
  | .withBlock items body, second, canonical, otherCanonical, same => by
    cases second with
    | withBlock otherItems otherBody =>
      simp only [Stmt.isCanonical, Bool.and_eq_true] at canonical otherCanonical
      obtain ⟨itemsEq, bodyEq⟩ := bothFields_inj (by decide) same
      rw [exprs_inj items otherItems canonical.1 otherCanonical.1 (list_inj itemsEq),
        stmts_inj body otherBody canonical.2 otherCanonical.2 (list_inj bodyEq)]
    | _ => cases Stmt.ctorIdx_eq_of_form_eq same

/-- A canonical function is determined by its form. -/
theorem function_inj {title : String} : (first second : FunctionOf Stmt) →
    FunctionDef.isCanonical first → FunctionDef.isCanonical second →
    FunctionDef.form title first = FunctionDef.form title second → first = second
  | ⟨name, params, body, decorators, returns⟩,
      ⟨otherName, otherParams, otherBody, otherDecorators, otherReturns⟩, canonical,
      otherCanonical, same => by
    simp only [FunctionDef.isCanonical, Bool.and_eq_true] at canonical otherCanonical
    have fields := fields_inj same rfl (by simp)
    simp only [List.cons.injEq, Prod.mk.injEq, true_and, and_true] at fields
    obtain ⟨nameEq, paramsEq, bodyEq, decoratorsEq, returnsEq⟩ := fields
    rw [quoted_inj nameEq,
      clause_inj (params_inj params otherParams canonical.1.1 otherCanonical.1.1) paramsEq,
      stmts_inj body otherBody canonical.1.2 otherCanonical.1.2 (list_inj bodyEq),
      texts_inj decoratorsEq,
      present_inj (expr_inj returns otherReturns canonical.2 otherCanonical.2) returnsEq]

theorem stmts_inj : (first second : List Stmt) → Stmt.allCanonical first →
    Stmt.allCanonical second → Stmt.forms first = Stmt.forms second → first = second
  | [], [], _, _, _ => rfl
  | [], _ :: _, _, _, same => by cases same
  | _ :: _, [], _, _, same => by cases same
  | first :: rest, second :: others, canonical, otherCanonical, same => by
    simp only [Stmt.allCanonical, Bool.and_eq_true] at canonical otherCanonical
    obtain ⟨heads, tails⟩ := List.cons.inj same
    rw [stmt_inj first second canonical.1 otherCanonical.1 heads,
      stmts_inj rest others canonical.2 otherCanonical.2 tails]

end

/-! ### Trees of all kinds -/

/-- Whatever can be printed. -/
inductive SyntaxTree where
  | module (source : Module)
  | stmt (value : Stmt)
  | expr (value : Expr)
  | params (values : List Param)

namespace SyntaxTree

/-- A tree on one line. -/
def dump : SyntaxTree → String
  | .module source => source.dump
  | .stmt value => value.dump
  | .expr value => value.dump
  | .params values => Param.dumpClause values

/-- What a tree is printed as. -/
def form : SyntaxTree → Form
  | .module source => source.form
  | .stmt value => value.form
  | .expr value => value.form
  | .params values => Param.clauseForm values

/-- Whether everything in a tree is canonical. -/
def isCanonical : SyntaxTree → Bool
  | .module source => Stmt.allCanonical source.body
  | .stmt value => value.isCanonical
  | .expr value => value.isCanonical
  | .params values => Param.allCanonical values

/-- Whether there is no tree, be it a statement or an expression that is left out. -/
def isAbsent : SyntaxTree → Bool
  | .stmt .absent => true
  | .expr .absent => true
  | _ => false

/-- A tree of any kind is printed as its form says. -/
theorem toList_dump (tree : SyntaxTree) : tree.dump.toList = tree.form.chars := by
  cases tree with
  | module source => exact (prints_module source).toList_run
  | stmt value => exact (prints_stmt value).toList_run
  | expr value => exact (prints_expr value).toList_run
  | params values => exact (prints_clause (prints_params values)).toList_run

/-- The form of a canonical tree is proper. -/
theorem isProper_form {tree : SyntaxTree} (canonical : tree.isCanonical) :
    tree.form.isProper := by
  cases tree with
  | module source =>
    exact isProper_node (by simp [isWord_titles])
      (by simp [isWord_labels, isProper_list (isProper_stmts source.body canonical)])
  | stmt value => exact isProper_stmt value canonical
  | expr value => exact isProper_expr value canonical
  | params values => exact isProper_clause canonical

/-- What there is to print; a statement and an expression that are left out are the same. -/
inductive Category where
  | absent
  | module
  | stmt
  | expr
  | params

/-- The category of tree that a title belongs to. -/
def Category.ofTitle (title : String) : Category :=
  if title = "None" then .absent
  else if title = "Module" then .module
  else if title = "arguments" then .params
  else if Stmt.titles.contains title then .stmt
  else .expr

/-- The category of a tree. -/
def category : SyntaxTree → Category
  | .module _ => .module
  | .stmt .absent => .absent
  | .stmt _ => .stmt
  | .expr .absent => .absent
  | .expr _ => .expr
  | .params _ => .params

/-- The title of a form tells which category of tree it is. -/
theorem ofTitle_title (tree : SyntaxTree) : Category.ofTitle tree.form.title = tree.category := by
  cases tree with
  | module source => simp [form, Module.form, Category.ofTitle, category]
  | stmt value => cases value <;> simp [form, Stmt.form, Category.ofTitle, category, Stmt.titles]
  | expr value => cases value <;> simp [form, Expr.form, Category.ofTitle, category, Stmt.titles]
  | params values => simp [form, Param.clauseForm, title, Category.ofTitle, category]

/-- A statement and an expression are only of one category if both are left out. -/
theorem isAbsent_of_stmt_expr {value : Stmt} {other : Expr}
    (same : (stmt value).category = (expr other).category) :
    (stmt value).isAbsent ∧ (expr other).isAbsent := by
  cases value <;> cases other <;> first | exact ⟨rfl, rfl⟩ | cases same

theorem category_stmt_ne (value : Stmt) (source : Module) (values : List Param) :
    (stmt value).category ≠ (module source).category ∧
      (stmt value).category ≠ (params values).category := by
  cases value <;> exact ⟨nofun, nofun⟩

theorem category_expr_ne (value : Expr) (source : Module) (values : List Param) :
    (expr value).category ≠ (module source).category ∧
      (expr value).category ≠ (params values).category := by
  cases value <;> exact ⟨nofun, nofun⟩

/-- Canonical trees of one form are the same tree, or none of them is there. -/
theorem eq_of_form_eq {first second : SyntaxTree} (canonical : first.isCanonical)
    (otherCanonical : second.isCanonical) (same : first.form = second.form) :
    first = second ∨ first.isAbsent ∧ second.isAbsent := by
  have categories : first.category = second.category := by
    rw [← ofTitle_title, ← ofTitle_title, same]
  match first, second with
  | .module source, .module other =>
    have fields := fields_inj same rfl (by simp)
    simp only [List.cons.injEq, Prod.mk.injEq, true_and, and_true] at fields
    have bodies := stmts_inj source.body other.body canonical otherCanonical (list_inj fields)
    exact .inl (congrArg (fun body => module ⟨body⟩) bodies)
  | .stmt value, .stmt other =>
    exact .inl (congrArg stmt (stmt_inj value other canonical otherCanonical same))
  | .expr value, .expr other =>
    exact .inl (congrArg expr (expr_inj value other canonical otherCanonical same))
  | .params values, .params others =>
    exact .inl (congrArg params (clause_inj (params_inj values others canonical otherCanonical)
      (congrArg some same)))
  | .stmt value, .expr other => exact .inr (isAbsent_of_stmt_expr categories)
  | .expr value, .stmt other => exact .inr (isAbsent_of_stmt_expr categories.symm).symm
  | .stmt value, .module source => exact absurd categories (category_stmt_ne value source []).1
  | .module source, .stmt value => exact absurd categories.symm (category_stmt_ne value source []).1
  | .stmt value, .params values => exact absurd categories (category_stmt_ne value ⟨[]⟩ values).2
  | .params values, .stmt value =>
    exact absurd categories.symm (category_stmt_ne value ⟨[]⟩ values).2
  | .expr value, .module source => exact absurd categories (category_expr_ne value source []).1
  | .module source, .expr value => exact absurd categories.symm (category_expr_ne value source []).1
  | .expr value, .params values => exact absurd categories (category_expr_ne value ⟨[]⟩ values).2
  | .params values, .expr value =>
    exact absurd categories.symm (category_expr_ne value ⟨[]⟩ values).2
  | .module _, .params _ => cases categories
  | .params _, .module _ => cases categories

/-- Canonical trees that are printed alike are the same tree, or none of them is there. -/
theorem eq_of_dump_eq {first second : SyntaxTree} (canonical : first.isCanonical)
    (otherCanonical : second.isCanonical) (same : first.dump = second.dump) :
    first = second ∨ first.isAbsent ∧ second.isAbsent := by
  have characters : first.form.chars ++ [] = second.form.chars ++ [] := by
    rw [← toList_dump, ← toList_dump, same]
  obtain ⟨forms, -⟩ := chars_inj first.form second.form (isProper_form canonical)
    (isProper_form otherCanonical) ended_nil ended_nil characters
  exact eq_of_form_eq canonical otherCanonical forms

/-- A missing statement is printed as a missing expression is, and a quote inside a text does not
end it: the list of one text that looks like two is told from the list of two. -/
theorem eq_of_dump_eq_quotes :
    let first := stmt .absent
    let second := expr .absent
    let one := expr (.list [.constant (.str "a\x27), Constant(value=\x27b")])
    let two := expr (.list [.constant (.str "a"), .constant (.str "b")])
    (first.isCanonical ∧ second.isCanonical ∧ first.dump = second.dump ∧
      (first = second ∨ first.isAbsent ∧ second.isAbsent)) ∧
    one.isCanonical ∧ two.isCanonical ∧ one.dump ≠ two.dump := by
  intro first second one two
  have same : first.dump = second.dump := rfl
  refine ⟨⟨rfl, rfl, same, eq_of_dump_eq rfl rfl same⟩, rfl, rfl, fun alike => ?_⟩
  have equal : one = two ∨ one.isAbsent ∧ two.isAbsent := eq_of_dump_eq rfl rfl alike
  simp [one, two, isAbsent] at equal

end SyntaxTree

end Oxide
