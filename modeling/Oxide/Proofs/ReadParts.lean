/-
This file reads the parts of a document that are no trees of their own from any node that holds
them: texts, constants, operators, lists of names, and the parameters of a function. Parameters are
put together again from the lists of their kinds and from the default values beside them, which
needs the order that a signature keeps.
-/

import Oxide.Proofs.TreeDocuments

namespace Oxide

open Document
open Document.Node (quoted plain nothing optionalText listed typed operator field field? Holds)

namespace Attempt

variable {Cause First Second : Type}

@[simp] theorem inside_ok (place : String) (value : First) :
    inside place (.ok value : Attempt Cause First) = .ok value := rfl

@[simp] theorem ok_bind (value : First) (next : First → Attempt Cause Second) :
    (Except.ok value >>= next) = next value := rfl

end Attempt

/-! ### Nodes that hold others -/

namespace Document.Node

theorem isNull_list (line : Nat) (items : List Node) : (Node.list line items).isNull = false := rfl

theorem isNull_object (line : Nat) (entries : List (Node × Node)) :
    (Node.object line entries).isNull = false := rfl

namespace Holds

variable {node : Node}

/-- What holds a scalar is a scalar of the same kind and text. -/
theorem of_scalar {line : Nat} {tag : Tag} {text : String} (other : tag ≠ .null)
    (holds : node.Holds (.scalar line tag text)) : ∃ place, node = .scalar place tag text := by
  cases holds with
  | refl => exact ⟨line, rfl⟩
  | null => exact absurd rfl other
  | scalar place => exact ⟨place, rfl⟩

theorem of_plain {tag : Tag} {text : String} (other : tag ≠ .null)
    (known : Tag.ofPlain text = tag) (holds : node.Holds (plain text)) :
    ∃ line, node = .scalar line tag text := by
  rw [plain, known] at holds
  exact of_scalar other holds

/-- What stands for nothing is null. -/
theorem isNull (holds : node.Holds nothing) : node.isNull := by
  unfold nothing plain at holds
  have null : Tag.ofPlain "null" = .null := by decide
  rw [null] at holds
  cases holds <;> rfl

/-- What holds a list is a list of as many items, each of which holds its own. -/
theorem of_listed {items : List Node} (holds : node.Holds (listed items)) :
    ∃ line others, node = .list line others ∧ List.Forall₂ Holds others items := by
  unfold listed at holds
  cases holds with
  | refl => exact ⟨0, items, rfl, List.forall₂_same.mpr fun item _ => .refl item⟩
  | list line _ each => exact ⟨line, _, rfl, each⟩

theorem field?_of_quoted {entries : List (Node × Node)} {key text : String}
    (holds : (field entries key).Holds (quoted text)) :
    ∃ part, field? entries key = some part ∧ part.text = text := by
  obtain ⟨place, same⟩ := of_scalar (by decide) holds
  cases found : field? entries key with
  | none => simp [field, found, Node.null] at same
  | some part =>
    rw [field, found, Option.getD_some] at same
    exact ⟨part, rfl, by rw [same, Node.text]⟩

/-- What holds an object of a type is an object that names the type and has the fields. -/
theorem of_typed {type : String} {fields : List (String × Node)}
    (holds : node.Holds (typed type fields))
    (first : field? (entriesOf type fields) typeKey = some (quoted type)) :
    ∃ line entries name, node = .object line entries ∧ field? entries typeKey = some name ∧
      name.text = type ∧ ∀ key part, field? (entriesOf type fields) key = some part →
        (field entries key).Holds part := by
  suffices ∃ line entries, node = .object line entries ∧
      ∀ key part, field? (entriesOf type fields) key = some part →
        (field entries key).Holds part by
    obtain ⟨line, entries, isObject, has⟩ := this
    obtain ⟨name, found, named⟩ := field?_of_quoted (has typeKey _ first)
    exact ⟨line, entries, name, isObject, found, named, has⟩
  unfold typed at holds
  cases holds with
  | refl =>
    refine ⟨0, _, rfl, fun key part found => ?_⟩
    rw [field, found]
    exact .refl part
  | object line _ has => exact ⟨line, _, rfl, has⟩

end Holds

end Document.Node

namespace Read

open Document.Node

variable {node : Node} {entries : List (Node × Node)} {key : String}

/-! ### Scalars -/

/-- A text in quotes is read from its field. -/
theorem text_of_quoted {value : String} (holds : (field entries key).Holds (quoted value)) :
    text entries key = value := by
  obtain ⟨place, same⟩ := Holds.of_scalar (by decide) holds
  rw [text, same]
  rfl

/-- A text that may be left out is read as the empty one. -/
theorem text_of_optionalText {value : String}
    (holds : (field entries key).Holds (optionalText value)) : text entries key = value := by
  unfold optionalText at holds
  split at holds
  · rename_i empty
    simp only [text, holds.isNull, if_true, empty]
  · exact text_of_quoted holds

/-- A constant is read back if its number is spelled so that its kind can be told. -/
theorem constant_of_holds {value : Constant} (spelled : value.isSpelled)
    (holds : node.Holds value.toNode) : constant node = .ok value := by
  cases value with
  | none =>
    have null := Holds.isNull holds
    unfold isNull at null
    split at null
    · rfl
    · cases null
  | bool truth =>
    cases truth with
    | false =>
      obtain ⟨line, rfl⟩ := @Holds.of_plain _ .bool _ (by decide) (by decide) holds
      rfl
    | true =>
      obtain ⟨line, rfl⟩ := @Holds.of_plain _ .bool _ (by decide) (by decide) holds
      rfl
  | int text =>
    obtain ⟨line, rfl⟩ := Holds.of_plain (by decide) (of_decide_eq_true spelled) holds
    rfl
  | float text =>
    obtain ⟨line, rfl⟩ := Holds.of_plain (by decide) (of_decide_eq_true spelled) holds
    rfl
  | str text =>
    obtain ⟨line, rfl⟩ := Holds.of_scalar (by decide) holds
    rfl

/-- An operator is read from the type of its node. -/
theorem operator_of_holds {op : String} (holds : node.Holds (Node.operator op)) :
    operator node = .ok op := by
  obtain ⟨line, entries, name, rfl, found, named, _⟩ := Holds.of_typed holds rfl
  unfold operator
  rw [isNull_object, if_neg Bool.false_ne_true]
  simp only [typed, found, named]
  rfl

theorem stringsOf_of_holds {visits : Visits} {nodes : List Node} {values : List String}
    (none : visits.aliased = 0) (each : List.Forall₂ Holds nodes (values.map quoted)) :
    stringsOf false visits nodes = .ok values := by
  induction values generalizing visits nodes with
  | nil =>
    cases each
    rfl
  | cons value rest inductionHypothesis =>
    obtain _ | ⟨first, others⟩ := each
    obtain ⟨line, rfl⟩ := Holds.of_scalar (by decide) first
    rw [stringsOf, string?, Visits.add_false_of_aliased_eq_zero none]
    have later := @inductionHypothesis ⟨visits.total + 1, 0⟩ _ rfl others
    simp [bind, Except.bind, scalarText, Tag.accepts, later, pure, Except.pure]

theorem names_of_holds {values : List String} (holds : node.Holds (listed (values.map quoted))) :
    names node = .ok values := by
  obtain ⟨line, items, rfl, each⟩ := Holds.of_listed holds
  have read : strings (.list line items) = .ok values := by
    rw [strings, stringsFrom, Visits.add_false_of_aliased_eq_zero rfl]
    exact stringsOf_of_holds rfl each
  rw [names, isNull_list, if_neg Bool.false_ne_true, read]
  rfl

/-- Imported names are read back, with their new names where they have one. -/
theorem aliases_of_holds {nodes : List Node} {values : List Alias}
    (each : List.Forall₂ Holds nodes (values.map Alias.toNode)) : aliases nodes = .ok values := by
  induction values generalizing nodes with
  | nil =>
    cases each
    rfl
  | cons value rest inductionHypothesis =>
    obtain _ | ⟨first, others⟩ := each
    obtain ⟨line, entries, _, rfl, found, _, has⟩ := Holds.of_typed first rfl
    simp only [aliases, typed, found, Attempt.ok_bind, inductionHypothesis others,
      text_of_quoted (has "name" _ rfl), text_of_optionalText (has "asname" _ rfl)]
    rfl

theorem operators_of_holds {place : String} {nodes : List Node} {ops : List String}
    (each : List.Forall₂ Holds nodes (ops.map Node.operator)) :
    nodes.mapM (fun node => Attempt.inside place (operator node)) = .ok ops := by
  induction ops generalizing nodes with
  | nil =>
    cases each
    rfl
  | cons op rest inductionHypothesis =>
    obtain _ | ⟨first, others⟩ := each
    rw [List.mapM_cons, operator_of_holds first, inductionHypothesis others]
    rfl

/-! ### Lists of expressions -/

/-- Whether a node is read as an expression that may be left out. -/
def Finds (node : Node) (value : Expr) : Prop :=
  optional node (expr node) = .ok value

/-- The items of a list are found one by one, and may be left out. -/
theorem exprItems_of_finds {nodes : List Node} {values : List Expr}
    (each : List.Forall₂ Finds nodes values) (number : Nat) :
    exprItems number nodes = .ok values := by
  induction each generalizing number with
  | nil => rw [exprItems]
  | cons first _ inductionHypothesis =>
    rw [exprItems, show optional _ _ = _ from first, inductionHypothesis]
    rfl

theorem keywordDefaults_of_finds {nodes : List Node} {values : List Expr}
    (each : List.Forall₂ Finds nodes values) {count number : Nat}
    (enough : number + nodes.length ≤ count) :
    keywordDefaults count number nodes = .ok values := by
  induction each generalizing number with
  | nil => rw [keywordDefaults]
  | cons first _ inductionHypothesis =>
    rw [List.length_cons] at enough
    rw [keywordDefaults, if_neg (by omega), show optional _ _ = _ from first,
      inductionHypothesis (by omega)]
    rfl

/-! ### Parameters -/

/-- Whether the part of a document for a parameter is read as that parameter. -/
structure FindsParam (part : ParamPart) (parameter : Param) : Prop where
  kind : part.kind = parameter.kind
  node : ∀ node : Node, node.Holds part.node → param parameter.kind node = .ok parameter.strip
  isNone : part.value?.isNone = parameter.isBare
  value : ∀ value ∈ part.value?, ∀ node : Node, node.Holds value →
    Finds node parameter.defaultValue

variable {parts : List ParamPart} {parameters : List Param} {kind : ParamKind}

/-- The parameters of one kind are found among the parts of that kind. -/
theorem findsParam_ofKind (all : List.Forall₂ FindsParam parts parameters) (kind : ParamKind) :
    List.Forall₂ FindsParam (ParamPart.ofKind kind parts) (kind.among parameters) :=
  List.rel_filter (fun part parameter finds => by simp only [finds.kind]) all

theorem forall_mem_among (kind : ParamKind) (parameters : List Param) :
    ∀ parameter ∈ kind.among parameters, parameter.kind = kind := by
  intro parameter member
  simpa using List.of_mem_filter member

theorem paramItems_of_forall₂ {items : List (String × Node)} {parameters : List Param}
    (each : List.Forall₂ (fun node parameter => param kind node = .ok parameter)
      (items.map Prod.snd) parameters) : paramItems kind items = .ok parameters := by
  induction items generalizing parameters with
  | nil =>
    cases each
    rw [paramItems]
  | cons item rest inductionHypothesis =>
    rw [List.map_cons] at each
    obtain _ | ⟨first, others⟩ := each
    rw [paramItems, first, inductionHypothesis others]
    rfl

/-- Parameters are read from their nodes without their default values. -/
theorem forall₂_param {nodes : List Node} (all : List.Forall₂ FindsParam parts parameters)
    (same : ∀ parameter ∈ parameters, parameter.kind = kind)
    (each : List.Forall₂ Holds nodes (parts.map ParamPart.node)) :
    List.Forall₂ (fun node parameter => param kind node = .ok parameter) nodes
      (parameters.map ParamOf.strip) := by
  induction all generalizing nodes with
  | nil =>
    cases each
    exact .nil
  | cons first _ inductionHypothesis =>
    rw [List.forall_mem_cons] at same
    obtain _ | ⟨holds, others⟩ := each
    have read := first.node _ holds
    rw [same.1] at read
    exact .cons read (inductionHypothesis same.2 others)

/-- A list of parameters of one kind. -/
theorem paramItems_of_listed (all : List.Forall₂ FindsParam parts parameters)
    (same : ∀ parameter ∈ parameters, parameter.kind = kind)
    (holds : (field entries key).Holds (listed (parts.map ParamPart.node))) :
    paramItems kind (labelled entries key) = .ok (parameters.map ParamOf.strip) := by
  obtain ⟨line, nodes, isList, each⟩ := Holds.of_listed holds
  refine paramItems_of_forall₂ ?_
  have labels : (labelled entries key).map Prod.snd = nodes := by
    rw [labelled, isList]
    simp [List.map_map, Function.comp_def]
  rw [labels]
  exact forall₂_param all same each

theorem labelled_of_isNull (null : (field entries key).isNull) : labelled entries key = [] := by
  rw [labelled]
  cases isNode : field entries key with
  | list =>
    rw [isNode] at null
    cases null
  | object =>
    rw [isNode] at null
    cases null
  | _ => rfl

theorem labelled_of_param {parameter : Param}
    (read : param kind (field entries key) = .ok parameter) :
    labelled entries key = [(key, field entries key)] := by
  rw [labelled]
  cases isNode : field entries key with
  | object => rfl
  | _ => simp [isNode, param, fail, Attempt.fail] at read

/-- A parameter of a kind of which there is at most one. -/
theorem paramItems_of_single (all : List.Forall₂ FindsParam parts parameters)
    (same : ∀ parameter ∈ parameters, parameter.kind = kind) (atMostOne : parameters.length ≤ 1)
    (holds : (field entries key).Holds ((parts.map ParamPart.node).headD nothing)) :
    paramItems kind (labelled entries key) = .ok (parameters.map ParamOf.strip) := by
  refine paramItems_of_forall₂ ?_
  cases all with
  | nil =>
    rw [labelled_of_isNull holds.isNull]
    exact .nil
  | @cons part parameter _ _ first others =>
    obtain rfl := List.length_eq_zero_iff.mp (Nat.le_zero.mp (Nat.le_of_succ_le_succ atMostOne))
    have read := first.node _ holds
    rw [same parameter List.mem_cons_self] at read
    rw [labelled_of_param read]
    exact .cons read .nil

/-! ### Default values -/

theorem defaultValue_of_isBare {parameter : Param} (bare : parameter.isBare) :
    parameter.defaultValue = .absent := by
  unfold ParamOf.isBare Expr.isAbsent at bare
  split at bare
  · assumption
  · cases bare

theorem strip_of_isBare {parameter : Param} (bare : parameter.isBare) :
    parameter.strip = parameter := by
  rw [ParamOf.strip, ← defaultValue_of_isBare bare]

theorem map_strip_of_isBare (bare : ∀ parameter ∈ parameters, parameter.isBare) :
    parameters.map ParamOf.strip = parameters := by
  rw [List.map_congr_left fun parameter member => strip_of_isBare (bare parameter member),
    List.map_id']

/-- The default values that are listed are those of the parameters that have one. -/
theorem forall₂_finds_filterMap {nodes : List Node}
    (all : List.Forall₂ FindsParam parts parameters)
    (each : List.Forall₂ Holds nodes (parts.filterMap ParamPart.value?)) :
    List.Forall₂ Finds nodes
      ((parameters.filter fun parameter => !parameter.isBare).map ParamOf.defaultValue) := by
  induction all generalizing nodes with
  | nil =>
    cases each
    exact .nil
  | @cons part parameter _ _ first _ inductionHypothesis =>
    have isNone := first.isNone
    cases isValue : part.value? with
    | none =>
      rw [isValue] at isNone
      rw [List.filterMap_cons_none isValue] at each
      rw [List.filter_cons_of_neg (by simp [← isNone])]
      exact inductionHypothesis each
    | some value =>
      rw [isValue] at isNone
      rw [List.filterMap_cons_some isValue] at each
      rw [List.filter_cons_of_pos (by simp [← isNone])]
      obtain _ | ⟨holds, others⟩ := each
      exact .cons (first.value value isValue _ holds) (inductionHypothesis others)

/-- The default values that are listed one by one. -/
theorem forall₂_finds_map {nodes : List Node} (all : List.Forall₂ FindsParam parts parameters)
    (each : List.Forall₂ Holds nodes (parts.map fun part => part.value?.getD nothing)) :
    List.Forall₂ Finds nodes (parameters.map ParamOf.defaultValue) := by
  induction all generalizing nodes with
  | nil =>
    cases each
    exact .nil
  | @cons part parameter _ _ first _ inductionHypothesis =>
    rw [List.map_cons] at each
    obtain _ | ⟨holds, others⟩ := each
    refine .cons ?_ (inductionHypothesis others)
    have isNone := first.isNone
    cases isValue : part.value? with
    | none =>
      rw [isValue] at isNone holds
      rw [defaultValue_of_isBare isNone.symm, Finds, optional, if_pos holds.isNull]
    | some value =>
      rw [isValue] at holds
      exact first.value value isValue _ holds

/-- A parameter in front of enough others gets no default value. -/
theorem withDefaults_cons {parameters : List Param} {values : List Expr}
    (enough : values.length ≤ parameters.length) (first : Param) :
    withDefaults (first :: parameters) values = first :: withDefaults parameters values := by
  rw [withDefaults, List.length_cons, Nat.succ_sub enough]
  rfl

/-- If all parameters have default values, these are put back. -/
theorem withDefaults_all (parameters : List Param) :
    withDefaults (parameters.map ParamOf.strip) (parameters.map ParamOf.defaultValue) =
      parameters := by
  have restored (parameter : Param) :
      { parameter.strip with defaultValue := parameter.defaultValue } = parameter := rfl
  simp only [withDefaults, List.length_map, Nat.sub_self, List.take_zero, List.nil_append,
    List.drop_zero, List.zipWith_map, List.zipWith_self, restored, List.map_id']

/-- There are no more default values than parameters. -/
theorem length_defaults_le (parameters : List Param) :
    ((parameters.filter fun parameter => !parameter.isBare).map ParamOf.defaultValue).length ≤
      (parameters.map ParamOf.strip).length := by
  rw [List.length_map, List.length_map]
  exact List.length_filter_le _ _

/-- Behind a parameter with a default value all have one, so the values belong to the last. -/
theorem withDefaults_strip {parameters : List Param}
    (defaults : parameters.Pairwise fun first second => second.isBare → first.isBare) :
    withDefaults (parameters.map ParamOf.strip)
      ((parameters.filter fun parameter => !parameter.isBare).map ParamOf.defaultValue) =
        parameters := by
  induction defaults with
  | nil => rfl
  | @cons first rest behind _ inductionHypothesis =>
    by_cases bare : first.isBare
    · rw [List.filter_cons_of_neg (by simp [bare]), List.map_cons,
        withDefaults_cons (length_defaults_le rest), inductionHypothesis, strip_of_isBare bare]
    · have all : (first :: rest).filter (fun parameter => !parameter.isBare) = first :: rest := by
        rw [List.filter_eq_self, List.forall_mem_cons]
        refine ⟨by simp [bare], fun second member => ?_⟩
        simpa using fun secondBare => bare (behind second member secondBare)
      rw [all, withDefaults_all]

theorem withLeadingDefaults_strip (parameters : List Param) :
    withLeadingDefaults (parameters.map ParamOf.strip) (parameters.map ParamOf.defaultValue) =
      parameters := by
  induction parameters with
  | nil => rfl
  | cons first rest inductionHypothesis =>
    rw [List.map_cons, List.map_cons, withLeadingDefaults, inductionHypothesis]
    rfl

/-! ### Signatures -/

/-- There are no parameters of a kind that has its place further in front. -/
theorem among_eq_nil {parameters : List Param} {kind later : ParamKind}
    (behind : ∀ parameter ∈ parameters, later.rank ≤ parameter.kind.rank)
    (before : kind.rank < later.rank) : kind.among parameters = [] := by
  refine List.filter_eq_nil_iff.mpr fun parameter member => ?_
  have bound := behind parameter member
  simp only [decide_eq_true_eq]
  rintro rfl
  omega

/-- Parameters in order are those of the five kinds, one kind after the other. -/
theorem among_append {parameters : List Param}
    (known : ∀ parameter ∈ parameters, parameter.kind ≠ .unknown)
    (sorted : parameters.Pairwise fun first second => first.kind.rank ≤ second.kind.rank) :
    ParamKind.positionalOnly.among parameters ++ ParamKind.positional.among parameters ++
      ParamKind.varArgs.among parameters ++ ParamKind.keywordOnly.among parameters ++
        ParamKind.keywordArgs.among parameters = parameters := by
  induction sorted with
  | nil => rfl
  | @cons first rest behind _ inductionHypothesis =>
    rw [List.forall_mem_cons] at known
    have restEqual := inductionHypothesis known.2
    have cons (kind : ParamKind) : kind.among (first :: rest) =
        if first.kind = kind then first :: kind.among rest else kind.among rest := by
      simp only [ParamKind.among, List.filter_cons, decide_eq_true_eq]
    have empty (kind : ParamKind) (before : kind.rank < first.kind.rank) : kind.among rest = [] :=
      among_eq_nil behind before
    simp only [cons]
    cases isKind : first.kind with
    | positionalOnly => simpa using restEqual
    | positional =>
      rw [isKind] at empty
      simpa [empty .positionalOnly (by decide)] using restEqual
    | varArgs =>
      rw [isKind] at empty
      simpa [empty .positionalOnly (by decide), empty .positional (by decide)] using restEqual
    | keywordOnly =>
      rw [isKind] at empty
      simpa [empty .positionalOnly (by decide), empty .positional (by decide),
        empty .varArgs (by decide)] using restEqual
    | keywordArgs =>
      rw [isKind] at empty
      simpa [empty .positionalOnly (by decide), empty .positional (by decide),
        empty .varArgs (by decide), empty .keywordOnly (by decide)] using restEqual
    | unknown => exact absurd isKind known.1

/-- A list of expressions is read if its items are found. -/
theorem exprs_of_listed {nodes : List Node} {values : List Expr}
    (holds : node.Holds (listed nodes))
    (finds : ∀ others, List.Forall₂ Holds others nodes → List.Forall₂ Finds others values) :
    exprs node = .ok values := by
  obtain ⟨line, others, rfl, each⟩ := Holds.of_listed holds
  rw [exprs, exprItems_of_finds (finds others each)]

/-- The parameters of a function are read back from what they contribute to its document. -/
theorem params_of_holds (inOrder : InOrder parameters)
    (all : List.Forall₂ FindsParam parts parameters)
    (holds : node.Holds (ParamPart.arguments parts)) : params node = .ok parameters := by
  obtain ⟨line, entries, _, rfl, found, _, has⟩ := Holds.of_typed holds rfl
  have positionalOnly := paramItems_of_listed (findsParam_ofKind all .positionalOnly)
    (forall_mem_among .positionalOnly parameters) (has "posonlyargs" _ rfl)
  have positional := paramItems_of_listed (findsParam_ofKind all .positional)
    (forall_mem_among .positional parameters) (has "args" _ rfl)
  have defaults := exprs_of_listed (has "defaults" _ rfl) fun _ => forall₂_finds_filterMap
    (List.rel_append (findsParam_ofKind all .positionalOnly) (findsParam_ofKind all .positional))
  have varArgs := paramItems_of_single (findsParam_ofKind all .varArgs)
    (forall_mem_among .varArgs parameters) inOrder.varArgs (has "vararg" _ rfl)
  have keywordOnly := paramItems_of_listed (findsParam_ofKind all .keywordOnly)
    (forall_mem_among .keywordOnly parameters) (has "kwonlyargs" _ rfl)
  have keywordArgs := paramItems_of_single (findsParam_ofKind all .keywordArgs)
    (forall_mem_among .keywordArgs parameters) inOrder.keywordArgs (has "kwarg" _ rfl)
  have keywordDefaults : keywordDefaults ((ParamKind.keywordOnly.among parameters).map
      ParamOf.strip).length 0 (field entries "kw_defaults").parts =
        .ok ((ParamKind.keywordOnly.among parameters).map ParamOf.defaultValue) := by
    obtain ⟨_, nodes, isList, each⟩ := Holds.of_listed (has "kw_defaults" _ rfl)
    have finds := forall₂_finds_map (findsParam_ofKind all .keywordOnly) each
    have same : nodes.length = _ := finds.length_eq
    rw [isList]
    refine keywordDefaults_of_finds finds ?_
    simp [same]
  have collector (kind : ParamKind) (collects : kind = .varArgs ∨ kind = .keywordArgs) :
      (kind.among parameters).map ParamOf.strip = kind.among parameters := by
    refine map_strip_of_isBare fun parameter member => ?_
    have isKind := forall_mem_among kind parameters parameter member
    refine inOrder.bare parameter (List.mem_of_mem_filter member) ?_
    rwa [isKind]
  rw [params, found]
  simp only [positionalOnly, positional, defaults, varArgs, keywordOnly, keywordDefaults,
    keywordArgs, Attempt.inside_ok, Attempt.ok_bind]
  rw [← List.map_append, if_neg (Nat.not_lt.mpr (length_defaults_le _)),
    withDefaults_strip inOrder.defaults, withLeadingDefaults_strip, collector _ (.inl rfl),
    collector _ (.inr rfl), among_append inOrder.known inOrder.sorted]
  rfl

end Read

end Oxide
