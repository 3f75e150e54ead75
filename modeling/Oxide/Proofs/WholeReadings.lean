/-
This file shows that only whole trees are read, whatever a document looks like. What is read in a
role is known to be whole if the parts that it is read from are, so it is whole in all roles. An
item of a list of expressions is left out only where the document has a null in its place.
-/

import Oxide.Proofs.ReadParts
import Oxide.Proofs.ReadResults
import Oxide.Proofs.WholeTrees

namespace Oxide

open Document
open Document.Node (field field?)

variable {gaps : Bool}

/-! ### Readings -/

/-- Each value of a list comes from one of its items. -/
theorem exists_of_mem_mapM {First Second : Type} {step : First → Option Second}
    {items : List First} {values : List Second} (read : items.mapM step = some values) :
    ∀ value ∈ values, ∃ item ∈ items, step item = some value := by
  induction items generalizing values with
  | nil =>
    cases read
    nofun
  | cons first rest inductionHypothesis =>
    rw [List.mapM_cons] at read
    obtain ⟨value, atFirst, later⟩ := Option.bind_eq_some_iff.mp read
    obtain ⟨others, atRest, same⟩ := Option.bind_eq_some_iff.mp later
    cases same
    refine List.forall_mem_cons.mpr ⟨⟨first, List.mem_cons_self, atFirst⟩, fun other member => ?_⟩
    obtain ⟨item, among, atItem⟩ := inductionHypothesis atRest other member
    exact ⟨item, List.mem_cons_of_mem _ among, atItem⟩

/-- A parameter of a kind that has been read without a default value. -/
structure PlainParam (gaps : Bool) (kind : ParamKind) (param : Param) : Prop where
  kind : param.kind = kind
  bare : param.isBare
  hint : param.hint.isWholeOrAbsent gaps

namespace Role

/-- Whether a list of expressions that is read from a node holds a null. -/
def HasGap (role : Role) (node : Node) : Prop :=
  ∃ line items, role.Reaches node .exprs (.list line items) ∧ ∃ item ∈ items, item.isNull

/-- What is known of whatever is read in a role. -/
def Sound (gaps : Bool) : (role : Role) → role.Result → Prop
  | .document, result => ∀ source, result = some source → source.isWhole gaps
  | .stmts, result => ∀ values, result = some values → Stmt.allWhole gaps values
  | .stmt, result => ∀ value, result = some value → value.isWhole gaps
  | .exprs, result => ∀ values, result = some values → Expr.allWhole gaps values
  | .expr, result => ∀ value, result = some value → value.isWhole gaps
  | .arguments, result =>
    ∀ values, result = some values → Arranged values ∧ Expr.paramsWhole gaps values
  | .parameters, result =>
    ∀ kind values, result kind = some values → ∀ param ∈ values, PlainParam gaps kind param
  | .parameter, result => ∀ kind value, result kind = some value → PlainParam gaps kind value
  | .defaults, result =>
    ∀ values, result = some values → ∀ value ∈ values, value.isWholeOrAbsent gaps
  | .keywords, result => ∀ values, result = some values → Expr.keywordsWhole gaps values
  | .keyword, result => ∀ value, result = some value → value.2.isWhole gaps
  | .withItems, result => ∀ values, result = some values → values.all (Expr.isWhole gaps)
  | .withItem, result => ∀ value, result = some value → value.isWhole gaps
  | _, _ => True

theorem forall_fields {role : Role} {entries : List (Node × Node)} {type : Node}
    {property : String × Role → Prop} (found : field? entries typeKey = some type)
    (parts : ∀ entry ∈ role.fieldsOf entries, property entry) :
    ∀ entry ∈ role.fields type.text, property entry := by
  intro entry member
  refine parts entry (List.mem_cons_of_mem _ ?_)
  rwa [found]

end Role

open Role (exprFields stmtFields withItem?)

namespace Read

variable {entries : List (Node × Node)}

/-- What may be left out is whole if what is there is whole. -/
theorem whole_of_optional {node : Node} {value : Expr}
    (sound : Role.expr.Sound gaps (Role.expr.result node))
    (read : (optional node (expr node)).toOption = some value) : value.isWholeOrAbsent gaps := by
  unfold optional at read
  split at read
  · cases read
    rfl
  · exact Bool.or_eq_true_iff.mpr (.inr (sound value read))

/-! ### Default values -/

/-- Default values do not change the kinds of parameters. -/
theorem map_kind_withDefaults {params : List Param} {defaults : List Expr}
    (enough : defaults.length ≤ params.length) :
    (withDefaults params defaults).map ParamOf.kind = params.map ParamOf.kind := by
  have short : (params.drop (params.length - defaults.length)).length ≤ defaults.length := by
    rw [List.length_drop]
    omega
  have kinds : (List.zipWith (fun (param : Param) _ => param.kind)
      (params.drop (params.length - defaults.length)) defaults) =
        (params.drop (params.length - defaults.length)).map ParamOf.kind := by
    rw [← List.map_uncurry_zip_eq_zipWith]
    nth_rewrite 2 [← List.map_fst_zip short]
    rw [List.map_map]
    rfl
  rw [withDefaults, List.map_append, List.map_zipWith, kinds, ← List.map_append,
    List.take_append_drop]

/-- A parameter keeps everything but its default value, which may come from the list. -/
theorem mem_withDefaults {params : List Param} {defaults : List Expr} {param : Param}
    (member : param ∈ withDefaults params defaults) :
    ∃ original ∈ params, ∃ value, (value = original.defaultValue ∨ value ∈ defaults) ∧
      param = { original with defaultValue := value } := by
  rcases List.mem_append.mp member with early | late
  · exact ⟨param, List.mem_of_mem_take early, param.defaultValue, .inl rfl, rfl⟩
  · rw [← List.map_uncurry_zip_eq_zipWith] at late
    obtain ⟨⟨original, value⟩, paired, rfl⟩ := List.mem_map.mp late
    obtain ⟨inParams, inDefaults⟩ := List.of_mem_zip paired
    exact ⟨original, List.mem_of_mem_drop inParams, value, .inr inDefaults, rfl⟩

/-- The same holds where the values are for the first parameters. -/
theorem mem_withLeadingDefaults {params : List Param} {defaults : List Expr} {param : Param}
    (member : param ∈ withLeadingDefaults params defaults) :
    ∃ original ∈ params, ∃ value, (value = original.defaultValue ∨ value ∈ defaults) ∧
      param = { original with defaultValue := value } := by
  induction params generalizing defaults with
  | nil => cases member
  | cons first rest inductionHypothesis =>
    cases defaults with
    | nil => exact ⟨param, member, param.defaultValue, .inl rfl, rfl⟩
    | cons value values =>
      rcases List.mem_cons.mp member with here | later
      · exact ⟨first, List.mem_cons_self, value, .inr List.mem_cons_self, here⟩
      · obtain ⟨original, inRest, other, origin, same⟩ := inductionHypothesis later
        exact ⟨original, List.mem_cons_of_mem _ inRest, other,
          origin.imp_right (List.mem_cons_of_mem _), same⟩

theorem map_kind_withLeadingDefaults (params : List Param) (defaults : List Expr) :
    (withLeadingDefaults params defaults).map ParamOf.kind = params.map ParamOf.kind := by
  induction params generalizing defaults with
  | nil => rfl
  | cons first rest inductionHypothesis =>
    cases defaults with
    | nil => rfl
    | cons value values =>
      rw [withLeadingDefaults, List.map_cons, List.map_cons, inductionHypothesis]

/-- A stretch of a signature, whose kinds have ranks between the given ones. -/
structure Segment (gaps : Bool) (low high : Nat) (params : List Param) : Prop where
  sorted : params.Pairwise fun first second => first.kind.rank ≤ second.kind.rank
  ranks : ∀ param ∈ params, low ≤ param.kind.rank ∧ param.kind.rank ≤ high
  hints : ∀ param ∈ params, param.hint.isWholeOrAbsent gaps
  values : ∀ param ∈ params, param.defaultValue.isWholeOrAbsent gaps
  bare : ∀ param ∈ params, param.kind = .varArgs ∨ param.kind = .keywordArgs → param.isBare

namespace Segment

variable {low middle next high : Nat} {params others : List Param}

theorem of_kind {kind : ParamKind} (plain : ∀ param ∈ params, PlainParam gaps kind param) :
    Segment gaps kind.rank kind.rank params where
  sorted := List.pairwise_of_forall_mem_list fun first inFirst second inSecond =>
    Nat.le_of_eq (by rw [(plain first inFirst).kind, (plain second inSecond).kind])
  ranks param member := by
    rw [(plain param member).kind]
    exact ⟨Nat.le_refl _, Nat.le_refl _⟩
  hints param member := (plain param member).hint
  values param member := Bool.or_eq_true_iff.mpr (.inl (plain param member).bare)
  bare param member _ := (plain param member).bare

/-- Segments one behind the other are a segment if their kinds are in order. -/
theorem append (first : Segment gaps low middle params) (second : Segment gaps next high others)
    (below : low ≤ next) (order : middle ≤ next) (above : middle ≤ high) :
    Segment gaps low high (params ++ others) where
  sorted := by
    refine List.pairwise_append.mpr
      ⟨first.sorted, second.sorted, fun param inFirst other inSecond => ?_⟩
    have upper := (first.ranks param inFirst).2
    have lower := (second.ranks other inSecond).1
    omega
  ranks := by
    refine List.forall_mem_append.mpr ⟨fun param member => ?_, fun param member => ?_⟩
    · have bounds := first.ranks param member
      omega
    · have bounds := second.ranks param member
      omega
  hints := List.forall_mem_append.mpr ⟨first.hints, second.hints⟩
  values := List.forall_mem_append.mpr ⟨first.values, second.values⟩
  bare := List.forall_mem_append.mpr ⟨first.bare, second.bare⟩

/-- Default values for parameters that do not collect other arguments. -/
theorem fill {defaults : List Expr} (segment : Segment gaps low high params)
    (kinds : others.map ParamOf.kind = params.map ParamOf.kind)
    (origin : ∀ param ∈ others, ∃ original ∈ params, ∃ value,
      (value = original.defaultValue ∨ value ∈ defaults) ∧
        param = { original with defaultValue := value })
    (whole : ∀ value ∈ defaults, value.isWholeOrAbsent gaps)
    (varArgs : ¬ (low ≤ ParamKind.varArgs.rank ∧ ParamKind.varArgs.rank ≤ high))
    (keywordArgs : ¬ (low ≤ ParamKind.keywordArgs.rank ∧ ParamKind.keywordArgs.rank ≤ high)) :
    Segment gaps low high others := by
  refine ⟨?_, fun param member => ?_, fun param member => ?_, fun param member => ?_,
    fun param member => ?_⟩
  · have sorted : (params.map ParamOf.kind).Pairwise fun first second =>
        first.rank ≤ second.rank := List.pairwise_map.mpr segment.sorted
    rw [← kinds] at sorted
    exact (List.pairwise_map (f := ParamOf.kind)).mp sorted
  all_goals obtain ⟨original, among, value, source, rfl⟩ := origin param member
  · exact segment.ranks original among
  · exact segment.hints original among
  · rcases source with rfl | given
    · exact segment.values original among
    · exact whole value given
  · have ranks := segment.ranks original among
    rintro (collects | collects)
    · exact absurd (collects ▸ ranks) varArgs
    · exact absurd (collects ▸ ranks) keywordArgs

/-- A segment of known kinds is arranged. -/
theorem arranged (segment : Segment gaps low high params) (known : high ≤ 4) : Arranged params where
  known param member isUnknown := by
    have bound := (segment.ranks param member).2
    rw [isUnknown] at bound
    exact absurd (Nat.le_trans bound known) (by decide)
  sorted := segment.sorted
  bare := segment.bare

end Segment

/-! ### Objects -/

/-- An expression is whole if the parts that it is read from are. -/
theorem whole_expr_object (line : Nat) (parts : ∀ entry ∈ Role.expr.fieldsOf entries,
      entry.2.Sound gaps (entry.2.result (field entries entry.1))) :
    Role.expr.Sound gaps (Role.expr.result (.object line entries)) := by
  intro value read
  change (expr (.object line entries)).toOption = some value at read
  cases found : field? entries typeKey with
  | none => simp [expr, found] at read
  | some type =>
    have parts := Role.forall_fields found parts
    simp only [expr, found] at read
    change ∀ entry ∈ exprFields type.text, _ at parts
    generalize type.text = name at read parts
    split at read <;> simp only [exprFields, List.forall_mem_cons] at parts <;>
      simp -failIfUnchanged only [toOption_bind, toOption_inside, toOption_pure,
        toOption_keywords, Option.bind_eq_some_iff, Option.some.injEq] at read
    · obtain ⟨constant, -, rfl⟩ := read
      exact isPlainTruth_all constant
    · cases read
      rfl
    · obtain ⟨left, atLeft, op, -, right, atRight, rfl⟩ := read
      simp [Expr.isWhole, parts.1 left atLeft, parts.2.2.1 right atRight]
    · obtain ⟨op, -, operand, atOperand, rfl⟩ := read
      exact parts.2.1 operand atOperand
    · obtain ⟨op, -, values, atValues, rfl⟩ := read
      exact parts.2.1 values atValues
    · obtain ⟨left, atLeft, ops, -, comparators, atComparators, even⟩ := read
      split at even
      · cases even
      · rename_i equal
        cases even
        simp [Expr.isWhole, parts.1 left atLeft, parts.2.2.1 comparators atComparators,
          not_ne_iff.mp equal]
    · obtain ⟨function, atFunction, arguments, atArguments, keywords, atKeywords, rfl⟩ := read
      simp [Expr.isWhole, parts.1 function atFunction, parts.2.1 arguments atArguments,
        parts.2.2.1 keywords atKeywords]
    · obtain ⟨value, atValue, rfl⟩ := read
      exact parts.1 value atValue
    · obtain ⟨value, atValue, slice, atSlice, rfl⟩ := read
      simp [Expr.isWhole, parts.1 value atValue, parts.2.1 slice atSlice]
    · exact parts.1 value read
    · obtain ⟨items, atItems, rfl⟩ := read
      exact parts.1 items atItems
    · obtain ⟨items, atItems, rfl⟩ := read
      exact parts.1 items atItems
    · obtain ⟨value, atValue, rfl⟩ := read
      exact parts.1 value atValue
    · obtain ⟨params, atParams, body, atBody, rfl⟩ := read
      obtain ⟨arranged, whole⟩ := parts.1 params atParams
      simp [Expr.isWhole, arranged, whole, parts.2.1 body atBody]
    · obtain ⟨keys, atKeys, values, atValues, rfl⟩ := read
      simp [Expr.isWhole, parts.1 keys atKeys, parts.2.1 values atValues]
    · obtain ⟨values, atValues, rfl⟩ := read
      exact parts.1 values atValues
    · cases read

theorem whole_keyword_object (line : Nat) (parts : ∀ entry ∈ Role.keyword.fieldsOf entries,
      entry.2.Sound gaps (entry.2.result (field entries entry.1))) :
    Role.keyword.Sound gaps (Role.keyword.result (.object line entries)) := by
  intro pair read
  change (keyword (.object line entries)).toOption = some pair at read
  cases found : field? entries typeKey with
  | none => simp [keyword, found] at read
  | some type =>
    have parts := Role.forall_fields found parts
    simp only [Role.fields, List.forall_mem_cons] at parts
    simp only [keyword, found, toOption_bind, toOption_pure, Option.bind_eq_some_iff,
      Option.some.injEq] at read
    obtain ⟨value, atValue, rfl⟩ := read
    exact parts.2.1 value atValue

theorem whole_param_object (line : Nat) (parts : ∀ entry ∈ Role.parameter.fieldsOf entries,
      entry.2.Sound gaps (entry.2.result (field entries entry.1))) :
    Role.parameter.Sound gaps (Role.parameter.result (.object line entries)) := by
  intro kind value read
  change (param kind (.object line entries)).toOption = some value at read
  cases found : field? entries typeKey with
  | none => simp [param, found] at read
  | some type =>
    have parts := Role.forall_fields found parts
    simp only [Role.fields, List.forall_mem_cons] at parts
    simp only [param, found, toOption_bind, toOption_inside, toOption_pure,
      Option.bind_eq_some_iff, Option.some.injEq] at read
    obtain ⟨hint, atHint, rfl⟩ := read
    exact ⟨rfl, rfl, whole_of_optional parts.2.1 atHint⟩

theorem whole_withItem_object (line : Nat) (parts : ∀ entry ∈ Role.withItem.fieldsOf entries,
      entry.2.Sound gaps (entry.2.result (field entries entry.1))) :
    Role.withItem.Sound gaps (Role.withItem.result (.object line entries)) := by
  intro value read
  change withItem? (.object line entries) = some value at read
  cases found : field? entries typeKey with
  | none => simp [withItem?, typed, found] at read
  | some type =>
    have parts := Role.forall_fields found parts
    simp only [Role.fields, List.forall_mem_cons] at parts
    simp only [withItem?, typed, found, toOption_ok, Option.bind_some] at read
    exact parts.1 value read

/-- Parameters are whole and arranged if the parts that they are read from are whole. -/
theorem whole_params_object (line : Nat) (parts : ∀ entry ∈ Role.arguments.fieldsOf entries,
      entry.2.Sound gaps (entry.2.result (field entries entry.1))) :
    Role.arguments.Sound gaps (Role.arguments.result (.object line entries)) := by
  intro values read
  change (params (.object line entries)).toOption = some values at read
  cases found : field? entries typeKey with
  | none => simp [params, found] at read
  | some type =>
    have parts := Role.forall_fields found parts
    simp only [Role.fields, List.forall_mem_cons] at parts
    obtain ⟨ofPositionalOnly, ofOrdinary, ofDefaults, ofVarArgs, ofKeywordOnly, ofKeywordDefaults,
      ofKeywordArgs, -⟩ := parts
    simp only [params, found, toOption_bind, toOption_inside, toOption_paramItems,
      map_snd_labelled, Option.bind_eq_some_iff] at read
    obtain ⟨positionalOnly, atPositionalOnly, ordinary, atOrdinary, defaults, atDefaults, read⟩ :=
      read
    split at read
    · cases read
    · rename_i enough
      simp only [toOption_bind, toOption_pure, toOption_paramItems, map_snd_labelled,
        toOption_keywordDefaults, Option.bind_eq_some_iff, Option.some.injEq] at read
      obtain ⟨varArgs, atVarArgs, keywordOnly, atKeywordOnly, keywordDefaults,
        ⟨given, atGiven, kept⟩, keywordArgs, atKeywordArgs, rfl⟩ := read
      have positional := (Segment.of_kind (ofPositionalOnly _ _ atPositionalOnly)).append
        (Segment.of_kind (ofOrdinary _ _ atOrdinary)) (by decide) (by decide) (by decide)
      have positionalFilled :
          Segment gaps 0 1 (withDefaults (positionalOnly ++ ordinary) defaults) :=
        positional.fill (map_kind_withDefaults (Nat.le_of_not_lt enough))
          (fun _ => mem_withDefaults)
          (fun value member => isWholeOrAbsent_of_allWhole (ofDefaults defaults atDefaults) member)
          (by decide) (by decide)
      have keywordFilled : Segment gaps 3 3 (withLeadingDefaults keywordOnly keywordDefaults) := by
        split at kept
        · cases kept
          exact (Segment.of_kind (ofKeywordOnly _ _ atKeywordOnly)).fill
            (map_kind_withLeadingDefaults keywordOnly keywordDefaults)
            (fun _ => mem_withLeadingDefaults) (ofKeywordDefaults keywordDefaults atGiven)
            (by decide) (by decide)
        · cases kept
      have all := ((positionalFilled.append (Segment.of_kind (ofVarArgs _ _ atVarArgs)) (by decide)
        (by decide) (by decide)).append keywordFilled (by decide) (by decide) (by decide)).append
          (Segment.of_kind (ofKeywordArgs _ _ atKeywordArgs)) (by decide) (by decide) (by decide)
      exact ⟨all.arranged (by decide), paramsWhole_iff.mpr fun param member =>
        ⟨all.hints param member, all.values param member⟩⟩

/-- A function is whole if its parameters, its body and its result are. -/
theorem whole_signature {params : List Param} {body : List Stmt} {definition : FunctionDef}
    (ofReturns : Role.expr.Sound gaps (Role.expr.result (field entries "returns")))
    (arranged : Arranged params) (wholeParams : Expr.paramsWhole gaps params)
    (wholeBody : Stmt.allWhole gaps body)
    (read : (signature entries params body).toOption = some definition) :
    FunctionDef.isWhole gaps definition := by
  simp only [signature, optionalField, toOption_bind, toOption_inside, toOption_pure,
    Option.bind_eq_some_iff, Option.some.injEq] at read
  obtain ⟨decorators, -, returns, atReturns, rfl⟩ := read
  simp [FunctionDef.isWhole, arranged, wholeParams, wholeBody,
    whole_of_optional ofReturns atReturns]

/-- A statement is whole if the parts that it is read from are. -/
theorem whole_stmt_object (line : Nat) (parts : ∀ entry ∈ Role.stmt.fieldsOf entries,
      entry.2.Sound gaps (entry.2.result (field entries entry.1))) :
    Role.stmt.Sound gaps (Role.stmt.result (.object line entries)) := by
  intro value read
  change (stmt (.object line entries)).toOption = some value at read
  cases found : field? entries typeKey with
  | none => simp [stmt, found] at read
  | some type =>
    have parts := Role.forall_fields found parts
    simp only [stmt, found] at read
    change ∀ entry ∈ stmtFields type.text, _ at parts
    generalize type.text = name at read parts
    split at read <;> simp only [stmtFields, List.forall_mem_cons] at parts <;>
      simp -failIfUnchanged only [optionalField, toOption_bind, toOption_inside, toOption_pure,
        toOption_withItems, Option.bind_eq_some_iff, Option.some.injEq] at read
    · obtain ⟨params, atParams, body, atBody, definition, atDefinition, rfl⟩ := read
      obtain ⟨arranged, whole⟩ := parts.2.1 params atParams
      exact whole_signature parts.2.2.2.2.1 arranged whole (parts.2.2.1 body atBody) atDefinition
    · obtain ⟨params, atParams, body, atBody, definition, atDefinition, rfl⟩ := read
      obtain ⟨arranged, whole⟩ := parts.2.1 params atParams
      exact whole_signature parts.2.2.2.2.1 arranged whole (parts.2.2.1 body atBody) atDefinition
    · obtain ⟨value, atValue, rfl⟩ := read
      exact parts.1 value atValue
    · obtain ⟨targets, atTargets, value, atValue, rfl⟩ := read
      simp [Stmt.isWhole, parts.1 targets atTargets, parts.2.1 value atValue]
    · obtain ⟨target, atTarget, op, -, value, atValue, rfl⟩ := read
      simp [Stmt.isWhole, parts.1 target atTarget, parts.2.2.1 value atValue]
    · obtain ⟨target, atTarget, hint, atHint, value, atValue, rfl⟩ := read
      simp [Stmt.isWhole, parts.1 target atTarget, parts.2.1 hint atHint,
        whole_of_optional parts.2.2.1 atValue]
    · obtain ⟨value, atValue, rfl⟩ := read
      exact whole_of_optional parts.1 atValue
    · obtain ⟨test, atTest, body, atBody, orelse, atOrelse, rfl⟩ := read
      simp [Stmt.isWhole, parts.1 test atTest, parts.2.1 body atBody, parts.2.2.1 orelse atOrelse]
    · obtain ⟨test, atTest, body, atBody, orelse, atOrelse, rfl⟩ := read
      simp [Stmt.isWhole, parts.1 test atTest, parts.2.1 body atBody, parts.2.2.1 orelse atOrelse]
    · obtain ⟨target, atTarget, iter, atIter, body, atBody, orelse, atOrelse, rfl⟩ := read
      simp [Stmt.isWhole, parts.1 target atTarget, parts.2.1 iter atIter, parts.2.2.1 body atBody,
        parts.2.2.2.1 orelse atOrelse]
    · cases read
      rfl
    · cases read
      rfl
    · cases read
      rfl
    · obtain ⟨exc, atExc, rfl⟩ := read
      exact whole_of_optional parts.1 atExc
    · obtain ⟨test, atTest, message, atMessage, rfl⟩ := read
      simp [Stmt.isWhole, parts.1 test atTest, whole_of_optional parts.2.1 atMessage]
    · obtain ⟨body, atBody, rfl⟩ := read
      exact parts.2.1 body atBody
    · obtain ⟨names, -, rfl⟩ := read
      rfl
    · obtain ⟨names, -, rfl⟩ := read
      rfl
    · obtain ⟨names, -, rfl⟩ := read
      rfl
    · obtain ⟨names, -, rfl⟩ := read
      rfl
    · obtain ⟨targets, atTargets, rfl⟩ := read
      exact parts.1 targets atTargets
    · obtain ⟨body, atBody, orelse, atOrelse, finalbody, atFinalbody, rfl⟩ := read
      simp [Stmt.isWhole, parts.1 body atBody, parts.2.1 orelse atOrelse,
        parts.2.2.1 finalbody atFinalbody]
    · obtain ⟨body, atBody, orelse, atOrelse, finalbody, atFinalbody, rfl⟩ := read
      simp [Stmt.isWhole, parts.1 body atBody, parts.2.1 orelse atOrelse,
        parts.2.2.1 finalbody atFinalbody]
    · obtain ⟨items, atItems, body, atBody, rfl⟩ := read
      rw [Stmt.isWhole, parts.1 items atItems, parts.2.1 body atBody, Bool.and_self]
    · obtain ⟨items, atItems, body, atBody, rfl⟩ := read
      rw [Stmt.isWhole, parts.1 items atItems, parts.2.1 body atBody, Bool.and_self]
    · cases read

/-- A module is whole if its statements are. -/
theorem whole_document_object (line : Nat) (parts : ∀ entry ∈ Role.document.fieldsOf entries,
      entry.2.Sound gaps (entry.2.result (field entries entry.1))) :
    Role.document.Sound gaps (Role.document.result (.object line entries)) := by
  intro source read
  change (moduleOfNode (.object line entries)).toOption = some source at read
  cases found : field? entries typeKey with
  | none => simp [moduleOfNode, typed, found] at read
  | some type =>
    simp only [moduleOfNode, typed, found, Attempt.ok_bind] at read
    by_cases isModule : type.text = "Module"
    · have parts := Role.forall_fields found parts
      simp only [Role.fields, if_pos isModule, List.forall_mem_cons] at parts
      simp only [if_pos isModule, toOption_bind, toOption_inside, toOption_pure,
        Option.bind_eq_some_iff, Option.some.injEq] at read
      obtain ⟨body, atBody, rfl⟩ := read
      exact parts.1 body atBody
    · have statement := @whole_stmt_object gaps entries line fun entry member => parts entry (by
        simpa only [Role.fieldsOf, found, Option.elim_some, Role.fields, if_neg isModule]
          using member)
      simp only [if_neg isModule, toOption_bind, toOption_pure, Option.bind_eq_some_iff,
        Option.some.injEq] at read
      obtain ⟨value, atValue, rfl⟩ := read
      have whole := statement value atValue
      simp [Module.isWhole, Stmt.allWhole, whole]

end Read

/-! ### Nodes of other kinds -/

namespace Role

/-- A role in which something is read from objects only, or nothing at all from a null. -/
theorem sound_of_object {role : Role} {node : Node}
    (among : role ∈ [.stmt, .expr, .keyword, .parameter, .withItem, .arguments])
    (ofObject : ∀ line entries, node = .object line entries → role.Sound gaps (role.result node)) :
    role.Sound gaps (role.result node) := by
  cases node with
  | object line entries => exact ofObject line entries rfl
  | _ =>
    simp only [List.mem_cons, List.not_mem_nil, or_false] at among
    obtain rfl | rfl | rfl | rfl | rfl | rfl := among
    · intro value read
      simp only [result, Read.stmt] at read
      cases read
    · intro value read
      simp only [result, Read.expr] at read
      split at read <;> cases read
    · intro value read
      simp only [result, Read.keyword] at read
      cases read
    · intro kind value read
      simp only [result, Read.param] at read
      cases read
    · intro value read
      cases read
    · intro values read
      simp only [result, Read.params] at read
      split at read
      · cases read
        exact ⟨by decide, rfl⟩
      · cases read

/-- A role in which something is read from lists only, and nothing from a null. -/
theorem sound_of_list {role : Role} {node : Node} (among : role ∈ [.stmts, .exprs])
    (ofList : ∀ line items, node = .list line items → role.Sound gaps (role.result node)) :
    role.Sound gaps (role.result node) := by
  cases node with
  | list line items => exact ofList line items rfl
  | _ =>
    simp only [List.mem_cons, List.not_mem_nil, or_false] at among
    obtain rfl | rfl := among
    all_goals
      intro values read
      simp only [result, Read.stmts, Read.exprs] at read
      split at read
      · cases read
        rfl
      · cases read

/-- A gap in a part is a gap of the whole. -/
theorem HasGap.of_mem_children {role part : Role} {node value : Node} (gap : part.HasGap value)
    (member : (part, value) ∈ role.children node) : role.HasGap node := by
  obtain ⟨line, items, reaches, null⟩ := gap
  exact ⟨line, items, .of_child member reaches, null⟩

theorem mem_children_of_mem_parts {role : Role} {node part : Node} (takes : role.takesParts)
    (member : part ∈ node.parts) : (role.item, part) ∈ role.children node := by
  cases node with
  | list line items => exact List.mem_map_of_mem member
  | object line entries =>
    simp only [children, if_pos takes]
    exact List.mem_map_of_mem member
  | _ => cases member

theorem mem_children_of_mem_fieldsOf {role : Role} {line : Nat} {entries : List (Node × Node)}
    (whole : role.takesParts = false) {entry : String × Role}
    (member : entry ∈ role.fieldsOf entries) :
    (entry.2, field entries entry.1) ∈ role.children (.object line entries) := by
  simp only [children, whole]
  exact List.mem_map.mpr ⟨entry, member, rfl⟩

/-- What is read from a node in any role is whole, with gaps only where the document has them. -/
theorem sound_result (role : Role) (node : Node) (allowed : role.HasGap node → gaps = true) :
    role.Sound gaps (role.result node) := by
  induction role, node using induction_on_children with
  | step role node inductionHypothesis =>
    have parts (part : Role) (value : Node) (member : (part, value) ∈ role.children node) :
        part.Sound gaps (part.result value) :=
      inductionHypothesis part value member fun gap => allowed (gap.of_mem_children member)
    have fields (line : Nat) (entries : List (Node × Node)) (isObject : node = .object line entries)
        (whole : role.takesParts = false) : ∀ entry ∈ role.fieldsOf entries,
          entry.2.Sound gaps (entry.2.result (field entries entry.1)) := fun entry member =>
      parts _ _ (isObject ▸ mem_children_of_mem_fieldsOf whole member)
    cases role with
    | document =>
      intro source read
      cases node with
      | object line entries =>
        exact Read.whole_document_object line (fields line entries rfl rfl) source read
      | list line items =>
        simp only [result, Read.moduleOfNode, Read.stmts, toOption_bind, Read.toOption_stmtItems,
          toOption_pure, Option.bind_eq_some_iff, Option.some.injEq] at read
        obtain ⟨values, atValues, rfl⟩ := read
        refine stmts_allWhole_iff.mpr fun value member => ?_
        obtain ⟨item, among, atItem⟩ := exists_of_mem_mapM atValues value member
        exact parts _ _ (List.mem_map_of_mem among) value atItem
      | _ => cases read
    | stmts =>
      refine sound_of_list (by decide) fun line items isList values read => ?_
      subst isList
      simp only [result, Read.stmts, Read.toOption_stmtItems] at read
      refine stmts_allWhole_iff.mpr fun value member => ?_
      obtain ⟨item, among, atItem⟩ := exists_of_mem_mapM read value member
      exact parts _ _ (List.mem_map_of_mem among) value atItem
    | stmt =>
      refine sound_of_object (by decide) fun line entries isObject => ?_
      exact isObject ▸ Read.whole_stmt_object line (fields line entries isObject rfl)
    | exprs =>
      refine sound_of_list (by decide) fun line items isList values read => ?_
      subst isList
      simp only [result, Read.exprs, Read.toOption_exprItems] at read
      refine allWhole_iff.mpr fun value member => ?_
      obtain ⟨item, among, atItem⟩ := exists_of_mem_mapM read value member
      by_cases null : item.isNull
      · have gap : gaps = true := allowed ⟨line, items, .refl _ _, item, among, null⟩
        simp only [listItem?, Read.optional, if_pos null, toOption_ok, Option.some.injEq] at atItem
        exact .inr ⟨gap, atItem ▸ rfl⟩
      · simp only [listItem?, Read.optional, if_neg null] at atItem
        exact .inl (parts _ _ (List.mem_map_of_mem among) value atItem)
    | expr =>
      refine sound_of_object (by decide) fun line entries isObject => ?_
      exact isObject ▸ Read.whole_expr_object line (fields line entries isObject rfl)
    | arguments =>
      refine sound_of_object (by decide) fun line entries isObject => ?_
      exact isObject ▸ Read.whole_params_object line (fields line entries isObject rfl)
    | parameters =>
      intro kind values read param member
      obtain ⟨item, among, atItem⟩ := exists_of_mem_mapM read param member
      cases node with
      | list line items => exact parts _ _ (List.mem_map_of_mem among) kind param atItem
      | object line entries =>
        obtain rfl := List.mem_singleton.mp among
        exact Read.whole_param_object line (fields line entries rfl rfl) kind param atItem
      | _ => cases among
    | parameter =>
      refine sound_of_object (by decide) fun line entries isObject => ?_
      exact isObject ▸ Read.whole_param_object line (fields line entries isObject rfl)
    | defaults =>
      intro values read value member
      obtain ⟨item, among, atItem⟩ := exists_of_mem_mapM read value member
      exact Read.whole_of_optional (parts _ _ (mem_children_of_mem_parts rfl among)) atItem
    | keywords =>
      intro values read
      refine keywordsWhole_iff.mpr fun value member => ?_
      obtain ⟨item, among, atItem⟩ := exists_of_mem_mapM read value member
      exact parts _ _ (mem_children_of_mem_parts rfl among) value atItem
    | keyword =>
      refine sound_of_object (by decide) fun line entries isObject => ?_
      exact isObject ▸ Read.whole_keyword_object line (fields line entries isObject rfl)
    | withItems =>
      intro values read
      refine List.all_eq_true.mpr fun value member => ?_
      obtain ⟨item, among, atItem⟩ := exists_of_mem_mapM read value member
      exact parts _ _ (mem_children_of_mem_parts rfl among) value atItem
    | withItem =>
      refine sound_of_object (by decide) fun line entries isObject => ?_
      exact isObject ▸ Read.whole_withItem_object line (fields line entries isObject rfl)
    | operators | operator | aliases | «alias» | names | text | constant => trivial

end Role

end Oxide
