/-
This file says which parameter gets which default value. The parts of an object of parameters are
lists of parameters, one for each kind, and two lists of values. The values are written to places
in the list of parameters as it grows: those of positional parameters to the last places that there
are by then, those of keyword parameters from the first keyword parameter on. All these places are
there if neither list of values is longer than that of its parameters, and reading succeeds in no
other case.
-/

import Oxide.Proofs.ReadParts
import Oxide.Proofs.ReadResults

namespace Oxide

open Document
open Document.Node (field field?)

/-! ### The lists of a signature -/

/-- Whether the nodes of the parameters of one kind are read as these parameters. -/
def Read.FindsParams (kind : ParamKind) (node : Node) (parameters : List Param) : Prop :=
  List.Forall₂ (fun part parameter => param kind part = .ok parameter) (Role.paramNodes node)
    parameters

/-- The parameters of an object kind by kind, without default values, and the default values that
are listed beside them. -/
structure ParamLists where
  positionalOnly : List Param
  ordinary : List Param
  varArgs : List Param
  keywordOnly : List Param
  keywordArgs : List Param
  defaults : List Expr
  keywordDefaults : List Expr

namespace ParamLists

variable (lists : ParamLists)

/-- The parameters that arguments reach by their positions. -/
def positional : List Param :=
  lists.positionalOnly ++ lists.ordinary

/-- All parameters in the order of a signature. -/
def inOrder : List Param :=
  lists.positional ++ lists.varArgs ++ lists.keywordOnly ++ lists.keywordArgs

/-- Whether there is a parameter for every default value. -/
def Enough : Prop :=
  lists.defaults.length ≤ lists.positional.length ∧
    lists.keywordDefaults.length ≤ lists.keywordOnly.length

instance : Decidable lists.Enough :=
  inferInstanceAs (Decidable (_ ∧ _))

/-- Whether every part of an object can be read, and these lists are what the parts are read as. -/
structure ReadFrom (entries : List (Node × Node)) : Prop where
  typed : (field? entries typeKey).isSome
  positionalOnly : Read.FindsParams .positionalOnly (field entries "posonlyargs")
    lists.positionalOnly
  ordinary : Read.FindsParams .positional (field entries "args") lists.ordinary
  listed : (field entries "defaults").isNull ∨
    ∃ line items, field entries "defaults" = .list line items
  defaults : List.Forall₂ Read.Finds (field entries "defaults").parts lists.defaults
  varArgs : Read.FindsParams .varArgs (field entries "vararg") lists.varArgs
  keywordOnly : Read.FindsParams .keywordOnly (field entries "kwonlyargs") lists.keywordOnly
  keywordDefaults : List.Forall₂ Read.Finds (field entries "kw_defaults").parts
    lists.keywordDefaults
  keywordArgs : Read.FindsParams .keywordArgs (field entries "kwarg") lists.keywordArgs

/-- Whether the parameters are those of the lists, each with the default value that belongs to
it. -/
structure Aligned (parameters : List Param) : Prop where
  order : parameters.map ParamOf.strip = lists.inOrder
  kinds : parameters.map ParamOf.kind =
    List.replicate lists.positionalOnly.length .positionalOnly ++
      List.replicate lists.ordinary.length .positional ++
      List.replicate lists.varArgs.length .varArgs ++
      List.replicate lists.keywordOnly.length .keywordOnly ++
      List.replicate lists.keywordArgs.length .keywordArgs
  plain : ∀ place < lists.positional.length - lists.defaults.length,
    parameters[place]?.map ParamOf.defaultValue = some .absent
  positional : ∀ place < lists.positional.length,
    lists.positional.length - lists.defaults.length ≤ place →
      ∃ value, lists.defaults[place - (lists.positional.length - lists.defaults.length)]? =
        some value ∧ parameters[place]?.map ParamOf.defaultValue = some value
  varArgs : ∀ place < lists.varArgs.length,
    parameters[lists.positional.length + place]?.map ParamOf.defaultValue = some .absent
  keywordOnly : ∀ place < lists.keywordOnly.length,
    parameters[lists.positional.length + lists.varArgs.length + place]?.map
      ParamOf.defaultValue = some (lists.keywordDefaults[place]?.getD .absent)
  keywordArgs : ∀ place < lists.keywordArgs.length,
    parameters[lists.positional.length + lists.varArgs.length + lists.keywordOnly.length +
      place]?.map ParamOf.defaultValue = some .absent

end ParamLists

/-! ### Writing to places -/

/-- Writes default values to the places from the given one on, or nothing if there is no such place
in the list. -/
def setDefaults? (parameters : List Param) (place : Nat) : List Expr → Option (List Param)
  | [] => some parameters
  | value :: rest =>
    if place < parameters.length then
      let written := parameters.modify place fun former => { former with defaultValue := value }
      setDefaults? written (place + 1) rest
    else none

/-- The parameters as they are gathered one list after another, with the default values written to
places that are counted in the list as it is by then. -/
def ParamLists.gathered? (lists : ParamLists) : Option (List Param) := do
  let positional ← setDefaults? lists.positional
    (lists.positional.length - lists.defaults.length) lists.defaults
  let before := positional ++ lists.varArgs
  let named ← setDefaults? (before ++ lists.keywordOnly) before.length lists.keywordDefaults
  return named ++ lists.keywordArgs

namespace Read

/-- Values that are written from the end of a list on go to the first parameters behind it. -/
theorem setDefaults?_append (before parameters : List Param) (values : List Expr) :
    setDefaults? (before ++ parameters) before.length values =
      if values.length ≤ parameters.length then
        some (before ++ withLeadingDefaults parameters values)
      else none := by
  induction values generalizing before parameters with
  | nil => cases parameters <;> rfl
  | cons value rest inductionHypothesis =>
    cases parameters with
    | nil => simp [setDefaults?]
    | cons first others =>
      have inside : before.length < (before ++ first :: others).length := by simp
      have written : (before ++ first :: others).modify before.length
          (fun parameter => { parameter with defaultValue := value }) =
            before ++ [{ first with defaultValue := value }] ++ others := by
        rw [List.modify_eq_set_getElem?]
        simp
      have next := inductionHypothesis (before ++ [{ first with defaultValue := value }]) others
      rw [List.length_append, List.length_singleton] at next
      rw [setDefaults?, if_pos inside, written, next]
      simp [withLeadingDefaults]

theorem zipWith_eq_withLeadingDefaults {parameters : List Param} {values : List Expr}
    (same : parameters.length = values.length) :
    parameters.zipWith (fun param value => { param with defaultValue := value }) values =
      withLeadingDefaults parameters values := by
  induction parameters generalizing values with
  | nil => rfl
  | cons first rest inductionHypothesis =>
    cases values with
    | nil => contradiction
    | cons value others =>
      rw [List.zipWith_cons_cons, withLeadingDefaults, inductionHypothesis (Nat.succ.inj same)]

/-- The last parameters get their default values like the first ones of a list of their own. -/
theorem withDefaults_eq_append {parameters : List Param} {values : List Expr}
    (enough : values.length ≤ parameters.length) :
    withDefaults parameters values =
      parameters.take (parameters.length - values.length) ++
        withLeadingDefaults (parameters.drop (parameters.length - values.length)) values := by
  have same : (parameters.drop (parameters.length - values.length)).length = values.length := by
    rw [List.length_drop]
    omega
  rw [withDefaults, zipWith_eq_withLeadingDefaults same]

/-- Default values are for the last positional parameters, if there are enough. -/
theorem setDefaults?_positional (parameters : List Param) (values : List Expr) :
    setDefaults? parameters (parameters.length - values.length) values =
      if values.length ≤ parameters.length then some (withDefaults parameters values)
      else none := by
  have fewer := Nat.sub_le parameters.length values.length
  have written := setDefaults?_append (parameters.take (parameters.length - values.length))
    (parameters.drop (parameters.length - values.length)) values
  rw [List.take_append_drop, List.length_take_of_le fewer, List.length_drop] at written
  rw [written]
  by_cases enough : values.length ≤ parameters.length
  · rw [if_pos enough, if_pos (by omega), withDefaults_eq_append enough]
  · rw [if_neg enough, if_neg (by omega)]

/-- The lists are put together with their default values if there are not too many of these. -/
theorem gathered?_eq (lists : ParamLists) :
    lists.gathered? =
      if lists.Enough then
        some (withDefaults lists.positional lists.defaults ++ lists.varArgs ++
          withLeadingDefaults lists.keywordOnly lists.keywordDefaults ++ lists.keywordArgs)
      else none := by
  unfold ParamLists.gathered? ParamLists.Enough
  simp only [setDefaults?_positional, setDefaults?_append]
  by_cases positional : lists.defaults.length ≤ lists.positional.length <;>
    by_cases named : lists.keywordDefaults.length ≤ lists.keywordOnly.length <;>
    simp [positional, named]

/-! ### What is read -/

/-- A parameter is read with the kind of its list and without a default value. -/
theorem kind_and_bare_of_param {kind : ParamKind} {node : Node} {parameter : Param}
    (read : param kind node = .ok parameter) :
    parameter.kind = kind ∧ parameter.isBare := by
  have result := toOption_eq_some_iff.mpr read
  cases node with
  | object line entries =>
    cases found : field? entries typeKey with
    | none => simp [param, found] at result
    | some type =>
      simp only [param, found, toOption_bind, toOption_inside, toOption_pure,
        Option.bind_eq_some_iff, Option.some.injEq] at result
      obtain ⟨_, _, rfl⟩ := result
      exact ⟨rfl, rfl⟩
  | _ => simp [param] at result

theorem FindsParams.kind_and_bare {kind : ParamKind} {node : Node} {parameters : List Param}
    (finds : FindsParams kind node parameters) :
    ∀ parameter ∈ parameters, parameter.kind = kind ∧ parameter.isBare := by
  unfold FindsParams at finds
  generalize Role.paramNodes node = nodes at finds
  induction finds with
  | nil => simp
  | cons first _ inductionHypothesis =>
    exact List.forall_mem_cons.mpr ⟨kind_and_bare_of_param first, inductionHypothesis⟩

/-- All parameters of a list have one kind. -/
theorem FindsParams.map_kind {kind : ParamKind} {node : Node} {parameters : List Param}
    (finds : FindsParams kind node parameters) :
    parameters.map ParamOf.kind = List.replicate parameters.length kind :=
  List.map_eq_replicate_iff.mpr fun parameter member => (finds.kind_and_bare parameter member).1

/-- No parameter of a list has a default value yet. -/
theorem FindsParams.map_default {kind : ParamKind} {node : Node} {parameters : List Param}
    (finds : FindsParams kind node parameters) :
    parameters.map ParamOf.defaultValue = List.replicate parameters.length .absent :=
  List.map_eq_replicate_iff.mpr fun parameter member =>
    defaultValue_of_isBare (finds.kind_and_bare parameter member).2

theorem FindsParams.map_strip {kind : ParamKind} {node : Node} {parameters : List Param}
    (finds : FindsParams kind node parameters) : parameters.map ParamOf.strip = parameters :=
  map_strip_of_isBare fun parameter member => (finds.kind_and_bare parameter member).2

/-- The parameters of a list are read one by one. -/
theorem paramItems_of_finds {kind : ParamKind} {entries : List (Node × Node)} {key : String}
    {parameters : List Param} (finds : FindsParams kind (field entries key) parameters) :
    paramItems kind (labelled entries key) = .ok parameters := by
  refine paramItems_of_forall₂ ?_
  rw [map_snd_labelled]
  exact finds

/-- The values of a list are read one by one, where null is the empty list. -/
theorem exprs_of_finds {node : Node} {values : List Expr}
    (listed : node.isNull ∨ ∃ line items, node = .list line items)
    (finds : List.Forall₂ Finds node.parts values) : exprs node = .ok values := by
  obtain null | ⟨line, items, rfl⟩ := listed
  · cases node with
    | scalar line kind text =>
      cases finds
      simp [exprs, null]
    | _ => contradiction
  · rw [exprs]
    exact exprItems_of_finds finds 0

/-- There may be fewer default values than keyword parameters, but not more. -/
theorem toOption_keywordDefaults_of_finds {nodes : List Node} {values : List Expr}
    (finds : List.Forall₂ Finds nodes values) (count : Nat) :
    (keywordDefaults count 0 nodes).toOption =
      if values.length ≤ count then some values else none := by
  have all := toOption_exprItems 0 nodes
  rw [exprItems_of_finds finds, toOption_ok] at all
  rw [toOption_keywordDefaults, ← all, Option.bind_some, Nat.sub_zero]

variable {lists : ParamLists} {entries : List (Node × Node)}

/-- What is read from an object is what its lists make together. -/
theorem toOption_params_of_readFrom (parts : lists.ReadFrom entries) (line : Nat) :
    (params (.object line entries)).toOption = lists.gathered? := by
  obtain ⟨type, found⟩ := Option.isSome_iff_exists.mp parts.typed
  rw [gathered?_eq, params, found]
  simp only [paramItems_of_finds parts.positionalOnly, paramItems_of_finds parts.ordinary,
    paramItems_of_finds parts.varArgs, paramItems_of_finds parts.keywordOnly,
    paramItems_of_finds parts.keywordArgs, exprs_of_finds parts.listed parts.defaults,
    Attempt.inside_ok, Attempt.ok_bind]
  rw [← ParamLists.positional]
  by_cases positional : lists.defaults.length ≤ lists.positional.length
  · rw [if_neg (Nat.not_lt.mpr positional)]
    simp only [toOption_bind, toOption_pure,
      toOption_keywordDefaults_of_finds parts.keywordDefaults]
    by_cases named : lists.keywordDefaults.length ≤ lists.keywordOnly.length
    · rw [if_pos named, if_pos ⟨positional, named⟩, Option.bind_some]
    · rw [if_neg named, if_neg fun enough => named enough.2, Option.bind_none]
  · rw [if_pos (Nat.lt_of_not_le positional), if_neg fun enough => positional enough.1]
    rfl

/-! ### Which value belongs to which parameter -/

theorem map_strip_withLeadingDefaults (parameters : List Param) (values : List Expr) :
    (withLeadingDefaults parameters values).map ParamOf.strip = parameters.map ParamOf.strip := by
  fun_induction withLeadingDefaults parameters values with
  | case1 _ _ _ _ inductionHypothesis =>
    rw [List.map_cons, inductionHypothesis]
    rfl
  | case2 => rfl

/-- The first parameters get the values in their order. -/
theorem map_default_withLeadingDefaults {parameters : List Param} {values : List Expr}
    (enough : values.length ≤ parameters.length) :
    (withLeadingDefaults parameters values).map ParamOf.defaultValue =
      values ++ (parameters.drop values.length).map ParamOf.defaultValue := by
  induction values generalizing parameters with
  | nil => cases parameters <;> rfl
  | cons value rest inductionHypothesis =>
    cases parameters with
    | nil => contradiction
    | cons first others =>
      rw [withLeadingDefaults, List.map_cons, inductionHypothesis (Nat.le_of_succ_le_succ enough)]
      rfl

theorem map_strip_withDefaults {parameters : List Param} {values : List Expr}
    (enough : values.length ≤ parameters.length) :
    (withDefaults parameters values).map ParamOf.strip = parameters.map ParamOf.strip := by
  rw [withDefaults_eq_append enough, List.map_append, map_strip_withLeadingDefaults,
    ← List.map_append, List.take_append_drop]

/-- The last parameters get the values in their order. -/
theorem map_default_withDefaults {parameters : List Param} {values : List Expr}
    (enough : values.length ≤ parameters.length) :
    (withDefaults parameters values).map ParamOf.defaultValue =
      (parameters.take (parameters.length - values.length)).map ParamOf.defaultValue ++ values := by
  have all : (parameters.drop (parameters.length - values.length)).length = values.length := by
    rw [List.length_drop]
    omega
  rw [withDefaults_eq_append enough, List.map_append,
    map_default_withLeadingDefaults (Nat.le_of_eq all.symm), List.drop_of_length_le
    (Nat.le_of_eq all), List.map_nil, List.append_nil]

theorem map_strip_inOrder (parts : lists.ReadFrom entries) :
    lists.inOrder.map ParamOf.strip = lists.inOrder := by
  simp only [ParamLists.inOrder, ParamLists.positional, List.map_append,
    parts.positionalOnly.map_strip, parts.ordinary.map_strip, parts.varArgs.map_strip,
    parts.keywordOnly.map_strip, parts.keywordArgs.map_strip]

/-- The parameters come in the order of their kinds. -/
theorem map_kind_inOrder (parts : lists.ReadFrom entries) :
    lists.inOrder.map ParamOf.kind =
      List.replicate lists.positionalOnly.length .positionalOnly ++
        List.replicate lists.ordinary.length .positional ++
        List.replicate lists.varArgs.length .varArgs ++
        List.replicate lists.keywordOnly.length .keywordOnly ++
        List.replicate lists.keywordArgs.length .keywordArgs := by
  simp only [ParamLists.inOrder, ParamLists.positional, List.map_append,
    parts.positionalOnly.map_kind, parts.ordinary.map_kind, parts.varArgs.map_kind,
    parts.keywordOnly.map_kind, parts.keywordArgs.map_kind]

theorem map_default_positional (parts : lists.ReadFrom entries) :
    lists.positional.map ParamOf.defaultValue =
      List.replicate lists.positional.length .absent := by
  rw [ParamLists.positional, List.map_append, parts.positionalOnly.map_default,
    parts.ordinary.map_default, List.replicate_append_replicate, List.length_append]

/-- The default values of all parameters, those without one among them. -/
theorem map_default_filled (parts : lists.ReadFrom entries) (enough : lists.Enough) :
    (withDefaults lists.positional lists.defaults ++ lists.varArgs ++
        withLeadingDefaults lists.keywordOnly lists.keywordDefaults ++ lists.keywordArgs).map
        ParamOf.defaultValue =
      List.replicate (lists.positional.length - lists.defaults.length) .absent ++
        lists.defaults ++ List.replicate lists.varArgs.length .absent ++
        (lists.keywordDefaults ++
          List.replicate (lists.keywordOnly.length - lists.keywordDefaults.length) .absent) ++
        List.replicate lists.keywordArgs.length .absent := by
  simp only [List.map_append, map_default_withDefaults enough.1,
    map_default_withLeadingDefaults enough.2, List.map_take, List.map_drop,
    map_default_positional parts, parts.varArgs.map_default, parts.keywordOnly.map_default,
    parts.keywordArgs.map_default, List.take_replicate, List.drop_replicate,
    Nat.min_eq_left (Nat.sub_le _ _)]

/-- Default values change nothing else about the parameters. -/
theorem map_strip_filled (parts : lists.ReadFrom entries) (enough : lists.Enough) :
    (withDefaults lists.positional lists.defaults ++ lists.varArgs ++
      withLeadingDefaults lists.keywordOnly lists.keywordDefaults ++ lists.keywordArgs).map
        ParamOf.strip = lists.inOrder := by
  rw [← map_strip_inOrder parts]
  simp only [ParamLists.inOrder, List.map_append, map_strip_withDefaults enough.1,
    map_strip_withLeadingDefaults]

/-- Each default value stands beside the parameter that it is for. -/
theorem aligned_filled (parts : lists.ReadFrom entries) (enough : lists.Enough) :
    lists.Aligned (withDefaults lists.positional lists.defaults ++ lists.varArgs ++
      withLeadingDefaults lists.keywordOnly lists.keywordDefaults ++ lists.keywordArgs) := by
  have stripped := map_strip_filled parts enough
  have values := map_default_filled parts enough
  obtain ⟨forPositional, forKeywords⟩ := enough
  generalize withDefaults lists.positional lists.defaults ++ lists.varArgs ++
    withLeadingDefaults lists.keywordOnly lists.keywordDefaults ++ lists.keywordArgs = parameters
    at stripped values
  constructor
  case order => exact stripped
  case kinds =>
    rw [← map_kind_inOrder parts, ← stripped, List.map_map]
    rfl
  -- What is left only looks up places in the list of all default values.
  all_goals
    clear parts stripped
    intro place inRange
    simp only [← List.getElem?_map, values, List.getElem?_append, List.length_append,
      List.length_replicate, List.getElem?_replicate]
  case positional =>
    intro given
    have listed : place - (lists.positional.length - lists.defaults.length) <
        lists.defaults.length := by omega
    refine ⟨_, List.getElem?_eq_getElem listed, ?_⟩
    grind
  all_goals grind

/-- An object whose parts can be read is read if and only if there are enough parameters for the
default values. The parameters are then those that writing the default values to their places gives,
where no place is out of range, and each of them has the default value that belongs to it. -/
theorem params_aligned (parts : lists.ReadFrom entries) (line : Nat) :
    ((∃ parameters, params (.object line entries) = .ok parameters) ↔ lists.Enough) ∧
      (params (.object line entries)).toOption = lists.gathered? ∧
      ∀ parameters, params (.object line entries) = .ok parameters →
        lists.Aligned parameters := by
  have result := toOption_params_of_readFrom parts line
  have gathered := gathered?_eq lists
  refine ⟨?_, result, ?_⟩
  · simp only [← toOption_eq_some_iff, ← Option.isSome_iff_exists, result, gathered]
    split <;> simpa
  · intro parameters read
    rw [read, toOption_ok, gathered] at result
    by_cases enough : lists.Enough
    · rw [if_pos enough, Option.some.injEq] at result
      exact result ▸ aligned_filled parts enough
    · rw [if_neg enough] at result
      contradiction

/-- Three positional parameters with two default values, and three keyword parameters of which only
the second one has a default value, because the value for the first one is null. -/
theorem params_aligned_of_all_kinds :
    let parameter (name : String) : Node := .typed "arg" [("arg", .quoted name)]
    let number (text : String) : Node := .typed "Constant" [("value", .plain text)]
    let entries := Node.entriesOf "arguments"
      [("posonlyargs", .listed [parameter "a"]), ("args", .listed [parameter "b", parameter "c"]),
        ("defaults", .listed [number "1", number "2"]), ("vararg", parameter "rest"),
        ("kwonlyargs", .listed [parameter "k", parameter "l", parameter "m"]),
        ("kw_defaults", .listed [.nothing, number "3"]), ("kwarg", parameter "named")]
    let bare (name : String) (kind : ParamKind) : Param := ⟨name, kind, .absent, .absent⟩
    let lists : ParamLists :=
      { positionalOnly := [bare "a" .positionalOnly]
        ordinary := [bare "b" .positional, bare "c" .positional]
        varArgs := [bare "rest" .varArgs]
        keywordOnly := [bare "k" .keywordOnly, bare "l" .keywordOnly, bare "m" .keywordOnly]
        keywordArgs := [bare "named" .keywordArgs]
        defaults := [.constant (.int "1"), .constant (.int "2")]
        keywordDefaults := [.absent, .constant (.int "3")] }
    lists.ReadFrom entries ∧
      ((∃ parameters, params (.object 1 entries) = .ok parameters) ↔ lists.Enough) ∧
      (params (.object 1 entries)).toOption = lists.gathered? ∧
      ∀ parameters, params (.object 1 entries) = .ok parameters →
        lists.Aligned parameters := by
  intro parameter number entries bare lists
  have named (kind : ParamKind) (name : String) :
      param kind (parameter name) = .ok (bare name kind) := by
    simp [parameter, bare, Node.typed, Node.entriesOf, Node.quoted, param, field?, field, text,
      typeKey, optional, Node.isNull, Node.null, Node.text]
  have counted (text : String) (isInt : Tag.ofPlain text = .int) :
      Finds (number text) (.constant (.int text)) := by
    simp [number, Finds, Node.typed, Node.entriesOf, Node.quoted, Node.plain, isInt, expr, field?,
      field, typeKey, optional, Node.isNull, Node.text, constant]
  have nothing : Finds .nothing .absent := rfl
  have parts : lists.ReadFrom entries :=
    { typed := rfl
      positionalOnly := .cons (named _ _) .nil
      ordinary := .cons (named _ _) (.cons (named _ _) .nil)
      listed := .inr ⟨0, _, rfl⟩
      defaults := .cons (counted "1" (by decide +kernel))
        (.cons (counted "2" (by decide +kernel)) .nil)
      varArgs := .cons (named _ _) .nil
      keywordOnly := .cons (named _ _) (.cons (named _ _) (.cons (named _ _) .nil))
      keywordDefaults := .cons nothing (.cons (counted "3" (by decide +kernel)) .nil)
      keywordArgs := .cons (named _ _) .nil }
  exact ⟨parts, params_aligned parts 1⟩

end Read

end Oxide
