/-
This file proves that the settings for documentation and for the runtime library are independent of
each other and of everything else. Neither of them can make a module fail or be lowered. Leaving out
the documentation only empties documentation texts, which takes whole comment lines from the text,
and using the runtime library only puts one line in front of it.
-/

import Oxide.Proofs.CommentLines
import Oxide.Proofs.DefinitionOrder

namespace Oxide

open Attempt Text

/-! ### Attempts with a changed result -/

namespace Lower

variable {silent : Bool}

theorem inside_map (place : String) (attempt : Lowering Stream) :
    inside place (Stream.emptied silent <$> attempt) =
      Stream.emptied silent <$> inside place attempt := by
  cases attempt with
  | error failure => rfl
  | ok stream => rfl

/-- An attempt whose result is emptied, before one that is emptied if the first one is. -/
theorem bind_map {attempt : Lowering Stream} {next silentNext : Stream → Lowering Stream}
    (each : ∀ stream, attempt = .ok stream →
      silentNext (stream.emptied silent) = Stream.emptied silent <$> next stream) :
    (Stream.emptied silent <$> attempt) >>= silentNext =
      Stream.emptied silent <$> (attempt >>= next) := by
  cases attempt with
  | error failure => rfl
  | ok stream => exact each stream rfl

/-- An attempt that has nothing to empty, before one that is emptied. -/
theorem bind_congr_map {Value : Type} {attempt : Lowering Value}
    {next silentNext : Value → Lowering Stream}
    (each : ∀ value, attempt = .ok value →
      silentNext value = Stream.emptied silent <$> next value) :
    attempt >>= silentNext = Stream.emptied silent <$> (attempt >>= next) := by
  cases attempt with
  | error failure => rfl
  | ok value => exact each value rfl

theorem pure_eq_map {plain full : Stream} (equal : plain = full.emptied silent) :
    (pure plain : Lowering Stream) = Stream.emptied silent <$> pure full :=
  congrArg Except.ok equal

/-- Without documentation there is nothing to empty. -/
theorem map_eq_self {attempt : Lowering Stream}
    (woven : ∀ stream, attempt = .ok stream → Woven stream) :
    Stream.emptied silent <$> attempt = attempt := by
  cases attempt with
  | error failure => rfl
  | ok stream => exact congrArg Except.ok (Stream.emptied_of_woven (woven stream rfl))

/-! ### Settings that differ in the documentation -/

/-- Whether settings write the same types, and the second ones leave out the documentation where
the first ones do, and everywhere if that is asked for. -/
structure Alike (silent : Bool) (first second : Options) : Prop where
  object : second.object = first.object
  docs : second.noDocstrings = (first.noDocstrings || silent)

variable {first second : Options}

theorem paramList_eq (alike : Alike silent first second) (number : Nat)
    (parameters : List Param) :
    paramList second number parameters = paramList first number parameters := by
  induction parameters generalizing number with
  | nil => rfl
  | cons parameter rest inductionHypothesis =>
    rw [paramList, paramList, inductionHypothesis, param, param, alike.object]

/-- The parameters of a function do not depend on these settings. -/
theorem params_eq (alike : Alike silent first second) (parameters : List Param) :
    params second parameters = params first parameters := by
  rw [params, params, paramList_eq alike]

theorem result_eq (alike : Alike silent first second) (returns : Expr) :
    result second returns = result first returns := by
  rw [result, result, alike.object]

theorem tokens_eq (alike : Alike silent first second) (declaration : Declaration) :
    declaration.tokens second = declaration.tokens first := by
  rw [Declaration.tokens, Declaration.tokens, alike.object]

/-- The declarations in front of a body are woven. -/
theorem woven_declarations (options : Options) (front : List Declaration) :
    Woven (front.flatMap (Declaration.tokens options)) :=
  front_induction .nil (fun name type? => (woven_newVariable name type?).punct ";") .append options
    front

/-- The head of a function differs in its documentation only. -/
theorem head_eq (alike : Alike silent first second) (context : Context)
    (definition : FunctionDef) {clause output : Stream} (clauseWoven : Woven clause)
    (outputWoven : Woven output) :
    head context second definition clause output =
      (head context first definition clause output).emptied silent := by
  obtain ⟨opened, woven, equal⟩ := exists_head_eq context definition clauseWoven outputWoven
  have doc : Stream.doc [] (writtenDoc second definition) =
      (Stream.doc [] (writtenDoc first definition)).emptied silent := by
    rw [writtenDoc, alike.docs, writtenDoc]
    cases first.noDocstrings <;> cases silent <;> rfl
  rw [equal, equal, Stream.emptied_append, Stream.emptied_of_woven woven, doc]

/-- A simple statement does not depend on these settings. -/
theorem stmt_eq_of_isSimple (alike : Alike silent first second) {value : Stmt}
    (simple : isSimple value) (context : Context) (table : Table) :
    stmt second value context table = Stream.emptied silent <$> stmt first value context table := by
  have same : stmt second value context table = stmt first value context table := by
    cases value with
    | functionDef => cases simple
    | asyncFunctionDef => cases simple
    | ifElse => cases simple
    | whileLoop => cases simple
    | forLoop => cases simple
    | annAssign => rw [stmt, stmt, annAssign, annAssign, alike.object]
    | _ => rw [stmt, stmt]
  rw [same, map_eq_self fun stream lowered => ?_]
  exact (laid_emits (emits_of_stmt _ _ _ _ lowered)).2 simple

mutual

/-- A statement differs in its documentation only, by induction over the statement. -/
theorem stmt_eq (alike : Alike silent first second) : (value : Stmt) → (context : Context) →
    (table : Table) →
    stmt second value context table = Stream.emptied silent <$> stmt first value context table
  | .functionDef definition, context, table => by
    rw [stmt, stmt, function_eq alike definition context table]
  | .asyncFunctionDef definition, context, table => by
    rw [stmt, stmt, function_eq alike definition _ table]
  | .ifElse test body orelse, context, table => by
    rw [stmt, stmt, block_eq alike 0 body context _, firstOf_eq alike orelse context table,
      block_eq alike 0 orelse context _, inside_map, inside_map, inside_map]
    refine bind_congr_map fun condition tested => bind_map fun inner _ => ?_
    have opened : Stream.emptied silent (Stream.keyword [] "if" ++ condition) = _ :=
      Stream.emptied_of_woven ((Woven.keyword .nil "if").append
        (woven_expr (inside_eq_ok.mp tested)))
    split
    · exact pure_eq_map (by rw [Stream.emptied_braced, opened])
    split
    · refine bind_map fun further _ => pure_eq_map ?_
      rw [Stream.emptied_append, Stream.emptied_keyword, Stream.emptied_braced, opened]
    · refine bind_map fun other _ => pure_eq_map ?_
      rw [Stream.emptied_braced, Stream.emptied_keyword, Stream.emptied_braced, opened]
  | .whileLoop test body orelse, context, table => by
    rw [stmt, stmt, block_eq alike 0 body context _, inside_map]
    split
    · rfl
    refine bind_map fun inner _ => ?_
    split
    · have opened : Stream.emptied silent (Stream.keyword [] "loop") = _ :=
        Stream.emptied_of_woven (.keyword .nil "loop")
      exact pure_eq_map (by rw [Stream.emptied_braced, opened])
    · refine bind_congr_map fun condition tested => pure_eq_map ?_
      have opened : Stream.emptied silent (Stream.keyword [] "while" ++ condition) = _ :=
        Stream.emptied_of_woven ((Woven.keyword .nil "while").append
          (woven_expr (inside_eq_ok.mp tested)))
      rw [Stream.emptied_braced, opened]
  | .forLoop place iter body orelse, context, table => by
    rw [stmt, stmt, block_eq alike 0 body context _, inside_map]
    split
    · rfl
    refine bind_congr_map fun pattern placed => bind_congr_map fun items lowered => ?_
    refine bind_map fun inner _ => pure_eq_map ?_
    obtain ⟨names, loopPlace⟩ := loopPlace_of_loopTarget placed
    have opened : Stream.emptied silent ((Stream.keyword [] "for" ++ pattern).keyword "in" ++ items)
        = _ :=
      Stream.emptied_of_woven ((((Woven.keyword .nil "for").append
        (woven_loopPlace loopPlace)).keyword "in").append (woven_expr (inside_eq_ok.mp lowered)))
    rw [Stream.emptied_braced, opened]
  | .absent, context, table => stmt_eq_of_isSimple alike rfl context table
  | .expr value, context, table => stmt_eq_of_isSimple alike rfl context table
  | .assign targets value, context, table => stmt_eq_of_isSimple alike rfl context table
  | .augAssign place op value, context, table => stmt_eq_of_isSimple alike rfl context table
  | .annAssign place hint value, context, table => stmt_eq_of_isSimple alike rfl context table
  | .ret value, context, table => stmt_eq_of_isSimple alike rfl context table
  | .pass, context, table => stmt_eq_of_isSimple alike rfl context table
  | .breakLoop, context, table => stmt_eq_of_isSimple alike rfl context table
  | .continueLoop, context, table => stmt_eq_of_isSimple alike rfl context table
  | .raise exc, context, table => stmt_eq_of_isSimple alike rfl context table
  | .assert test message, context, table => stmt_eq_of_isSimple alike rfl context table
  | .classDef name body, context, table => stmt_eq_of_isSimple alike rfl context table
  | .importNames names, context, table => stmt_eq_of_isSimple alike rfl context table
  | .importFrom origin names, context, table => stmt_eq_of_isSimple alike rfl context table
  | .globalNames names, context, table => stmt_eq_of_isSimple alike rfl context table
  | .nonlocalNames names, context, table => stmt_eq_of_isSimple alike rfl context table
  | .delete targets, context, table => stmt_eq_of_isSimple alike rfl context table
  | .tryBlock body orelse finalbody, context, table => stmt_eq_of_isSimple alike rfl context table
  | .withBlock items body, context, table => stmt_eq_of_isSimple alike rfl context table

theorem block_eq (alike : Alike silent first second) : (number : Nat) → (body : List Stmt) →
    (context : Context) → (table : Table) →
    block second number body context table =
      Stream.emptied silent <$> block first number body context table
  | number, [], context, table => by
    rw [block, block]
    rfl
  | number, value :: rest, context, table => by
    rw [block, block, stmt_eq alike value context table,
      block_eq alike (number + 1) rest context _, inside_map]
    refine bind_map fun stream _ => bind_map fun later _ => pure_eq_map ?_
    rw [Stream.emptied_append, Stream.emptied_punct]

theorem firstOf_eq (alike : Alike silent first second) : (body : List Stmt) →
    (context : Context) → (table : Table) →
    firstOf second body context table = Stream.emptied silent <$> firstOf first body context table
  | [], context, table => by
    rw [firstOf, firstOf]
    rfl
  | value :: rest, context, table => by
    rw [firstOf, firstOf, stmt_eq alike value context table]

theorem function_eq (alike : Alike silent first second) : (definition : FunctionOf Stmt) →
    (context : Context) → (table : Table) →
    function second definition context table =
      Stream.emptied silent <$> function first definition context table
  | ⟨name, parameters, body, decorators, returns⟩, context, table => by
    have tokens : Declaration.tokens second = Declaration.tokens first :=
      funext (tokens_eq alike)
    simp only [function, params_eq alike, result_eq alike, tokens,
      block_eq alike 0 body context _, inside_map]
    split
    · rfl
    refine bind_congr_map fun clause clauseLowered => ?_
    refine bind_congr_map fun output outputLowered => bind_map fun inner _ => pure_eq_map ?_
    rw [Stream.emptied_braced, Stream.emptied_append,
      Stream.emptied_of_woven (woven_declarations first _), head_eq alike context _
        (woven_params (inside_eq_ok.mp clauseLowered)) (woven_result outputLowered)]

end

/-! ### Modules -/

theorem top_eq (alike : Alike silent first second) (table : Table) (value : Stmt) :
    top second table value = Stream.emptied silent <$> top first table value := by
  unfold top
  split
  · exact function_eq alike _ _ _
  · rfl

theorem functions_eq (alike : Alike silent first second) (table : Table) (number : Nat)
    (body : List Stmt) :
    functions second table number body =
      Stream.emptied silent <$> functions first table number body := by
  induction body generalizing number with
  | nil => rfl
  | cons value rest inductionHypothesis =>
    rw [functions_cons, functions_cons, top_eq alike, inductionHypothesis, inside_map]
    refine bind_map fun stream _ => bind_map fun later _ => pure_eq_map ?_
    rw [Stream.emptied_append]

/-- What a module is lowered to behind the line for the runtime library. -/
def moduleItems (options : Options) (table : Table) (source : Module) : Lowering Stream := do
  let table := registerAll table source.body
  let main := source.body.flatMap mainPart
  let stream ← functions options table 0 source.body
  if main.isEmpty then return stream
  else if (table.lookupLocal mainName).isSome then Attempt.fail (.mainTaken mainName)
  else
    let later ← inside "top level statements"
      (function options (mainFunction main) (.sync mainName) (register table (mainFunction main)))
    return stream ++ later

/-- A module is its items behind the line for the runtime. -/
theorem module_snd_eq (options : Options) (table : Table) (source : Module) :
    (module options table source).2 =
      (runtimeLine options ++ ·) <$> moduleItems options table source := by
  simp only [module, moduleItems]
  cases functions options (registerAll table source.body) 0 source.body with
  | error failure => rfl
  | ok stream =>
    simp only [bind, Except.bind]
    split
    · rfl
    split
    · rfl
    simp only
    generalize inside "top level statements" _ = later
    cases later with
    | error failure => rfl
    | ok later => exact congrArg Except.ok (List.append_assoc _ _ _)

theorem moduleItems_eq (alike : Alike silent first second) (table : Table) (source : Module) :
    moduleItems second table source = Stream.emptied silent <$> moduleItems first table source := by
  simp only [moduleItems, functions_eq alike, function_eq alike, inside_map]
  refine bind_map fun stream _ => ?_
  split
  · rfl
  split
  · rfl
  · refine bind_map fun later _ => pure_eq_map ?_
    rw [Stream.emptied_append]

theorem module_fst_eq (alike : Alike silent first second) (table : Table) (source : Module) :
    (module second table source).1 = (module first table source).1 := by
  simp only [module, functions_eq alike]
  cases functions first (registerAll table source.body) 0 source.body with
  | error failure => rfl
  | ok stream =>
    simp only [Functor.map, Except.map]
    split
    · rfl
    split <;> rfl

end Lower

/-! ### The line for the runtime library -/

namespace Text

theorem utf8_append (first second : String) :
    utf8 (first ++ second) = utf8 first ++ utf8 second := by
  rw [utf8, String.toList_append, List.flatMap_append]
  rfl

end Text

namespace Layout

/-- The token before does not matter where a line begins. -/
theorem Lays.of_fresh {depth : Nat} {previous other : Token} {stream : Stream} {text : Bytes}
    (lays : Lays depth true previous stream text) : Lays depth true other stream text := by
  cases lays with
  | done => exact .done
  | comment role later => exact .comment role later
  | opening role later => exact .opening role later
  | closing role kept later => exact .closing role kept later
  | closingDropping role dropped later => exact .closingDropping role dropped later
  | terminator role later => exact .terminator role later
  | word role later => exact .word role later

/-- An opening brace does not stay without text. -/
theorem Lays.ne_nil_of_mem {depth : Nat} {fresh : Bool} {previous token : Token}
    {stream : Stream} {text : Bytes} (lays : Lays depth fresh previous stream text)
    (member : token ∈ stream) (isOpening : token.isPunct openBrace) : text ≠ [] := by
  have role := roleOf_eq_opening.mpr isOpening
  induction lays with
  | done => cases member
  | comment isComment _ inductionHypothesis =>
    rcases List.mem_cons.mp member with rfl | later
    · cases role.symm.trans isComment
    · exact List.append_ne_nil_of_right_ne_nil _ (inductionHypothesis later)
  | opening => simp [newline]
  | closing isClosing =>
    have text := (kind_text_of_isPunct (roleOf_eq_closing.mp isClosing)).2
    simp [text, utf8, closeBrace]
  | closingDropping isClosing =>
    have text := (kind_text_of_isPunct (roleOf_eq_closing.mp isClosing)).2
    simp [text, utf8, closeBrace]
  | terminator => simp [newline]
  | word isWord _ inductionHypothesis =>
    rcases List.mem_cons.mp member with rfl | later
    · cases role.symm.trans isWord
    · exact List.append_ne_nil_of_right_ne_nil _ (inductionHypothesis later)

/-- The line that uses everything of the runtime library. -/
def useLine (options : Options) : Bytes :=
  utf8 ("use " ++ identName options.runtime ++ "::*;") ++ newline

/-- The line for the runtime is laid out by itself, with a blank line behind it. -/
theorem lays_runtimeLine {options : Options} (used : options.useRuntime) {stream : Stream}
    {text : Bytes} (lays : Lays 0 true default stream text) :
    Lays 0 true default (Lower.runtimeLine options ++ stream)
      (useLine options ++ separation 0 stream ++ text) := by
  have tokens : Lower.runtimeLine options =
      [{ kind := .keyword, text := "use" },
        { kind := .ident, text := identName options.runtime, joint := true },
        { kind := .punct, text := "::", joint := true },
        { kind := .punct, text := "*", joint := true }, { kind := .punct, text := ";" }] := by
    rw [Lower.runtimeLine, if_pos used]
    rfl
  have spelled : useLine options ++ separation 0 stream ++ text =
      indent 0 ++ utf8 "use" ++ (space ++ utf8 (identName options.runtime) ++ ([] ++ utf8 "::" ++
        ([] ++ utf8 "*" ++ ([] ++ utf8 ";" ++ (newline ++ separation 0 stream ++ text))))) := by
    have opening : utf8 "use " = indent 0 ++ utf8 "use" ++ space := by decide
    have ending : utf8 "::*;" = utf8 "::" ++ utf8 "*" ++ utf8 ";" := by decide
    simp only [useLine, utf8_append, opening, ending, List.append_assoc, List.nil_append]
  rw [tokens, spelled]
  exact .word rfl (.word rfl (.word rfl (.word rfl (.terminator rfl lays.of_fresh))))

end Layout

/-! ### The text of a module -/

/-- The same settings with the choices for the documentation and for the runtime library. -/
def Options.choosing (options : Options) (silent runtime : Bool) : Options :=
  { options with noDocstrings := silent, useRuntime := runtime }

namespace Program

variable {options : Options} {source : Module}

/-- A module is rendered if its items are lowered and laid out. -/
theorem render_of_items {items : Stream} {text : Bytes}
    (lowered : Lower.moduleItems options Table.new source = .ok items)
    (laid : Layout.layout (Lower.runtimeLine options ++ items) = .ok text) :
    (render options source).2 = .ok text := by
  simp only [render, Lower.module_snd_eq, lowered, Functor.map, Except.map, Attempt.widen, bind,
    Except.bind, laid, Attempt.ofExcept, Attempt.inside]

/-- A module that is not lowered is not rendered, for the same reason. -/
theorem render_of_error {cause : Failure LowerFault}
    (failed : Lower.moduleItems options Table.new source = .error cause) :
    (render options source).2 = .error (cause.widen .lowering) := by
  simp only [render, Lower.module_snd_eq, failed, Functor.map, Except.map, Attempt.widen, bind,
    Except.bind]

/-- What is lowered can be laid out, and the neighbours in it fit. -/
theorem exists_layout_of_items {items : Stream}
    (lowered : Lower.moduleItems options Table.new source = .ok items) :
    Lined (Lower.runtimeLine options ++ items) ∧
      ∃ text, Layout.layout (Lower.runtimeLine options ++ items) = .ok text := by
  have whole : (Lower.module options Table.new source).2 =
      .ok (Lower.runtimeLine options ++ items) := by
    rw [Lower.module_snd_eq, lowered]
    rfl
  exact ⟨Lower.lined_module whole, Layout.layout_of_matched (Lower.matched_module whole)⟩

theorem moduleItems_choosing (silent runtime : Bool) :
    Lower.moduleItems (options.choosing silent runtime) Table.new source =
      Stream.emptied silent <$>
        Lower.moduleItems (options.choosing false false) Table.new source :=
  have alike : Lower.Alike silent (options.choosing false false)
    (options.choosing silent runtime) := ⟨rfl, rfl⟩
  Lower.moduleItems_eq alike Table.new source

/-- A module whose stream is not empty opens a block. -/
theorem exists_brace_of_items {silent : Bool} {items : Stream}
    (lowered : Lower.moduleItems (options.choosing silent false) Table.new source = .ok items)
    (nonempty : items ≠ []) : ∃ token ∈ items, token.isPunct openBrace := by
  have whole : (Lower.module (options.choosing silent false) Table.new source).2 = .ok items := by
    rw [Lower.module_snd_eq, lowered]
    rfl
  obtain ⟨streams, itemsLowered, equal⟩ := Lower.module_of_ok whole
  obtain _ | ⟨first, rest⟩ := streams
  · exact absurd equal nonempty
  obtain ⟨item, _, itemLowered⟩ := Lower.exists_item_of_mem itemsLowered List.mem_cons_self
  cases Lower.emits_of_function _ _ _ _ itemLowered with
  | function =>
    refine ⟨{ kind := .punct, text := openBrace }, ?_, rfl⟩
    rw [equal]
    simp [Lower.runtimeLine, Options.choosing, Lower.braced, Stream.group, Stream.punct]

/-- The text of a module is empty exactly if its stream is. -/
theorem separation_eq {silent : Bool} {items : Stream} {text : Bytes}
    (lowered : Lower.moduleItems (options.choosing silent false) Table.new source = .ok items)
    (lays : Layout.Lays 0 true default items text) :
    Layout.separation 0 items = if text.isEmpty then [] else Layout.newline := by
  obtain rfl | nonempty := eq_or_ne items []
  · cases lays
    rfl
  · obtain ⟨token, member, isOpening⟩ := exists_brace_of_items lowered nonempty
    have written := lays.ne_nil_of_mem member isOpening
    simp [Layout.separation, nonempty, written]

/-- With any choices, a module fails as it does with the usual ones, or it is lowered to the same
items with their documentation emptied. -/
theorem items_or_failure (options : Options) (source : Module) :
    (∃ failure, ∀ silent runtime,
      (render (options.choosing silent runtime) source).2 = .error failure) ∨
    ∃ items : Stream, ∀ silent runtime, Lower.moduleItems (options.choosing silent runtime)
      Table.new source = .ok (items.emptied silent) := by
  cases base : Lower.moduleItems (options.choosing false false) Table.new source with
  | error cause =>
    refine .inl ⟨cause.widen .lowering, fun silent runtime => render_of_error ?_⟩
    rw [moduleItems_choosing, base]
    rfl
  | ok items =>
    refine .inr ⟨items, fun silent runtime => ?_⟩
    rw [moduleItems_choosing, base]
    rfl

/-- The table of symbols does not depend on these settings. -/
theorem render_fst_choosing (silent runtime otherSilent otherRuntime : Bool) :
    (render (options.choosing silent runtime) source).1 =
      (render (options.choosing otherSilent otherRuntime) source).1 := by
  have usual (silent runtime : Bool) : (render (options.choosing silent runtime) source).1 =
      (render (options.choosing false false) source).1 :=
    have alike : Lower.Alike silent (options.choosing false false)
      (options.choosing silent runtime) := ⟨rfl, rfl⟩
    Lower.module_fst_eq alike Table.new source
  exact (usual silent runtime).trans (usual otherSilent otherRuntime).symm

/-- A failure does not depend on these settings. -/
theorem render_error_choosing {silent runtime : Bool} (otherSilent otherRuntime : Bool)
    {failure : Failure ProgramFault}
    (failed : (render (options.choosing silent runtime) source).2 = .error failure) :
    (render (options.choosing otherSilent otherRuntime) source).2 = .error failure := by
  obtain ⟨cause, all⟩ | ⟨items, lowered⟩ := items_or_failure options source
  · rw [all] at failed ⊢
    exact failed
  · obtain ⟨_, text, laid⟩ := exists_layout_of_items (lowered silent runtime)
    cases (render_of_items (lowered silent runtime) laid).symm.trans failed

/-- Documentation only adds comments to the text. -/
theorem exists_annotated {runtime : Bool} {full : Bytes}
    (written : (render (options.choosing false runtime) source).2 = .ok full) :
    ∃ plain, (render (options.choosing true runtime) source).2 = .ok plain ∧
      Annotated true plain full := by
  obtain ⟨cause, all⟩ | ⟨items, lowered⟩ := items_or_failure options source
  · cases (all false runtime).symm.trans written
  obtain ⟨lined, text, laid⟩ := exists_layout_of_items (lowered false runtime)
  obtain rfl : full = text :=
    Except.ok.inj (written.symm.trans (render_of_items (lowered false runtime) laid))
  rw [Stream.emptied_false] at laid lined
  -- The stream without documentation is the emptied one, line for the runtime library included.
  obtain ⟨plain, lays, annotated⟩ := Layout.exists_lays_emptied ⟨fun _ _ _ => rfl, lined.chain⟩
    (fun _ => rfl) (Layout.layout_eq_ok_iff.mp laid)
  rw [Stream.emptied_append, Stream.emptied_of_woven Lower.woven_runtimeLine] at lays
  exact ⟨plain, render_of_items (lowered true runtime) (Layout.layout_eq_ok_iff.mpr lays),
    annotated⟩

/-- The runtime only adds its line to the text. -/
theorem render_with_runtime {silent : Bool} {rest : Bytes}
    (written : (render (options.choosing silent false) source).2 = .ok rest) :
    (render (options.choosing silent true) source).2 =
      .ok (Layout.useLine options ++ (if rest.isEmpty then [] else Layout.newline) ++ rest) := by
  obtain ⟨cause, all⟩ | ⟨items, lowered⟩ := items_or_failure options source
  · cases (all silent false).symm.trans written
  obtain ⟨_, text, laid⟩ := exists_layout_of_items (lowered silent false)
  obtain rfl : rest = text :=
    Except.ok.inj (written.symm.trans (render_of_items (lowered silent false) laid))
  have lays := Layout.layout_eq_ok_iff.mp laid
  rw [← separation_eq (lowered silent false) lays]
  exact render_of_items (lowered silent true)
    (Layout.layout_eq_ok_iff.mpr (Layout.lays_runtimeLine rfl lays))

/-- The settings for documentation and for the runtime library change neither the table nor whether
and why a module fails. Documentation adds nothing but whole comment lines to the text, and the
runtime library nothing but its line in front, with an empty line behind it unless nothing
follows. -/
theorem render_settings_independent (options : Options) (source : Module) :
    (∀ silent runtime otherSilent otherRuntime,
      (render (options.choosing silent runtime) source).1 =
          (render (options.choosing otherSilent otherRuntime) source).1 ∧
        ∀ failure, (render (options.choosing silent runtime) source).2 = .error failure →
          (render (options.choosing otherSilent otherRuntime) source).2 = .error failure) ∧
    (∀ runtime full, (render (options.choosing false runtime) source).2 = .ok full →
      ∃ plain, (render (options.choosing true runtime) source).2 = .ok plain ∧
        Annotated true plain full) ∧
    ∀ silent rest, (render (options.choosing silent false) source).2 = .ok rest →
      (render (options.choosing silent true) source).2 =
        .ok (Layout.useLine options ++ (if rest.isEmpty then [] else Layout.newline) ++ rest) := by
  refine ⟨fun silent runtime otherSilent otherRuntime => ⟨?_, fun failure failed => ?_⟩,
    fun runtime full written => ?_, fun silent rest written => ?_⟩
  · exact render_fst_choosing silent runtime otherSilent otherRuntime
  · exact render_error_choosing otherSilent otherRuntime failed
  · exact exists_annotated written
  · exact render_with_runtime written

end Program

end Oxide
