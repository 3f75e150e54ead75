/-
This file says once what the lowering of statements, blocks and functions emits. `Emits` has one
rule for each way in which a lowering can succeed, with the conditions under which it applies, the
tables that the parts are lowered with, and the stream that is put together. Everything that
succeeds is derived by these rules, so what holds of all streams that are written is proved by
induction over the derivations.
-/

import Oxide.Lower.Module
import Oxide.Proofs.ExprEmission

namespace Oxide.Lower

open Attempt

/-! ### Places -/

/-- Where all items are names, they are these names. -/
theorem namesOf?_eq_some {items : List Expr} {names : List String}
    (all : namesOf? items = some names) : items = names.map Expr.name := by
  induction items generalizing names with
  | nil =>
    cases all
    rfl
  | cons item rest inductionHypothesis =>
    cases item with
    | name id =>
      obtain ⟨later, restAll, rfl⟩ := Option.map_eq_some_iff.mp all
      rw [inductionHypothesis restAll, List.map_cons]
    | _ => cases all

/-- What the target of an assignment emits. -/
inductive Place (context : Context) (table : Table) (type? : Option Ty) : Expr → Stream → Prop where
  | bound (id : String) (bound : isBound table id) :
      Place context table type? (.name id) (Stream.ident [] id)
  | fresh (id : String) (fresh : ¬ isBound table id) :
      Place context table type? (.name id) (newVariable id type?)
  | boundTuple (names : List String) (bound : ∀ id ∈ names, isBound table id) :
      Place context table type? (.tuple (names.map .name)) (parenthesized (boundPattern names))
  | freshTuple (names : List String) (nonempty : names ≠ [])
      (fresh : ∀ id ∈ names, ¬ isBound table id) :
      Place context table type? (.tuple (names.map .name))
        ((Stream.keyword [] "let").group "(" ")" (Stream.join (freshPattern names)))
  | field (value : Expr) (attr : String) (stream : Stream)
      (lowered : expr context table (.attribute value attr) = .ok stream) :
      Place context table type? (.attribute value attr) stream
  | subscript (value slice : Expr) (stream : Stream)
      (lowered : expr context table (.subscript value slice) = .ok stream) :
      Place context table type? (.subscript value slice) stream

/-- A target that is lowered is a place. -/
theorem place_of_target {context : Context} {table : Table} {type? : Option Ty} {place : Expr}
    {stream : Stream} (lowered : target context table type? place = .ok stream) :
    Place context table type? place stream := by
  cases place with
  | name id =>
    rw [target] at lowered
    cases lowered
    by_cases bound : isBound table id
    · rw [if_pos bound]
      exact .bound id bound
    · rw [if_neg bound]
      exact .fresh id bound
  | tuple items =>
    rw [target, unpacking] at lowered
    cases all : namesOf? items with
    | none =>
      rw [all] at lowered
      exact absurd lowered unsupportedExpr_ne_ok
    | some names =>
      simp only [all] at lowered
      obtain rfl := namesOf?_eq_some all
      by_cases bound : names.all (isBound table)
      · rw [if_pos bound] at lowered
        cases lowered
        exact .boundTuple names (List.all_eq_true.mp bound)
      rw [if_neg bound] at lowered
      by_cases mixed : names.any (isBound table)
      · rw [if_pos mixed] at lowered
        exact absurd lowered unsupportedExpr_ne_ok
      rw [if_neg mixed] at lowered
      cases lowered
      have fresh : ∀ id ∈ names, ¬ isBound table id := fun id member bound =>
        mixed (List.any_eq_true.mpr ⟨id, member, bound⟩)
      refine .freshTuple names ?_ fresh
      rintro rfl
      exact bound rfl
  | «attribute» value attr => exact .field value attr stream lowered
  | subscript value slice => exact .subscript value slice stream lowered
  | _ => exact absurd lowered unsupportedExpr_ne_ok

/-- The names that a loop binds, and the pattern for them. -/
inductive LoopPlace : Expr → List String → Stream → Prop where
  | single (id : String) : LoopPlace (.name id) [id] (Stream.ident [] id)
  | several (names : List String) :
      LoopPlace (.tuple (names.map .name)) names (parenthesized (boundPattern names))

/-- The target of a loop that is lowered is a name or a tuple of names. -/
theorem loopPlace_of_loopTarget {place : Expr} {pattern : Stream}
    (lowered : loopTarget place = .ok pattern) : ∃ names, LoopPlace place names pattern := by
  cases place with
  | name id =>
    cases lowered
    exact ⟨[id], .single id⟩
  | tuple items =>
    rw [loopTarget] at lowered
    cases all : namesOf? items with
    | none =>
      rw [all] at lowered
      exact absurd lowered unsupportedExpr_ne_ok
    | some names =>
      rw [all] at lowered
      obtain rfl := namesOf?_eq_some all
      cases lowered
      exact ⟨names, .several names⟩
  | _ => exact absurd lowered unsupportedExpr_ne_ok

/-! ### Functions -/

/-- A parameter with its type. -/
def typedParam (name : String) (type : Ty) : Stream :=
  type.emit (Stream.punct (Stream.join (Stream.ident [] name)) ":")

/-- A parameter that is lowered has a type. -/
theorem exists_typedParam {options : Options} {parameter : Param} {stream : Stream}
    (lowered : param options parameter = .ok stream) :
    ∃ type, stream = typedParam parameter.name type := by
  simp only [param] at lowered
  split at lowered
  · exact absurd lowered unsupportedExpr_ne_ok
  split at lowered
  · exact absurd lowered fail_ne_ok
  split at lowered
  · exact absurd lowered unsupportedExpr_ne_ok
  · cases lowered
    exact ⟨_, rfl⟩

/-- Every parameter of a function is written with its type. -/
theorem typedParams_of_params {options : Options} {parameters : List Param} {stream : Stream}
    (lowered : params options parameters = .ok stream) :
    ∃ streams, stream = Stream.comma streams ∧
      List.Forall₂ (fun parameter stream => ∃ type, stream = typedParam parameter.name type)
        parameters streams := by
  have typed {number : Nat} {streams : List Stream}
      (listed : paramList options number parameters = .ok streams) :
      List.Forall₂ (fun parameter stream => ∃ type, stream = typedParam parameter.name type)
        parameters streams := by
    clear lowered
    induction parameters generalizing number streams with
    | nil =>
      cases listed
      exact .nil
    | cons first rest inductionHypothesis =>
      simp only [paramList, bind_eq_ok, inside_eq_ok, pure_eq_ok] at listed
      obtain ⟨stream, firstLowered, later, restListed, rfl⟩ := listed
      exact .cons (exists_typedParam firstLowered) (inductionHypothesis restListed)
  obtain ⟨streams, listed, rfl⟩ := map_eq_ok.mp lowered
  exact ⟨streams, rfl, typed listed⟩

/-- The result of a function is written with an arrow before its type, or not at all. -/
theorem nil_or_type_of_result {options : Options} {returns : Expr} {stream : Stream}
    (lowered : result options returns = .ok stream) :
    stream = [] ∨ ∃ type : Ty, stream = type.emit (Stream.punct [] "->") := by
  unfold result at lowered
  split at lowered
  · cases lowered
    exact .inl rfl
  split at lowered
  · exact absurd lowered unsupportedExpr_ne_ok
  · cases lowered
    exact .inl rfl
  · cases lowered
    exact .inr ⟨_, rfl⟩

/-- The table that the body of a function starts with. -/
def bodyTable (table : Table) (definition : FunctionDef) : Table :=
  (declarations (entryTable table definition.name definition.params) definition.body).foldl
    Declaration.declare (entryTable table definition.name definition.params)

/-- The declarations in front of the body of a function. -/
def frontTokens (options : Options) (table : Table) (definition : FunctionDef) : Stream :=
  (declarations (entryTable table definition.name definition.params) definition.body).flatMap
    (Declaration.tokens options)

/-- A declaration in front of a body is written like that of a new variable. -/
theorem exists_declaration_eq (options : Options) (declaration : Declaration) :
    ∃ type?, declaration.tokens options = (newVariable declaration.name type?).punct ";" := by
  dsimp only [Declaration.tokens]
  by_cases untyped : declaration.hint.isAbsent
  · rw [if_pos untyped]
    exact ⟨none, rfl⟩
  · rw [if_neg untyped]
    cases Ty.ofHint? options.object declaration.hint with
    | none => exact ⟨none, rfl⟩
    | some type => exact ⟨some type, rfl⟩

/-- What holds of nothing, of a single declaration, and of one stream behind another holds of all
declarations in front of a body. -/
theorem front_induction {motive : Stream → Prop} (nil : motive [])
    (single : ∀ name type?, motive ((newVariable name type?).punct ";"))
    (append : ∀ {first second : Stream}, motive first → motive second → motive (first ++ second))
    (options : Options) (front : List Declaration) :
    motive (front.flatMap (Declaration.tokens options)) := by
  induction front with
  | nil => exact nil
  | cons declaration rest inductionHypothesis =>
    obtain ⟨type?, spelled⟩ := exists_declaration_eq options declaration
    rw [List.flatMap_cons, spelled]
    exact append (single declaration.name type?) inductionHypothesis

/-! ### The rules -/

/-- A piece of a tree that is lowered with the tables that it finds and the bindings it makes. -/
inductive Piece where
  | stmt (value : Stmt)
  | block (body : List Stmt)
  | function (definition : FunctionDef)

/-- A call that stops the program, with the given arguments. -/
def stopping (name : String) (arguments : Stream) : Stream :=
  (Stream.bang [] name).group "(" ")" (Stream.join arguments)

/-- What a piece emits in a context and with a table. -/
inductive Emits (options : Options) : Piece → Context → Table → Stream → Prop where
  | functionDef {definition : FunctionDef} {context : Context} {table : Table} {stream : Stream}
      (lowered : Lower.function options definition context table = .ok stream)
      (emitted : Emits options (.function definition) context table stream) :
      Emits options (.stmt (.functionDef definition)) context table stream
  | asyncFunctionDef {definition : FunctionDef} {context : Context} {table : Table}
      {stream : Stream}
      (lowered : Lower.function options definition (.async definition.name) table = .ok stream)
      (emitted : Emits options (.function definition) (.async definition.name) table stream) :
      Emits options (.stmt (.asyncFunctionDef definition)) context table stream
  | expr {value : Expr} {context : Context} {table : Table} {stream : Stream}
      (lowered : Lower.expr context table value = .ok stream) :
      Emits options (.stmt (.expr value)) context table stream
  | assign {place value : Expr} {context : Context} {table : Table} {target stream : Stream}
      (placed : Place context table none place target)
      (lowered : Lower.expr context table value = .ok stream) :
      Emits options (.stmt (.assign [place] value)) context table (target.punct "=" ++ stream)
  | augSign {place value : Expr} {op sign : String} {context : Context} {table : Table}
      {target stream : Stream} (known : binarySign? op = some sign)
      (placed : Lower.expr context table place = .ok target)
      (lowered : Lower.expr context table value = .ok stream) :
      Emits options (.stmt (.augAssign place op value)) context table
        (target.punct (sign ++ "=") ++ stream)
  | augMethod {place value : Expr} {op name : String} {context : Context} {table : Table}
      {target stream : Stream} (noSign : binarySign? op = none)
      (known : binaryMethod? op = some name) (placed : Lower.expr context table place = .ok target)
      (lowered : Lower.expr context table (.binOp place op value) = .ok stream) :
      Emits options (.stmt (.augAssign place op value)) context table
        (target.punct "=" ++ stream)
  | declare {id : String} {hint value : Expr} {type : Ty} {context : Context} {table : Table}
      (typed : Ty.ofHint? options.object hint = some type) (noValue : value.isAbsent)
      (fresh : ¬ isBound table id) :
      Emits options (.stmt (.annAssign (.name id) hint value)) context table
        (newVariable id (some type))
  | silent {place hint value : Expr} {type : Ty} {context : Context} {table : Table}
      (typed : Ty.ofHint? options.object hint = some type) (noValue : value.isAbsent)
      (bound : ∀ id, place = .name id → isBound table id) :
      Emits options (.stmt (.annAssign place hint value)) context table []
  | annAssign {place hint value : Expr} {type : Ty} {context : Context} {table : Table}
      {target stream : Stream} (typed : Ty.ofHint? options.object hint = some type)
      (someValue : ¬ value.isAbsent) (placed : Place context table (some type) place target)
      (lowered : Lower.expr context table value = .ok stream) :
      Emits options (.stmt (.annAssign place hint value)) context table
        (target.punct "=" ++ stream)
  | returnNothing {value : Expr} {context : Context} {table : Table} (noValue : value.isAbsent) :
      Emits options (.stmt (.ret value)) context table (Stream.keyword [] "return")
  | returnValue {value : Expr} {context : Context} {table : Table} {stream : Stream}
      (lowered : Lower.expr context table value = .ok stream) :
      Emits options (.stmt (.ret value)) context table (Stream.keyword [] "return" ++ stream)
  | ifOnly {test : Expr} {body : List Stmt} {context : Context} {table : Table}
      {condition inner : Stream} (tested : Lower.expr context table test = .ok condition)
      (bodyEmitted : Emits options (.block body) context (table.push .block "if") inner) :
      Emits options (.stmt (.ifElse test body [])) context table
        (braced (Stream.keyword [] "if" ++ condition) inner)
  | ifFurther {test : Expr} {body : List Stmt} {furtherTest : Expr}
      {furtherBody furtherElse : List Stmt} {context : Context} {table : Table}
      {condition inner further : Stream} (tested : Lower.expr context table test = .ok condition)
      (bodyEmitted : Emits options (.block body) context (table.push .block "if") inner)
      (furtherEmitted : Emits options (.stmt (.ifElse furtherTest furtherBody furtherElse))
        context table further) :
      Emits options (.stmt (.ifElse test body [.ifElse furtherTest furtherBody furtherElse]))
        context table
        ((braced (Stream.keyword [] "if" ++ condition) inner).keyword "else" ++ further)
  | ifElse {test : Expr} {body orelse : List Stmt} {context : Context} {table : Table}
      {condition inner other : Stream} (nonempty : orelse ≠ [])
      (noFurther : isFurtherCondition orelse = false)
      (tested : Lower.expr context table test = .ok condition)
      (bodyEmitted : Emits options (.block body) context (table.push .block "if") inner)
      (otherEmitted : Emits options (.block orelse) context (table.push .block "else") other) :
      Emits options (.stmt (.ifElse test body orelse)) context table
        (braced ((braced (Stream.keyword [] "if" ++ condition) inner).keyword "else") other)
  | forever {test : Expr} {body : List Stmt} {context : Context} {table : Table} {inner : Stream}
      (always : isTrue test)
      (bodyEmitted : Emits options (.block body) context (table.push .block "while") inner) :
      Emits options (.stmt (.whileLoop test body [])) context table
        (braced (Stream.keyword [] "loop") inner)
  | whileLoop {test : Expr} {body : List Stmt} {context : Context} {table : Table}
      {condition inner : Stream} (tested : Lower.expr context table test = .ok condition)
      (bodyEmitted : Emits options (.block body) context (table.push .block "while") inner) :
      Emits options (.stmt (.whileLoop test body [])) context table
        (braced (Stream.keyword [] "while" ++ condition) inner)
  | forLoop {place iter : Expr} {body : List Stmt} {names : List String} {context : Context}
      {table : Table} {pattern items inner : Stream} (placed : LoopPlace place names pattern)
      (lowered : Lower.expr context table iter = .ok items)
      (bodyEmitted : Emits options (.block body) context
        (bindTarget place .absent (table.push .block "for")) inner) :
      Emits options (.stmt (.forLoop place iter body [])) context table
        (braced ((Stream.keyword [] "for" ++ pattern).keyword "in" ++ items) inner)
  | pass {context : Context} {table : Table} : Emits options (.stmt .pass) context table []
  | breakLoop {context : Context} {table : Table} :
      Emits options (.stmt .breakLoop) context table (Stream.keyword [] "break")
  | continueLoop {context : Context} {table : Table} :
      Emits options (.stmt .continueLoop) context table (Stream.keyword [] "continue")
  | raiseNothing {context : Context} {table : Table} :
      Emits options (.stmt (.raise .absent)) context table (stopping "panic" [])
  | raiseName {id : String} {context : Context} {table : Table} :
      Emits options (.stmt (.raise (.call (.name id) [] []))) context table
        (stopping "panic" (Stream.str [] id))
  | raiseMessage {id : String} {message : Expr} {context : Context} {table : Table}
      {stream : Stream} (lowered : Lower.expr context table message = .ok stream) :
      Emits options (.stmt (.raise (.call (.name id) [message] []))) context table
        (stopping "panic" ((Stream.str [] (valueFormat (id ++ ": "))).punct "," ++ stream))
  | raiseValue {exc : Expr} {context : Context} {table : Table} {stream : Stream}
      (lowered : Lower.expr context table exc = .ok stream)
      (noMessage : ∀ id message, exc ≠ .call (.name id) [message] []) :
      Emits options (.stmt (.raise exc)) context table
        (stopping "panic" ((Stream.str [] (openBrace ++ ":?" ++ closeBrace)).punct "," ++ stream))
  | assertOnly {test message : Expr} {context : Context} {table : Table} {condition : Stream}
      (tested : Lower.expr context table test = .ok condition) (noMessage : message.isAbsent) :
      Emits options (.stmt (.assert test message)) context table (stopping "assert" condition)
  | assertMessage {test message : Expr} {context : Context} {table : Table}
      {condition stream : Stream} (tested : Lower.expr context table test = .ok condition)
      (lowered : Lower.expr context table message = .ok stream) :
      Emits options (.stmt (.assert test message)) context table
        (stopping "assert" (((condition.punct ",").str (valueFormat "")).punct "," ++ stream))
  | blockNil {context : Context} {table : Table} : Emits options (.block []) context table []
  | blockCons {first : Stmt} {rest : List Stmt} {context : Context} {table : Table}
      {stream later : Stream} (firstEmitted : Emits options (.stmt first) context table stream)
      (restEmitted : Emits options (.block rest) context (bindStmt table first) later) :
      Emits options (.block (first :: rest)) context table (stream.punct ";" ++ later)
  | function {definition : FunctionDef} {context : Context} {table : Table}
      {clause output inner : Stream} (nonempty : definition.body ≠ [])
      (clauseLowered : params options definition.params = .ok clause)
      (outputLowered : result options definition.returns = .ok output)
      (bodyEmitted : Emits options (.block definition.body) context (bodyTable table definition)
        inner) :
      Emits options (.function definition) context table
        (braced (head context options definition clause output)
          (frontTokens options table definition ++ inner))

/-! ### Everything that succeeds is derived -/

variable {options : Options}

theorem emits_of_assign {context : Context} {table : Table} {targets : List Expr} {value : Expr}
    {stream : Stream} (lowered : assign context table targets value = .ok stream) :
    Emits options (.stmt (.assign targets value)) context table stream := by
  unfold assign at lowered
  split at lowered
  · simp only [bind_eq_ok, inside_eq_ok, pure_eq_ok] at lowered
    obtain ⟨result, valueLowered, target, placed, rfl⟩ := lowered
    exact .assign (place_of_target placed) valueLowered
  · exact absurd lowered unsupportedStmt_ne_ok

theorem emits_of_augAssign {context : Context} {table : Table} {place value : Expr} {op : String}
    {stream : Stream} (lowered : augAssign context table place op value = .ok stream) :
    Emits options (.stmt (.augAssign place op value)) context table stream := by
  simp only [augAssign, bind_eq_ok, inside_eq_ok] at lowered
  obtain ⟨target, placed, rest⟩ := lowered
  cases signed : binarySign? op with
  | some sign =>
    simp only [signed, bind_eq_ok, inside_eq_ok, pure_eq_ok] at rest
    obtain ⟨result, valueLowered, rfl⟩ := rest
    exact .augSign signed placed valueLowered
  | none =>
    cases known : binaryMethod? op with
    | none =>
      rw [signed, known] at rest
      exact absurd rest unsupportedStmt_ne_ok
    | some name =>
      simp only [signed, known, Option.isNone_some, Bool.false_eq_true, if_false, bind_eq_ok,
        inside_eq_ok, pure_eq_ok] at rest
      obtain ⟨result, valueLowered, rfl⟩ := rest
      exact .augMethod signed known placed valueLowered

/-- An assignment with a hint declares, stays silent or assigns. -/
theorem emits_of_annAssign {context : Context} {table : Table} {place hint value : Expr}
    {stream : Stream} (lowered : annAssign context options table place hint value = .ok stream) :
    Emits options (.stmt (.annAssign place hint value)) context table stream := by
  rw [annAssign] at lowered
  cases typed : Ty.ofHint? options.object hint with
  | none =>
    rw [typed] at lowered
    exact absurd lowered unsupportedExpr_ne_ok
  | some type =>
    simp only [typed] at lowered
    by_cases noValue : value.isAbsent
    · rw [if_pos noValue] at lowered
      cases place with
      | name id =>
        cases lowered
        by_cases bound : isBound table id
        · rw [if_pos bound]
          refine .silent typed noValue fun other same => ?_
          cases same
          exact bound
        · rw [if_neg bound]
          exact .declare typed noValue bound
      | _ =>
        cases lowered
        exact .silent typed noValue fun id same => by cases same
    · simp only [if_neg noValue, bind_eq_ok, inside_eq_ok, pure_eq_ok] at lowered
      obtain ⟨result, valueLowered, target, placed, rfl⟩ := lowered
      exact .annAssign typed noValue (place_of_target placed) valueLowered

/-- What is raised is shown as its kind demands. -/
theorem emits_of_raise {context : Context} {table : Table} {exc : Expr} {stream : Stream}
    (lowered : raise context table exc = .ok stream) :
    Emits options (.stmt (.raise exc)) context table stream := by
  unfold raise at lowered
  split at lowered
  · cases lowered
    exact .raiseNothing
  · cases lowered
    exact .raiseName
  · simp only [bind_eq_ok, inside_eq_ok, pure_eq_ok] at lowered
    obtain ⟨message, messageLowered, rfl⟩ := lowered
    exact .raiseMessage messageLowered
  case h_4 noMessage =>
    simp only [bind_eq_ok, inside_eq_ok, pure_eq_ok] at lowered
    obtain ⟨value, valueLowered, rfl⟩ := lowered
    exact .raiseValue valueLowered noMessage

theorem emits_of_assertion {context : Context} {table : Table} {test message : Expr}
    {stream : Stream} (lowered : assertion context table test message = .ok stream) :
    Emits options (.stmt (.assert test message)) context table stream := by
  simp only [assertion, bind_eq_ok, inside_eq_ok] at lowered
  obtain ⟨condition, tested, rest⟩ := lowered
  by_cases noMessage : message.isAbsent
  · rw [if_pos noMessage] at rest
    cases rest
    exact .assertOnly tested noMessage
  · simp only [if_neg noMessage, bind_eq_ok, inside_eq_ok, pure_eq_ok] at rest
    obtain ⟨shown, messageLowered, rfl⟩ := rest
    exact .assertMessage tested messageLowered

mutual

/-- A statement that is lowered follows one of the rules, by induction over the statement. -/
theorem emits_of_stmt : (value : Stmt) → (context : Context) → (table : Table) →
    (stream : Stream) → stmt options value context table = .ok stream →
    Emits options (.stmt value) context table stream
  | .absent, context, table, stream, lowered => by
    rw [stmt] at lowered
    exact absurd lowered fail_ne_ok
  | .functionDef definition, context, table, stream, lowered => by
    rw [stmt] at lowered
    exact .functionDef lowered (emits_of_function definition context table stream lowered)
  | .asyncFunctionDef definition, context, table, stream, lowered => by
    rw [stmt] at lowered
    exact .asyncFunctionDef lowered (emits_of_function definition _ table stream lowered)
  | .expr value, context, table, stream, lowered => by
    rw [stmt] at lowered
    exact .expr lowered
  | .assign targets value, context, table, stream, lowered => by
    rw [stmt] at lowered
    exact emits_of_assign lowered
  | .augAssign place op value, context, table, stream, lowered => by
    rw [stmt] at lowered
    exact emits_of_augAssign lowered
  | .annAssign place hint value, context, table, stream, lowered => by
    rw [stmt] at lowered
    exact emits_of_annAssign lowered
  | .ret value, context, table, stream, lowered => by
    rw [stmt] at lowered
    by_cases noValue : value.isAbsent
    · rw [if_pos noValue] at lowered
      cases lowered
      exact .returnNothing noValue
    · simp only [if_neg noValue, bind_eq_ok, inside_eq_ok, pure_eq_ok] at lowered
      obtain ⟨result, valueLowered, rfl⟩ := lowered
      exact .returnValue valueLowered
  | .ifElse test body orelse, context, table, stream, lowered => by
    simp only [stmt, bind_eq_ok, inside_eq_ok] at lowered
    obtain ⟨condition, tested, inner, bodyLowered, rest⟩ := lowered
    have bodyEmitted := emits_of_block 0 body context _ inner bodyLowered
    by_cases nothing : orelse.isEmpty
    · obtain rfl := List.isEmpty_iff.mp nothing
      cases rest
      exact .ifOnly tested bodyEmitted
    rw [if_neg nothing] at rest
    by_cases isFurther : isFurtherCondition orelse
    · simp only [if_pos isFurther, bind_eq_ok, inside_eq_ok, pure_eq_ok] at rest
      obtain ⟨further, furtherLowered, rfl⟩ := rest
      have furtherEmitted := emits_of_firstOf orelse context table further furtherLowered
      unfold isFurtherCondition at isFurther
      split at isFurther
      · exact .ifFurther tested bodyEmitted (furtherEmitted _ _ rfl)
      · exact absurd isFurther Bool.false_ne_true
    · simp only [if_neg isFurther, bind_eq_ok, inside_eq_ok, pure_eq_ok] at rest
      obtain ⟨other, otherLowered, rfl⟩ := rest
      exact .ifElse (fun none => nothing (List.isEmpty_iff.mpr none))
        (Bool.not_eq_true _ ▸ isFurther) tested bodyEmitted
        (emits_of_block 0 orelse context _ other otherLowered)
  | .whileLoop test body orelse, context, table, stream, lowered => by
    rw [stmt] at lowered
    cases orelse with
    | cons => exact absurd lowered unsupportedStmt_ne_ok
    | nil =>
      simp only [List.isEmpty_nil, Bool.not_true, Bool.false_eq_true, if_false, bind_eq_ok,
        inside_eq_ok] at lowered
      obtain ⟨inner, bodyLowered, rest⟩ := lowered
      have bodyEmitted := emits_of_block 0 body context _ inner bodyLowered
      by_cases always : isTrue test
      · rw [if_pos always] at rest
        cases rest
        exact .forever always bodyEmitted
      · simp only [if_neg always, bind_eq_ok, inside_eq_ok, pure_eq_ok] at rest
        obtain ⟨condition, tested, rfl⟩ := rest
        exact .whileLoop tested bodyEmitted
  | .forLoop place iter body orelse, context, table, stream, lowered => by
    rw [stmt] at lowered
    cases orelse with
    | cons => exact absurd lowered unsupportedStmt_ne_ok
    | nil =>
      simp only [List.isEmpty_nil, Bool.not_true, Bool.false_eq_true, if_false, bind_eq_ok,
        inside_eq_ok, pure_eq_ok] at lowered
      obtain ⟨pattern, placed, items, iterLowered, inner, bodyLowered, rfl⟩ := lowered
      obtain ⟨names, loopPlace⟩ := loopPlace_of_loopTarget placed
      exact .forLoop loopPlace iterLowered (emits_of_block 0 body context _ inner bodyLowered)
  | .pass, context, table, stream, lowered => by
    rw [stmt] at lowered
    cases lowered
    exact .pass
  | .breakLoop, context, table, stream, lowered => by
    rw [stmt] at lowered
    cases lowered
    exact .breakLoop
  | .continueLoop, context, table, stream, lowered => by
    rw [stmt] at lowered
    cases lowered
    exact .continueLoop
  | .raise exc, context, table, stream, lowered => by
    rw [stmt] at lowered
    exact emits_of_raise lowered
  | .assert test message, context, table, stream, lowered => by
    rw [stmt] at lowered
    exact emits_of_assertion lowered
  | .classDef name body, context, table, stream, lowered => by
    rw [stmt] at lowered
    exact absurd lowered unsupportedStmt_ne_ok
  | .importNames names, context, table, stream, lowered => by
    rw [stmt] at lowered
    exact absurd lowered unsupportedStmt_ne_ok
  | .importFrom origin names, context, table, stream, lowered => by
    rw [stmt] at lowered
    exact absurd lowered unsupportedStmt_ne_ok
  | .globalNames names, context, table, stream, lowered => by
    rw [stmt] at lowered
    exact absurd lowered unsupportedStmt_ne_ok
  | .nonlocalNames names, context, table, stream, lowered => by
    rw [stmt] at lowered
    exact absurd lowered unsupportedStmt_ne_ok
  | .delete targets, context, table, stream, lowered => by
    rw [stmt] at lowered
    exact absurd lowered unsupportedStmt_ne_ok
  | .tryBlock body orelse finalbody, context, table, stream, lowered => by
    rw [stmt] at lowered
    exact absurd lowered unsupportedStmt_ne_ok
  | .withBlock items body, context, table, stream, lowered => by
    rw [stmt] at lowered
    exact absurd lowered unsupportedStmt_ne_ok

theorem emits_of_block : (number : Nat) → (body : List Stmt) → (context : Context) →
    (table : Table) → (stream : Stream) → block options number body context table = .ok stream →
    Emits options (.block body) context table stream
  | number, [], context, table, stream, lowered => by
    rw [block] at lowered
    cases lowered
    exact .blockNil
  | number, first :: rest, context, table, stream, lowered => by
    simp only [block, bind_eq_ok, inside_eq_ok, pure_eq_ok] at lowered
    obtain ⟨single, firstLowered, later, restLowered, rfl⟩ := lowered
    exact .blockCons (emits_of_stmt first context table single firstLowered)
      (emits_of_block (number + 1) rest context _ later restLowered)

/-- The first statement of a block is lowered on its own where a condition follows `else`. -/
theorem emits_of_firstOf : (body : List Stmt) → (context : Context) → (table : Table) →
    (stream : Stream) → firstOf options body context table = .ok stream →
    ∀ first rest, body = first :: rest → Emits options (.stmt first) context table stream
  | [], _, _, _, _, _, _, same => nomatch same
  | first :: _, context, table, stream, lowered, _, _, same => by
    rw [firstOf] at lowered
    cases same
    exact emits_of_stmt first context table stream lowered

/-- A function that is lowered follows the rule for functions. -/
theorem emits_of_function : (definition : FunctionOf Stmt) → (context : Context) →
    (table : Table) → (stream : Stream) →
    function options definition context table = .ok stream →
    Emits options (.function definition) context table stream
  | ⟨name, parameters, body, decorators, returns⟩, context, table, stream, lowered => by
    rw [function] at lowered
    by_cases nothing : body.isEmpty
    · rw [if_pos nothing] at lowered
      exact absurd (inside_eq_ok.mp lowered) fail_ne_ok
    · simp only [if_neg nothing, bind_eq_ok, inside_eq_ok, pure_eq_ok] at lowered
      obtain ⟨clause, clauseLowered, output, outputLowered, inner, bodyLowered, rfl⟩ := lowered
      exact .function (fun none => nothing (List.isEmpty_iff.mpr none)) clauseLowered
        outputLowered (emits_of_block 0 body context _ inner bodyLowered)

end

end Oxide.Lower
