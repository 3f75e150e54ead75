/-
This file proves that nothing depends on how the dynamic type is written. A hint means a type for
one dynamic type if and only if it does for another, and the two types differ in their leaves only:
where the one has its dynamic type, the other has its own. So the settings that choose the namespace
of the dynamic type decide neither whether a function is lowered nor how it fails, and two settings
write the same stream but for the spelling of these leaves.
-/

import Oxide.Proofs.StmtEmission
import Oxide.Proofs.TypeTokens

namespace Oxide

/-! ### Types with another dynamic type -/

namespace Ty

mutual

/-- The type with another one in place of the dynamic type, wherever that is a leaf. -/
def withObject (object : Ty) : Ty → Ty
  | .named name => .named name
  | .int bits signed => .int bits signed
  | .float bits => .float bits
  | .bool => .bool
  | .str => .str
  | .unit => .unit
  | .object _ => object
  | .vec item => .vec (withObject object item)
  | .map key value => .map (withObject object key) (withObject object value)
  | .set item => .set (withObject object item)
  | .option item => .option (withObject object item)
  | .tuple items => .tuple (withObjects object items)
  | .ref target mutable => .ref (withObject object target) mutable
  | .generic name arguments => .generic name (withObjects object arguments)

/-- Several types with another dynamic type. -/
def withObjects (object : Ty) : List Ty → List Ty
  | [] => []
  | first :: rest => withObject object first :: withObjects object rest

end

variable (space : String) (object : Ty)

/-- A name alone stands for a type that only depends on the object type at its leaves. -/
theorem ofName?_eq_map (name : String) :
    ofName? object name = (ofName? (.object space) name).map (withObject object) := by
  simp only [ofName?, apply_ite (Option.map (withObject object)), Option.map_some, Option.map_none,
    withObject]

/-- A type with arguments depends on the object type through its arguments only. -/
theorem ofArguments?_eq_map (name : String) (arguments : List Ty) :
    ofArguments? name (withObjects object arguments) =
      (ofArguments? name arguments).map (withObject object) := by
  simp only [ofArguments?, apply_ite (Option.map (withObject object))]
  obtain _ | ⟨first, _ | ⟨second, _ | ⟨third, rest⟩⟩⟩ := arguments <;>
    simp only [withObjects, withObject, Option.map_some, Option.map_none]

/-- A single argument in brackets is that of the type before them. -/
theorem subscript_eq_map {head slice : Expr} (noTuple : ∀ items, slice ≠ .tuple items)
    (single : ofHint? object slice = (ofHint? (.object space) slice).map (withObject object)) :
    ofHint? object (.subscript head slice) =
      (ofHint? (.object space) (.subscript head slice)).map (withObject object) := by
  rw [ofHint?, ofHint?, single]
  · cases ofHint? (.object space) slice with
    | none => rfl
    | some type => exact ofArguments?_eq_map object (hintName head) [type]
  · exact noTuple
  · exact noTuple

mutual

/-- What a hint means for any dynamic type is what it means for one of them, with the other one in
its leaves. -/
theorem ofHint?_eq_map : (hint : Expr) →
    ofHint? object hint = (ofHint? (.object space) hint).map (withObject object)
  | .absent => rfl
  | .constant value => by cases value <;> rfl
  | .name id => ofName?_eq_map space object id
  | .attribute _ attr => ofName?_eq_map space object attr
  | .subscript head slice => by
    have single := ofHint?_eq_map slice
    -- A tuple in the brackets is a list of arguments. Anything else is the only argument.
    cases slice with
    | tuple items =>
      rw [ofHint?, ofHint?, ofHints?_eq_map items]
      cases ofHints? (.object space) items with
      | none => rfl
      | some types => exact ofArguments?_eq_map object (hintName head) types
    | _ => exact subscript_eq_map space object nofun single
  | .binOp left op right => by
    rw [ofHint?, ofHint?, ofHint?_eq_map left, ofHint?_eq_map right]
    split_ifs
    · rfl
    · cases ofHint? (.object space) left with
      | none => rfl
      | some type => rfl
    · cases ofHint? (.object space) right with
      | none => rfl
      | some type => rfl
    · rfl
  | .unaryOp _ _ => rfl
  | .boolOp _ _ => rfl
  | .compare _ _ _ => rfl
  | .call _ _ _ => rfl
  | .list _ => rfl
  | .tuple _ => rfl
  | .await _ => rfl
  | .lambda _ _ => rfl
  | .dict _ _ => rfl
  | .joinedStr _ => rfl

/-- The hints of a list differ in their object leaves only. -/
theorem ofHints?_eq_map : (hints : List Expr) →
    ofHints? object hints = (ofHints? (.object space) hints).map (withObjects object)
  | [] => rfl
  | hint :: rest => by
    rw [ofHints?, ofHints?, ofHint?_eq_map hint, ofHints?_eq_map rest]
    cases ofHint? (.object space) hint with
    | none => rfl
    | some type => cases ofHints? (.object space) rest <;> rfl

end

end Ty

/-! ### Streams with another spelling of the dynamic type -/

/-- Whether streams are put together alike, except that one has the spelling of the second type
where the other one has that of the first. -/
inductive Respelled (first second : Ty) : Stream → Stream → Prop where
  | same (stream : Stream) : Respelled first second stream stream
  | leaf : Respelled first second first.tokens second.tokens
  | append {left right leftBehind rightBehind : Stream} (before : Respelled first second left right)
      (behind : Respelled first second leftBehind rightBehind) :
      Respelled first second (left ++ leftBehind) (right ++ rightBehind)
  | join {left right : Stream} (spelled : Respelled first second left right) :
      Respelled first second (Stream.join left) (Stream.join right)

namespace Respelled

variable {first second : Ty} {left right leftInner rightInner : Stream}

theorem punct (spelled : Respelled first second left right) (text : String) :
    Respelled first second (left.punct text) (right.punct text) :=
  spelled.append (.same _)

theorem keyword (spelled : Respelled first second left right) (word : String) :
    Respelled first second (left.keyword word) (right.keyword word) :=
  spelled.append (.same _)

theorem ident (spelled : Respelled first second left right) (name : String) :
    Respelled first second (left.ident name) (right.ident name) :=
  spelled.append (.same _)

theorem path (spelled : Respelled first second left right) (parts : List String) :
    Respelled first second (left.path parts) (right.path parts) := by
  rw [Stream.path_eq_append left, Stream.path_eq_append right]
  exact spelled.append (.same _)

theorem group (spelled : Respelled first second left right) (opening closing : String)
    (inner : Respelled first second leftInner rightInner) :
    Respelled first second (left.group opening closing leftInner)
      (right.group opening closing rightInner) := by
  unfold Stream.group
  split
  · exact ((spelled.punct opening).append inner).punct closing
  · exact ((spelled.punct opening).join.append inner).punct closing

theorem openArguments (spelled : Respelled first second left right) (name : String) :
    Respelled first second (Ty.openArguments left name) (Ty.openArguments right name) :=
  ((spelled.path _).join.punct "<").join

theorem closeArguments (spelled : Respelled first second left right) :
    Respelled first second (Ty.closeArguments left) (Ty.closeArguments right) :=
  spelled.join.punct ">"

theorem comma {lefts rights : List Stream}
    (all : List.Forall₂ (Respelled first second) lefts rights) :
    Respelled first second (Stream.comma lefts) (Stream.comma rights) := by
  induction all with
  | nil => exact .same []
  | cons spelled rest inductionHypothesis =>
    cases rest with
    | nil => exact spelled
    | cons next later => exact (spelled.punct ",").append inductionHypothesis

end Respelled

namespace Ty

/-- The object type changes no number of arguments. -/
theorem length_withObjects (object : Ty) (types : List Ty) :
    (withObjects object types).length = types.length := by
  induction types with
  | nil => rfl
  | cons type rest inductionHypothesis =>
    rw [withObjects, List.length_cons, List.length_cons, inductionHypothesis]

variable {first second : Ty}

mutual

/-- The spellings of a type with two dynamic types differ in the spellings of these. -/
theorem respelled_emit : (type : Ty) → {left right : Stream} →
    Respelled first second left right →
    Respelled first second ((withObject first type).emit left) ((withObject second type).emit right)
  | .named name, _, _, spelled => spelled.path _
  | .int bits signed, _, _, spelled => spelled.ident _
  | .float bits, _, _, spelled => spelled.ident _
  | .bool, _, _, spelled => spelled.ident _
  | .str, _, _, spelled => spelled.ident _
  | .unit, _, _, spelled => (spelled.punct "(").join.punct ")"
  | .object space, left, right, spelled => by
    rw [withObject, withObject, emit_eq_append first, emit_eq_append second]
    exact spelled.append .leaf
  | .vec item, _, _, spelled => (respelled_emit item (spelled.openArguments _)).closeArguments
  | .map key value, _, _, spelled =>
    (respelled_emit value
      ((respelled_emit key (spelled.openArguments _)).punct ",")).closeArguments
  | .set item, _, _, spelled => (respelled_emit item (spelled.openArguments _)).closeArguments
  | .option item, _, _, spelled => (respelled_emit item (spelled.openArguments _)).closeArguments
  | .tuple items, _, _, spelled => by
    have inner := respelled_emitList items (spelled.punct "(").join
    rw [withObject, withObject, emit, emit, length_withObjects, length_withObjects]
    split
    · exact (inner.punct ",").join.punct ")"
    · exact inner.join.punct ")"
  | .ref target mutable, _, _, spelled => by
    rw [withObject, withObject, emit, emit]
    cases mutable with
    | true => exact respelled_emit target ((spelled.punct "&").join.keyword "mut")
    | false => exact respelled_emit target (spelled.punct "&").join
  | .generic name arguments, _, _, spelled =>
    (respelled_emitList arguments (spelled.openArguments name)).closeArguments

/-- The types of a list are respelled one by one. -/
theorem respelled_emitList : (types : List Ty) → {left right : Stream} →
    Respelled first second left right →
    Respelled first second (emitList (withObjects first types) left)
      (emitList (withObjects second types) right)
  | [], _, _, spelled => spelled
  | type :: rest, _, _, spelled => respelled_emitTail rest (respelled_emit type spelled)

theorem respelled_emitTail : (types : List Ty) → {left right : Stream} →
    Respelled first second left right →
    Respelled first second (emitTail (withObjects first types) left)
      (emitTail (withObjects second types) right)
  | [], _, _, spelled => spelled
  | type :: rest, _, _, spelled =>
    respelled_emitTail rest (respelled_emit type (spelled.punct ","))

end

end Ty

/-! ### Attempts that end alike -/

namespace Attempt

variable {Cause First Second : Type}

/-- Whether both attempts fail in the same way, or both succeed and their results are related. -/
inductive Agree (related : First → First → Prop) : Attempt Cause First → Attempt Cause First → Prop
    where
  | error (failure : Failure Cause) : Agree related (.error failure) (.error failure)
  | ok {left right : First} (holds : related left right) : Agree related (.ok left) (.ok right)

namespace Agree

variable {related : First → First → Prop} {left right : Attempt Cause First}

theorem refl (holds : ∀ value, related value value) (attempt : Attempt Cause First) :
    Agree related attempt attempt := by
  cases attempt with
  | error failure => exact .error failure
  | ok value => exact .ok (holds value)

/-- Attempts that agree at one place still agree when the place is named. -/
theorem inside (agree : Agree related left right) (place : String) :
    Agree related (Attempt.inside place left) (Attempt.inside place right) := by
  cases agree with
  | error failure => exact .error _
  | ok holds => exact .ok holds

/-- Attempts that agree and go on alike agree in the end. -/
theorem bind {behind : Second → Second → Prop} {next other : First → Attempt Cause Second}
    (agree : Agree related left right)
    (each : ∀ leftValue rightValue, related leftValue rightValue →
      Agree behind (next leftValue) (other rightValue)) :
    Agree behind (left >>= next) (right >>= other) := by
  cases agree with
  | error failure => exact .error failure
  | ok holds => exact each _ _ holds

theorem map {behind : Second → Second → Prop} {convert : First → Second}
    (agree : Agree related left right)
    (each : ∀ leftValue rightValue, related leftValue rightValue →
      behind (convert leftValue) (convert rightValue)) :
    Agree behind (convert <$> left) (convert <$> right) := by
  cases agree with
  | error failure => exact .error failure
  | ok holds => exact .ok (each _ _ holds)

end Agree

/-- After the same attempt, attempts agree if they do for each of its results. -/
theorem agree_bind {related : Second → Second → Prop} {attempt : Attempt Cause First}
    {next other : First → Attempt Cause Second}
    (each : ∀ value, Agree related (next value) (other value)) :
    Agree related (attempt >>= next) (attempt >>= other) := by
  cases attempt with
  | error failure => exact .error failure
  | ok value => exact each value

end Attempt

namespace Lower

open Attempt

/-! ### Settings for the dynamic type -/

/-- Whether lowerings with two settings end alike, but for the spelling of the dynamic type. -/
abbrev AgreeFor (first second : Options) : Lowering Stream → Lowering Stream → Prop :=
  Agree (Respelled first.object second.object)

variable {first second : Options}

theorem agreeFor_refl (attempt : Lowering Stream) : AgreeFor first second attempt attempt :=
  .refl .same attempt

theorem respelled_newVariable (name : String) (type : Ty) :
    Respelled first.object second.object
      (newVariable name (some (Ty.withObject first.object type)))
      (newVariable name (some (Ty.withObject second.object type))) :=
  Ty.respelled_emit type (.same _)

theorem agreeFor_param (parameter : Param) :
    AgreeFor first second (param first parameter) (param second parameter) := by
  unfold param
  rw [Ty.ofHint?_eq_map "" first.object, Ty.ofHint?_eq_map "" second.object]
  split
  · exact .error _
  split
  · exact .error _
  cases Ty.ofHint? (.object "") parameter.hint with
  | none => exact .error _
  | some type =>
    simp only [Option.map_some]
    split
    · exact .ok (Ty.respelled_emit (.vec type) (.same _))
    · exact .ok (Ty.respelled_emit type (.same _))

theorem agreeFor_params (parameters : List Param) :
    AgreeFor first second (params first parameters) (params second parameters) := by
  have listed (number : Nat) :
      Agree (List.Forall₂ (Respelled first.object second.object))
        (paramList first number parameters) (paramList second number parameters) := by
    induction parameters generalizing number with
    | nil => exact .ok .nil
    | cons parameter rest inductionHypothesis =>
      rw [paramList, paramList]
      refine ((agreeFor_param parameter).inside _).bind fun left right spelled => ?_
      exact (inductionHypothesis (number + 1)).bind fun lefts rights all => .ok (.cons spelled all)
  exact (listed 0).map fun lefts rights all => .comma all

theorem agreeFor_result (returns : Expr) :
    AgreeFor first second (result first returns) (result second returns) := by
  unfold result
  rw [Ty.ofHint?_eq_map "" first.object, Ty.ofHint?_eq_map "" second.object]
  split
  · exact .ok (.same [])
  cases Ty.ofHint? (.object "") returns with
  | none => exact .error _
  | some type =>
    -- No setting makes the dynamic type the empty one, so both results are left out or none is.
    cases type with
    | unit => exact .ok (.same [])
    | _ => exact .ok (Ty.respelled_emit _ (.same _))

/-- The target of an assignment is respelled in its type only. -/
theorem agreeFor_target (context : Context) (table : Table) (type : Ty) (place : Expr) :
    AgreeFor first second
      (target context table (some (Ty.withObject first.object type)) place)
      (target context table (some (Ty.withObject second.object type)) place) := by
  cases place with
  | name id =>
    rw [target, target]
    split
    · exact .ok (.same _)
    · exact .ok (respelled_newVariable id type)
  | _ => exact agreeFor_refl _

/-- An assignment with a hint is respelled in its type only. -/
theorem agreeFor_annAssign (context : Context) (table : Table) (place hint value : Expr) :
    AgreeFor first second (annAssign context first table place hint value)
      (annAssign context second table place hint value) := by
  unfold annAssign
  rw [Ty.ofHint?_eq_map "" first.object, Ty.ofHint?_eq_map "" second.object]
  cases Ty.ofHint? (.object "") hint with
  | none => exact .error _
  | some type =>
    simp only [Option.map_some]
    split
    · split
      · split
        · exact .ok (.same [])
        · exact .ok (respelled_newVariable _ type)
      · exact .ok (.same [])
    · refine agree_bind fun stream => ?_
      refine ((agreeFor_target context table type place).inside _).bind fun left right spelled => ?_
      exact .ok ((spelled.punct "=").append (.same stream))

theorem respelled_declaration (declaration : Declaration) :
    Respelled first.object second.object (declaration.tokens first)
      (declaration.tokens second) := by
  unfold Declaration.tokens
  rw [Ty.ofHint?_eq_map "" first.object, Ty.ofHint?_eq_map "" second.object]
  split
  · exact .same _
  cases Ty.ofHint? (.object "") declaration.hint with
  | none => exact .same _
  | some type => exact (Ty.respelled_emit type (.same _)).punct ";"

/-- The declarations in front of a body are respelled in their types only. -/
theorem respelled_declarations (front : List Declaration) :
    Respelled first.object second.object (front.flatMap (Declaration.tokens first))
      (front.flatMap (Declaration.tokens second)) := by
  induction front with
  | nil => exact .same []
  | cons declaration rest inductionHypothesis =>
    rw [List.flatMap_cons, List.flatMap_cons]
    exact (respelled_declaration declaration).append inductionHypothesis

/-- The head of a function is respelled in its parameters and its result. -/
theorem respelled_head (docs : second.noDocstrings = first.noDocstrings) (context : Context)
    (definition : FunctionDef) {clause otherClause output otherOutput : Stream}
    (clauses : Respelled first.object second.object clause otherClause)
    (outputs : Respelled first.object second.object output otherOutput) :
    Respelled first.object second.object (head context first definition clause output)
      (head context second definition otherClause otherOutput) := by
  unfold head
  rw [docs]
  exact (Respelled.group (.same _) "(" ")" clauses.join).append outputs

theorem respelled_braced {first second : Ty} {left right leftInner rightInner : Stream}
    (heads : Respelled first second left right)
    (inner : Respelled first second leftInner rightInner) :
    Respelled first second (braced left leftInner) (braced right rightInner) :=
  heads.group openBrace closeBrace inner

mutual

/-- Two object types make the same statements succeed, with streams that differ in the spelling of
that type only. -/
theorem agreeFor_stmt (docs : second.noDocstrings = first.noDocstrings) : (value : Stmt) →
    (context : Context) → (table : Table) →
    AgreeFor first second (stmt first value context table) (stmt second value context table)
  | .functionDef definition, context, table => by
    rw [stmt, stmt]
    exact agreeFor_function docs definition context table
  | .asyncFunctionDef definition, context, table => by
    rw [stmt, stmt]
    exact agreeFor_function docs definition _ table
  | .annAssign place hint value, context, table => by
    rw [stmt, stmt]
    exact agreeFor_annAssign context table place hint value
  | .ifElse test body orelse, context, table => by
    rw [stmt, stmt]
    refine agree_bind fun condition => ?_
    refine ((agreeFor_block docs 0 body context _).inside _).bind fun left right inner => ?_
    have opened := respelled_braced (.same (Stream.keyword [] "if" ++ condition)) inner
    split
    · exact .ok opened
    split
    · refine ((agreeFor_firstOf docs orelse context table).inside _).bind
        fun leftElse rightElse further => ?_
      exact .ok ((opened.keyword "else").append further)
    · refine ((agreeFor_block docs 0 orelse context _).inside _).bind
        fun leftElse rightElse other => ?_
      exact .ok (respelled_braced (opened.keyword "else") other)
  | .whileLoop test body orelse, context, table => by
    rw [stmt, stmt]
    split
    · exact .error _
    refine ((agreeFor_block docs 0 body context _).inside _).bind fun left right inner => ?_
    split
    · exact .ok (respelled_braced (.same _) inner)
    · exact agree_bind fun condition => .ok (respelled_braced (.same _) inner)
  | .forLoop place iter body orelse, context, table => by
    rw [stmt, stmt]
    split
    · exact .error _
    refine agree_bind fun pattern => agree_bind fun items => ?_
    refine ((agreeFor_block docs 0 body context _).inside _).bind fun left right inner => ?_
    exact .ok (respelled_braced (.same _) inner)
  | .absent, _, _ => agreeFor_refl _
  | .expr _, _, _ => agreeFor_refl _
  | .assign _ _, _, _ => agreeFor_refl _
  | .augAssign _ _ _, _, _ => agreeFor_refl _
  | .ret _, _, _ => agreeFor_refl _
  | .pass, _, _ => agreeFor_refl _
  | .breakLoop, _, _ => agreeFor_refl _
  | .continueLoop, _, _ => agreeFor_refl _
  | .raise _, _, _ => agreeFor_refl _
  | .assert _ _, _, _ => agreeFor_refl _
  | .classDef _ _, _, _ => agreeFor_refl _
  | .importNames _, _, _ => agreeFor_refl _
  | .importFrom _ _, _, _ => agreeFor_refl _
  | .globalNames _, _, _ => agreeFor_refl _
  | .nonlocalNames _, _, _ => agreeFor_refl _
  | .delete _, _, _ => agreeFor_refl _
  | .tryBlock _ _ _, _, _ => agreeFor_refl _
  | .withBlock _ _, _, _ => agreeFor_refl _

theorem agreeFor_block (docs : second.noDocstrings = first.noDocstrings) : (number : Nat) →
    (body : List Stmt) → (context : Context) → (table : Table) →
    AgreeFor first second (block first number body context table)
      (block second number body context table)
  | _, [], _, _ => agreeFor_refl _
  | number, value :: rest, context, table => by
    rw [block, block]
    refine ((agreeFor_stmt docs value context table).inside _).bind fun left right spelled => ?_
    refine (agreeFor_block docs (number + 1) rest context _).bind fun leftRest rightRest later => ?_
    exact .ok ((spelled.punct ";").append later)

theorem agreeFor_firstOf (docs : second.noDocstrings = first.noDocstrings) :
    (body : List Stmt) → (context : Context) → (table : Table) →
    AgreeFor first second (firstOf first body context table) (firstOf second body context table)
  | [], _, _ => agreeFor_refl _
  | value :: rest, context, table => by
    rw [firstOf, firstOf]
    exact agreeFor_stmt docs value context table

/-- A function is lowered alike for two object types, up to the spelling of that type. -/
theorem agreeFor_function (docs : second.noDocstrings = first.noDocstrings) :
    (definition : FunctionOf Stmt) → (context : Context) → (table : Table) →
    AgreeFor first second (function first definition context table)
      (function second definition context table)
  | ⟨name, parameters, body, decorators, returns⟩, context, table => by
    rw [function, function]
    split
    · exact .error _
    refine ((agreeFor_params parameters).inside _).bind fun clause otherClause clauses => ?_
    refine (agreeFor_result returns).bind fun output otherOutput outputs => ?_
    refine ((agreeFor_block docs 0 body context _).inside _).bind fun left right inner => ?_
    exact .ok (respelled_braced (respelled_head docs context _ clauses outputs)
      ((respelled_declarations _).append inner))

end

end Lower

/-! ### Hints and functions -/

/-- The same settings with another namespace and another choice about writing it. -/
def Options.qualifying (options : Options) (space : String) (qualified : Bool) : Options :=
  { options with space, qualifyObjects := qualified }

/-- A hint means a type with one namespace for the dynamic type if and only if it does with another,
and the types differ in the leaves that are the dynamic type. So the settings for it do not change
whether and how a function fails, and otherwise only the spelling of those leaves. -/
theorem types_differ_in_object_leaves :
    (∀ space other hint, Ty.ofHint? (.object other) hint =
      (Ty.ofHint? (.object space) hint).map (Ty.withObject (.object other))) ∧
    ∀ (options : Options) space qualified definition context table,
      Lower.AgreeFor options (options.qualifying space qualified)
        (Lower.function options definition context table)
        (Lower.function (options.qualifying space qualified) definition context table) := by
  refine ⟨fun space other hint => Ty.ofHint?_eq_map space (.object other) hint, ?_⟩
  intro options space qualified definition context table
  have docs : (options.qualifying space qualified).noDocstrings = options.noDocstrings := rfl
  exact Lower.agreeFor_function docs definition context table

end Oxide
