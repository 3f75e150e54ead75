/-
This file proves that the spelling of a type does not depend on what stands before it: a type adds
its own tokens to a stream and leaves the stream alone, also where it marks tokens as joint. What it
adds is put together by a few rules, so a property of streams that follows them holds of every type.
-/

import Oxide.Proofs.Bare
import Oxide.Ty

namespace Oxide

/-! ### Marks behind a stream -/

namespace Stream

theorem join_cons {rest : Stream} (nonempty : rest ≠ []) (token : Token) :
    join (token :: rest) = token :: join rest := by
  obtain _ | ⟨next, later⟩ := rest
  · exact absurd rfl nonempty
  · rfl

/-- A mark reaches no further back than the last token. -/
theorem join_append {second : Stream} (nonempty : second ≠ []) (first : Stream) :
    join (first ++ second) = first ++ join second := by
  induction first with
  | nil => rfl
  | cons token rest inductionHypothesis =>
    rw [List.cons_append, join_cons (List.append_ne_nil_of_right_ne_nil rest nonempty),
      inductionHypothesis, List.cons_append]

theorem join_concat (stream : Stream) (last : Token) :
    join (stream ++ [last]) = stream ++ [{ last with joint := true }] :=
  join_append (List.cons_ne_nil last []) stream

/-- A group leaves what stands before it alone. -/
theorem group_append (first second : Stream) (opening closing : String) (inner : Stream) :
    (first ++ second).group opening closing inner =
      first ++ second.group opening closing inner := by
  simp only [group, punct, join_concat]
  split <;> simp only [List.append_assoc]

/-- A path is put behind what is there. -/
theorem path_eq_append (stream : Stream) (parts : List String) :
    stream.path parts = stream ++ path [] parts := by
  induction parts generalizing stream with
  | nil => simp [path]
  | cons part rest inductionHypothesis =>
    obtain _ | ⟨next, later⟩ := rest
    · rfl
    · rw [path, path, inductionHypothesis]
      rw [inductionHypothesis (join (punct (join (ident [] part)) "::"))]
      simp only [ident, punct, join_concat]
      simp

theorem path_ne_nil {parts : List String} (nonempty : parts ≠ []) : path [] parts ≠ [] := by
  obtain _ | ⟨part, rest⟩ := parts
  · exact absurd rfl nonempty
  obtain _ | ⟨next, later⟩ := rest
  · simp [path, ident]
  · rw [path, path_eq_append]
    simp [ident, punct, join]

end Stream

namespace Ty

theorem splitPathFrom_ne_nil (piece characters : List Char) :
    splitPathFrom piece characters ≠ [] := by
  fun_induction splitPathFrom piece characters with
  | case1 piece => simp
  | case2 piece rest inductionHypothesis => simp
  | case3 piece c rest notColons inductionHypothesis => exact inductionHypothesis

theorem openArguments_eq_append (stream : Stream) (name : String) :
    openArguments stream name = stream ++ openArguments [] name := by
  have nonempty : Stream.path [] (splitPath name) ≠ [] :=
    Stream.path_ne_nil (splitPathFrom_ne_nil [] _)
  simp only [openArguments, Stream.punct, Stream.join_concat]
  rw [Stream.path_eq_append, Stream.join_append nonempty, List.append_assoc]

/-- Only the last token matters where arguments are closed. -/
theorem closeArguments_append {second : Stream} (nonempty : second ≠ []) (first : Stream) :
    closeArguments (first ++ second) = first ++ closeArguments second := by
  simp [closeArguments, Stream.punct, Stream.join_append nonempty]

theorem openArguments_ne_nil (name : String) : openArguments [] name ≠ [] := by
  simp [openArguments, Stream.punct, Stream.join_concat]

/-- The arguments of a generic type leave the stream before its name alone if they leave their
opening alone. -/
theorem emit_arguments (stream : Stream) (name : String) (arguments : Stream → Stream)
    (appends : ∀ opened, arguments opened = opened ++ arguments []) :
    closeArguments (arguments (openArguments stream name)) =
      stream ++ closeArguments (arguments (openArguments [] name)) := by
  rw [appends, openArguments_eq_append, List.append_assoc, ← appends,
    closeArguments_append]
  rw [appends]
  exact List.append_ne_nil_of_left_ne_nil (openArguments_ne_nil name) _

mutual

/-- A type adds its spelling to a stream and changes nothing in it. -/
theorem emit_eq_append : (type : Ty) → (stream : Stream) →
    type.emit stream = stream ++ type.emit []
  | .named name, stream => by
    rw [emit, emit, Stream.path_eq_append]
  | .int bits signed, stream => by rw [emit, emit]; rfl
  | .float bits, stream => by rw [emit, emit]; rfl
  | .bool, stream => by rw [emit, emit]; rfl
  | .str, stream => by rw [emit, emit]; rfl
  | .unit, stream => by
    simp [emit, Stream.punct, Stream.join_concat, Stream.join]
  | .object space, stream => by
    rw [emit, emit]
    split
    · rfl
    · rw [Stream.path_eq_append]
  | .vec item, stream => by
    rw [emit, emit, emit_arguments stream "Vec" item.emit (emit_eq_append item)]
  | .map key value, stream => by
    rw [emit, emit]
    rw [emit_arguments stream _ (fun opened => value.emit (Stream.punct (key.emit opened) ","))
      fun opened => by
        simp only [Stream.punct]
        rw [emit_eq_append key, emit_eq_append value, emit_eq_append value (_ ++ [_])]
        simp]
  | .set item, stream => by
    rw [emit, emit, emit_arguments stream _ item.emit (emit_eq_append item)]
  | .option item, stream => by
    rw [emit, emit, emit_arguments stream _ item.emit (emit_eq_append item)]
  | .tuple items, stream => by
    have opened (before : Stream) : emitList items (Stream.join (before.punct "(")) =
        before ++ ({ kind := .punct, text := "(", joint := true } :: emitList items []) := by
      rw [Stream.punct, Stream.join_concat, emitList_eq_append items, List.append_assoc]
      rfl
    rw [emit, emit, opened, opened]
    simp only [Stream.punct, List.nil_append]
    split
    · rw [List.append_assoc, Stream.join_append (by simp), List.append_assoc]
    · rw [Stream.join_append (by simp), List.append_assoc]
  | .ref target mutable, stream => by
    simp only [emit, Stream.punct, Stream.keyword, Stream.join_concat]
    cases mutable with
    | false => rw [if_neg Bool.false_ne_true, if_neg Bool.false_ne_true, emit_eq_append target,
        emit_eq_append target (_ ++ _), List.append_assoc, List.nil_append]
    | true => rw [if_pos rfl, if_pos rfl, emit_eq_append target,
        emit_eq_append target (_ ++ _), List.append_assoc, List.append_assoc, List.nil_append,
        List.append_assoc]
  | .generic name arguments, stream => by
    rw [emit, emit, emit_arguments stream name (emitList arguments) (emitList_eq_append arguments)]

/-- The types of a list are put behind what is there. -/
theorem emitList_eq_append : (types : List Ty) → (stream : Stream) →
    emitList types stream = stream ++ emitList types []
  | [], stream => by simp [emitList]
  | first :: rest, stream => by
    rw [emitList, emitList, emitTail_eq_append, emit_eq_append first, List.append_assoc,
      ← emitTail_eq_append]

theorem emitTail_eq_append : (types : List Ty) → (stream : Stream) →
    emitTail types stream = stream ++ emitTail types []
  | [], stream => by simp [emitTail]
  | first :: rest, stream => by
    rw [emitTail, emitTail, emitTail_eq_append rest, emitTail_eq_append rest (first.emit _),
      emit_eq_append first, emit_eq_append first (Stream.punct [] ",")]
    simp [Stream.punct]

end

end Ty

/-! ### The rules of types -/

/-- The signs of types that are no brackets. -/
def looseTypeSigns : List String := ["::", ",", "&"]

/-- The rules by which the bare stream of a type is put together, with its brackets in pairs. -/
structure BracketedTypeRules (property : Stream → Prop) : Prop where
  nil : property []
  append {first second : Stream} : property first → property second → property (first ++ second)
  ident (name : String) : property [.ident name]
  sign {text : String} : text ∈ looseTypeSigns → property [.punct text]
  mutable : property [.keyword "mut"]
  parenthesized {stream : Stream} : property stream →
    property (.punct "(" :: (stream ++ [.punct ")"]))
  angled {stream : Stream} : property stream →
    property (.punct "<" :: (stream ++ [.punct ">"]))

namespace BracketedTypeRules

open Ty

variable {property : Stream → Prop}

theorem path (rules : BracketedTypeRules property) (parts : List String) :
    property (Stream.path [] parts).bare := by
  induction parts with
  | nil => exact rules.nil
  | cons part rest inductionHypothesis =>
    obtain _ | ⟨next, later⟩ := rest
    · exact rules.ident part
    · rw [Stream.path, Stream.path_eq_append]
      simp only [Stream.bare_append, Stream.bare_join, Stream.bare_punct, Stream.bare_ident]
      exact rules.append (rules.append (rules.ident part) (rules.sign (by decide)))
        inductionHypothesis

/-- A type with arguments follows the rules if its arguments do. -/
theorem arguments (rules : BracketedTypeRules property) {name : String}
    {arguments : Stream → Stream} (appends : ∀ opened, arguments opened = opened ++ arguments [])
    (argumentsHold : property (arguments []).bare) :
    property (closeArguments (arguments (openArguments [] name))).bare := by
  have spelled : (closeArguments (arguments (openArguments [] name))).bare =
      (Stream.path [] (splitPath name)).bare ++
        .punct "<" :: ((arguments []).bare ++ [.punct ">"]) := by
    rw [appends]
    simp [closeArguments, openArguments]
  rw [spelled]
  exact rules.append (rules.path _) (rules.angled argumentsHold)

mutual

/-- What follows the rules holds of every type. -/
theorem emit (rules : BracketedTypeRules property) : (type : Ty) → property (type.emit []).bare
  | .named name => by
    rw [Ty.emit]
    exact rules.path _
  | .int bits signed => by
    rw [Ty.emit]
    exact rules.ident _
  | .float bits => by
    rw [Ty.emit]
    exact rules.ident _
  | .bool => by
    rw [Ty.emit]
    exact rules.ident "bool"
  | .str => by
    rw [Ty.emit]
    exact rules.ident "String"
  | .unit => by
    rw [Ty.emit]
    exact rules.parenthesized rules.nil
  | .object space => by
    rw [Ty.emit]
    split
    · exact rules.ident "PyObject"
    · exact rules.path _
  | .vec item => by
    rw [Ty.emit]
    exact rules.arguments (emit_eq_append item) (rules.emit item)
  | .map key value => by
    rw [Ty.emit]
    refine @arguments _ rules _ (fun opened => value.emit (Stream.punct (key.emit opened) ","))
      (fun opened => ?_) ?_
    · rw [emit_eq_append value, emit_eq_append value (Stream.punct _ _), emit_eq_append key]
      simp [Stream.punct]
    · rw [emit_eq_append value, Stream.bare_append, Stream.bare_punct]
      exact rules.append (rules.append (rules.emit key) (rules.sign (by decide)))
        (rules.emit value)
  | .set item => by
    rw [Ty.emit]
    exact rules.arguments (emit_eq_append item) (rules.emit item)
  | .option item => by
    rw [Ty.emit]
    exact rules.arguments (emit_eq_append item) (rules.emit item)
  | .tuple items => by
    rw [Ty.emit, emitList_eq_append]
    simp only [Stream.bare_punct, Stream.bare_join]
    split
    · simp only [Stream.bare_punct, Stream.bare_append, Stream.bare_join]
      exact rules.parenthesized (rules.append (rules.emitList items) (rules.sign (by decide)))
    · simp only [Stream.bare_punct, Stream.bare_append, Stream.bare_join]
      exact rules.parenthesized (rules.emitList items)
  | .ref target mutable => by
    rw [Ty.emit, emit_eq_append target, Stream.bare_append]
    refine rules.append ?_ (rules.emit target)
    cases mutable with
    | false => exact rules.sign (by decide)
    | true => exact @append _ rules [.punct "&"] _ (rules.sign (by decide)) rules.mutable
  | .generic name parameters => by
    rw [Ty.emit]
    exact rules.arguments (emitList_eq_append parameters) (rules.emitList parameters)

theorem emitList (rules : BracketedTypeRules property) : (types : List Ty) →
    property (Ty.emitList types []).bare
  | [] => by
    rw [Ty.emitList]
    exact rules.nil
  | first :: rest => by
    rw [Ty.emitList, emitTail_eq_append, Stream.bare_append]
    exact rules.append (rules.emit first) (rules.emitTail rest)

theorem emitTail (rules : BracketedTypeRules property) : (types : List Ty) →
    property (Ty.emitTail types []).bare
  | [] => by
    rw [Ty.emitTail]
    exact rules.nil
  | first :: rest => by
    rw [Ty.emitTail, emitTail_eq_append, emit_eq_append, Stream.bare_append, Stream.bare_append]
    exact rules.append (rules.append (rules.sign (by decide)) (rules.emit first))
      (rules.emitTail rest)

end

end BracketedTypeRules

/-- The signs of types that come alone. -/
def typeSigns : List String := ["::", "<", ">", ",", "&"]

/-- The rules by which the bare stream of a type is put together, for what need not look at the
pairs of angle brackets. -/
structure TypeRules (property : Stream → Prop) : Prop where
  nil : property []
  append {first second : Stream} : property first → property second → property (first ++ second)
  ident (name : String) : property [.ident name]
  sign {text : String} : text ∈ typeSigns → property [.punct text]
  mutable : property [.keyword "mut"]
  parenthesized {stream : Stream} : property stream →
    property (.punct "(" :: (stream ++ [.punct ")"]))

namespace TypeRules

variable {property : Stream → Prop}

/-- What holds of each bracket alone holds of a pair of them. -/
theorem bracketed (rules : TypeRules property) : BracketedTypeRules property where
  nil := rules.nil
  append := rules.append
  ident := rules.ident
  sign member :=
    have loose : looseTypeSigns ⊆ typeSigns := by decide
    rules.sign (loose member)
  mutable := rules.mutable
  parenthesized := rules.parenthesized
  angled holds :=
    @append _ rules [.punct "<"] _ (rules.sign (by decide))
      (rules.append holds (rules.sign (by decide)))

theorem path (rules : TypeRules property) (parts : List String) :
    property (Stream.path [] parts).bare :=
  rules.bracketed.path parts

/-- What follows the rules holds of every type. -/
theorem emit (rules : TypeRules property) (type : Ty) : property (type.emit []).bare :=
  rules.bracketed.emit type

end TypeRules

end Oxide
