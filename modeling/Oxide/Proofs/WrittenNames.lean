/-
This file says which names an expression is written with if its stream is taken for a place. Only a
name, or names in parentheses with commas between them, can be taken for a place that has names; so
whatever holds an operator, a call, a field or a literal has none.
-/

import Oxide.Proofs.BoundNames
import Oxide.Proofs.Spots

namespace Oxide.Lower

/-! ### Expressions as places -/

mutual

/-- The names that an expression consists of, if it is written as nothing but names. -/
def writtenNames : Expr → List String
  | .name id => [id]
  | .constant .none => ["None"]
  | .unaryOp _ value => writtenNames value
  | .boolOp _ values => writtenNamesOf values
  | .tuple items => writtenNamesOf items
  | _ => []

/-- The names that several expressions consist of. -/
def writtenNamesOf : List Expr → List String
  | [] => []
  | first :: rest => writtenNames first ++ writtenNamesOf rest

end

mutual

/-- A target is written with the names that it binds. -/
theorem targetNames_subset_writtenNames (place : Expr) :
    targetNames place ⊆ writtenNames place := by
  cases place with
  | name id => exact List.Subset.refl _
  | tuple items =>
    rw [targetNames, writtenNames]
    exact targetsNames_subset_writtenNamesOf items
  | _ => simp [targetNames]

theorem targetsNames_subset_writtenNamesOf : (places : List Expr) →
    targetsNames places ⊆ writtenNamesOf places
  | [] => List.nil_subset _
  | first :: rest => by
    rw [targetsNames, writtenNamesOf]
    exact List.append_subset.mpr
      ⟨List.subset_append_of_subset_left _ (targetNames_subset_writtenNames first),
        List.subset_append_of_subset_right _ (targetsNames_subset_writtenNamesOf rest)⟩

end

/-- Whether the names of a stream, seen as a place or as a list of names, are among the names. -/
structure NamesAmong (names : List String) (stream : Stream) : Prop where
  place : ∀ text ∈ placeNames stream, ∃ x ∈ names, identName x = text
  list : isNameList stream → ∀ text ∈ identTexts stream, ∃ x ∈ names, identName x = text

namespace NamesAmong

variable {names : List String} {stream : Stream}

/-- A stream with a foreign token in it is no list of names at all. -/
theorem of_foreign {token : Token} (member : token ∈ stream) (foreign : token.isForeign) :
    NamesAmong names stream where
  place text textMember := by
    rw [placeNames_eq_nil_of_mem member foreign] at textMember
    cases textMember
  list isList := by
    simp only [Token.isForeign, Bool.not_eq_true', Bool.or_eq_false_iff, decide_eq_false_iff_not]
      at foreign
    exact absurd isList (isNameList_eq_false_of_mem member (by simp [foreign]))

theorem ident (id : String) : NamesAmong [id] [.ident id] where
  place _ member := ⟨id, List.mem_singleton_self id, (List.mem_singleton.mp member).symm⟩
  list _ _ member := ⟨id, List.mem_singleton_self id, (List.mem_singleton.mp member).symm⟩

theorem nil : NamesAmong names [] where
  place _ member := nomatch member
  list _ _ member := nomatch member

/-- Parentheses around a list of names change nothing. -/
theorem parenthesized (among : isNameList stream →
      ∀ text ∈ identTexts stream, ∃ x ∈ names, identName x = text) :
    NamesAmong names (.punct "(" :: (stream ++ [.punct ")"])) where
  place text member := by
    rw [placeNames_parenthesized] at member
    split at member
    · exact among ‹_› text member
    · cases member
  list isList := absurd isList (isNameList_eq_false_of_mem List.mem_cons_self (by decide))

theorem operand {value : Expr} (among : NamesAmong names stream.bare) :
    NamesAmong names (Lower.operand value stream).bare := by
  unfold Lower.operand
  split
  · rw [Stream.bare_parenthesized]
    exact parenthesized among.list
  · exact among

end NamesAmong

/-- Something with arguments behind it is no place. -/
theorem placeNames_call {callee arguments : Stream} (nonempty : callee ≠ []) :
    placeNames (callee ++ .punct "(" :: (arguments ++ [.punct ")"])) = [] := by
  cases callee with
  | nil => exact absurd rfl nonempty
  | cons first rest =>
    rw [List.cons_append, placeNames_cons (by simp), if_neg]
    simp only [Bool.and_eq_true, not_and]
    intro _
    refine isNameList_eq_false_of_mem ?_ (show ¬ ((Token.punct "(").kind = .ident ∨ _) by decide)
    rw [← List.cons_append, ← List.append_assoc, List.dropLast_concat]
    exact List.mem_append_right _ List.mem_cons_self

/-- What an expression and its stream have to do with each other, as far as places go. -/
def Placed (value : Expr) (stream : Stream) : Prop :=
  NamesAmong (writtenNames value) stream.bare ∧ (¬ isCompound value → stream.bare ≠ [])

theorem Placed.operand_ne_nil {value : Expr} {stream : Stream} (placed : Placed value stream) :
    (operand value stream).bare ≠ [] := by
  unfold operand
  split
  · rw [Stream.bare_parenthesized]
    exact List.cons_ne_nil _ _
  · exact placed.2 ‹_›

/-- An expression that is emitted with a foreign token can be no place. -/
theorem placed_of_foreign {value : Expr} {stream : Stream} {token : Token}
    (member : token ∈ stream.bare) (foreign : token.isForeign) : Placed value stream :=
  ⟨.of_foreign member foreign, fun _ => List.ne_nil_of_mem member⟩

theorem placed_constant (value : Constant) : Placed (.constant value) (constant value) := by
  cases value with
  | none => exact ⟨.ident "None", fun _ => List.cons_ne_nil _ _⟩
  | bool value =>
    cases value with
    | true => exact placed_of_foreign List.mem_cons_self rfl
    | false => exact placed_of_foreign List.mem_cons_self rfl
  | int text => exact placed_of_foreign List.mem_cons_self rfl
  | str text => exact placed_of_foreign List.mem_cons_self rfl
  | float text =>
    rw [constant, float]
    split
    · exact @placed_of_foreign _ _ (.punct "::") (List.mem_cons_of_mem _ List.mem_cons_self) rfl
    · exact placed_of_foreign List.mem_cons_self rfl

theorem placed_name (id : String) : Placed (.name id) (name id) := by
  unfold name
  split
  · exact placed_of_foreign List.mem_cons_self rfl
  split
  · exact placed_of_foreign List.mem_cons_self rfl
  split
  · rename_i isNone
    subst isNone
    exact ⟨.ident "None", fun _ => List.cons_ne_nil _ _⟩
  · exact ⟨.ident id, fun _ => List.cons_ne_nil _ _⟩

theorem mem_method (receiver : Stream) (name : String) (arguments : Stream) :
    .punct "." ∈ (method receiver name arguments).bare := by
  rw [Stream.bare_method]
  exact List.mem_append_right _ List.mem_cons_self

theorem mem_bang (name opening closing : String) (arguments : Stream) :
    .punct "!" ∈ ((Stream.bang [] name).group opening closing arguments).bare := by
  rw [Stream.bare_group, Stream.bare_bang]
  exact List.mem_append_left _ (List.mem_append_right _ (List.mem_cons_of_mem _ List.mem_cons_self))

theorem mem_sign (first : Stream) (sign : String) (second : Stream) :
    .punct sign ∈ (first.punct sign ++ second).bare := by
  rw [Stream.bare_append, Stream.bare_punct]
  exact List.mem_append_left _ (List.mem_append_right _ List.mem_cons_self)

theorem mem_range (start stop : Stream) : .punct ".." ∈ (range start stop).bare := by
  rw [range, Stream.bare_parenthesized, Stream.bare_append, Stream.bare_join, Stream.bare_punct]
  exact List.mem_cons_of_mem _ (List.mem_append_left _ (List.mem_append_left _
    (List.mem_append_right _ List.mem_cons_self)))

/-- Every comparison is written with a sign or a method. -/
theorem exists_foreign_comparison {left right : Expr} {first second piece : Stream} {op : String}
    (compared : Comparison left first op right second piece) :
    ∃ token ∈ piece.bare, token.isForeign := by
  cases compared with
  | contains => exact ⟨_, mem_method .., rfl⟩
  | excludes =>
    rw [Stream.bare_append]
    exact ⟨_, List.mem_append_right _ (mem_method ..), rfl⟩
  | isNone => exact ⟨_, mem_method .., rfl⟩
  | isSome => exact ⟨_, mem_method .., rfl⟩
  | signed op right second sign notNone notSome known =>
    have foreign : ∀ sign ∈ ["==", "!=", "<", "<=", ">", ">="], (Token.punct sign).isForeign := by
      decide
    exact ⟨_, mem_sign .., foreign sign (mem_of_comparisonSign? known)⟩

/-- A chain of comparisons shows a foreign token. -/
theorem exists_foreign_conjunction {left : Expr} {first : Stream} {ops : List String}
    {rights : List Expr} {streams pieces : List Stream} (nonempty : ops ≠ [])
    (compared : Comparisons left first ops rights streams pieces) :
    ∃ token ∈ (conjunction pieces).bare, token.isForeign := by
  cases compared with
  | nil => exact absurd rfl nonempty
  | cons single rest =>
    cases rest with
    | nil => exact exists_foreign_comparison single
    | cons _ _ =>
      rw [conjunction, List.map_cons, List.map_cons, separated]
      · exact ⟨_, mem_sign .., rfl⟩
      · intro last impossible
        cases impossible

/-- The call of a known function shows a foreign token. -/
theorem exists_foreign_special {table : Table} {function : Expr} {arguments : List Expr}
    {streams : List Stream} {stream : Stream}
    (known : SpecialCall table function arguments streams stream) :
    ∃ token ∈ stream.bare, token.isForeign := by
  cases known with
  | print => exact ⟨_, mem_bang .., rfl⟩
  | len => exact ⟨_, mem_method .., rfl⟩
  | str => exact ⟨_, mem_method .., rfl⟩
  | rangeTo => exact ⟨_, mem_range .., rfl⟩
  | rangeFrom => exact ⟨_, mem_range .., rfl⟩
  | rangeBy => exact ⟨_, mem_method .., rfl⟩

/-- What stands in separated streams is the sign or stands in one of them. -/
theorem mem_separated {sign : String} {streams : List Stream} {token : Token}
    (member : token ∈ separated sign streams) :
    token = .punct sign ∨ ∃ stream ∈ streams, token ∈ stream := by
  fun_induction separated sign streams with
  | case1 => cases member
  | case2 last => exact .inr ⟨last, List.mem_cons_self, member⟩
  | case3 first next rest inductionHypothesis =>
    rw [List.mem_append, Stream.punct, List.mem_append, List.mem_singleton] at member
    rcases member with (inFirst | isSign) | inRest
    · exact .inr ⟨first, List.mem_cons_self, inFirst⟩
    · exact .inl isSign
    · rcases inductionHypothesis inRest with isSign | ⟨stream, streamMember, tokenMember⟩
      · exact .inl isSign
      · exact .inr ⟨stream, List.mem_cons_of_mem _ streamMember, tokenMember⟩

theorem subset_separated {sign : String} {streams : List Stream} {stream : Stream}
    (member : stream ∈ streams) : stream ⊆ separated sign streams := by
  fun_induction separated sign streams with
  | case1 => cases member
  | case2 last =>
    rw [List.mem_singleton.mp member]
    exact List.Subset.refl _
  | case3 first next rest inductionHypothesis =>
    rcases List.mem_cons.mp member with rfl | inRest
    · exact List.subset_append_of_subset_left _ (List.subset_append_left _ _)
    · exact List.subset_append_of_subset_right _ (inductionHypothesis inRest)

/-- The names in one of several streams are written in one of the expressions. -/
theorem exists_placed_of_mem {items : List Expr} {streams : List Stream} {stream : Stream}
    (all : List.Forall₂ Placed items streams) (member : stream ∈ streams) :
    ∃ names, NamesAmong names stream.bare ∧ names ⊆ writtenNamesOf items := by
  induction all with
  | nil => cases member
  | cons placed _ inductionHypothesis =>
    rw [writtenNamesOf]
    rcases List.mem_cons.mp member with rfl | inRest
    · exact ⟨_, placed.1, List.subset_append_left _ _⟩
    · obtain ⟨names, among, subset⟩ := inductionHypothesis inRest
      exact ⟨names, among, List.subset_append_of_subset_right _ subset⟩

/-- The names of a tuple are those of its items, whether it ends with a comma or not. -/
theorem names_tuple {items : List Expr} {streams : List Stream} {inner : Stream}
    (all : List.Forall₂ Placed items streams) (isList : isNameList inner)
    (made : inner = (Stream.comma streams).bare ∨
      inner = (Stream.comma streams).bare ++ [.punct ","]) :
    ∀ text ∈ identTexts inner, ∃ x ∈ writtenNamesOf items, identName x = text := by
  rw [Stream.bare_comma] at made
  have contains : separated "," (streams.map Stream.bare) ⊆ inner := by
    rcases made with rfl | rfl
    · exact List.Subset.refl _
    · exact List.subset_append_left _ _
  intro text member
  simp only [identTexts, List.mem_map, List.mem_filter, decide_eq_true_eq] at member
  obtain ⟨token, ⟨inInner, isIdent⟩, rfl⟩ := member
  have inItems : token = .punct "," ∨ ∃ stream ∈ streams.map Stream.bare, token ∈ stream := by
    rcases made with rfl | rfl
    · exact mem_separated inInner
    · rcases List.mem_append.mp inInner with inComma | isLast
      · exact mem_separated inComma
      · exact .inl (List.mem_singleton.mp isLast)
  rcases inItems with rfl | ⟨_, bareMember, inStream⟩
  · cases isIdent
  obtain ⟨stream, streamMember, rfl⟩ := List.mem_map.mp bareMember
  obtain ⟨names, among, subset⟩ := exists_placed_of_mem all streamMember
  have streamList : isNameList stream.bare := isNameList_eq_true.mpr fun other otherMember =>
    isNameList_eq_true.mp isList other (contains (subset_separated bareMember otherMember))
  obtain ⟨x, xMember, same⟩ := among.list streamList token.text (by
    simp only [identTexts, List.mem_map, List.mem_filter, decide_eq_true_eq]
    exact ⟨token, ⟨inStream, isIdent⟩, rfl⟩)
  exact ⟨x, subset xMember, same⟩

/-- Being placed follows the rules for expressions. -/
theorem placedRules {context : Context} {table : Table} : ExprRules context table Placed where
  constant := placed_constant
  name := placed_name
  binaryMethod _ _ _ _ _ _ _ _ _ := placed_of_foreign (mem_method ..) rfl
  binarySign _ _ _ sign _ _ _ known _ _ := by
    have foreign : ∀ sign ∈ ["+", "-", "*", "/", "%", "<<", ">>", "|", "^", "&"],
        (Token.punct sign).isForeign := by decide
    exact placed_of_foreign (mem_sign ..) (foreign sign (mem_of_binarySign? known))
  unary op value sign stream known valuePlaced := by
    obtain spelled | spelled | spelled := bare_of_unarySign? known
    · refine @placed_of_foreign _ _ (.punct "!") ?_ rfl
      rw [Stream.bare_append, spelled]
      exact List.mem_cons_self
    · refine @placed_of_foreign _ _ (.punct "-") ?_ rfl
      rw [Stream.bare_append, spelled]
      exact List.mem_cons_self
    · refine ⟨?_, fun simple => absurd rfl simple⟩
      rw [Stream.bare_append, spelled, List.nil_append, writtenNames]
      exact valuePlaced.1.operand
  logical op values sign streams known valuesPlaced := by
    have foreign : ∀ sign ∈ ["&&", "||"], (Token.punct sign).isForeign := by decide
    cases valuesPlaced with
    | nil => exact ⟨.nil, fun simple => absurd rfl simple⟩
    | cons first rest =>
      cases rest with
      | nil =>
        refine ⟨?_, fun simple => absurd rfl simple⟩
        rw [writtenNames, writtenNamesOf, writtenNamesOf, List.append_nil]
        exact first.1.operand
      | cons _ _ => exact placed_of_foreign (mem_sign ..) (foreign sign (mem_of_logicalSign? known))
  compare _ _ _ _ _ _ nonempty emitted _ _ := by
    obtain ⟨token, member, foreign⟩ := exists_foreign_conjunction nonempty emitted
    exact placed_of_foreign member foreign
  special _ _ _ _ known _ := by
    obtain ⟨token, member, foreign⟩ := exists_foreign_special known
    exact placed_of_foreign member foreign
  call function arguments callee streams _ functionPlaced _ := by
    refine ⟨⟨fun text member => ?_, fun isList => ?_⟩, fun _ => ?_⟩
    · rw [Stream.bare_group, Stream.bare_join, placeNames_call functionPlaced.operand_ne_nil]
        at member
      cases member
    · rw [Stream.bare_group] at isList
      exact absurd isList (isNameList_eq_false_of_mem (List.mem_append_right _ List.mem_cons_self)
        (by decide))
    · rw [Stream.bare_group]
      exact List.append_ne_nil_of_right_ne_nil _ (List.cons_ne_nil _ _)
  field value attr stream valuePlaced := by
    refine @placed_of_foreign _ _ (.punct ".") ?_ rfl
    rw [Stream.bare_ident, Stream.bare_dotted]
    exact List.mem_append_left _ (List.mem_append_right _ List.mem_cons_self)
  subscript value slice stream index _ _ := by
    refine @placed_of_foreign _ _ (.punct "[") ?_ rfl
    rw [Stream.bare_group]
    exact List.mem_append_right _ List.mem_cons_self
  list items streams _ := placed_of_foreign (mem_bang ..) rfl
  tuple items streams itemsPlaced := by
    rw [Placed, Stream.bare_parenthesized]
    refine ⟨.parenthesized fun isList => ?_, fun _ => List.cons_ne_nil _ _⟩
    rw [writtenNames]
    refine names_tuple itemsPlaced isList ?_
    split
    · rw [Stream.bare_punct]
      exact .inr rfl
    · exact .inl rfl
  await value stream _ _ := by
    refine @placed_of_foreign _ _ (.punct ".") ?_ rfl
    rw [Stream.bare_keyword, Stream.bare_dotted]
    exact List.mem_append_left _ (List.mem_append_right _ List.mem_cons_self)

/-- The names of an expression as a place are those that it is written with. -/
theorem exists_writtenName {context : Context} {table : Table} {value : Expr} {stream : Stream}
    (lowered : expr context table value = .ok stream) :
    ∀ text ∈ placeNames stream.bare, ∃ x ∈ writtenNames value, identName x = text :=
  (placedRules.sound value stream lowered).1.place

end Oxide.Lower
