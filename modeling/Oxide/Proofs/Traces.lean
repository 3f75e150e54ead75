/-
This file says what happens to names in everything that is emitted. `Traces` has a rule for each
kind of thing that a statement, a block or a function can do to names: a simple statement declares
all names that it assigns to, or it declares none of them and then all are bound already; and what
a compound statement does is done by the blocks in it. The tokens are forgotten, except for the
heads of the blocks, so what is proved about traces is proved once for all forms of statements.
-/

import Oxide.Proofs.Hoisting
import Oxide.Proofs.WrittenNames

namespace Oxide

open Spot

namespace Lower

/-! ### Patterns -/

theorem identTexts_separated {names : List String} {spell : String → Stream}
    (spelled : ∀ id, identTexts (spell id) = [identName id]) :
    identTexts (separated "," (names.map spell)) = names.map identName := by
  induction names with
  | nil => rfl
  | cons first rest inductionHypothesis =>
    cases rest with
    | nil => exact spelled first
    | cons second later =>
      have comma : identTexts [.punct ","] = [] := rfl
      rw [List.map_cons, List.map_cons, separated, Stream.punct, identTexts_append]
      change identTexts (spell first ++ [.punct ","]) ++ _ = _
      rw [identTexts_append, comma, spelled, ← List.map_cons, inductionHypothesis]
      rfl

/-- A pattern shows the names that it is made of. -/
theorem identTexts_boundPattern (names : List String) :
    identTexts (boundPattern names).bare = names.map identName := by
  rw [boundPattern, Stream.bare_comma, List.map_map]
  exact identTexts_separated fun _ => rfl

theorem identTexts_freshPattern (names : List String) :
    identTexts (freshPattern names).bare = names.map identName := by
  rw [freshPattern, Stream.bare_comma, List.map_map]
  exact identTexts_separated fun _ => rfl

/-- A pattern behind `let` declares all its names. -/
theorem declaredNames_freshPattern (names : List String) :
    declaredNames (.punct "(" :: ((freshPattern names).bare ++ [.punct ")"])) =
      names.map identName := by
  have within : ∀ token ∈ (freshPattern names).bare, ¬ token.endsNames := by
    rw [freshPattern, Stream.bare_comma, List.map_map]
    intro token member
    rcases mem_separated member with rfl | ⟨stream, streamMember, inStream⟩
    · decide
    · obtain ⟨id, _, rfl⟩ := List.mem_map.mp streamMember
      simp only [Function.comp_apply, Stream.bare_ident, Stream.bare_keyword, Stream.bare_nil,
        List.nil_append, List.mem_append, List.mem_singleton] at inStream
      rcases inStream with rfl | rfl
      · decide
      · exact Bool.false_ne_true
  have opening : identTexts [.punct "("] = [] := rfl
  have closing : identTexts [.punct ")"] = [] := rfl
  rw [declaredNames_of_not_endsNames, ← List.singleton_append, identTexts_append,
    identTexts_append, identTexts_freshPattern, opening, closing, List.nil_append, List.append_nil]
  rw [List.forall_mem_cons, List.forall_mem_append, List.forall_mem_singleton]
  exact ⟨by decide, within, by decide⟩

/-- A new variable is declared, and nothing in its type is. -/
theorem declaredNames_typing (id : String) (type? : Option Ty) :
    declaredNames (.keyword "mut" :: .ident id :: typing type?) = [identName id] := by
  cases type? with
  | none => rfl
  | some type => rfl

/-! ### The rules -/

/-- The names that a statement assigns to with an operator. -/
def augmentedBy : Stmt → List String
  | .augAssign place _ _ => writtenNames place
  | _ => []

/-- Whether a statement gives a hint to several names and no value, so that nothing is written. -/
def isSilent : Stmt → Bool
  | .annAssign (.tuple _) _ value => value.isAbsent
  | _ => false

/-- What a piece does to names with a table, inside blocks with the given heads. -/
inductive Traces : Piece → Table → List Stream → List Event → Prop where
  | settled {value : Stmt} {table : Table} {around : List Stream} {events : List Event}
      (known : ∀ x ∈ assignedBy value, isBound table x)
      (plain : ∀ event ∈ events, ∃ texts, event = .assigns around texts ∧
        ∀ text ∈ texts, ∃ x ∈ assignedBy value ++ augmentedBy value, identName x = text) :
      Traces (.stmt value) table around events
  | fresh {value : Stmt} {table : Table} {around : List Stream} {later : List Event}
      (spoken : ¬ isSilent value) (nonempty : assignedBy value ≠ [])
      (new : ∀ x ∈ assignedBy value, ¬ isBound table x)
      (plain : ∀ event ∈ later, event = .assigns around []) :
      Traces (.stmt value) table around
        (.declares around ((assignedBy value).map identName) :: later)
  | silent {value : Stmt} {table : Table} {around : List Stream} (isSilent : isSilent value) :
      Traces (.stmt value) table around []
  | ifElse {test : Expr} {body orelse : List Stmt} {table : Table} {around : List Stream}
      {head otherHead : Stream} {events others : List Event}
      (bodyTraced : Traces (.block body) (table.push .block "if") (head :: around) events)
      (otherTraced : Traces (.block orelse) (table.push .block "else") (otherHead :: around)
        others) :
      Traces (.stmt (.ifElse test body orelse)) table around (events ++ others)
  | ifFurther {test : Expr} {body : List Stmt} {further : Stmt} {table : Table}
      {around : List Stream} {head : Stream} {events others : List Event}
      (bodyTraced : Traces (.block body) (table.push .block "if") (head :: around) events)
      (furtherTraced : Traces (.stmt further) table around others) :
      Traces (.stmt (.ifElse test body [further])) table around (events ++ others)
  | whileLoop {test : Expr} {body : List Stmt} {table : Table} {around : List Stream}
      {head : Stream} {events : List Event}
      (bodyTraced : Traces (.block body) (table.push .block "while") (head :: around) events) :
      Traces (.stmt (.whileLoop test body [])) table around events
  | forLoop {place iter : Expr} {body : List Stmt} {table : Table} {around : List Stream}
      {head : Stream} {events : List Event}
      (looped : ∀ x ∈ targetNames place, identName x ∈ loopNames head)
      (bodyTraced : Traces (.block body) (bindTarget place .absent (table.push .block "for"))
        (head :: around) events) :
      Traces (.stmt (.forLoop place iter body [])) table around events
  | functionDef {definition : FunctionDef} {table : Table} {around : List Stream}
      {events : List Event} (traced : Traces (.function definition) table around events) :
      Traces (.stmt (.functionDef definition)) table around events
  | asyncFunctionDef {definition : FunctionDef} {table : Table} {around : List Stream}
      {events : List Event} (traced : Traces (.function definition) table around events) :
      Traces (.stmt (.asyncFunctionDef definition)) table around events
  | blockNil {table : Table} {around : List Stream} : Traces (.block []) table around []
  | blockCons {first : Stmt} {rest : List Stmt} {table : Table} {around : List Stream}
      {events later : List Event} (firstTraced : Traces (.stmt first) table around events)
      (restTraced : Traces (.block rest) (bindStmt table first) around later) :
      Traces (.block (first :: rest)) table around (events ++ later)
  | function {definition : FunctionDef} {table : Table} {around : List Stream} {head : Stream}
      {events : List Event} (named : .keyword "fn" ∈ head)
      (bodyTraced : Traces (.block definition.body) (bodyTable table definition) (head :: around)
        events) :
      Traces (.function definition) table around
        ((declarations (entryTable table definition.name definition.params)
          definition.body).map (fun declaration =>
            .declares (head :: around) [identName declaration.name]) ++ events)

/-! ### Simple statements -/

section

variable {context : Context} {table : Table} {value : Stmt} {spot : Spot}

/-- A statement that is one phrase does nothing to names. -/
theorem traces_calm {stream : Stream} (none : assignedBy value = []) (calm : Calm stream) :
    Traces (.stmt value) table spot.around (spot.events stream) := by
  rw [events_calm calm]
  refine .settled ?_ ?_
  · rw [none]
    exact List.forall_mem_nil _
  · exact List.forall_mem_nil _

/-- A place that is assigned to is declared, or all its names are bound. -/
theorem traces_assign {place : Expr} {type? : Option Ty} {target stream : Stream}
    (spoken : ¬ isSilent value) (assigned : assignedBy value = targetNames place)
    (placed : Place context table type? place target) (phrase : Phrase stream)
    (start : spot.current = []) :
    Traces (.stmt value) table spot.around
      (spot.events (target.bare ++ .punct "=" :: stream)) := by
  have settled {target : Stream} (calm : Calm target)
      (known : ∀ x ∈ assignedBy value, isBound table x)
      (named : ∀ text ∈ placeNames target, ∃ x ∈ assignedBy value, identName x = text) :
      Traces (.stmt value) table spot.around (spot.events (target ++ .punct "=" :: stream)) := by
    rw [events_assign calm phrase.calm, start, List.nil_append]
    refine .settled known (List.forall_mem_singleton.mpr ⟨_, rfl, fun text member => ?_⟩)
    obtain ⟨x, xMember, same⟩ := named text member
    exact ⟨x, List.mem_append_left _ xMember, same⟩
  have fresh {tokens : Stream} (calm : Calm tokens) (nonempty : assignedBy value ≠ [])
      (new : ∀ x ∈ assignedBy value, ¬ isBound table x)
      (declared : declaredNames tokens = (assignedBy value).map identName) :
      Traces (.stmt value) table spot.around
        (spot.events (.keyword "let" :: (tokens ++ .punct "=" :: stream))) := by
    rw [events_let_assign calm phrase.calm, declared]
    exact .fresh spoken nonempty new (List.forall_mem_singleton.mpr rfl)
  cases placed with
  | bound id bound =>
    refine settled (Phrase.ident id).calm ?_ ?_
    · rw [assigned]
      exact List.forall_mem_singleton.mpr bound
    · intro text member
      rw [assigned]
      exact ⟨id, List.mem_singleton_self id, (List.mem_singleton.mp member).symm⟩
  | fresh id new =>
    rw [bare_newVariable]
    refine @fresh (.keyword "mut" :: .ident id :: typing type?) ?_ ?_ ?_ ?_
    · exact (Phrase.append (.single (by decide)) (.append (.ident id) (phrase_typing type?))).calm
    · rw [assigned]
      exact List.cons_ne_nil _ _
    · rw [assigned]
      exact List.forall_mem_singleton.mpr new
    · rw [assigned, declaredNames_typing]
      rfl
  | boundTuple names bound =>
    rw [targetNames, targetsNames_map_name] at assigned
    rw [Stream.bare_parenthesized]
    refine settled (Phrase.parenthesized (phrase_boundPattern names)).calm ?_ ?_
    · rw [assigned]
      exact bound
    · intro text member
      rw [placeNames_parenthesized] at member
      split at member
      · rw [identTexts_boundPattern, List.mem_map] at member
        rw [assigned]
        exact member
      · cases member
  | freshTuple names nonempty new =>
    rw [targetNames, targetsNames_map_name] at assigned
    rw [Stream.bare_group, Stream.bare_join]
    refine @fresh (.punct "(" :: ((freshPattern names).bare ++ [.punct ")"])) ?_ ?_ ?_ ?_
    · exact (Phrase.parenthesized (phrase_freshPattern names)).calm
    · rw [assigned]
      exact nonempty
    · rw [assigned]
      exact new
    · rw [assigned, declaredNames_freshPattern]
  | field _ _ _ lowered =>
    refine settled (phrase_expr lowered).calm ?_ ?_
    · rw [assigned]
      exact List.forall_mem_nil _
    · intro text member
      obtain ⟨_, nowhere, _⟩ := exists_writtenName lowered text member
      cases nowhere
  | subscript _ _ _ lowered =>
    refine settled (phrase_expr lowered).calm ?_ ?_
    · rw [assigned]
      exact List.forall_mem_nil _
    · intro text member
      obtain ⟨_, nowhere, _⟩ := exists_writtenName lowered text member
      cases nowhere

/-- A new variable is traced as the declaration of a name that was not bound. -/
theorem traces_newVariable {id : String} {type? : Option Ty} (spoken : ¬ isSilent value)
    (assigned : assignedBy value = [id]) (new : ¬ isBound table id) :
    Traces (.stmt value) table spot.around (spot.events (newVariable id type?).bare) := by
  have calm : Calm (.keyword "mut" :: .ident id :: typing type?) :=
    (Phrase.append (.single (by decide)) (.append (.ident id) (phrase_typing type?))).calm
  rw [bare_newVariable]
  change Traces _ _ _
    (spot.events (.keyword "let" :: (.keyword "mut" :: .ident id :: typing type?)))
  rw [events_let calm, declaredNames_typing]
  have traced : Traces (.stmt value) table spot.around
      [.declares spot.around ((assignedBy value).map identName)] := by
    refine .fresh spoken ?_ ?_ (List.forall_mem_nil _)
    · rw [assigned]
      exact List.cons_ne_nil _ _
    · rw [assigned]
      exact List.forall_mem_singleton.mpr new
  rw [assigned] at traced
  exact traced

theorem calm_stopping {name : String} {arguments : Stream} (phrase : Phrase arguments.bare) :
    Calm (stopping name arguments).bare := by
  rw [stopping, Stream.bare_group, Stream.bare_join]
  exact (Phrase.append (phrase_bang name) (.parenthesized phrase)).calm

end

/-! ### Compound statements and functions -/

section

variable {spot : Spot} {opened inner : Stream}

/-- Behind a block the events go on where they were before it. -/
theorem events_braced_append (calm : Calm opened.bare) (neutral : Neutral inner.bare)
    (rest : Stream) :
    spot.events ((braced opened inner).bare ++ rest) =
      events ⟨(spot.current ++ opened.bare) :: spot.around, []⟩ inner.bare ++
        events ⟨spot.around, []⟩ rest := by
  rw [braced, Stream.bare_group, List.append_assoc, List.cons_append, List.append_assoc,
    List.singleton_append, events_block calm neutral]

/-- The events of a block are those of its inside. -/
theorem events_braced (calm : Calm opened.bare) (neutral : Neutral inner.bare) :
    spot.events (braced opened inner).bare =
      events ⟨(spot.current ++ opened.bare) :: spot.around, []⟩ inner.bare := by
  rw [← List.append_nil (braced opened inner).bare, events_braced_append calm neutral, events,
    List.append_nil]

/-- A condition with another case is one block behind another. -/
theorem bare_braced_else (opened inner other : Stream) :
    (braced ((braced opened inner).keyword "else") other).bare =
      (braced opened inner).bare ++ (braced (Stream.keyword [] "else") other).bare := by
  simp [braced]

theorem calm_keyword {word : String} (calm : (Token.keyword word).isCalm) :
    Calm (Stream.keyword [] word).bare :=
  .single calm

theorem calm_word {word : String} {condition : Stream} (calm : (Token.keyword word).isCalm)
    (phrase : Phrase condition.bare) : Calm (Stream.keyword [] word ++ condition).bare := by
  rw [Stream.bare_append]
  exact .append (.single calm) phrase.calm

/-- The head of a loop binds the names of its target. -/
theorem loopNames_of_loopPlace {place : Expr} {names : List String} {pattern : Stream}
    (placed : LoopPlace place names pattern) (items : Stream) :
    loopNames (.keyword "for" :: (pattern.bare ++ .keyword "in" :: items)) =
      (targetNames place).map identName := by
  have noWord := (phrase_loopPlace placed).isKeyword_eq_false (show "in" ∉ phraseWords by decide)
  change identTexts ((pattern.bare ++ .keyword "in" :: items).takeWhile _) = _
  rw [List.takeWhile_append_of_pos (fun token member => by simp [noWord token member]),
    List.takeWhile_cons_of_neg (by decide), List.append_nil]
  cases placed with
  | single id => rfl
  | several names =>
    have opening : identTexts [.punct "("] = [] := rfl
    have closing : identTexts [.punct ")"] = [] := rfl
    rw [targetNames, targetsNames_map_name, Stream.bare_parenthesized, ← List.singleton_append,
      identTexts_append, identTexts_append, identTexts_boundPattern, opening, closing,
      List.nil_append, List.append_nil]

/-- The events in front of a body are its declarations. -/
theorem events_front {options : Options} (front : List Declaration) (around : List Stream)
    (rest : Stream) :
    events ⟨around, []⟩ ((Stream.bare (front.flatMap (Declaration.tokens options))) ++ rest) =
      front.map (fun declaration => .declares around [identName declaration.name]) ++
        events ⟨around, []⟩ rest := by
  induction front with
  | nil => rfl
  | cons declaration later inductionHypothesis =>
    obtain ⟨type?, spelled⟩ := bare_declaration options declaration
    have calm : Calm (.keyword "mut" :: .ident declaration.name :: typing type?) :=
      (Phrase.append (.single (by decide)) (.append (.ident _) (phrase_typing type?))).calm
    rw [List.flatMap_cons, Stream.bare_append, spelled, ← bare_newVariable, List.append_assoc,
      List.append_assoc, List.singleton_append, events_statement (neutral_newVariable _ _),
      inductionHypothesis, bare_newVariable]
    change events _ (.keyword "let" ::
      (.keyword "mut" :: .ident declaration.name :: typing type?)) ++ _ = _
    rw [events_let calm, declaredNames_typing]
    rfl

end

/-- Whether a piece can start at a spot: at the start of a statement, or behind `else` if it is a
condition. -/
def Starts (spot : Spot) : Piece → Prop
  | .stmt (.ifElse ..) => True
  | _ => spot.current = []

theorem starts_of_current_eq_nil {spot : Spot} (start : spot.current = []) (piece : Piece) :
    Starts spot piece := by
  unfold Starts
  split
  · exact trivial
  · exact start

/-- Nothing happens in the head of a function. -/
theorem calm_head {options : Options} {context : Context} {definition : FunctionDef}
    {clause output : Stream} (clauseLowered : params options definition.params = .ok clause)
    (outputLowered : result options definition.returns = .ok output) :
    Calm (head context options definition clause output).bare := by
  obtain ⟨front, signature, frontPhrase, signaturePhrase, spelled⟩ :=
    bare_head (phrase_params clauseLowered) (phrase_result outputLowered)
  rw [spelled]
  exact .append frontPhrase.calm (@Calm.append [.keyword "fn"] _ (.single rfl)
    (Phrase.append (.ident _) signaturePhrase).calm)

/-- Everything that is emitted has a trace. -/
theorem traces_of_emits {options : Options} {piece : Piece} {context : Context} {table : Table}
    {stream : Stream} (emitted : Emits options piece context table stream) :
    ∀ spot : Spot, Starts spot piece →
      Traces piece table spot.around (spot.events stream.bare) := by
  induction emitted with
  | functionDef _ _ traced =>
    exact fun spot start => .functionDef (traced spot start)
  | asyncFunctionDef _ _ traced =>
    exact fun spot start => .asyncFunctionDef (traced spot start)
  | expr lowered => exact fun spot _ => traces_calm rfl (phrase_expr lowered).calm
  | assign placed lowered =>
    intro spot start
    rw [Stream.bare_append, Stream.bare_punct, List.append_assoc]
    exact traces_assign Bool.false_ne_true (List.append_nil _) placed (phrase_expr lowered)
      start
  | augSign known placed lowered =>
    intro spot start
    have calm : ∀ sign ∈ ["+", "-", "*", "/", "%", "<<", ">>", "|", "^", "&"],
        (Token.punct (sign ++ "=")).isCalm := by decide
    rw [Stream.bare_append, Stream.bare_punct]
    exact traces_calm rfl (.append (.append (phrase_expr placed).calm
      (.single (calm _ (mem_of_binarySign? known)))) (phrase_expr lowered).calm)
  | augMethod _ _ placed lowered =>
    intro spot start
    rw [Stream.bare_append, Stream.bare_punct, List.append_assoc, List.singleton_append,
      events_assign (phrase_expr placed).calm (phrase_expr lowered).calm,
      show spot.current = [] from start, List.nil_append]
    exact .settled (List.forall_mem_nil _)
      (List.forall_mem_singleton.mpr ⟨_, rfl, exists_writtenName placed⟩)
  | declare _ _ fresh => exact fun spot _ => traces_newVariable Bool.false_ne_true rfl fresh
  | @silent place _ _ _ _ _ _ noValue bound =>
    intro spot _
    cases place with
    | name id =>
      exact .settled (List.forall_mem_singleton.mpr (bound id rfl)) (List.forall_mem_nil _)
    | tuple items => exact .silent noValue
    | _ => exact traces_calm rfl (List.forall_mem_nil _)
  | @annAssign place _ _ _ _ _ _ _ _ someValue placed lowered =>
    intro spot start
    rw [Stream.bare_append, Stream.bare_punct, List.append_assoc]
    refine traces_assign ?_ rfl placed (phrase_expr lowered) start
    cases place with
    | tuple items => exact someValue
    | _ => exact Bool.false_ne_true
  | returnNothing _ => exact fun spot _ => traces_calm rfl (.single rfl)
  | returnValue lowered =>
    exact fun spot _ => traces_calm rfl (.append (.single rfl) (phrase_expr lowered).calm)
  | ifOnly tested bodyEmitted bodyTraced =>
    intro spot _
    rw [events_braced (calm_word rfl (phrase_expr tested)) (neutral_emits bodyEmitted),
      ← List.append_nil (events _ _)]
    exact .ifElse (bodyTraced ⟨_, []⟩ rfl) (@Traces.blockNil _ ([] :: spot.around))
  | ifFurther tested bodyEmitted _ bodyTraced furtherTraced =>
    intro spot _
    rw [Stream.bare_append, Stream.bare_keyword, List.append_assoc,
      events_braced_append (calm_word rfl (phrase_expr tested)) (neutral_emits bodyEmitted),
      events_calm_append (.single rfl)]
    exact .ifFurther (bodyTraced ⟨_, []⟩ rfl)
      (furtherTraced ⟨spot.around, [.keyword "else"]⟩ trivial)
  | ifElse _ _ tested bodyEmitted otherEmitted bodyTraced otherTraced =>
    intro spot _
    rw [bare_braced_else,
      events_braced_append (calm_word rfl (phrase_expr tested)) (neutral_emits bodyEmitted),
      events_braced (calm_keyword rfl) (neutral_emits otherEmitted)]
    exact .ifElse (bodyTraced ⟨_, []⟩ rfl) (otherTraced ⟨_, []⟩ rfl)
  | forever _ bodyEmitted bodyTraced =>
    intro spot _
    rw [events_braced (calm_keyword rfl) (neutral_emits bodyEmitted)]
    exact .whileLoop (bodyTraced ⟨_, []⟩ rfl)
  | whileLoop tested bodyEmitted bodyTraced =>
    intro spot _
    rw [events_braced (calm_word rfl (phrase_expr tested)) (neutral_emits bodyEmitted)]
    exact .whileLoop (bodyTraced ⟨_, []⟩ rfl)
  | @forLoop _ _ _ _ _ _ pattern items _ placed lowered bodyEmitted bodyTraced =>
    intro spot start
    have spelled : ((Stream.keyword [] "for" ++ pattern).keyword "in" ++ items).bare =
        .keyword "for" :: (pattern.bare ++ .keyword "in" :: items.bare) := by
      simp
    have calm : Calm ((Stream.keyword [] "for" ++ pattern).keyword "in" ++ items).bare := by
      rw [Stream.bare_append, Stream.bare_keyword]
      exact .append (.append (calm_word rfl (phrase_loopPlace placed)) (.single rfl))
        (phrase_expr lowered).calm
    rw [events_braced calm (neutral_emits bodyEmitted), show spot.current = [] from start, spelled]
    refine .forLoop (fun x member => ?_) (bodyTraced ⟨_, []⟩ rfl)
    rw [List.nil_append, loopNames_of_loopPlace placed]
    exact List.mem_map_of_mem member
  | pass => exact fun spot _ => traces_calm rfl (List.forall_mem_nil _)
  | breakLoop => exact fun spot _ => traces_calm rfl (.single rfl)
  | continueLoop => exact fun spot _ => traces_calm rfl (.single rfl)
  | raiseNothing => exact fun spot _ => traces_calm rfl (calm_stopping .nil)
  | raiseName => exact fun spot _ => traces_calm rfl (calm_stopping (.literal _))
  | raiseMessage lowered =>
    refine fun spot _ => traces_calm rfl (calm_stopping ?_)
    rw [Stream.bare_append, Stream.bare_punct]
    exact .append (.append (.literal _) (.sign (by decide))) (phrase_expr lowered)
  | raiseValue lowered =>
    refine fun spot _ => traces_calm rfl (calm_stopping ?_)
    rw [Stream.bare_append, Stream.bare_punct]
    exact .append (.append (.literal _) (.sign (by decide))) (phrase_expr lowered)
  | assertOnly tested _ => exact fun spot _ => traces_calm rfl (calm_stopping (phrase_expr tested))
  | assertMessage tested lowered =>
    refine fun spot _ => traces_calm rfl (calm_stopping ?_)
    rw [Stream.bare_append, Stream.bare_punct, Stream.bare_str, Stream.bare_punct]
    exact .append (.append (.append (.append (phrase_expr tested) (.sign (by decide)))
      (.literal _)) (.sign (by decide))) (phrase_expr lowered)
  | blockNil => exact fun spot _ => .blockNil
  | blockCons firstEmitted _ firstTraced restTraced =>
    intro spot start
    rw [Stream.bare_append, Stream.bare_punct, List.append_assoc, List.singleton_append,
      events_statement (neutral_emits firstEmitted)]
    exact .blockCons (firstTraced spot (starts_of_current_eq_nil start _))
      (restTraced ⟨_, []⟩ rfl)
  | @function definition context table _ _ inner _ clauseLowered outputLowered bodyEmitted
      bodyTraced =>
    intro spot _
    obtain ⟨front, signature, _, _, spelled⟩ :=
      bare_head (phrase_params clauseLowered) (phrase_result outputLowered)
    have calm := @calm_head options context definition _ _ clauseLowered outputLowered
    have neutral : Neutral (frontTokens options table definition ++ inner).bare := by
      rw [Stream.bare_append]
      exact .append (neutral_front table definition) (neutral_emits bodyEmitted)
    rw [events_braced calm neutral, Stream.bare_append, frontTokens, events_front]
    refine .function ?_ (bodyTraced ⟨_, []⟩ rfl)
    rw [spelled]
    exact List.mem_append_right _ (List.mem_append_right _ List.mem_cons_self)

end Lower

end Oxide
