/-
This file proves that the delimiters of everything that is written are matched and properly nested.
A phrase closes what it opens; so does every statement, by induction over the rules of what is
emitted; and a module is a row of such items. The layout only counts braces, and in a matched
stream they can be counted, so a module that is lowered is always laid out.
-/

import Oxide.Program
import Oxide.Proofs.Lines
import Oxide.Proofs.ModuleEmission
import Oxide.Proofs.Phrases

namespace Oxide

/-! ### Matched delimiters -/

/-- The three pairs of delimiters. -/
inductive Delimiter where
  | parenthesis
  | bracket
  | brace
  deriving DecidableEq

namespace Delimiter

/-- The punctuation that opens a pair. -/
def opening : Delimiter → String
  | .parenthesis => "("
  | .bracket => "["
  | .brace => openBrace

/-- The punctuation that closes a pair. -/
def closing : Delimiter → String
  | .parenthesis => ")"
  | .bracket => "]"
  | .brace => closeBrace

/-- All pairs. -/
def all : List Delimiter := [.parenthesis, .bracket, .brace]

/-- The pair that a token opens. -/
def opened? (token : Token) : Option Delimiter :=
  all.find? fun delimiter => token.isPunct delimiter.opening

/-- The pair that a token closes. -/
def closed? (token : Token) : Option Delimiter :=
  all.find? fun delimiter => token.isPunct delimiter.closing

/-- Whether a token opens or closes a pair. -/
def delimits (token : Token) : Bool :=
  (opened? token).isSome || (closed? token).isSome

/-- Reads one token with the pairs that are open, the innermost first. A token may only close the
innermost pair. -/
def step (stack : List Delimiter) (token : Token) : Option (List Delimiter) :=
  match opened? token, closed? token, stack with
  | some delimiter, _, stack => some (delimiter :: stack)
  | none, none, stack => some stack
  | none, some delimiter, innermost :: outer => if innermost = delimiter then some outer else none
  | none, some _, [] => none

end Delimiter

/-- Whether the delimiters of a stream are matched and properly nested. -/
def Matched (stream : Stream) : Prop :=
  stream.foldlM Delimiter.step [] = some []

instance (stream : Stream) : Decidable (Matched stream) :=
  inferInstanceAs (Decidable (_ = _))

/-- A stream that closes all that it opens and nothing else, whatever is open around it. -/
def Neutral (stream : Stream) : Prop :=
  ∀ stack, stream.foldlM Delimiter.step stack = some stack

namespace Neutral

theorem matched {stream : Stream} (neutral : Neutral stream) : Matched stream :=
  neutral []

theorem nil : Neutral [] := fun _ => rfl

theorem append {first second : Stream} (firstNeutral : Neutral first)
    (secondNeutral : Neutral second) : Neutral (first ++ second) := by
  intro stack
  rw [List.foldlM_append, firstNeutral stack]
  exact secondNeutral stack

theorem flatten {streams : List Stream} (all : ∀ stream ∈ streams, Neutral stream) :
    Neutral streams.flatten := by
  induction streams with
  | nil => exact nil
  | cons first rest inductionHypothesis =>
    rw [List.forall_mem_cons] at all
    exact append all.1 (inductionHypothesis all.2)

/-- A pair around a neutral stream. -/
theorem enclosed {stream : Stream} (delimiter : Delimiter) (neutral : Neutral stream) :
    Neutral (.punct delimiter.opening :: (stream ++ [.punct delimiter.closing])) := by
  intro stack
  have opens : Delimiter.step stack (.punct delimiter.opening) = some (delimiter :: stack) := by
    cases delimiter <;> rfl
  have closes :
      Delimiter.step (delimiter :: stack) (.punct delimiter.closing) = some stack := by
    cases delimiter <;> rfl
  rw [List.foldlM_cons, opens, Option.bind_eq_bind, Option.bind_some, List.foldlM_append,
    neutral (delimiter :: stack), Option.bind_eq_bind, Option.bind_some, List.foldlM_cons, closes]
  rfl

theorem single {token : Token} (free : Delimiter.delimits token = false) : Neutral [token] := by
  intro stack
  rw [Delimiter.delimits, Bool.or_eq_false_iff, Option.isSome_eq_false_iff,
    Option.isSome_eq_false_iff, Option.isNone_iff_eq_none, Option.isNone_iff_eq_none] at free
  simp only [List.foldlM_cons, List.foldlM_nil, Delimiter.step, free, bind_pure]

/-- Only punctuation delimits. -/
theorem word {token : Token} (other : token.kind ≠ .punct) : Neutral [token] := by
  refine single ?_
  simp [Delimiter.delimits, Delimiter.opened?, Delimiter.closed?, Token.isPunct, other]

theorem keyword (text : String) : Neutral [.keyword text] := word nofun

theorem sign {text : String} (free : Delimiter.delimits (.punct text) = false) :
    Neutral [.punct text] :=
  single free

/-- A phrase closes what it opens. -/
theorem phrase {stream : Stream} (phrase : Phrase stream) : Neutral stream := by
  induction phrase with
  | nil => exact nil
  | @single token plain =>
    by_cases isPunct : token.kind = .punct
    · have free : ∀ text ∈ phraseSigns, Delimiter.delimits (.punct text) = false := by decide
      obtain ⟨kind, text, joint⟩ := token
      cases isPunct
      simp only [Token.isPlain, List.contains_iff_mem] at plain
      exact single (free text plain)
    · exact word isPunct
  | append _ _ firstNeutral secondNeutral => exact append firstNeutral secondNeutral
  | parenthesized _ neutral => exact enclosed .parenthesis neutral
  | bracketed _ neutral => exact enclosed .bracket neutral

end Neutral

/-- The marks for spacing have no say in what a token delimits. -/
theorem neutral_bare_iff {stream : Stream} : Neutral stream.bare ↔ Neutral stream := by
  unfold Neutral Stream.bare
  simp only [List.foldlM_map]
  rfl

/-! ### What is emitted -/

namespace Lower

variable {options : Options}

theorem neutral_expr {context : Context} {table : Table} {value : Expr} {stream : Stream}
    (lowered : expr context table value = .ok stream) : Neutral stream.bare :=
  .phrase (phrase_expr lowered)

theorem neutral_newVariable (id : String) (type? : Option Ty) :
    Neutral (newVariable id type?).bare := by
  rw [bare_newVariable]
  exact .append (.append (.keyword "let") (.phrase (.append (.single (by decide)) (.ident id))))
    (.phrase (phrase_typing type?))

theorem neutral_place {context : Context} {table : Table} {type? : Option Ty} {place : Expr}
    {stream : Stream} (placed : Place context table type? place stream) : Neutral stream.bare := by
  cases placed with
  | bound id _ => exact .phrase (.ident id)
  | fresh id _ => exact neutral_newVariable id type?
  | boundTuple names _ =>
    rw [Stream.bare_parenthesized]
    exact .phrase (.parenthesized (phrase_boundPattern names))
  | freshTuple names _ _ =>
    rw [Stream.bare_group, Stream.bare_join]
    exact .append (.keyword "let") (.phrase (.parenthesized (phrase_freshPattern names)))
  | field _ _ _ lowered => exact neutral_expr lowered
  | subscript _ _ _ lowered => exact neutral_expr lowered

theorem phrase_loopPlace {place : Expr} {names : List String} {pattern : Stream}
    (placed : LoopPlace place names pattern) : Phrase pattern.bare := by
  cases placed with
  | single id => exact .ident id
  | several names =>
    rw [Stream.bare_parenthesized]
    exact .parenthesized (phrase_boundPattern _)

/-- A block is neutral if its head and its inside are. -/
theorem neutral_braced {opened body : Stream} (openedNeutral : Neutral opened.bare)
    (bodyNeutral : Neutral body.bare) : Neutral (braced opened body).bare := by
  rw [braced, Stream.bare_group]
  exact .append openedNeutral (.enclosed .brace bodyNeutral)

/-- The delimiters of the declarations in front of a body match. -/
theorem neutral_front (table : Table) (definition : FunctionDef) :
    Neutral (frontTokens options table definition).bare := by
  refine front_induction (motive := fun stream => Neutral stream.bare) .nil ?_ ?_ options _
  · intro name type?
    rw [Stream.bare_punct]
    exact .append (neutral_newVariable name type?) (.sign (by decide))
  · intro first second firstNeutral secondNeutral
    rw [Stream.bare_append]
    exact .append firstNeutral secondNeutral

theorem neutral_stopping {name : String} {arguments : Stream} (phrase : Phrase arguments.bare) :
    Neutral (stopping name arguments).bare := by
  rw [stopping, Stream.bare_group, Stream.bare_join]
  exact .phrase (.append (phrase_bang name) (.parenthesized phrase))

/-- The delimiters of the head of a function match. -/
theorem neutral_head {context : Context} {definition : FunctionDef} {clause output : Stream}
    (clauseLowered : params options definition.params = .ok clause)
    (outputLowered : result options definition.returns = .ok output) :
    Neutral (head context options definition clause output).bare := by
  obtain ⟨front, signature, frontPhrase, signaturePhrase, spelled⟩ :=
    bare_head (phrase_params clauseLowered) (phrase_result outputLowered)
  rw [spelled]
  exact .append (.phrase frontPhrase)
    (.append (.keyword "fn") (.phrase (.append (.ident _) signaturePhrase)))

/-- Everything that is emitted closes what it opens. -/
theorem neutral_emits {piece : Piece} {context : Context} {table : Table} {stream : Stream}
    (emitted : Emits options piece context table stream) : Neutral stream.bare := by
  induction emitted with
  | functionDef _ _ neutral => exact neutral
  | asyncFunctionDef _ _ neutral => exact neutral
  | expr lowered => exact neutral_expr lowered
  | assign placed lowered =>
    rw [Stream.bare_append, Stream.bare_punct]
    exact .append (.append (neutral_place placed) (.sign (by decide))) (neutral_expr lowered)
  | augSign known placed lowered =>
    have free : ∀ sign ∈ ["+", "-", "*", "/", "%", "<<", ">>", "|", "^", "&"],
        Delimiter.delimits (.punct (sign ++ "=")) = false := by decide
    rw [Stream.bare_append, Stream.bare_punct]
    exact .append (.append (neutral_expr placed) (.sign (free _ (mem_of_binarySign? known))))
      (neutral_expr lowered)
  | augMethod _ _ placed lowered =>
    rw [Stream.bare_append, Stream.bare_punct]
    exact .append (.append (neutral_expr placed) (.sign (by decide))) (neutral_expr lowered)
  | declare _ _ _ => exact neutral_newVariable _ _
  | silent _ _ _ => exact .nil
  | annAssign _ _ placed lowered =>
    rw [Stream.bare_append, Stream.bare_punct]
    exact .append (.append (neutral_place placed) (.sign (by decide))) (neutral_expr lowered)
  | returnNothing _ => exact .keyword "return"
  | returnValue lowered => exact .append (.keyword "return") (neutral_expr lowered)
  | ifOnly tested _ bodyNeutral =>
    exact neutral_braced (.append (.keyword "if") (neutral_expr tested)) bodyNeutral
  | ifFurther tested _ _ bodyNeutral furtherNeutral =>
    rw [Stream.bare_append, Stream.bare_keyword]
    exact .append (.append (neutral_braced (.append (.keyword "if") (neutral_expr tested))
      bodyNeutral) (.keyword "else")) furtherNeutral
  | ifElse _ _ tested _ _ bodyNeutral otherNeutral =>
    refine neutral_braced ?_ otherNeutral
    rw [Stream.bare_keyword]
    exact .append (neutral_braced (.append (.keyword "if") (neutral_expr tested)) bodyNeutral)
      (.keyword "else")
  | forever _ _ bodyNeutral => exact neutral_braced (.keyword "loop") bodyNeutral
  | whileLoop tested _ bodyNeutral =>
    exact neutral_braced (.append (.keyword "while") (neutral_expr tested)) bodyNeutral
  | forLoop placed lowered _ bodyNeutral =>
    refine neutral_braced ?_ bodyNeutral
    rw [Stream.bare_append, Stream.bare_keyword]
    exact .append (.append (.append (.keyword "for") (.phrase (phrase_loopPlace placed)))
      (.keyword "in")) (neutral_expr lowered)
  | pass => exact .nil
  | breakLoop => exact .keyword "break"
  | continueLoop => exact .keyword "continue"
  | raiseNothing => exact neutral_stopping .nil
  | raiseName => exact neutral_stopping (.literal _)
  | raiseMessage lowered =>
    refine neutral_stopping ?_
    rw [Stream.bare_append, Stream.bare_punct]
    exact .append (.append (.literal _) (.sign (by decide))) (phrase_expr lowered)
  | raiseValue lowered =>
    refine neutral_stopping ?_
    rw [Stream.bare_append, Stream.bare_punct]
    exact .append (.append (.literal _) (.sign (by decide))) (phrase_expr lowered)
  | assertOnly tested _ => exact neutral_stopping (phrase_expr tested)
  | assertMessage tested lowered =>
    refine neutral_stopping ?_
    rw [Stream.bare_append, Stream.bare_punct, Stream.bare_str, Stream.bare_punct]
    exact .append (.append (.append (.append (phrase_expr tested) (.sign (by decide)))
      (.literal _)) (.sign (by decide))) (phrase_expr lowered)
  | blockNil => exact .nil
  | blockCons _ _ firstNeutral restNeutral =>
    rw [Stream.bare_append, Stream.bare_punct]
    exact .append (.append firstNeutral (.sign (by decide))) restNeutral
  | function _ clauseLowered outputLowered _ bodyNeutral =>
    refine neutral_braced (neutral_head clauseLowered outputLowered) ?_
    rw [Stream.bare_append]
    exact .append (neutral_front _ _) bodyNeutral

theorem neutral_runtimeLine : Neutral (runtimeLine options).bare := by
  unfold runtimeLine
  split
  · simp only [Stream.bare_append, Stream.bare_keyword, Stream.bare_punct, Stream.bare_join]
    exact .append (.keyword "use") (.append (.phrase (.append (.append (Ty.phrase_path _)
      (.sign (by decide))) (.sign (by decide)))) (.sign (by decide)))
  · exact .nil

/-- The delimiters of a module that is lowered are matched. -/
theorem matched_module {table : Table} {source : Module} {stream : Stream}
    (lowered : (module options table source).2 = .ok stream) : Matched stream := by
  obtain ⟨streams, itemsLowered, rfl⟩ := module_of_ok lowered
  refine Neutral.matched (.append (neutral_bare_iff.mp neutral_runtimeLine) (.flatten ?_))
  intro item member
  obtain ⟨_, _, itemLowered⟩ := exists_item_of_mem itemsLowered member
  exact neutral_bare_iff.mp (neutral_emits (emits_of_function _ _ _ _ itemLowered))

end Lower

/-! ### The layout -/

namespace Layout

open Delimiter

theorem isPunct_of_opened? {token : Token} {delimiter : Delimiter}
    (opens : opened? token = some delimiter) : token.isPunct delimiter.opening := by
  have found := List.find?_some opens
  exact found

theorem isPunct_of_closed? {token : Token} {delimiter : Delimiter}
    (closes : closed? token = some delimiter) : token.isPunct delimiter.closing := by
  have found := List.find?_some closes
  exact found

variable {stack next : List Delimiter} {token : Token}

theorem step_of_opening (role : roleOf token = .opening) :
    step stack token = some (.brace :: stack) := by
  obtain ⟨kind, text, joint⟩ := token
  obtain ⟨rfl, rfl⟩ := kind_text_of_isPunct (roleOf_eq_opening.mp role)
  rfl

/-- A closing brace closes the brace that was opened last. -/
theorem step_of_closing (role : roleOf token = .closing)
    (stepped : step stack token = some next) : stack = .brace :: next := by
  obtain ⟨kind, text, joint⟩ := token
  obtain ⟨rfl, rfl⟩ := kind_text_of_isPunct (roleOf_eq_closing.mp role)
  obtain _ | ⟨innermost, outer⟩ := stack
  · cases stepped
  · cases innermost <;> cases stepped
    rfl

/-- A token that is no brace leaves the count of open braces. -/
theorem count_step_of_other (notOpening : roleOf token ≠ .opening)
    (notClosing : roleOf token ≠ .closing) (stepped : step stack token = some next) :
    next.count .brace = stack.count .brace := by
  unfold step at stepped
  split at stepped
  · rename_i delimiter opens
    cases stepped
    refine List.count_cons_of_ne fun isBrace => notOpening ?_
    rw [isBrace] at opens
    exact roleOf_eq_opening.mpr (isPunct_of_opened? opens)
  · cases stepped
    rfl
  · rename_i delimiter innermost outer _ closes
    split at stepped
    · rename_i same
      cases stepped
      refine (List.count_cons_of_ne fun isBrace => notClosing ?_).symm
      rw [← same, isBrace] at closes
      exact roleOf_eq_closing.mpr (isPunct_of_closed? closes)
    · cases stepped
  · cases stepped

/-- Whether a stream closes all that is open, of which this many are braces. -/
def ClosesAt (depth : Nat) (stream : Stream) : Prop :=
  ∃ stack, stack.count Delimiter.brace = depth ∧ stream.foldlM step stack = some []

namespace ClosesAt

variable {depth : Nat} {rest : Stream}

theorem depth_eq_zero (closes : ClosesAt depth []) : depth = 0 := by
  obtain ⟨stack, counted, closed⟩ := closes
  cases closed
  exact counted.symm

/-- A stream that closes all takes its first step. -/
theorem step_cons {stack : List Delimiter} (closed : (token :: rest).foldlM step stack = some []) :
    ∃ next, step stack token = some next ∧ rest.foldlM step next = some [] := by
  rw [List.foldlM_cons] at closed
  exact Option.bind_eq_some_iff.mp closed

theorem opening (closes : ClosesAt depth (token :: rest)) (role : roleOf token = .opening) :
    ClosesAt (depth + 1) rest := by
  obtain ⟨stack, counted, closed⟩ := closes
  obtain ⟨next, stepped, restClosed⟩ := step_cons closed
  rw [step_of_opening role] at stepped
  cases stepped
  exact ⟨_, by rw [List.count_cons_self, counted], restClosed⟩

/-- Where all is closed, a closing brace has one to close. -/
theorem closing (closes : ClosesAt depth (token :: rest)) (role : roleOf token = .closing) :
    ∃ outer, depth = outer + 1 ∧ ClosesAt outer rest := by
  obtain ⟨stack, counted, closed⟩ := closes
  obtain ⟨next, stepped, restClosed⟩ := step_cons closed
  obtain rfl := step_of_closing role stepped
  rw [List.count_cons_self] at counted
  exact ⟨_, counted.symm, next, rfl, restClosed⟩

theorem other (closes : ClosesAt depth (token :: rest)) (notOpening : roleOf token ≠ .opening)
    (notClosing : roleOf token ≠ .closing) : ClosesAt depth rest := by
  obtain ⟨stack, counted, closed⟩ := closes
  obtain ⟨next, stepped, restClosed⟩ := step_cons closed
  exact ⟨next, (count_step_of_other notOpening notClosing stepped).trans counted, restClosed⟩

theorem closing_succ {outer : Nat} (closes : ClosesAt outer.succ (token :: rest))
    (role : roleOf token = .closing) : ClosesAt outer rest := by
  obtain ⟨same, equal, restCloses⟩ := closes.closing role
  cases equal
  exact restCloses

theorem semicolon (closes : ClosesAt depth (token :: rest)) (isSemicolon : token.isPunct ";") :
    ClosesAt depth rest := by
  have role := roleOf_eq_terminator.mpr isSemicolon
  exact closes.other (by simp [role]) (by simp [role])

end ClosesAt

theorem exists_map_eq_ok {lines : Except Fault Text.Bytes} (add : Text.Bytes → Text.Bytes)
    (some : ∃ text, lines = .ok text) : ∃ text, add <$> lines = .ok text := by
  obtain ⟨text, rfl⟩ := some
  exact ⟨add text, rfl⟩

/-- A stream that closes all that is open is laid out. -/
theorem layoutFrom_of_closesAt {position depth : Nat} {fresh : Bool} {previous : Token}
    {stream : Stream} (closes : ClosesAt depth stream) :
    ∃ text, layoutFrom position depth fresh previous stream = .ok text := by
  fun_induction layoutFrom position depth fresh previous stream with
  | case1 _ _ _ _ nonzero => exact absurd closes.depth_eq_zero nonzero
  | case2 => exact ⟨_, rfl⟩
  | case3 _ _ _ _ _ _ role inductionHypothesis =>
    exact exists_map_eq_ok _ (inductionHypothesis (closes.other (by simp [role])
      (by simp [role])))
  | case4 _ _ _ _ _ _ role inductionHypothesis =>
    exact exists_map_eq_ok _ (inductionHypothesis (closes.opening role))
  | case5 _ _ _ _ _ role =>
    obtain ⟨_, impossible, _⟩ := closes.closing role
    cases impossible
  | case6 _ _ _ _ role _ _ inductionHypothesis =>
    exact exists_map_eq_ok _ (inductionHypothesis (closes.closing_succ role))
  | case7 _ _ _ _ role _ _ _ _ isSemicolon _ inductionHypothesis =>
    exact exists_map_eq_ok _
      (inductionHypothesis ((closes.closing_succ role).semicolon isSemicolon))
  | case8 _ _ _ _ role _ _ _ _ isSemicolon _ inductionHypothesis =>
    exact exists_map_eq_ok _
      (inductionHypothesis ((closes.closing_succ role).semicolon isSemicolon))
  | case9 _ _ _ _ role _ _ _ _ _ _ inductionHypothesis =>
    exact exists_map_eq_ok _ (inductionHypothesis (closes.closing_succ role))
  | case10 _ _ _ _ role _ _ _ _ _ _ inductionHypothesis =>
    exact exists_map_eq_ok _ (inductionHypothesis (closes.closing_succ role))
  | case11 _ _ _ _ _ _ role inductionHypothesis =>
    exact exists_map_eq_ok _ (inductionHypothesis (closes.other (by simp [role])
      (by simp [role])))
  | case12 _ _ _ _ _ _ role inductionHypothesis =>
    exact exists_map_eq_ok _ (inductionHypothesis (closes.other (by simp [role])
      (by simp [role])))

/-- A matched stream is laid out. -/
theorem layout_of_matched {stream : Stream} (matched : Matched stream) :
    ∃ text, layout stream = .ok text :=
  layoutFrom_of_closesAt ⟨[], rfl, matched⟩

end Layout

/-- A module that is lowered has matched delimiters and is laid out, with any table and settings; so
the text of a module is missing only if the module cannot be lowered, and then for that reason. -/
theorem Program.module_matched_and_laid_out :
    (∀ (options : Options) (table : Table) (source : Module) (stream : Stream),
      (Lower.module options table source).2 = .ok stream →
        Matched stream ∧ ∃ text, Layout.layout stream = .ok text) ∧
    ∀ (options : Options) (source : Module) (failure : Failure ProgramFault),
      (Program.render options source).2 = .error failure →
        ∃ cause, (Lower.module options Table.new source).2 = .error cause ∧
          failure = cause.widen .lowering := by
  have laidOut (options : Options) (table : Table) (source : Module) (stream : Stream)
      (lowered : (Lower.module options table source).2 = .ok stream) :
      Matched stream ∧ ∃ text, Layout.layout stream = .ok text := by
    have matched := Lower.matched_module lowered
    exact ⟨matched, Layout.layout_of_matched matched⟩
  refine ⟨laidOut, fun options source failure failed => ?_⟩
  simp only [Program.render] at failed
  cases lowered : (Lower.module options Table.new source).2 with
  | error cause =>
    rw [lowered] at failed
    cases failed
    exact ⟨cause, rfl, rfl⟩
  | ok stream =>
    obtain ⟨_, text, written⟩ := laidOut options Table.new source stream lowered
    rw [lowered] at failed
    simp only [Attempt.widen, bind, Except.bind, written, Attempt.ofExcept,
      Attempt.inside] at failed
    cases failed

/-- One module that is lowered, with all three delimiters, and one that is not. -/
theorem Program.module_with_list_matched_and_laid_out :
    let first : Stmt := .assign [.name "x"] (.list [.constant (.int "1")])
    let second : Stmt :=
      .ifElse (.name "x") [.ret (.subscript (.name "x") (.constant (.int "0")))] []
    let source (body : List Stmt) : Module := ⟨[.functionDef { FunctionOf.empty "f" with body }]⟩
    (∃ stream, (Lower.module {} Table.new (source [first, second])).2 = .ok stream ∧
      Matched stream ∧ ∃ text, Layout.layout stream = .ok text) ∧
    ∃ failure, (Program.render {} (source [])).2 = .error failure ∧
      ∃ cause, (Lower.module {} Table.new (source [])).2 = .error cause ∧
        failure = cause.widen .lowering := by
  intro first second source
  obtain ⟨stream, lowered⟩ :
      ∃ stream, (Lower.module {} Table.new (source [first, second])).2 = .ok stream := ⟨_, rfl⟩
  obtain ⟨failure, failed⟩ : ∃ failure, (Program.render {} (source [])).2 = .error failure :=
    ⟨_, rfl⟩
  exact ⟨⟨stream, lowered, Program.module_matched_and_laid_out.1 _ _ _ _ lowered⟩,
    ⟨failure, failed, Program.module_matched_and_laid_out.2 _ _ _ failed⟩⟩

end Oxide
