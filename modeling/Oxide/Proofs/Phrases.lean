/-
This file describes the streams that expressions, types and signatures are written as: phrases, in
which a few signs and words stand between names and literals, and parentheses and brackets are
closed in the order in which they were opened. A phrase has no brace and no semicolon, no word that
starts a statement, and no sign that assigns, so a statement can be taken apart without looking
into the expressions that it holds.
-/

import Oxide.Proofs.StmtEmission
import Oxide.Proofs.TypeTokens

namespace Oxide

/-! ### Phrases -/

/-- The signs between and before operands, those that hold a name or a list together, and those
before a type. -/
def phraseSigns : List String :=
  ["+", "-", "*", "/", "%", "<<", ">>", "|", "^", "&", "==", "!=", "<", "<=", ">", ">=", "&&",
    "||", "!", ".", "..", "::", ",", ":", "->"]

/-- The words of expressions, types and patterns, and those in front of a function. -/
def phraseWords : List String :=
  ["true", "false", "as", "await", "mut", "pub", "crate", "async"]

/-- Whether a token can stand in a phrase; delimiters only come in pairs. -/
def Token.isPlain (token : Token) : Bool :=
  match token.kind with
  | .ident => true
  | .literal => true
  | .keyword => phraseWords.contains token.text
  | .punct => phraseSigns.contains token.text
  | .doc => true
  | .unknown => false

/-- A bare stream of plain tokens, with parentheses and brackets around parts of it. -/
inductive Phrase : Stream → Prop where
  | nil : Phrase []
  | single {token : Token} (plain : token.isPlain) : Phrase [token]
  | append {first second : Stream} (firstPhrase : Phrase first) (secondPhrase : Phrase second) :
      Phrase (first ++ second)
  | parenthesized {stream : Stream} (phrase : Phrase stream) :
      Phrase (.punct "(" :: (stream ++ [.punct ")"]))
  | bracketed {stream : Stream} (phrase : Phrase stream) :
      Phrase (.punct "[" :: (stream ++ [.punct "]"]))

namespace Phrase

theorem sign {text : String} (member : text ∈ phraseSigns) : Phrase [.punct text] := by
  refine single ?_
  simp [Token.isPlain, Token.punct, member]

/-- A sign of a list is one of a phrase if the whole list is. -/
theorem signOf {text : String} {texts : List String} (member : text ∈ texts)
    (all : ∀ other ∈ texts, other ∈ phraseSigns) : Phrase [.punct text] :=
  sign (all text member)

theorem ident (name : String) : Phrase [.ident name] := single rfl

theorem literal (text : String) : Phrase [.literal text] := single rfl

/-- Phrases with a sign between them are a phrase. -/
theorem separated {sign : String} {streams : List Stream} (member : sign ∈ phraseSigns)
    (all : ∀ stream ∈ streams, Phrase stream) : Phrase (Lower.separated sign streams) := by
  fun_induction Lower.separated sign streams with
  | case1 => exact nil
  | case2 last => exact all last List.mem_cons_self
  | case3 first next rest inductionHypothesis =>
    rw [List.forall_mem_cons] at all
    exact append (append all.1 (Phrase.sign member)) (inductionHypothesis all.2)

end Phrase

/-! ### Types -/

/-- The rules of types build phrases from phrases. -/
theorem phraseTypeRules : TypeRules Phrase where
  nil := .nil
  append := .append
  ident := .ident
  sign member := .signOf member (by decide)
  mutable := .single (by decide)
  parenthesized := .parenthesized

namespace Ty

theorem phrase_path (parts : List String) : Phrase (Stream.path [] parts).bare :=
  phraseTypeRules.path parts

/-- A type is written as a phrase. -/
theorem phrase_emit (type : Ty) : Phrase (type.emit []).bare :=
  phraseTypeRules.emit type

end Ty

/-! ### Expressions -/

namespace Lower

/-- The signs between operands are the ten in this list. -/
theorem mem_of_binarySign? {op sign : String} (known : binarySign? op = some sign) :
    sign ∈ ["+", "-", "*", "/", "%", "<<", ">>", "|", "^", "&"] := by
  unfold binarySign? at known
  split_ifs at known <;> cases known <;> decide

/-- The signs of comparisons are the six in this list. -/
theorem mem_of_comparisonSign? {op sign : String} (known : comparisonSign? op = some sign) :
    sign ∈ ["==", "!=", "<", "<=", ">", ">="] := by
  unfold comparisonSign? at known
  split_ifs at known <;> cases known <;> decide

theorem mem_of_logicalSign? {op sign : String} (known : logicalSign? op = some sign) :
    sign ∈ ["&&", "||"] := by
  unfold logicalSign? at known
  split_ifs at known <;> cases known <;> decide

/-- The sign before an operand is one sign at most. -/
theorem bare_of_unarySign? {op : String} {sign : Stream} (known : unarySign? op = some sign) :
    sign.bare = [.punct "!"] ∨ sign.bare = [.punct "-"] ∨ sign.bare = [] := by
  unfold unarySign? at known
  split_ifs at known <;> cases known
  · exact .inl rfl
  · exact .inr (.inl rfl)
  · exact .inr (.inr rfl)

theorem phrase_constant (value : Constant) : Phrase (constant value).bare := by
  cases value with
  | none => exact .ident "None"
  | bool value =>
    cases value with
    | false => exact .single (by decide)
    | true => exact .single (by decide)
  | int text => exact .literal text
  | float text =>
    rw [constant, float]
    split
    · exact Ty.phrase_path _
    · exact .literal _
  | str text => exact .literal _

theorem phrase_name (id : String) : Phrase (name id).bare := by
  unfold name
  split_ifs
  · exact phrase_constant _
  · exact phrase_constant _
  · exact phrase_constant _
  · exact .ident id

/-- An operand is a phrase, with parentheses or without. -/
theorem phrase_operand {value : Expr} {stream : Stream} (phrase : Phrase stream.bare) :
    Phrase (operand value stream).bare := by
  unfold operand
  split
  · rw [Stream.bare_parenthesized]
    exact phrase.parenthesized
  · exact phrase

/-- A method call is a phrase if its receiver and its arguments are. -/
theorem phrase_method {receiver arguments : Stream} (name : String)
    (receiverPhrase : Phrase receiver.bare) (argumentsPhrase : Phrase arguments.bare) :
    Phrase (method receiver name arguments).bare := by
  rw [Stream.bare_method]
  exact .append receiverPhrase (.append (.sign (by decide))
    (.append (.ident name) argumentsPhrase.parenthesized))

theorem phrase_bang (name : String) : Phrase (Stream.bang [] name).bare := by
  rw [Stream.bare_bang, Stream.bare_nil]
  exact .append .nil (.append (.ident name) (.single (by decide)))

theorem phrase_operands {items : List Expr} {streams : List Stream}
    (all : List.Forall₂ (fun _ stream => Phrase (Stream.bare stream)) items streams) :
    ∀ stream ∈ List.map Stream.bare (List.zipWith operand items streams), Phrase stream := by
  induction all with
  | nil => exact fun _ member => nomatch member
  | cons first _ inductionHypothesis =>
    rw [List.zipWith_cons_cons, List.map_cons, List.forall_mem_cons]
    exact ⟨phrase_operand first, inductionHypothesis⟩

theorem phrase_comma {items : List Expr} {streams : List Stream}
    (all : List.Forall₂ (fun _ stream => Phrase (Stream.bare stream)) items streams) :
    Phrase (Stream.comma streams).bare := by
  rw [Stream.bare_comma]
  refine .separated (by decide) ?_
  induction all with
  | nil => exact fun _ member => nomatch member
  | cons first _ inductionHypothesis =>
    rw [List.map_cons, List.forall_mem_cons]
    exact ⟨first, inductionHypothesis⟩

theorem phrase_containment {right : Expr} {first second : Stream}
    (leftPhrase : Phrase first.bare) (rightPhrase : Phrase second.bare) :
    Phrase (method (operand right second) "contains"
      (Stream.join (Stream.punct [] "&") ++ first)).bare := by
  refine phrase_method "contains" (phrase_operand rightPhrase) ?_
  rw [Stream.bare_append]
  exact .append (.sign (by decide)) leftPhrase

/-- One comparison is a phrase if its operands are. -/
theorem phrase_comparison {left right : Expr} {op : String} {first second piece : Stream}
    (emitted : Comparison left first op right second piece) (leftPhrase : Phrase first.bare)
    (rightPhrase : Phrase second.bare) : Phrase piece.bare := by
  cases emitted with
  | contains => exact phrase_containment leftPhrase rightPhrase
  | excludes =>
    rw [Stream.bare_append]
    exact .append (.sign (by decide)) (phrase_containment leftPhrase rightPhrase)
  | isNone => exact phrase_method _ (phrase_operand leftPhrase) .nil
  | isSome => exact phrase_method _ (phrase_operand leftPhrase) .nil
  | signed op right second sign notNone notSome known =>
    rw [Stream.bare_append, Stream.bare_punct]
    exact .append (.append (phrase_operand leftPhrase)
      (.signOf (mem_of_comparisonSign? known) (by decide)))
      (phrase_operand rightPhrase)

theorem phrase_comparisons {left : Expr} {first : Stream} {ops : List String} {rights : List Expr}
    {streams pieces : List Stream}
    (emitted : Comparisons left first ops rights streams pieces) (leftPhrase : Phrase first.bare)
    (all : List.Forall₂ (fun _ stream => Phrase (Stream.bare stream)) rights streams) :
    ∀ piece ∈ pieces, Phrase piece.bare := by
  induction emitted with
  | nil => exact fun _ member => nomatch member
  | cons single _ inductionHypothesis =>
    obtain _ | ⟨rightPhrase, restPhrases⟩ := all
    rw [List.forall_mem_cons]
    exact ⟨phrase_comparison single leftPhrase rightPhrase,
      inductionHypothesis rightPhrase restPhrases⟩

theorem phrase_conjunction {pieces : List Stream} (all : ∀ piece ∈ pieces, Phrase piece.bare) :
    Phrase (conjunction pieces).bare := by
  unfold conjunction
  split
  · exact all _ List.mem_cons_self
  · rw [Stream.bare_separated]
    refine .separated (by decide) ?_
    simp only [List.map_map, List.forall_mem_map, Function.comp_apply, Stream.bare_parenthesized]
    exact fun piece member => (all piece member).parenthesized

theorem phrase_range {start stop : Stream} (startPhrase : Phrase start.bare)
    (stopPhrase : Phrase stop.bare) : Phrase (range start stop).bare := by
  rw [range, Stream.bare_parenthesized]
  refine .parenthesized ?_
  simp only [Stream.bare_append, Stream.bare_join, Stream.bare_punct]
  exact .append (.append startPhrase (.sign (by decide))) stopPhrase

/-- The call of a known function is a phrase if its arguments are. -/
theorem phrase_special {table : Table} {function : Expr} {arguments : List Expr}
    {streams : List Stream} {stream : Stream}
    (known : SpecialCall table function arguments streams stream)
    (all : List.Forall₂ (fun _ stream => Phrase (Stream.bare stream)) arguments streams) :
    Phrase stream.bare := by
  cases known with
  | print =>
    rw [printLine, Stream.bare_group]
    refine .append (phrase_bang _) (.parenthesized ?_)
    rw [Stream.bare_join]
    split
    · exact .nil
    · rw [Stream.bare_append, Stream.bare_punct]
      exact .append (.append (.literal _) (.sign (by decide))) (phrase_comma all)
  | len =>
    obtain _ | ⟨valuePhrase, _⟩ := all
    exact phrase_method _ (phrase_operand valuePhrase) .nil
  | str =>
    obtain _ | ⟨valuePhrase, _⟩ := all
    exact phrase_method _ (phrase_operand valuePhrase) .nil
  | rangeTo =>
    obtain _ | ⟨stopPhrase, _⟩ := all
    exact phrase_range (.literal _) (phrase_operand stopPhrase)
  | rangeFrom =>
    obtain _ | ⟨startPhrase, _ | ⟨stopPhrase, _⟩⟩ := all
    exact phrase_range (phrase_operand startPhrase) (phrase_operand stopPhrase)
  | rangeBy =>
    obtain _ | ⟨startPhrase, _ | ⟨stopPhrase, _ | ⟨stepPhrase, _⟩⟩⟩ := all
    refine phrase_method _ (phrase_range (phrase_operand startPhrase)
      (phrase_operand stopPhrase)) ?_
    rw [Stream.bare_ident, Stream.bare_keyword]
    exact .append (.append (phrase_operand stepPhrase) (.single (by decide))) (.ident _)

variable {context : Context} {table : Table}

/-- The rules of expressions build phrases from phrases. -/
theorem phraseRules : ExprRules context table fun _ stream => Phrase stream.bare where
  constant := phrase_constant
  name := phrase_name
  binaryMethod _ _ _ name _ _ _ leftPhrase rightPhrase :=
    phrase_method name (phrase_operand leftPhrase) rightPhrase
  binarySign _ _ _ sign _ _ _ known leftPhrase rightPhrase := by
    rw [Stream.bare_append, Stream.bare_punct]
    exact .append (.append (phrase_operand leftPhrase)
      (.signOf (mem_of_binarySign? known) (by decide)))
      (phrase_operand rightPhrase)
  unary _ _ sign _ known valuePhrase := by
    rw [Stream.bare_append]
    refine .append ?_ (phrase_operand valuePhrase)
    obtain equal | equal | equal := bare_of_unarySign? known
    · rw [equal]
      exact .sign (by decide)
    · rw [equal]
      exact .sign (by decide)
    · rw [equal]
      exact .nil
  logical _ _ _ _ known valuePhrases := by
    rw [Stream.bare_separated]
    have member : ∀ other ∈ ["&&", "||"], other ∈ phraseSigns := by decide
    exact .separated (member _ (mem_of_logicalSign? known)) (phrase_operands valuePhrases)
  compare _ _ _ _ _ _ _ emitted leftPhrase rightPhrases :=
    phrase_conjunction (phrase_comparisons emitted leftPhrase rightPhrases)
  special _ _ _ _ known argumentPhrases := phrase_special known argumentPhrases
  call _ _ _ _ _ functionPhrase argumentPhrases := by
    rw [Stream.bare_group, Stream.bare_join, Stream.bare_join]
    exact .append (phrase_operand functionPhrase) (phrase_comma argumentPhrases).parenthesized
  field _ attr _ valuePhrase := by
    rw [Stream.bare_ident, Stream.bare_dotted]
    exact .append (.append (phrase_operand valuePhrase) (.sign (by decide))) (.ident attr)
  subscript _ _ _ _ valuePhrase slicePhrase := by
    rw [Stream.bare_group, Stream.bare_join, Stream.bare_join]
    exact .append (phrase_operand valuePhrase) slicePhrase.bracketed
  list _ _ itemPhrases := by
    rw [Stream.bare_group, Stream.bare_join]
    exact .append (phrase_bang _) (phrase_comma itemPhrases).bracketed
  tuple _ _ itemPhrases := by
    rw [Stream.bare_parenthesized]
    refine .parenthesized ?_
    split
    · rw [Stream.bare_punct]
      exact .append (phrase_comma itemPhrases) (.sign (by decide))
    · exact phrase_comma itemPhrases
  await _ _ _ valuePhrase := by
    rw [Stream.bare_keyword, Stream.bare_dotted]
    exact .append (.append (phrase_operand valuePhrase) (.sign (by decide))) (.single (by decide))

/-- An expression is written as a phrase. -/
theorem phrase_expr {value : Expr} {stream : Stream}
    (lowered : expr context table value = .ok stream) : Phrase stream.bare :=
  phraseRules.sound value stream lowered

/-! ### Signatures and patterns -/

/-- A parameter is its name, a colon and its type. -/
theorem bare_typedParam (name : String) (type : Ty) :
    (typedParam name type).bare = .ident name :: .punct ":" :: (type.emit []).bare := by
  rw [typedParam, Ty.emit_eq_append, Stream.bare_append, Stream.bare_punct, Stream.bare_join]
  rfl

theorem phrase_params {options : Options} {parameters : List Param} {stream : Stream}
    (lowered : params options parameters = .ok stream) : Phrase stream.bare := by
  obtain ⟨streams, rfl, all⟩ := typedParams_of_params lowered
  rw [Stream.bare_comma]
  refine .separated (by decide) (List.forall_mem_map.mpr (forall_mem_of_forall₂ (all.imp ?_)))
  rintro parameter _ ⟨type, rfl⟩
  rw [bare_typedParam]
  exact .append (.ident _) (.append (.sign (by decide)) (Ty.phrase_emit type))

theorem phrase_result {options : Options} {returns : Expr} {stream : Stream}
    (lowered : result options returns = .ok stream) : Phrase stream.bare := by
  obtain rfl | ⟨type, rfl⟩ := nil_or_type_of_result lowered
  · exact .nil
  · rw [Ty.emit_eq_append, Stream.bare_append]
    exact .append (.sign (by decide)) (Ty.phrase_emit _)

theorem phrase_boundPattern (names : List String) : Phrase (boundPattern names).bare := by
  rw [boundPattern, Stream.bare_comma]
  refine .separated (by decide) ?_
  simp only [List.map_map, List.forall_mem_map, Function.comp_apply]
  exact fun id _ => .ident id

theorem phrase_freshPattern (names : List String) : Phrase (freshPattern names).bare := by
  rw [freshPattern, Stream.bare_comma]
  refine .separated (by decide) ?_
  simp only [List.map_map, List.forall_mem_map, Function.comp_apply]
  exact fun id _ => .append (.single (by decide)) (.ident id)

/-- What follows the name of a new variable. -/
def typing : Option Ty → Stream
  | none => []
  | some type => .punct ":" :: (type.emit []).bare

theorem phrase_typing : (type? : Option Ty) → Phrase (typing type?)
  | none => .nil
  | some type => .append (.sign (by decide)) (Ty.phrase_emit type)

/-- A new variable is `let mut`, its name and its type if that is known. -/
theorem bare_newVariable (id : String) (type? : Option Ty) :
    (newVariable id type?).bare = [.keyword "let", .keyword "mut", .ident id] ++ typing type? := by
  cases type? with
  | none => rfl
  | some type =>
    rw [newVariable, Ty.emit_eq_append]
    simp [typing]

/-- A declaration is a new variable and a semicolon. -/
theorem bare_declaration (options : Options) (declaration : Declaration) :
    ∃ type?, (declaration.tokens options).bare =
      [.keyword "let", .keyword "mut", .ident declaration.name] ++ typing type? ++
        [.punct ";"] := by
  obtain ⟨type?, equal⟩ := exists_declaration_eq options declaration
  exact ⟨type?, by rw [equal, Stream.bare_punct, bare_newVariable]⟩

/-- A visibility behind a phrase is part of it. -/
theorem phrase_visibility {stream : Stream} (phrase : Phrase stream.bare) :
    (visibility : Visibility) → Phrase (visibility.emit stream).bare
  | .hidden => phrase
  | .unknown => phrase
  | .everywhere => by
    rw [Visibility.emit, Stream.bare_keyword]
    exact .append phrase (.single (by decide))
  | .internal => by
    rw [Visibility.emit, Stream.bare_group, Stream.bare_join, Stream.bare_join,
      Stream.bare_keyword, Stream.bare_keyword]
    exact .append (.append phrase (.single (by decide))) (.parenthesized (.single (by decide)))

theorem phrase_qualifier {stream : Stream} (phrase : Phrase stream.bare) :
    (qualifier : Qualifier) → Phrase (qualifier.emit stream).bare
  | .sync => phrase
  | .async => by
    rw [Qualifier.emit, Stream.bare_keyword]
    exact .append phrase (.single (by decide))

/-- The head of a function is a phrase before the word `fn`, and the signature behind the name. -/
theorem exists_head_bare_eq (options : Options) (context : Context) (definition : FunctionDef)
    (clause output : Stream) :
    ∃ front, Phrase front ∧ (head context options definition clause output).bare =
      front ++ .keyword "fn" :: .ident definition.name ::
        (.punct "(" :: (clause.bare ++ [.punct ")"]) ++ output.bare) := by
  have documented (text : String) : Phrase (Stream.doc [] text).bare := by
    rw [Stream.bare_doc]
    exact .single rfl
  have front := phrase_qualifier (phrase_visibility
    (documented (if options.noDocstrings then "" else definition.docstring?.getD ""))
    (Visibility.ofName definition.name)) (Qualifier.ofContext context)
  refine ⟨_, front, ?_⟩
  simp only [head, Stream.bare_append, Stream.bare_group, Stream.bare_join, Stream.bare_ident,
    Stream.bare_keyword, List.append_assoc, List.cons_append, List.nil_append]

/-- The head of a function is one phrase before the word `fn` and one behind the name. -/
theorem bare_head {options : Options} {context : Context} {definition : FunctionDef}
    {clause output : Stream} (clausePhrase : Phrase clause.bare)
    (outputPhrase : Phrase output.bare) :
    ∃ front signature, Phrase front ∧ Phrase signature ∧
      (head context options definition clause output).bare =
        front ++ .keyword "fn" :: .ident definition.name :: signature := by
  obtain ⟨front, frontPhrase, spelled⟩ :=
    exists_head_bare_eq options context definition clause output
  exact ⟨front, _, frontPhrase, .append (.parenthesized clausePhrase) outputPhrase, spelled⟩

end Lower

end Oxide
