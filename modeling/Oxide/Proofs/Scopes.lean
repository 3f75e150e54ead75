/-
This file reads off a bare stream which names are visible where. A brace opens a scope in which the
target of a loop or the parameters of a function are visible from the start; a `let` adds its names
to the innermost scope at the end of its statement; and the closing brace takes the scope away with
all its names. The stream of a body is cut into the tokens of its statements, one after another in
the order of the text, and every statement stands at a site where certain names are visible.
-/

import Oxide.Proofs.NestedFunctions

namespace Oxide

/-! ### Names that a head or a statement brings -/

/-- The identifiers that stand directly before a colon. -/
def typedNames : Stream → List String
  | first :: second :: rest =>
    if first.kind = .ident && second.isPunct ":" then first.text :: typedNames (second :: rest)
    else typedNames (second :: rest)
  | _ => []

/-- The names that the head of a block brings: the parameters of a function, or the target of a
loop. -/
def headNames (head : Stream) : List String :=
  if Lower.isFunctionHead head then typedNames (head.dropWhile fun token => !token.isKeyword "fn")
  else loopNames head

/-- The names that a statement declares. -/
def letNames : Stream → List String
  | [] => []
  | first :: rest => if first.isKeyword "let" then declaredNames rest else []

theorem letNames_cons_of_isCalm {first : Token} {rest : Stream} (calm : first.isCalm) :
    letNames (first :: rest) = [] := by
  rw [letNames, if_neg]
  intro isLet
  simp [Token.isCalm, isLet] at calm

/-- A calm stream declares nothing. -/
theorem letNames_of_calm {stream : Stream} (calm : Calm stream) : letNames stream = [] := by
  cases stream with
  | nil => rfl
  | cons first rest => exact letNames_cons_of_isCalm (calm first List.mem_cons_self)

/-- An assignment without `let` declares nothing. -/
theorem letNames_assign {place value : Stream} (calm : Calm place) :
    letNames (place ++ .punct "=" :: value) = [] := by
  cases place with
  | nil => rfl
  | cons first rest => exact letNames_cons_of_isCalm (calm first List.mem_cons_self)

/-- A `let` declares the names before the equals sign. -/
theorem letNames_let_assign (place value : Stream) :
    letNames (.keyword "let" :: (place ++ .punct "=" :: value)) = declaredNames place :=
  declaredNames_append (by simp [Token.endsNames, Token.isPunct, Token.punct]) place

/-- Whether a stream has no colon. -/
def Colonless (stream : Stream) : Prop :=
  ∀ token ∈ stream, ¬ token.isPunct ":"

theorem Colonless.append {first second : Stream} (firstFree : Colonless first)
    (secondFree : Colonless second) : Colonless (first ++ second) :=
  List.forall_mem_append.mpr ⟨firstFree, secondFree⟩

theorem Colonless.single {token : Token} (free : ¬ token.isPunct ":") : Colonless [token] :=
  List.forall_mem_singleton.mpr free

/-- No type is spelled with a colon. -/
theorem colonlessTypeRules : TypeRules Colonless where
  nil := List.forall_mem_nil _
  append := .append
  ident _ := .single Bool.false_ne_true
  sign member := by
    have all : ∀ text ∈ typeSigns, ¬ (Token.punct text).isPunct ":" := by decide
    exact .single (all _ member)
  mutable := .single (by decide)
  parenthesized inner :=
    @Colonless.append [.punct "("] _ (.single (by decide)) (.append inner (.single (by decide)))

theorem typedNames_cons_of_not {token : Token} {rest : Stream}
    (free : ∀ next ∈ rest.head?, ¬ next.isPunct ":") :
    typedNames (token :: rest) = typedNames rest := by
  cases rest with
  | nil => rfl
  | cons next later =>
    rw [typedNames, if_neg]
    simp [free next rfl]

theorem typedNames_punct (text : String) (rest : Stream) :
    typedNames (.punct text :: rest) = typedNames rest := by
  cases rest with
  | nil => rfl
  | cons next later => rfl

/-- Where no colon stands no name has a type. -/
theorem typedNames_append {first second : Stream} (firstFree : Colonless first)
    (secondFree : ∀ next ∈ second.head?, ¬ next.isPunct ":") :
    typedNames (first ++ second) = typedNames second := by
  induction first with
  | nil => rfl
  | cons token rest inductionHypothesis =>
    obtain ⟨_, restFree⟩ := List.forall_mem_cons.mp firstFree
    rw [List.cons_append, typedNames_cons_of_not, inductionHypothesis restFree]
    cases rest with
    | nil => exact secondFree
    | cons next later =>
      rintro _ ⟨⟩
      exact restFree next List.mem_cons_self

/-- The name before a colon has a type, and nothing in the type is a name. -/
theorem typedNames_typed (name : String) {type rest : Stream} (typeFree : Colonless type)
    (restFree : ∀ next ∈ rest.head?, ¬ next.isPunct ":") :
    typedNames (.ident name :: .punct ":" :: (type ++ rest)) =
      identName name :: typedNames rest := by
  change identName name :: typedNames (.punct ":" :: (type ++ rest)) = _
  rw [typedNames_punct, typedNames_append typeFree restFree]

/-! ### Scopes -/

/-- The names of each block that is open at a token, the innermost first, and the tokens of its
statement that stand before it. -/
structure Scopes where
  blocks : List (List String)
  current : Stream

namespace Scopes

/-- Adds names to the innermost scope. -/
def declare (names : List String) : List (List String) → List (List String)
  | [] => []
  | innermost :: outer => (names ++ innermost) :: outer

/-- The scopes behind a token. -/
def step (scopes : Scopes) (token : Token) : Scopes :=
  if token.isPunct openBrace then ⟨headNames scopes.current :: scopes.blocks, []⟩
  else if token.isPunct closeBrace then ⟨scopes.blocks.tail, []⟩
  else if token.isPunct ";" then ⟨declare (letNames scopes.current) scopes.blocks, []⟩
  else ⟨scopes.blocks, scopes.current ++ [token]⟩

/-- The scopes behind a stream. -/
def walk (scopes : Scopes) (stream : Stream) : Scopes :=
  stream.foldl step scopes

/-- The names that are visible. -/
def visible (scopes : Scopes) : List String :=
  scopes.blocks.flatten

variable {scopes : Scopes} {blocks : List (List String)} {names : List String}

/-- A stream is walked in parts. -/
theorem walk_append (scopes : Scopes) (first second : Stream) :
    scopes.walk (first ++ second) = (scopes.walk first).walk second :=
  List.foldl_append

theorem step_of_not_divides {token : Token} (within : ¬ token.divides) :
    scopes.step token = ⟨scopes.blocks, scopes.current ++ [token]⟩ := by
  simp only [Token.divides, Bool.or_eq_true, not_or] at within
  rw [step, if_neg within.1.1, if_neg within.1.2, if_neg within.2]

/-- Tokens that divide nothing belong to the statement that they stand in. -/
theorem walk_of_not_divides {stream : Stream} (within : ∀ token ∈ stream, ¬ token.divides) :
    scopes.walk stream = ⟨scopes.blocks, scopes.current ++ stream⟩ := by
  induction stream generalizing scopes with
  | nil =>
    rw [List.append_nil]
    rfl
  | cons token rest inductionHypothesis =>
    rw [List.forall_mem_cons] at within
    change (scopes.step token).walk rest = _
    rw [step_of_not_divides within.1, inductionHypothesis within.2, List.append_assoc,
      List.singleton_append]

theorem declare_nil (blocks : List (List String)) : declare [] blocks = blocks := by
  cases blocks <;> rfl

/-- Names that are declared one after another are declared together. -/
theorem declare_declare (first second : List String) (blocks : List (List String)) :
    declare second (declare first blocks) = declare (second ++ first) blocks := by
  cases blocks with
  | nil => rfl
  | cons innermost outer => rw [declare, declare, declare, List.append_assoc]

theorem declare_ne_nil (nonempty : blocks ≠ []) : declare names blocks ≠ [] := by
  cases blocks with
  | nil => exact absurd rfl nonempty
  | cons innermost outer => exact List.cons_ne_nil _ _

/-- What is declared is visible beside what was visible before. -/
theorem mem_flatten_declare {text : String} (nonempty : blocks ≠ []) :
    text ∈ (declare names blocks).flatten ↔ text ∈ names ∨ text ∈ blocks.flatten := by
  cases blocks with
  | nil => exact absurd rfl nonempty
  | cons innermost outer =>
    rw [declare, List.flatten_cons, List.flatten_cons, List.mem_append, List.mem_append,
      List.mem_append, or_assoc]

/-- A declaration takes no name away. -/
theorem flatten_subset_declare (names : List String) (blocks : List (List String)) :
    blocks.flatten ⊆ (declare names blocks).flatten := by
  cases blocks with
  | nil => exact List.Subset.refl _
  | cons innermost outer =>
    rw [declare, List.flatten_cons, List.flatten_cons, List.append_assoc]
    exact List.subset_append_right _ _

theorem mem_of_mem_declare {text : String} (member : text ∈ (declare names blocks).flatten) :
    text ∈ names ∨ text ∈ blocks.flatten := by
  cases blocks with
  | nil => exact .inr member
  | cons innermost outer => exact (mem_flatten_declare (List.cons_ne_nil _ _)).mp member

end Scopes

namespace Lower

/-! ### Heads -/

/-- The head of a condition or of a loop without a target brings no names. -/
theorem headNames_words {words : List String} {condition : Stream}
    (known : ∀ word ∈ words, word ∈ ["if", "else", "while", "loop"]) (nonempty : words ≠ [])
    (phrase : Phrase condition) : headNames (words.map .keyword ++ condition) = [] := by
  have noFunction : ∀ word ∈ ["if", "else", "while", "loop"],
      (Token.keyword word).isKeyword "fn" = false := by decide
  have noLoop : ∀ word ∈ ["if", "else", "while", "loop"],
      ¬ (Token.keyword word).isKeyword "for" := by decide
  have noHead : ¬ isFunctionHead (words.map .keyword ++ condition) := by
    rw [isFunctionHead, Bool.not_eq_true, List.any_append, Bool.or_eq_false_iff, List.any_map,
      List.any_eq_false, List.any_eq_false]
    exact ⟨fun word member => Bool.eq_false_iff.mp (noFunction word (known word member)),
      fun token member => Bool.eq_false_iff.mp (phrase.isKeyword_eq_false (by decide) token member)⟩
  rw [headNames, if_neg noHead]
  cases words with
  | nil => exact absurd rfl nonempty
  | cons word rest =>
    rw [List.map_cons, List.cons_append, loopNames,
      if_neg (noLoop word (known word List.mem_cons_self))]

/-- The head of a loop brings its target. -/
theorem headNames_loop {place : Expr} {names : List String} {pattern items : Stream}
    (placed : LoopPlace place names pattern) (phrase : Phrase items) :
    headNames (.keyword "for" :: (pattern.bare ++ .keyword "in" :: items)) =
      (targetNames place).map identName := by
  have noHead : ¬ isFunctionHead (.keyword "for" :: (pattern.bare ++ .keyword "in" :: items)) := by
    rw [isFunctionHead, Bool.not_eq_true, List.any_eq_false]
    rw [List.forall_mem_cons, List.forall_mem_append, List.forall_mem_cons]
    have free {stream : Stream} (phrase : Phrase stream) :
        ∀ token ∈ stream, ¬ token.isKeyword "fn" := fun token member =>
      Bool.eq_false_iff.mp (phrase.isKeyword_eq_false (by decide) token member)
    exact ⟨by decide, free (phrase_loopPlace placed), by decide, free phrase⟩
  rw [headNames, if_neg noHead, loopNames_of_loopPlace placed]

/-- The names with a type in a list of parameters are its parameters. -/
theorem typedNames_params {parameters : List Param} {streams : List Stream}
    (typed : List.Forall₂ (fun parameter stream => ∃ type, stream = typedParam parameter.name type)
      parameters streams)
    {rest : Stream} (free : ∀ next ∈ rest.head?, ¬ next.isPunct ":") :
    typedNames (separated "," (streams.map Stream.bare) ++ rest) =
      (parameters.map ParamOf.name).map identName ++ typedNames rest := by
  induction typed with
  | nil => rfl
  | @cons parameter _ parameters streams first later inductionHypothesis =>
    obtain ⟨type, rfl⟩ := first
    have typeFree := colonlessTypeRules.emit type
    cases later with
    | nil =>
      rw [List.map_cons, bare_typedParam]
      exact typedNames_typed parameter.name typeFree free
    | cons second later =>
      rw [List.map_cons, bare_typedParam, List.map_cons, separated, Stream.punct,
        List.append_assoc, List.append_assoc]
      refine (typedNames_typed parameter.name typeFree ?_).trans ?_
      · rintro _ ⟨⟩
        decide
      · refine congrArg (identName parameter.name :: ·) ((typedNames_punct "," _).trans ?_)
        exact inductionHypothesis

/-- The result of a function brings no names. -/
theorem typedNames_output {options : Options} {returns : Expr} {output : Stream}
    (lowered : result options returns = .ok output) : typedNames output.bare = [] := by
  obtain rfl | ⟨type, rfl⟩ := nil_or_type_of_result lowered
  · rfl
  · have free := colonlessTypeRules.emit type
    rw [Ty.emit_eq_append, Stream.bare_append, ← List.append_nil (type.emit []).bare]
    exact (typedNames_punct "->" _).trans (typedNames_append free (fun _ => nofun))

/-- The head of a function brings its parameters. -/
theorem headNames_function {options : Options} {context : Context} {definition : FunctionDef}
    {clause output : Stream} (clauseLowered : params options definition.params = .ok clause)
    (outputLowered : result options definition.returns = .ok output) :
    headNames (head context options definition clause output).bare =
      (definition.params.map ParamOf.name).map identName := by
  obtain ⟨front, frontPhrase, spelled⟩ :=
    exists_head_bare_eq options context definition clause output
  obtain ⟨streams, rfl, typed⟩ := typedParams_of_params clauseLowered
  have isHead :
      isFunctionHead (head context options definition (Stream.comma streams) output).bare := by
    rw [spelled]
    exact isFunctionHead_of_mem (List.mem_append_right _ List.mem_cons_self)
  have noWord := frontPhrase.isKeyword_eq_false (show "fn" ∉ phraseWords by decide)
  rw [headNames, if_pos isHead, spelled,
    List.dropWhile_append_of_pos (fun token member => by simp [noWord token member]),
    List.dropWhile_cons_of_neg (by decide), Stream.bare_comma]
  have named : ∀ next ∈ List.head? (Token.ident definition.name :: (.punct "(" ::
      (separated "," (streams.map Stream.bare) ++ [.punct ")"]) ++ output.bare)),
      ¬ next.isPunct ":" := by
    rintro _ ⟨⟩
    exact Bool.false_ne_true
  rw [typedNames_cons_of_not named, typedNames_cons_of_not (by rintro _ ⟨⟩; decide),
    List.cons_append, typedNames_punct, List.append_assoc,
    typedNames_params typed (by rintro _ ⟨⟩; decide), List.singleton_append, typedNames_punct,
    typedNames_output outputLowered, List.append_nil]

/-! ### Stations of the source -/

/-- A statement, with the names that the loops around it bind. -/
structure Station where
  value : Stmt
  loops : List String

mutual

/-- A statement and all statements inside its blocks, in the order of the text. -/
def stmtStations (loops : List String) : Stmt → List Station
  | .ifElse test body orelse =>
    ⟨.ifElse test body orelse, loops⟩ :: (blockStations loops body ++ blockStations loops orelse)
  | .whileLoop test body orelse =>
    ⟨.whileLoop test body orelse, loops⟩ :: (blockStations loops body ++ blockStations loops orelse)
  | .forLoop place iter body orelse =>
    ⟨.forLoop place iter body orelse, loops⟩ ::
      (blockStations (targetNames place ++ loops) body ++ blockStations loops orelse)
  | other => [⟨other, loops⟩]

/-- The statements of a block and all statements inside them. -/
def blockStations (loops : List String) : List Stmt → List Station
  | [] => []
  | first :: rest => stmtStations loops first ++ blockStations loops rest

end

mutual

/-- A statement has a station for each statement inside it, in the order of the text. -/
theorem map_value_stmtStations (loops : List String) (value : Stmt) :
    (stmtStations loops value).map Station.value = within value := by
  cases value with
  | ifElse test body orelse =>
    rw [stmtStations, List.map_cons, List.map_append, map_value_blockStations loops body,
      map_value_blockStations loops orelse, within]
  | whileLoop test body orelse =>
    rw [stmtStations, List.map_cons, List.map_append, map_value_blockStations loops body,
      map_value_blockStations loops orelse, within]
  | forLoop place iter body orelse =>
    rw [stmtStations, List.map_cons, List.map_append, map_value_blockStations _ body,
      map_value_blockStations loops orelse, within]
  | _ => simp [stmtStations, within]

theorem map_value_blockStations (loops : List String) : (body : List Stmt) →
    (blockStations loops body).map Station.value = withinAll body
  | [] => rfl
  | first :: rest => by
    rw [blockStations, List.map_append, map_value_stmtStations loops first,
      map_value_blockStations loops rest, withinAll]

end

mutual

/-- The loops around a statement are around everything inside it. -/
theorem subset_loops_of_mem_stmtStations {loops : List String} {station : Station} (value : Stmt)
    (member : station ∈ stmtStations loops value) : loops ⊆ station.loops := by
  have here {value : Stmt} (same : station = ⟨value, loops⟩) : loops ⊆ station.loops := by
    rw [same]
    exact List.Subset.refl _
  cases value with
  | ifElse test body orelse =>
    rw [stmtStations, List.mem_cons, List.mem_append] at member
    rcases member with same | inBody | inElse
    · exact here same
    · exact subset_loops_of_mem_blockStations body inBody
    · exact subset_loops_of_mem_blockStations orelse inElse
  | whileLoop test body orelse =>
    rw [stmtStations, List.mem_cons, List.mem_append] at member
    rcases member with same | inBody | inElse
    · exact here same
    · exact subset_loops_of_mem_blockStations body inBody
    · exact subset_loops_of_mem_blockStations orelse inElse
  | forLoop place iter body orelse =>
    rw [stmtStations, List.mem_cons, List.mem_append] at member
    rcases member with same | inBody | inElse
    · exact here same
    · exact List.Subset.trans (List.subset_append_right _ _)
        (subset_loops_of_mem_blockStations body inBody)
    · exact subset_loops_of_mem_blockStations orelse inElse
  | _ =>
    rw [stmtStations] at member
    · exact here (List.mem_singleton.mp member)
    all_goals nofun

/-- What the loops around a block bind is bound around all that is in it. -/
theorem subset_loops_of_mem_blockStations {loops : List String} {station : Station} :
    (body : List Stmt) → station ∈ blockStations loops body → loops ⊆ station.loops
  | [], member => by cases member
  | first :: rest, member => by
    rw [blockStations, List.mem_append] at member
    exact member.elim (subset_loops_of_mem_stmtStations first)
      (subset_loops_of_mem_blockStations rest)

end

/-- The places among targets that are expressions: their parts are read. -/
def placeReads : Expr → List Expr
  | .attribute value attr => [.attribute value attr]
  | .subscript value slice => [.subscript value slice]
  | _ => []

/-- An expression that may be left out. -/
def optionalReads (value : Expr) : List Expr :=
  if value.isAbsent then [] else [value]

/-- What is read to raise something: of the call of a name only the message. -/
def raiseReads : Expr → List Expr
  | .call (.name _) [] [] => []
  | .call (.name _) [message] [] => [message]
  | exc => optionalReads exc

/-- The expressions that a statement reads itself, not counting those inside its blocks. -/
def readBy : Stmt → List Expr
  | .expr value => [value]
  | .assign targets value => targets.flatMap placeReads ++ [value]
  | .augAssign place op value =>
    if (binarySign? op).isSome then [place, value] else [place, .binOp place op value]
  | .annAssign place _ value =>
    if value.isAbsent then [] else placeReads place ++ [value]
  | .ret value => optionalReads value
  | .ifElse test _ _ => [test]
  | .whileLoop test _ _ => if isTrue test then [] else [test]
  | .forLoop _ iter _ _ => [iter]
  | .raise exc => raiseReads exc
  | .assert test message => test :: optionalReads message
  | _ => []

/-! ### Sites of the stream -/

/-- A station with the tokens that are its own, and the names that are visible at them. -/
structure Site extends Station where
  own : Stream
  visible : List String

/-- The tokens between the statements of a body. -/
def betweenTokens : List Token :=
  [.punct openBrace, .punct closeBrace, .punct ";", .keyword "else"]

/-- Whether all that a statement reads is lowered in a stream. -/
def Written (context : Context) (value : Stmt) (own : Stream) : Prop :=
  ∀ read ∈ readBy value, ∃ table part, expr context table read = .ok part ∧ PartOf part.bare own

/-- `Cut context scopes stream sites` holds if the stream, in the given scopes, is made of the
tokens of the sites one after another, with nothing else than braces, semicolons and `else` between
them. -/
inductive Cut (context : Context) : Scopes → Stream → List Site → Prop where
  | done {scopes : Scopes} : Cut context scopes [] []
  | between {scopes : Scopes} {token : Token} {stream : Stream} {sites : List Site}
      (known : token ∈ betweenTokens) (rest : Cut context (scopes.step token) stream sites) :
      Cut context scopes (token :: stream) sites
  | site {scopes : Scopes} {value : Stmt} {own stream : Stream} {sites : List Site}
      (loops : List String) (undivided : ∀ token ∈ own, ¬ token.divides)
      (written : Written context value own)
      (rest : Cut context (scopes.walk own) stream sites) :
      Cut context scopes (own ++ stream) (⟨⟨value, loops⟩, own, scopes.visible⟩ :: sites)

/-- A stream that is cut in parts is cut as a whole. -/
theorem Cut.append {context : Context} {scopes : Scopes} {first second : Stream}
    {firstSites secondSites : List Site} (firstCut : Cut context scopes first firstSites)
    (secondCut : Cut context (scopes.walk first) second secondSites) :
    Cut context scopes (first ++ second) (firstSites ++ secondSites) := by
  induction firstCut with
  | done => exact secondCut
  | between known _ inductionHypothesis => exact .between known (inductionHypothesis secondCut)
  | @site scopes value own stream sites loops undivided written _ inductionHypothesis =>
    rw [List.append_assoc]
    rw [Scopes.walk_append] at secondCut
    exact .site loops undivided written (inductionHypothesis secondCut)

/-- Whether something holds of each site and the sites before it. -/
def EachBehind (holds : List Site → Site → Prop) (sites : List Site) : Prop :=
  ∀ before site after, sites = before ++ site :: after → holds before site

namespace EachBehind

variable {holds : List Site → Site → Prop} {first second sites : List Site}

theorem nil : EachBehind holds [] := by
  intro before site after split
  simp at split

theorem append (firstHolds : EachBehind holds first)
    (secondHolds : EachBehind (fun before => holds (first ++ before)) second) :
    EachBehind holds (first ++ second) := by
  intro before site after split
  rcases split_append split with ⟨rest, same⟩ | ⟨between, rfl, same⟩
  · exact firstHolds before site rest same
  · exact secondHolds between site after same

theorem cons {site : Site} (siteHolds : holds [] site)
    (restHold : EachBehind (fun before => holds (site :: before)) sites) :
    EachBehind holds (site :: sites) := by
  refine @append holds [site] sites ?_ restHold
  intro before other after split
  obtain _ | ⟨head, before⟩ := before
  · cases split
    exact siteHolds
  · simp at split

/-- What follows from a property of each site holds of each site. -/
theorem mono {other : List Site → Site → Prop} (each : EachBehind holds sites)
    (imp : ∀ before, ∀ site ∈ sites, holds before site → other before site) :
    EachBehind other sites := by
  intro before site after split
  refine imp before site ?_ (each before site after split)
  rw [split]
  exact List.mem_append_right _ List.mem_cons_self

end EachBehind

end Lower

end Oxide
