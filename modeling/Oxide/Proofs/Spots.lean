/-
This file reads off a bare stream what happens to names in it. Braces and semicolons divide a
stream into statements, and what stands before an opening brace is the head of a block. Every `let`
declares the names behind it, and every sign of assignment assigns to the names before it in its
statement; both are events that happen inside the blocks that are open there. None of this looks at
the tree that the stream was made from.
-/

import Oxide.Proofs.Delimiters

namespace Oxide

/-! ### Spots -/

/-- The heads of the blocks that are open at a token, the innermost first, and the tokens of its
statement that stand before it. -/
structure Spot where
  around : List Stream
  current : Stream

/-- Whether a token divides statements. -/
def Token.divides (token : Token) : Bool :=
  token.isPunct openBrace || token.isPunct closeBrace || token.isPunct ";"

namespace Spot

/-- The spot behind a token. -/
def step (spot : Spot) (token : Token) : Spot :=
  if token.isPunct openBrace then ⟨spot.current :: spot.around, []⟩
  else if token.isPunct closeBrace then ⟨spot.around.tail, []⟩
  else if token.isPunct ";" then ⟨spot.around, []⟩
  else ⟨spot.around, spot.current ++ [token]⟩

/-- The spot behind a stream. -/
def walk (spot : Spot) (stream : Stream) : Spot :=
  stream.foldl step spot

theorem walk_cons (spot : Spot) (token : Token) (rest : Stream) :
    spot.walk (token :: rest) = (spot.step token).walk rest := rfl

theorem step_openBrace (spot : Spot) :
    spot.step (.punct openBrace) = ⟨spot.current :: spot.around, []⟩ := rfl

theorem step_of_not_divides {spot : Spot} {token : Token} (within : ¬ token.divides) :
    spot.step token = ⟨spot.around, spot.current ++ [token]⟩ := by
  simp only [Token.divides, Bool.or_eq_true, not_or] at within
  rw [step, if_neg within.1.1, if_neg within.1.2, if_neg within.2]

/-- The blocks that a stream opens and has not closed are as many as its open braces. -/
theorem exists_around_walk {stack next : List Delimiter} {stream : Stream} {spot : Spot}
    {inner outer : List Stream} (closed : stream.foldlM Delimiter.step stack = some next)
    (split : spot.around = inner ++ outer) (counted : inner.length = stack.count .brace) :
    ∃ opened, (spot.walk stream).around = opened ++ outer ∧ opened.length = next.count .brace := by
  induction stream generalizing stack spot inner with
  | nil =>
    cases closed
    exact ⟨inner, split, counted⟩
  | cons token rest inductionHypothesis =>
    rw [List.foldlM_cons, Option.bind_eq_bind, Option.bind_eq_some_iff] at closed
    obtain ⟨middle, stepped, restClosed⟩ := closed
    rw [walk_cons, step]
    split_ifs with opens closes ends
    · rw [Layout.step_of_opening (Layout.roleOf_eq_opening.mpr opens)] at stepped
      cases stepped
      refine @inductionHypothesis _ _ (spot.current :: inner) restClosed ?_ ?_
      · rw [split, List.cons_append]
      · rw [List.length_cons, counted, List.count_cons_self]
    · obtain rfl := Layout.step_of_closing (Layout.roleOf_eq_closing.mpr closes) stepped
      rw [List.count_cons_self] at counted
      obtain ⟨head, later, rfl⟩ := List.exists_cons_of_length_eq_add_one counted
      refine @inductionHypothesis _ _ later restClosed ?_ (Nat.succ.inj counted)
      rw [split, List.cons_append, List.tail_cons]
    all_goals
      have kept := Layout.count_step_of_other (fun role => opens (Layout.roleOf_eq_opening.mp role))
        (fun role => closes (Layout.roleOf_eq_closing.mp role)) stepped
      exact @inductionHypothesis _ _ inner restClosed split (counted.trans kept.symm)

end Spot

namespace Neutral

/-- Behind a neutral stream the same blocks are open as before it. -/
theorem around_walk {stream : Stream} (neutral : Neutral stream) (spot : Spot) :
    (spot.walk stream).around = spot.around := by
  obtain ⟨opened, equal, counted⟩ :=
    @Spot.exists_around_walk [] [] stream spot [] spot.around (neutral []) rfl rfl
  rw [equal, List.length_eq_zero_iff.mp counted, List.nil_append]

end Neutral

/-! ### Tokens of phrases -/

namespace Phrase

/-- The delimiters that can stand in a phrase. -/
def delimiters : List Token := [.punct "(", .punct ")", .punct "[", .punct "]"]

/-- A phrase is made of plain tokens and delimiters. -/
theorem isPlain_or_mem_delimiters {stream : Stream} (phrase : Phrase stream) :
    ∀ token ∈ stream, token.isPlain ∨ token ∈ delimiters := by
  induction phrase with
  | nil => exact fun _ member => nomatch member
  | single plain =>
    rw [List.forall_mem_singleton]
    exact .inl plain
  | append _ _ firstAll secondAll => exact List.forall_mem_append.mpr ⟨firstAll, secondAll⟩
  | parenthesized _ all =>
    rw [List.forall_mem_cons, List.forall_mem_append, List.forall_mem_singleton]
    exact ⟨.inr (by decide), all, .inr (by decide)⟩
  | bracketed _ all =>
    rw [List.forall_mem_cons, List.forall_mem_append, List.forall_mem_singleton]
    exact ⟨.inr (by decide), all, .inr (by decide)⟩

/-- A phrase has no keywords but its own. -/
theorem isKeyword_eq_false {stream : Stream} (phrase : Phrase stream) {word : String}
    (other : word ∉ phraseWords) : ∀ token ∈ stream, token.isKeyword word = false := by
  intro token member
  rw [Bool.eq_false_iff]
  intro isWord
  simp only [Token.isKeyword, Bool.and_eq_true, decide_eq_true_eq] at isWord
  rcases phrase.isPlain_or_mem_delimiters token member with plain | isDelimiter
  · rw [Token.isPlain, isWord.1, isWord.2] at plain
    exact other (List.contains_iff_mem.mp plain)
  · have all : ∀ token ∈ delimiters, token.kind ≠ .keyword := by decide
    exact all token isDelimiter isWord.1

end Phrase

/-! ### Names -/

/-- The identifiers of a stream. -/
def identTexts (stream : Stream) : List String :=
  (stream.filter fun token => token.kind = .ident).map Token.text

/-- Whether a token ends the names of a declaration, because it starts a type or a value or divides
statements. -/
def Token.endsNames (token : Token) : Bool :=
  token.isPunct ":" || token.isPunct "=" || token.divides

/-- The names that a `let` declares, given the tokens behind it. -/
def declaredNames (stream : Stream) : List String :=
  identTexts (stream.takeWhile fun token => !token.endsNames)

/-- The names that the head of a loop binds. -/
def loopNames : Stream → List String
  | [] => []
  | first :: rest =>
    if first.isKeyword "for" then identTexts (rest.takeWhile fun token => !token.isKeyword "in")
    else []

/-- Whether a token cannot stand in a list of names in parentheses. -/
def Token.isForeign (token : Token) : Bool :=
  !(token.kind = .ident || token.isPunct "," || token.isPunct "(" || token.isPunct ")")

/-- Whether a stream has nothing but names and commas. -/
def isNameList (stream : Stream) : Bool :=
  stream.all fun token => token.kind = .ident || token.isPunct ","

/-- The names of a place that is one name, or a list of names in parentheses. -/
def placeNames (place : Stream) : List String :=
  match place with
  | [] => []
  | [single] => identTexts [single]
  | first :: rest =>
    if first.isPunct "(" && rest.getLast?.any (Token.isPunct · ")") && isNameList rest.dropLast then
      identTexts rest
    else []

theorem isNameList_eq_true {stream : Stream} :
    isNameList stream = true ↔ ∀ token ∈ stream, token.kind = .ident ∨ token.isPunct "," := by
  simp only [isNameList, List.all_eq_true, Bool.or_eq_true, decide_eq_true_eq]

theorem identTexts_append (first second : Stream) :
    identTexts (first ++ second) = identTexts first ++ identTexts second := by
  simp [identTexts]

theorem declaredNames_of_not_endsNames {stream : Stream}
    (within : ∀ token ∈ stream, ¬ token.endsNames) : declaredNames stream = identTexts stream := by
  have taken := @List.takeWhile_append_of_pos _ (fun token => !token.endsNames) stream []
    fun token member => by simp [within token member]
  rw [List.append_nil, List.takeWhile_nil, List.append_nil] at taken
  rw [declaredNames, taken]

/-- What ends the names of a declaration ends all of them. -/
theorem declaredNames_append {second : Stream} (ended : ∀ token ∈ second.head?, token.endsNames)
    (first : Stream) : declaredNames (first ++ second) = declaredNames first := by
  unfold declaredNames
  congr 1
  induction first with
  | nil =>
    cases second with
    | nil => rfl
    | cons token rest =>
      rw [List.nil_append, List.takeWhile_cons, ended token rfl]
      rfl
  | cons token later inductionHypothesis =>
    rw [List.cons_append, List.takeWhile_cons, List.takeWhile_cons, inductionHypothesis]

section

variable {place : Stream}

theorem placeNames_cons {first : Token} {rest : Stream} (nonempty : rest ≠ []) :
    placeNames (first :: rest) =
      if first.isPunct "(" && rest.getLast?.any (Token.isPunct · ")") &&
          isNameList rest.dropLast then
        identTexts rest
      else [] := by
  cases rest with
  | nil => exact absurd rfl nonempty
  | cons second later => rfl

/-- A place that holds something else than names, commas and parentheses has no names. -/
theorem placeNames_eq_nil_of_mem {token : Token} (member : token ∈ place)
    (foreign : token.isForeign) : placeNames place = [] := by
  simp only [Token.isForeign, Bool.not_eq_true', Bool.or_eq_false_iff, decide_eq_false_iff_not]
    at foreign
  obtain ⟨⟨⟨notIdent, notComma⟩, notOpening⟩, notClosing⟩ := foreign
  cases place with
  | nil => cases member
  | cons first rest =>
    by_cases single : rest = []
    · subst single
      rw [List.mem_singleton] at member
      subst member
      simp [placeNames, identTexts, notIdent]
    · rw [placeNames_cons single, if_neg]
      simp only [Bool.and_eq_true, isNameList_eq_true]
      rintro ⟨⟨opens, closes⟩, names⟩
      rcases List.mem_cons.mp member with rfl | inRest
      · simp [opens] at notOpening
      · rw [List.getLast?_eq_some_getLast single] at closes
        rw [← List.dropLast_append_getLast single, List.mem_append, List.mem_singleton] at inRest
        rcases inRest with inside | rfl
        · rcases names token inside with isIdent | isComma
          · exact notIdent isIdent
          · simp [isComma] at notComma
        · simp [notClosing] at closes

theorem isNameList_eq_false_of_mem {token : Token} (member : token ∈ place)
    (other : ¬ (token.kind = .ident ∨ token.isPunct ",")) : ¬ isNameList place := fun names =>
  other (isNameList_eq_true.mp names token member)

/-- Names in parentheses are assigned together. -/
theorem placeNames_parenthesized (inner : Stream) :
    placeNames (.punct "(" :: (inner ++ [.punct ")"])) =
      if isNameList inner then identTexts inner else [] := by
  have closing : identTexts [.punct ")"] = [] := rfl
  rw [placeNames_cons (by simp), List.dropLast_concat, List.getLast?_concat, identTexts_append,
    closing, List.append_nil]
  rfl

end

/-! ### Events -/

/-- What happens to names, with the heads of the blocks that are open there. -/
inductive Event where
  | declares (around : List Stream) (names : List String)
  | assigns (around : List Stream) (names : List String)

/-- The heads of the blocks that an event happens in. -/
def Event.around : Event → List Stream
  | .declares around _ => around
  | .assigns around _ => around

namespace Spot

/-- What happens at a token, given the tokens behind it. -/
def eventsAt (spot : Spot) (token : Token) (rest : Stream) : List Event :=
  if token.isKeyword "let" then [.declares spot.around (declaredNames rest)]
  else if token.isPunct "=" then [.assigns spot.around (placeNames spot.current)]
  else []

/-- What happens in a stream that starts at a spot. -/
def events : Spot → Stream → List Event
  | _, [] => []
  | spot, token :: rest => spot.eventsAt token rest ++ events (spot.step token) rest

/-- What a token means is decided before the names end. -/
theorem eventsAt_append {second : Stream} (ended : ∀ token ∈ second.head?, token.endsNames)
    (spot : Spot) (token : Token) (first : Stream) :
    spot.eventsAt token (first ++ second) = spot.eventsAt token first := by
  rw [eventsAt, declaredNames_append ended, eventsAt]

/-- What follows a stream has no say in its events, as long as it does not go on with the names of
a declaration. -/
theorem events_append {second : Stream} (ended : ∀ token ∈ second.head?, token.endsNames)
    (spot : Spot) (first : Stream) :
    spot.events (first ++ second) = spot.events first ++ (spot.walk first).events second := by
  induction first generalizing spot with
  | nil => rfl
  | cons token rest inductionHypothesis =>
    rw [List.cons_append, events, eventsAt_append ended, inductionHypothesis, events, walk_cons,
      List.append_assoc]

end Spot

/-- Whether nothing happens at a token: it neither declares nor assigns nor divides. -/
def Token.isCalm (token : Token) : Bool :=
  !(token.isKeyword "let" || token.isPunct "=" || token.divides)

/-- A stream in which nothing happens. -/
def Calm (stream : Stream) : Prop :=
  ∀ token ∈ stream, token.isCalm

theorem Calm.append {first second : Stream} (firstCalm : Calm first) (secondCalm : Calm second) :
    Calm (first ++ second) :=
  List.forall_mem_append.mpr ⟨firstCalm, secondCalm⟩

theorem Calm.single {token : Token} (calm : token.isCalm) : Calm [token] :=
  List.forall_mem_singleton.mpr calm

theorem Calm.not_divides {stream : Stream} (calm : Calm stream) :
    ∀ token ∈ stream, ¬ token.divides := by
  intro token member divides
  have isCalm := calm token member
  simp [Token.isCalm, divides] at isCalm

theorem Phrase.calm {stream : Stream} (phrase : Phrase stream) : Calm stream := by
  intro token member
  rcases phrase.isPlain_or_mem_delimiters token member with plain | isDelimiter
  · obtain ⟨kind, text, joint⟩ := token
    cases kind with
    | punct =>
      have all : ∀ text ∈ phraseSigns, (Token.punct text).isCalm := by decide
      exact all text (List.contains_iff_mem.mp plain)
    | keyword =>
      have all : ∀ word ∈ phraseWords, (Token.keyword word).isCalm := by decide
      exact all text (List.contains_iff_mem.mp plain)
    | _ => rfl
  · have all : ∀ token ∈ delimiters, token.isCalm := by decide
    exact all token isDelimiter

namespace Spot

variable {spot : Spot} {first second : Stream}

theorem events_calm_append (calm : Calm first) :
    spot.events (first ++ second) = events ⟨spot.around, spot.current ++ first⟩ second := by
  induction first generalizing spot with
  | nil => rw [List.nil_append, List.append_nil]
  | cons token rest inductionHypothesis =>
    obtain ⟨tokenCalm, restCalm⟩ := List.forall_mem_cons.mp calm
    simp only [Token.isCalm, Bool.not_eq_true', Bool.or_eq_false_iff] at tokenCalm
    obtain ⟨⟨noLet, noSign⟩, within⟩ := tokenCalm
    have still : spot.eventsAt token (rest ++ second) = [] := by
      rw [eventsAt, if_neg (by simp [noLet]), if_neg (by simp [noSign])]
    rw [List.cons_append, events, still, step_of_not_divides (by simp [within]), List.nil_append,
      inductionHypothesis restCalm, List.append_assoc, List.singleton_append]

/-- Nothing happens in a calm stream. -/
theorem events_calm (calm : Calm first) : spot.events first = [] := by
  rw [← List.append_nil first, events_calm_append calm, events]

/-- What happens at an assignment. -/
theorem events_assign (firstCalm : Calm first) (secondCalm : Calm second) :
    spot.events (first ++ .punct "=" :: second) =
      [.assigns spot.around (placeNames (spot.current ++ first))] := by
  rw [events_calm_append firstCalm, events, events_calm secondCalm, List.append_nil]
  rfl

/-- What happens at a declaration without a value. -/
theorem events_let (firstCalm : Calm first) :
    spot.events (.keyword "let" :: first) = [.declares spot.around (declaredNames first)] := by
  rw [events, events_calm firstCalm, List.append_nil]
  rfl

/-- What happens at a declaration with a value: no name is assigned to that is not declared. -/
theorem events_let_assign (firstCalm : Calm first) (secondCalm : Calm second) :
    spot.events (.keyword "let" :: (first ++ .punct "=" :: second)) =
      [.declares spot.around (declaredNames first), .assigns spot.around []] := by
  have stepped : spot.step (.keyword "let") = ⟨spot.around, spot.current ++ [.keyword "let"]⟩ :=
    step_of_not_divides (by decide)
  have noPlace : placeNames (spot.current ++ [.keyword "let"] ++ first) = [] :=
    @placeNames_eq_nil_of_mem _ (.keyword "let") (by simp) (by decide)
  rw [events, eventsAt_append (by simp [Token.endsNames, Token.isPunct, Token.punct]), stepped,
    events_assign firstCalm secondCalm, noPlace]
  rfl

/-- What happens in a statement, and then in what follows it. -/
theorem events_statement (neutral : Neutral first) :
    spot.events (first ++ .punct ";" :: second) =
      spot.events first ++ events ⟨spot.around, []⟩ second := by
  rw [events_append (by simp [Token.endsNames, Token.divides, Token.isPunct, Token.punct]), events,
    step, neutral.around_walk]
  rfl

/-- What happens in a block happens behind its head. -/
theorem events_block {opened inner rest : Stream} (calm : Calm opened) (neutral : Neutral inner) :
    spot.events (opened ++ .punct openBrace :: (inner ++ .punct closeBrace :: rest)) =
      events ⟨(spot.current ++ opened) :: spot.around, []⟩ inner ++
        events ⟨spot.around, []⟩ rest := by
  rw [events_calm_append calm, events, step_openBrace,
    events_append (by simp [Token.endsNames, Token.divides, Token.isPunct, Token.punct]), events,
    step, neutral.around_walk]
  rfl

end Spot

end Oxide
