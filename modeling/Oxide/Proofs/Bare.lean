/-
This file takes the marks off a stream that only matter to spacing. What a stream says does not
depend on which of its tokens are joint, so its structure is studied on the bare stream, where
every operation on streams has become the adding of fixed tokens.
-/

import Oxide.Lower.Expr

namespace Oxide

/-! ### Bare tokens -/

namespace Token

/-- A piece of punctuation. -/
def punct (text : String) : Token := { kind := .punct, text }

/-- A keyword. -/
def keyword (word : String) : Token := { kind := .keyword, text := word }

/-- The identifier for a name. -/
def ident (name : String) : Token := { kind := .ident, text := identName name }

/-- A literal as it is spelled. -/
def literal (text : String) : Token := { kind := .literal, text }

/-- A documentation text. -/
def doc (text : String) : Token := { kind := .doc, text }

/-- The same token without a mark. -/
def bare (token : Token) : Token := { token with joint := false }

end Token

/-! ### Bare streams -/

namespace Stream

/-- The same stream without marks. -/
def bare (stream : Stream) : Stream :=
  stream.map Token.bare

@[simp] theorem bare_nil : bare [] = [] := rfl

@[simp] theorem bare_cons (token : Token) (rest : Stream) :
    bare (token :: rest) = token.bare :: bare rest := rfl

@[simp] theorem bare_append (first second : Stream) :
    bare (first ++ second) = bare first ++ bare second :=
  List.map_append

@[simp] theorem bare_join (stream : Stream) : bare (join stream) = bare stream := by
  fun_induction join stream with
  | case1 => rfl
  | case2 last => rfl
  | case3 token next rest inductionHypothesis =>
    rw [bare_cons, inductionHypothesis]
    rfl

@[simp] theorem bare_punct (stream : Stream) (text : String) :
    bare (stream.punct text) = bare stream ++ [.punct text] :=
  bare_append stream _

@[simp] theorem bare_keyword (stream : Stream) (word : String) :
    bare (stream.keyword word) = bare stream ++ [.keyword word] :=
  bare_append stream _

@[simp] theorem bare_ident (stream : Stream) (name : String) :
    bare (stream.ident name) = bare stream ++ [.ident name] :=
  bare_append stream _

@[simp] theorem bare_literal (stream : Stream) (text : String) :
    bare (stream.literal text) = bare stream ++ [.literal text] :=
  bare_append stream _

@[simp] theorem bare_doc (stream : Stream) (text : String) :
    bare (stream.doc text) = bare stream ++ [.doc text] :=
  bare_append stream _

/-- A text becomes a literal, which holds its quotes and escapes. -/
@[simp] theorem bare_str (stream : Stream) (text : String) :
    bare (stream.str text) = bare stream ++ [.literal (Text.quote text)] :=
  bare_literal stream _

@[simp] theorem bare_bang (stream : Stream) (name : String) :
    bare (stream.bang name) = bare stream ++ [.ident name, .punct "!"] := by
  simp [bang]

/-- The delimiters of a group stand around what is left of its inside. -/
@[simp] theorem bare_group (stream : Stream) (opening closing : String) (inner : Stream) :
    bare (stream.group opening closing inner) =
      bare stream ++ .punct opening :: (bare inner ++ [.punct closing]) := by
  unfold group
  by_cases brace : opening = openBrace
  · simp [brace]
  · simp [brace]

/-- Commas are one of the signs that separate streams. -/
theorem comma_eq_separated (streams : List Stream) :
    comma streams = Lower.separated "," streams := by
  fun_induction comma streams with
  | case1 => rfl
  | case2 last => rfl
  | case3 first next rest inductionHypothesis => rw [inductionHypothesis, Lower.separated]

/-- What separates streams separates what is left of them. -/
@[simp] theorem bare_separated (sign : String) (streams : List Stream) :
    bare (Lower.separated sign streams) = Lower.separated sign (streams.map bare) := by
  fun_induction Lower.separated sign streams with
  | case1 => rfl
  | case2 last => rfl
  | case3 first next rest inductionHypothesis =>
    rw [bare_append, bare_punct, inductionHypothesis]
    rfl

@[simp] theorem bare_comma (streams : List Stream) :
    bare (comma streams) = Lower.separated "," (streams.map bare) := by
  rw [comma_eq_separated, bare_separated]

@[simp] theorem bare_parenthesized (stream : Stream) :
    bare (Lower.parenthesized stream) = .punct "(" :: (bare stream ++ [.punct ")"]) := by
  simp [Lower.parenthesized]

@[simp] theorem bare_dotted (stream : Stream) :
    bare (Lower.dotted stream) = bare stream ++ [.punct "."] := by
  simp [Lower.dotted]

@[simp] theorem bare_method (receiver : Stream) (name : String) (arguments : Stream) :
    bare (Lower.method receiver name arguments) =
      bare receiver ++ .punct "." :: .ident name :: .punct "(" ::
        (bare arguments ++ [.punct ")"]) := by
  simp [Lower.method]

end Stream

end Oxide
