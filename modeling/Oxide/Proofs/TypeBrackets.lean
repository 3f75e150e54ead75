/-
This file proves that types compose: a type adds the tokens that it has on its own to any stream,
marks included, and in these tokens the angle brackets and the parentheses are matched and properly
nested. An argument list or a tuple closes what it opens, whatever is open around it.
-/

import Oxide.Proofs.TypeTokens

namespace Oxide

/-! ### Nested brackets -/

/-- Reads one token with the closing brackets that are due, the innermost first. A bracket may only
close the innermost pair. -/
def nest (due : List String) (token : Token) : Option (List String) :=
  if token.isPunct "<" then some (">" :: due)
  else if token.isPunct "(" then some (")" :: due)
  else if token.isPunct ">" || token.isPunct ")" then
    match due with
    | innermost :: outer => if token.text = innermost then some outer else none
    | [] => none
  else some due

/-- Whether the angle brackets and the parentheses of a stream are matched and properly nested. -/
def Nested (stream : Stream) : Prop :=
  stream.foldlM nest [] = some []

instance (stream : Stream) : Decidable (Nested stream) :=
  inferInstanceAs (Decidable (_ = _))

/-- A stream that closes all brackets that it opens and no others, whatever is due around it. -/
def SelfClosing (stream : Stream) : Prop :=
  ∀ due, stream.foldlM nest due = some due

namespace SelfClosing

theorem nil : SelfClosing [] := fun _ => rfl

theorem append {first second : Stream} (firstCloses : SelfClosing first)
    (secondCloses : SelfClosing second) : SelfClosing (first ++ second) := by
  intro due
  rw [List.foldlM_append, firstCloses due]
  exact secondCloses due

theorem single {token : Token} (skipped : ∀ due, nest due token = some due) :
    SelfClosing [token] := by
  intro due
  rw [List.foldlM_cons, skipped due]
  rfl

/-- Only punctuation is a bracket. -/
theorem word {token : Token} (other : token.kind ≠ .punct) : SelfClosing [token] :=
  single fun due => by simp [nest, Token.isPunct, other]

/-- A pair of brackets around a stream that closes its own. -/
theorem enclosed {stream : Stream} {opening closing : Token} {expected : String}
    (opens : ∀ due, nest due opening = some (expected :: due))
    (closes : ∀ due, nest (expected :: due) closing = some due) (inner : SelfClosing stream) :
    SelfClosing (opening :: (stream ++ [closing])) := by
  intro due
  rw [List.foldlM_cons, opens, Option.bind_eq_bind, Option.bind_some, List.foldlM_append, inner,
    Option.bind_eq_bind, Option.bind_some, List.foldlM_cons, closes]
  rfl

theorem bracketedTypeRules : BracketedTypeRules SelfClosing where
  nil := nil
  append := append
  ident name := word (by simp [Token.ident])
  sign member := by
    have loose : ∀ text ∈ looseTypeSigns, ∀ due, nest due (.punct text) = some due := by
      simp [looseTypeSigns, nest, Token.isPunct, Token.punct]
    exact single (loose _ member)
  mutable := word (by simp [Token.keyword])
  parenthesized := enclosed (fun _ => rfl) (fun _ => rfl)
  angled := enclosed (fun _ => rfl) (fun _ => rfl)

end SelfClosing

/-- The marks for spacing have no say in what a bracket closes. -/
theorem selfClosing_bare_iff {stream : Stream} : SelfClosing stream.bare ↔ SelfClosing stream := by
  unfold SelfClosing Stream.bare
  simp only [List.foldlM_map]
  rfl

/-! ### Types compose -/

/-- A type leaves the stream before it as it is, marks included, and adds the tokens that it has on
its own, whose brackets are matched and properly nested. -/
theorem Ty.emit_adds_nested_tokens (type : Ty) (stream : Stream) :
    type.emit stream = stream ++ type.tokens ∧ Nested type.tokens := by
  have closing : SelfClosing type.tokens :=
    selfClosing_bare_iff.mp (SelfClosing.bracketedTypeRules.emit type)
  exact ⟨type.emit_eq_append stream, closing []⟩

/-- A name that is spelled like a bracket is a name and closes nothing. -/
example : Nested (Ty.generic "<" [.tuple [], .generic "" [], .ref (.named ")") true]).tokens := by
  decide +kernel

end Oxide
