/-
This file divides a text into lexemes. Most of them are plain to see; the difficulties are the
beginnings and ends of block collections, which follow from the columns of their lines, and keys
without a mark. A lexeme is let go only after the two behind it have been found, so a text that
cannot be divided from some place on is refused a little before that place.
-/

import Oxide.Document.Lexer.Spacing
import Oxide.Document.Plain
import Oxide.Document.Quotation
import Oxide.Document.Block
import Oxide.Document.Directive

namespace Oxide.Document

namespace Lexer

/-! ### Lexemes -/

/-- The end of the text, which lies at the start of a line of its own. -/
def fetchEnd (lexer : Lexer) : Option Lexer := do
  let cursor := lexer.cursor
  let cursor :=
    if cursor.column = 0 then cursor else { cursor with line := cursor.line + 1, column := 0 }
  let lexer := { lexer with cursor }
  let lexer ← (lexer.closeBlocks none lexer.place).dropKey
  return { lexer with keyAllowed := false }.push lexer.place .streamEnd

/-- The marker that opens or the marker that ends a document. -/
def fetchMarker (lexer : Lexer) (kind : LexemeKind) : Option Lexer := do
  let lexer ← (lexer.closeBlocks none lexer.place).dropKey
  return { lexer with keyAllowed := false }.take 3 kind

/-- The opening of a flow collection, which may be a key as a whole. -/
def fetchFlowStart (lexer : Lexer) (kind : LexemeKind) : Option Lexer := do
  let lexer ← lexer.noteKey
  if deepest ≤ lexer.level then none
  return { lexer with
    key := .absent lexer.count
    outerKeys := lexer.key :: lexer.outerKeys
    level := lexer.level + 1
    keyAllowed := true }.take 1 kind

/-- The end of a flow collection. The last key of its level decides on no lexeme any more; if no
lexeme in it could be a key, that holds for the opening of the collection. -/
def fetchFlowEnd (lexer : Lexer) (kind : LexemeKind) : Option Lexer := do
  let lexer ← lexer.dropKey
  let left :=
    match lexer.outerKeys with
    | key :: outerKeys =>
      { lexer.unwatch lexer.key.number with key, outerKeys, level := lexer.level - 1 }
    | [] => lexer
  return { left with keyAllowed := false }.take 1 kind

/-- The comma between the entries of a flow collection. -/
def fetchFlowEntry (lexer : Lexer) : Option Lexer := do
  let lexer ← lexer.dropKey
  return { lexer with keyAllowed := true }.take 1 .flowEntry

/-- The hyphen before an entry of a block sequence. -/
def fetchBlockEntry (lexer : Lexer) : Option Lexer := do
  if !lexer.inFlow && !lexer.keyAllowed then none
  let lexer ← (← lexer.openBlock .blockSequenceStart).dropKey
  return { lexer with keyAllowed := true }.take 1 .blockEntry

/-- The question mark before a key. -/
def fetchKey (lexer : Lexer) : Option Lexer := do
  if !lexer.inFlow && !lexer.keyAllowed then none
  let lexer ← (← lexer.openBlock .blockMappingStart).dropKey
  return { lexer with keyAllowed := !lexer.inFlow }.take 1 .key

/-- The colon behind a key without a mark. This is where it turns out to be one, and it may open a
block mapping. -/
def fetchSimpleValue (lexer : Lexer) : Option Lexer := do
  let key := lexer.key
  let marked := lexer.insert key.number key.place .key
  let opened ←
    if lexer.isDeeper key.place.column then
      (marked.insert key.number key.place .blockMappingStart).indent key.place.column
    else some marked
  let settled := { opened with key := { key with possible := false }, keyAllowed := false }
  return (settled.unwatch key.number).take 1 .value

/-- The colon behind a key with a mark, or behind no key. -/
def fetchComplexValue (lexer : Lexer) : Option Lexer := do
  if !lexer.inFlow && !lexer.keyAllowed then none
  let lexer ← lexer.openBlock .blockMappingStart
  return { lexer with keyAllowed := !lexer.inFlow }.take 1 .value

/-- The colon before a value. -/
def fetchValue (lexer : Lexer) : Option Lexer := do
  let (valid, key) ← lexer.examine lexer.key
  let examined := { lexer with key }
  if valid then examined.fetchSimpleValue else examined.fetchComplexValue

/-- Notes that a key may start here and that none may start behind it. -/
def startNode (lexer : Lexer) : Option Lexer := do
  let lexer ← lexer.noteKey
  return { lexer with keyAllowed := false }

/-- The characters that may follow a name. -/
def endsName : List Char → Bool
  | [] => true
  | c :: _ => isBlank c || isBreak c || ['?', ':', ',', ']', '\x7d', '%', '@', '\x60'].contains c

/-- An anchor or an alias. -/
def fetchName (lexer : Lexer) (kind : String → LexemeKind) : Option Lexer := do
  let lexer ← lexer.startNode
  let cursor ← lexer.cursor.skip.look 1
  let name := cursor.rest.takeWhile isWord
  let cursor ← cursor.pass 1 name
  if name.isEmpty || !endsName cursor.rest then none
  return { lexer.push lexer.place (kind (String.ofList name)) with cursor }

/-- A scalar in quotes. -/
def fetchQuoted (lexer : Lexer) (quote : Char) : Option Lexer := do
  let lexer ← lexer.startNode
  let (text, cursor) ← Quotation.scan lexer.fuel quote lexer.cursor.skip
  return { lexer.push lexer.place (.scalar (String.ofList text) false) with cursor }

/-- A plain scalar. If a line ends behind it, a key may follow. -/
def fetchPlain (lexer : Lexer) : Option Lexer := do
  let lexer ← lexer.startNode
  let plain ← Plain.scan lexer.fuel lexer.inFlow lexer.limit lexer.cursor
  return { lexer.push lexer.place (.scalar (String.ofList plain.text) true) with
    cursor := plain.cursor
    keyAllowed := plain.broken }

/-- A block scalar, behind which a key may follow. -/
def fetchBlock (lexer : Lexer) (literal : Bool) : Option Lexer := do
  let lexer ← lexer.dropKey
  let block ← Block.scan lexer.fuel literal lexer.indents.head? lexer.cursor.skip
  let start := lexer.place
  let lexer := if block.remark then lexer.noteLineComment start.index start else lexer
  return { lexer.push start (.scalar (String.ofList block.text) false) with
    cursor := block.cursor
    keyAllowed := true }

/-- A tag, which must be followed by a blank or a line break. -/
def fetchTag (lexer : Lexer) : Option Lexer := do
  let lexer ← lexer.startNode
  let (handle, suffix, cursor) ← TagNotation.parts? lexer.fuel lexer.cursor
  let cursor ← cursor.look 1
  if !atGap cursor.rest then none
  return { lexer.push lexer.place (.tag (String.ofList handle) (String.ofList suffix)) with cursor }

/-- A directive, which has a line of its own. -/
def fetchDirective (lexer : Lexer) : Option Lexer := do
  let lexer ← (lexer.closeBlocks none lexer.place).dropKey
  let (kind, cursor) ← Directive.scan lexer.fuel lexer.cursor.skip
  let cursor ← (← cursor.look 1).skipWhile isBlank
  let cursor ← if cursor.rest.head? = some '#' then cursor.skipLine else some cursor
  if !atLineEnd cursor.rest then none
  let cursor ← if cursor.rest.isEmpty then some cursor else cursor.takeBreak
  return { lexer.push lexer.place kind with cursor, keyAllowed := false }

/-! ### The whole text -/

/-- The characters that a plain scalar cannot start with. -/
def indicators : List Char :=
  ['-', '?', ':', ',', '[', ']', '\x7b', '\x7d', '#', '&', '*', '!', '|', '>', '\x27', '\x22', '%',
    '@', '\x60']

/-- The lexeme that starts with the given character, which is at the cursor. -/
def fetchAt (lexer : Lexer) (c : Char) (rest : List Char) : Option Lexer :=
  if c = '[' then lexer.fetchFlowStart .flowSequenceStart
  else if c = '\x7b' then lexer.fetchFlowStart .flowMappingStart
  else if c = ']' then lexer.fetchFlowEnd .flowSequenceEnd
  else if c = '\x7d' then lexer.fetchFlowEnd .flowMappingEnd
  else if c = ',' then lexer.fetchFlowEntry
  else if c = '?' && (lexer.inFlow || atGap rest) then lexer.fetchKey
  else if c = ':' && (lexer.inFlow || atGap rest) then lexer.fetchValue
  else if c = '*' then lexer.fetchName .reference
  else if c = '&' then lexer.fetchName .anchor
  else if c = '!' then lexer.fetchTag
  else if c = '|' && !lexer.inFlow then lexer.fetchBlock true
  else if c = '>' && !lexer.inFlow then lexer.fetchBlock false
  else if c = '\x27' || c = '\x22' then lexer.fetchQuoted c
  else if !(isBlank c || isBreak c || indicators.contains c) || c = '-' ||
      (!lexer.inFlow && (c = '?' || c = ':')) then lexer.fetchPlain
  else none

/-- The index from which on lexemes take a comment behind the lexeme that starts with the given
character. Punctuation leaves the comment to what lies before it. -/
def lineOwner (lexer : Lexer) (c : Char) : Nat :=
  if c = (if lexer.inFlow then ',' else ':') then
    (lexer.queue.getLast?.map (·.index)).getD 0
  else lexer.cursor.index

/-- Finds the next lexeme, or fails if there is none. -/
def fetch (lexer : Lexer) : Option Lexer := do
  let cursor ← lexer.cursor.look 1
  let lexer ← { lexer with cursor }.skipToLexeme cursor.toPlace lexer.fuel
  let lexer := lexer.closeBlocks (some lexer.cursor.column) cursor.toPlace
  let cursor ← lexer.cursor.look 4
  let lexer := { lexer with cursor }
  match cursor.rest with
  | [] => lexer.fetchEnd
  | c :: rest =>
    if cursor.column = 0 && c = '%' then lexer.fetchDirective
    else if cursor.column = 0 && atMarkerOf '-' cursor.rest then lexer.fetchMarker .documentStart
    else if cursor.column = 0 && atMarkerOf '.' cursor.rest then lexer.fetchMarker .documentEnd
    else if c = '-' && atGap rest then lexer.fetchBlockEntry
    else (← lexer.fetchAt c rest).readLineComment (lexer.lineOwner c)

/-- Lets the first lexeme of the queue go, and the comments with it that it takes. -/
def release (lexer : Lexer) (lexeme : Lexeme) (queue : List Lexeme) : Lexer :=
  let stays := fun (comment : Comment) =>
    lexeme.index < comment.owner || (comment.heading && lexeme.kind = .blockEnd)
  { lexer with
    queue
    released := lexer.released + 1
    watched := lexer.watched.filter (lexer.released < ·.1)
    comments := (lexer.comments.reverse.dropWhile (!stays ·)).reverse }

/-- All lexemes up to the end of the text or to the place where it cannot be divided. -/
def run : Nat → Lexer → List Lexeme
  | 0, lexer => [LexemeKind.broken.at lexer.place]
  | steps + 1, lexer =>
    match lexer.isSettled, lexer.queue with
    | some (true, lexer), lexeme :: queue =>
      if lexeme.kind = .streamEnd then [lexeme]
      else lexeme :: run steps (lexer.release lexeme queue)
    | some (false, lexer), _ =>
      match lexer.fetch with
      | some lexer => run steps lexer
      | none => [LexemeKind.broken.at lexer.place]
    | _, _ => [LexemeKind.broken.at lexer.place]

end Lexer

/-- The lexemes of a text. Every character gives at most one lexeme with two marks before it and one
end of a block, and each of these is found and let go once. -/
def Lexeme.ofSource (source : Source) : List Lexeme :=
  let fuel := source.length + 4
  Lexer.run (8 * fuel) { cursor := .ofSource source, fuel }

end Oxide.Document
