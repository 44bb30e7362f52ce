import SiteCatalog.Yaml.Token.Names
import SiteCatalog.Yaml.Token.Scalars

/-!
# Cutting YAML text into tokens

A text is read from left to right. What stands before a colon on the same line may turn out to be a
key only when the colon is met, so the place of every possible key is remembered and the token for
the key is put in there later. Collections in block form are opened and closed by indentation.
-/

namespace SiteCatalog.Yaml

/-- A place at which a key may have started. -/
structure KeyPlace where
  /-- A key has to be here, since the line is no deeper than its collection. -/
  required : Bool
  /-- The number of tokens before it. -/
  tokens : Nat
  index : Nat
  line : Nat
  column : Nat

/-- A text that has been cut up to a position. -/
structure Scanner where
  cursor : Cursor
  tokens : Array Token
  /-- The possible keys of the brackets around the position, innermost first, and of the block. -/
  keys : List (Option KeyPlace)
  /-- The column of the innermost block collection; -1 outside all of them. -/
  indent : Int
  /-- The columns of the collections around it. -/
  outer : List Int
  /-- A key may start here. -/
  keyAllowed : Bool

namespace Scanner

/-- The start of a text. -/
def start (cs : List Char) : Scanner :=
  ⟨.start cs, #[], [none], -1, [], true⟩

/-- Whether the position is inside brackets or braces. -/
def inFlow (s : Scanner) : Bool :=
  1 < s.keys.length

/-- Adds a token. -/
def push (s : Scanner) (t : Token) : Scanner :=
  { s with tokens := s.tokens.push t }

/-- Adds a token and moves on. -/
def take (s : Scanner) (t : Token) (cursor : Cursor) : Scanner :=
  { s.push t with cursor }

/-! ## Possible keys -/

/-- Gives up the possible key at the innermost level, which must not be required. -/
def dropKey? (s : Scanner) : Option Scanner :=
  match s.keys with
  | some k :: rest => if k.required then none else some { s with keys := none :: rest }
  | _ => some s

/-- Remembers the position as a possible key. -/
def saveKey? (s : Scanner) : Option Scanner :=
  if s.keyAllowed then do
    let s ← s.dropKey?
    let c := s.cursor
    let place : KeyPlace :=
      ⟨!s.inFlow && s.indent = c.column, s.tokens.size, c.index, c.line, c.column⟩
    return { s with keys := some place :: s.keys.drop 1 }
  else some s

/-- Gives up possible keys that lie on an earlier line or too far back. -/
def dropStale? (c : Cursor) : List (Option KeyPlace) → Option (List (Option KeyPlace))
  | [] => some []
  | none :: rest => (dropStale? c rest).map (none :: ·)
  | some k :: rest =>
    if k.line < c.line ∨ k.index + 1024 < c.index then
      if k.required then none else (dropStale? c rest).map (none :: ·)
    else (dropStale? c rest).map (some k :: ·)

/-! ## Indentation -/

/-- Opens a block collection at a column, unless one is open there; its token goes to the given
place. -/
def openBlock (s : Scanner) (column : Nat) (place : Nat) (t : Token) : Scanner :=
  if !s.inFlow && s.indent < column then
    { s with
      outer := s.indent :: s.outer, indent := column
      tokens := s.tokens.insertIdxIfInBounds place t }
  else s

/-- Closes the block collections that are deeper than a column. -/
def closeBlocks (column : Int) : List Int → Scanner → Scanner
  | [], s => s
  | next :: outer, s =>
    if column < s.indent then
      closeBlocks column outer { s.push .blockEnd with indent := next, outer }
    else s

/-- Closes the block collections that are deeper than a column; inside brackets there are none. -/
def unroll (s : Scanner) (column : Int) : Scanner :=
  if s.inFlow then s else closeBlocks column s.outer s

/-! ## Steps -/

/-- Moves over white space, comments and line ends to the next token. -/
def skipToToken : Nat → Scanner → Scanner
  | 0, s => s
  | fuel + 1, s =>
    let c := s.cursor
    let c := if c.column = 0 && c.seesAny isByteOrderMark then c.skip 1 else c
    let tabs := s.inFlow || !s.keyAllowed
    let c := c.skipWhile fun x => x = ' ' || (tabs && x = '\t')
    let c := if c.sees '#' then c.skipLine else c
    if c.seesAny isBreak then
      skipToToken fuel { s with cursor := c.skipBreak, keyAllowed := s.keyAllowed || !s.inFlow }
    else { s with cursor := c }

/-- Ends all block collections before a directive or a mark of documents. -/
def endBlocks? (s : Scanner) : Option Scanner := do
  let s ← (s.unroll (-1)).dropKey?
  return { s with keyAllowed := false }

/-- Takes an opening bracket. -/
def openFlow? (s : Scanner) (t : Token) : Option Scanner := do
  let s ← s.saveKey?
  return { s.take t (s.cursor.skip 1) with keys := none :: s.keys, keyAllowed := true }

/-- Takes a closing bracket. -/
def closeFlow? (s : Scanner) (t : Token) : Option Scanner := do
  let s ← s.dropKey?
  return { s.take t (s.cursor.skip 1) with
    keys := if s.inFlow then s.keys.drop 1 else s.keys, keyAllowed := false }

/-- Takes a comma. -/
def flowEntry? (s : Scanner) : Option Scanner := do
  let s ← s.dropKey?
  return { s.take .flowEntry (s.cursor.skip 1) with keyAllowed := true }

/-- Takes the dash of an item or the question mark of a key; in block form a collection is opened
there if need be. -/
def blockMark? (s : Scanner) (collection mark : Token) (keyAfter : Bool) : Option Scanner :=
  if !s.inFlow && !s.keyAllowed then none
  else do
    let s := s.openBlock s.cursor.column s.tokens.size collection
    let s ← s.dropKey?
    return { s.take mark (s.cursor.skip 1) with keyAllowed := keyAfter }

/-- Takes a colon. If a key may have started before, it did. -/
def value? (s : Scanner) : Option Scanner :=
  match s.keys with
  | some k :: rest =>
    let s := { s with tokens := s.tokens.insertIdxIfInBounds k.tokens .key, keys := none :: rest }
    let s := s.openBlock k.column k.tokens .blockMapping
    some { s.take .value (s.cursor.skip 1) with keyAllowed := false }
  | _ =>
    if !s.inFlow && !s.keyAllowed then none
    else
      let s := s.openBlock s.cursor.column s.tokens.size .blockMapping
      some { s.take .value (s.cursor.skip 1) with keyAllowed := !s.inFlow }

/-- Takes something that a key may start with. -/
def keyPart? (s : Scanner) (read : Cursor → Option (Token × Cursor)) : Option Scanner := do
  let s ← s.saveKey?
  let (t, c) ← read s.cursor
  return { s.take t c with keyAllowed := false }

/-- Takes a block scalar. -/
def blockScalar? (s : Scanner) (folded : Bool) : Option Scanner := do
  let s ← s.dropKey?
  let (text, c) ← Yaml.blockScalar? folded s.indent s.cursor
  return { s.take (.scalar text (if folded then .folded else .literal)) c with keyAllowed := true }

/-- Takes a quoted scalar. -/
def quoted? (s : Scanner) (quote : Char) : Option Scanner :=
  s.keyPart? fun c => (quotedScalar? quote c).map fun (text, c) => (.scalar text .quoted, c)

/-- Takes a plain scalar. After one that goes over lines a key may start. -/
def plain? (s : Scanner) : Option Scanner := do
  let s ← s.saveKey?
  let (text, broken, c) ← plainScalar? s.inFlow (s.indent + 1).toNat s.cursor
  return { s.take (.scalar text .plain) c with keyAllowed := broken }

/-- Whether a plain scalar may start with a character, given the one after it. -/
def startsPlain (inFlow : Bool) (x : Char) (after : Option Char) : Bool :=
  !(x = '-' || x = '?' || x = ':' || opensOther x)
    || (x = '-' && !after.any isBlank)
    || (!inFlow && (x = '?' || x = ':') && !isGap after)

/-- Takes the token that starts with a character. -/
def token? (s : Scanner) (x : Char) : Option Scanner :=
  let c := s.cursor
  let after := c.peekAt 1
  if c.column = 0 && x = '%' then do
    let s ← s.endBlocks?
    let (t, c) ← directive? c
    return s.take t c
  else if c.seesDocumentMark '-' then do
    return (← s.endBlocks?).take .documentStart (c.skip 3)
  else if c.seesDocumentMark '.' then do
    return (← s.endBlocks?).take .documentEnd (c.skip 3)
  else if x = '[' then s.openFlow? .flowSequence
  else if x = '\x7b' then s.openFlow? .flowMapping
  else if x = ']' then s.closeFlow? .flowSequenceEnd
  else if x = '\x7d' then s.closeFlow? .flowMappingEnd
  else if x = ',' then s.flowEntry?
  else if x = '-' && isGap after then s.blockMark? .blockSequence .blockEntry true
  else if x = '?' && (s.inFlow || isGap after) then s.blockMark? .blockMapping .key !s.inFlow
  else if x = ':' && (s.inFlow || isGap after) then s.value?
  else if x = '*' then s.keyPart? fun c => (anchorName? c).map fun (name, c) => (.alias name, c)
  else if x = '&' then s.keyPart? fun c => (anchorName? c).map fun (name, c) => (.anchor name, c)
  else if x = '!' then s.keyPart? (tag? s.inFlow)
  else if x = '|' && !s.inFlow then s.blockScalar? false
  else if x = '>' && !s.inFlow then s.blockScalar? true
  else if x = '\'' || x = '\x22' then s.quoted? x
  else if startsPlain s.inFlow x after then s.plain?
  else none

/-- Takes tokens up to the end of the text, where all collections end. -/
def scan? : Nat → Scanner → Option Scanner
  | 0, _ => none
  | fuel + 1, s => do
    let s := s.skipToToken (s.cursor.rest.length + 1)
    let keys ← dropStale? s.cursor s.keys
    let s := { s with keys }.unroll s.cursor.column
    match s.cursor.peek with
    | none => s.endBlocks?
    | some x =>
      let s ← s.token? x
      scan? fuel s

end Scanner

/-- The tokens of a text. A byte order mark before it does not count. -/
def tokens? (text : String) : Option (List Token) := do
  let cs := text.toList
  let cs := if cs.head?.any isByteOrderMark then cs.drop 1 else cs
  if cs.all isAllowed then
    let s ← Scanner.scan? (cs.length + 2) (.start cs)
    return s.tokens.toList
  else none

end SiteCatalog.Yaml
