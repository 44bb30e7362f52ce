import SiteCatalog.Yaml.Token

/-!
# Positions in YAML text

A cursor stands between two characters of a text and knows its line and column. A carriage return
with a line feed after it ends one line.
-/

namespace SiteCatalog.Yaml

/-- A position in a text. -/
structure Cursor where
  rest : List Char
  /-- The number of characters before the position. -/
  index : Nat
  line : Nat
  column : Nat

namespace Cursor

/-- The start of a text. -/
def start (cs : List Char) : Cursor :=
  ⟨cs, 0, 0, 0⟩

/-- The next character. -/
def peek (c : Cursor) : Option Char :=
  c.rest.head?

/-- The character after some others. -/
def peekAt (c : Cursor) (n : Nat) : Option Char :=
  (c.rest.drop n).head?

/-- Whether a character comes next. -/
def sees (c : Cursor) (x : Char) : Bool :=
  c.peek = some x

/-- Whether the next character is of a class. -/
def seesAny (c : Cursor) (p : Char → Bool) : Bool :=
  c.peek.any p

/-- Moves over some characters of the line. -/
def skip (c : Cursor) (n : Nat) : Cursor :=
  ⟨c.rest.drop n, c.index + n, c.line, c.column + n⟩

/-- The characters of a class that come next. -/
def run (c : Cursor) (p : Char → Bool) : List Char :=
  c.rest.takeWhile p

/-- Moves over the characters of a class that come next. -/
def skipWhile (c : Cursor) (p : Char → Bool) : Cursor :=
  c.skip (c.run p).length

/-- Moves over the end of a line, if it comes next. -/
def skipBreak (c : Cursor) : Cursor :=
  match c.rest with
  | '\r' :: '\n' :: rest => ⟨rest, c.index + 2, c.line + 1, 0⟩
  | x :: rest => if isBreak x then ⟨rest, c.index + 1, c.line + 1, 0⟩ else c
  | [] => c

/-- What the end of a line that comes next stands for: a line feed, or itself if it is one of the
two separators of Unicode. -/
def breakText (c : Cursor) : List Char :=
  match c.peek with
  | some x =>
    if x.toNat = 0x2028 ∨ x.toNat = 0x2029 then [x] else if isBreak x then ['\n'] else []
  | none => []

/-- Moves to the end of the line. -/
def skipLine (c : Cursor) : Cursor :=
  c.skipWhile fun x => !isBreak x

/-- Moves over blanks and a comment to the end of the line and over that; nothing else may stand
there. -/
def finishLine? (c : Cursor) : Option Cursor :=
  let c := c.skipWhile isBlank
  let c := if c.sees '#' then c.skipLine else c
  if isLineEnd c.peek then some c.skipBreak else none

/-- Whether a line starts here with the mark of a document, which three characters form. -/
def seesDocumentMark (c : Cursor) (x : Char) : Bool :=
  c.column = 0 && [x, x, x].isPrefixOf c.rest && isGap (c.peekAt 3)

/-- Whether a line starts here with one of the two marks of documents. -/
def seesAnyDocumentMark (c : Cursor) : Bool :=
  c.seesDocumentMark '-' || c.seesDocumentMark '.'

end Cursor

end SiteCatalog.Yaml
