import SiteCatalog.Yaml.Token.Cursor

/-!
# Reading scalars

The text of scalars in their four forms. In all but the literal form line ends are folded: a single
one becomes a space, and of several the first is dropped.
-/

namespace SiteCatalog.Yaml

/-- White space between two words of a scalar: blanks on one line, or the ends of lines. -/
structure Spacing where
  blanks : List Char := []
  /-- The first end of a line, as far as it counts. -/
  first : List Char := []
  /-- The further ends of lines. -/
  more : List Char := []
  /-- The end of a line has been passed. -/
  broken : Bool := false

/-- What white space between two words stands for. -/
def Spacing.fold (s : Spacing) : List Char :=
  if s.broken then
    if s.first = ['\n'] then (if s.more.isEmpty then [' '] else s.more) else s.first ++ s.more
  else s.blanks

/-- Moves over white space. A tab may not stand before the column `indent` of a further line. -/
def spacing? (indent : Nat) : Nat → Spacing → Cursor → Option (Spacing × Cursor)
  | 0, s, c => some (s, c)
  | fuel + 1, s, c =>
    match c.peek with
    | none => some (s, c)
    | some x =>
      if isBlank x then
        if s.broken then
          if x = '\t' ∧ c.column < indent then none else spacing? indent fuel s (c.skip 1)
        else spacing? indent fuel { s with blanks := s.blanks ++ [x] } (c.skip 1)
      else if isBreak x then
        if s.broken then spacing? indent fuel { s with more := s.more ++ c.breakText } c.skipBreak
        else
          spacing? indent fuel { s with blanks := [], first := c.breakText, broken := true }
            c.skipBreak
      else some (s, c)

/-! ## Plain scalars -/

/-- Whether a plain scalar ends at a colon or, inside brackets, at an indicator. -/
def endsPlain (inFlow : Bool) (c : Cursor) : Bool :=
  (c.sees ':' && isGap (c.peekAt 1)) || (inFlow && c.seesAny isFlowIndicator)

/-- Whether a colon stands before an indicator, which is refused inside brackets. -/
def misplacedColon (inFlow : Bool) (c : Cursor) : Bool :=
  inFlow && c.sees ':' && (c.peekAt 1).any fun x => x = '?' || isFlowIndicator x

/-- Reads a word of a plain scalar; the characters are gathered last first. -/
def plainWord? (inFlow : Bool) : Nat → List Char → Cursor → Option (List Char × Cursor)
  | 0, acc, c => some (acc, c)
  | fuel + 1, acc, c =>
    match c.peek with
    | none => some (acc, c)
    | some x =>
      if isGap (some x) then some (acc, c)
      else if misplacedColon inFlow c then none
      else if endsPlain inFlow c then some (acc, c)
      else plainWord? inFlow fuel (x :: acc) (c.skip 1)

/-- Reads the words of a plain scalar, which goes on over lines that are indented by `indent`. The
text is gathered last first; `pending` is the white space before the next word. -/
def plainFrom? (inFlow : Bool) (indent : Nat) :
    Nat → Spacing → List Char → Cursor → Option (List Char × Bool × Cursor)
  | 0, _, _, _ => none
  | fuel + 1, pending, acc, c =>
    if c.seesAnyDocumentMark || c.sees '#' then some (acc, pending.broken, c)
    else do
      let (word, after) ← plainWord? inFlow c.rest.length [] c
      let acc := if word.isEmpty then acc else word ++ pending.fold.reverse ++ acc
      let pending := if word.isEmpty then pending else {}
      if !after.seesAny fun x => isBlank x || isBreak x then return (acc, pending.broken, after)
      else
        let (pending, after) ← spacing? indent after.rest.length pending after
        if !inFlow && after.column < indent then return (acc, pending.broken, after)
        else plainFrom? inFlow indent fuel pending acc after

/-- The text of a plain scalar, and whether the end of a line was passed after it. -/
def plainScalar? (inFlow : Bool) (indent : Nat) (c : Cursor) :
    Option (List Char × Bool × Cursor) := do
  let (text, broken, after) ← plainFrom? inFlow indent (c.rest.length + 1) {} [] c
  return (text.reverse, broken, after)

/-! ## Quoted scalars -/

/-- The number that hexadecimal digits write. -/
def hexNumber? : List Char → Option Nat
  | cs => cs.foldl (fun n? c => do
    let n ← n?
    let d ← if '0' ≤ c ∧ c ≤ '9' then some (c.toNat - 48)
      else if 'a' ≤ c ∧ c ≤ 'f' then some (c.toNat - 87)
      else if 'A' ≤ c ∧ c ≤ 'F' then some (c.toNat - 55)
      else none
    return n * 16 + d) (some 0)

/-- The character whose code a number of hexadecimal digits write. -/
def charOfHex? (width : Nat) (cs : List Char) : Option Char := do
  let digits := cs.take width
  if digits.length < width then none
  else
    let n ← hexNumber? digits
    if (0xD800 ≤ n ∧ n ≤ 0xDFFF) ∨ 0x10FFFF < n then none else return Char.ofNat n

/-- The character that an escape stands for, after its backslash, and the length of the escape. -/
def escape? : List Char → Option (Char × Nat)
  | [] => none
  | x :: rest =>
    if x = '0' then some ('\x00', 1)
    else if x = 'a' then some ('\x07', 1)
    else if x = 'b' then some ('\x08', 1)
    else if x = 't' ∨ x = '\t' then some ('\t', 1)
    else if x = 'n' then some ('\n', 1)
    else if x = 'v' then some ('\x0b', 1)
    else if x = 'f' then some ('\x0c', 1)
    else if x = 'r' then some ('\r', 1)
    else if x = 'e' then some ('\x1b', 1)
    else if x = ' ' ∨ x = '\x22' ∨ x = '/' ∨ x = '\\' then some (x, 1)
    else if x = 'N' then some (Char.ofNat 0x85, 1)
    else if x = '_' then some (Char.ofNat 0xA0, 1)
    else if x = 'L' then some (Char.ofNat 0x2028, 1)
    else if x = 'P' then some (Char.ofNat 0x2029, 1)
    else if x = 'x' then (charOfHex? 2 rest).map (·, 3)
    else if x = 'u' then (charOfHex? 4 rest).map (·, 5)
    else if x = 'U' then (charOfHex? 8 rest).map (·, 9)
    else none

/-- Reads a word of a quoted scalar; the characters are gathered last first. The flag says that the
word ends with an escaped end of a line. -/
def quotedWord? (quote : Char) : Nat → List Char → Cursor → Option (List Char × Bool × Cursor)
  | 0, acc, c => some (acc, false, c)
  | fuel + 1, acc, c =>
    match c.peek with
    | none => some (acc, false, c)
    | some x =>
      if isGap (some x) then some (acc, false, c)
      else if quote = '\'' ∧ x = '\'' ∧ c.peekAt 1 = some '\'' then
        quotedWord? quote fuel ('\'' :: acc) (c.skip 2)
      else if x = quote then some (acc, false, c)
      else if quote = '\x22' ∧ x = '\\' then
        if (c.peekAt 1).any isBreak then some (acc, true, (c.skip 1).skipBreak)
        else do
          let (e, n) ← escape? (c.rest.drop 1)
          quotedWord? quote fuel (e :: acc) (c.skip (n + 1))
      else quotedWord? quote fuel (x :: acc) (c.skip 1)

/-- Reads the rest of a quoted scalar and its closing quote; the text is gathered last first. -/
def quotedFrom? (quote : Char) : Nat → List Char → Cursor → Option (List Char × Cursor)
  | 0, _, _ => none
  | fuel + 1, acc, c =>
    if c.seesAnyDocumentMark || c.rest.isEmpty then none
    else do
      let (acc, escaped, after) ← quotedWord? quote c.rest.length acc c
      if after.sees quote then return (acc, after.skip 1)
      else
        let (space, after) ← spacing? 0 after.rest.length { broken := escaped } after
        quotedFrom? quote fuel (space.fold.reverse ++ acc) after

/-- The text of a quoted scalar, from its opening quote on. -/
def quotedScalar? (quote : Char) (c : Cursor) : Option (List Char × Cursor) := do
  let (text, after) ← quotedFrom? quote (c.rest.length + 1) [] (c.skip 1)
  return (text.reverse, after)

/-! ## Block scalars -/

/-- What happens to the ends of lines at the end of a block. -/
inductive Chomping
  | strip
  | clip
  | keep
  deriving DecidableEq

/-- The sign for the ends of lines, if it comes next. -/
def chomping? (c : Cursor) : Option Chomping :=
  if c.sees '+' then some .keep else if c.sees '-' then some .strip else none

/-- The indentation that a digit asks for, if one comes next. -/
def increment? (c : Cursor) : Option Nat :=
  match c.peek with
  | some x => if x.isDigit then some (x.toNat - 48) else none
  | none => none

/-- The sign and the indentation in the head of a block, in either order. A digit is not zero. -/
def blockHead? (c : Cursor) : Option (Chomping × Option Nat × Cursor) :=
  let (chomping, increment, c) := match chomping? c with
    | some chomping =>
      match increment? (c.skip 1) with
      | some n => (some chomping, some n, c.skip 2)
      | none => (some chomping, none, c.skip 1)
    | none =>
      match increment? c with
      | some n =>
        match chomping? (c.skip 1) with
        | some chomping => (some chomping, some n, c.skip 2)
        | none => (none, some n, c.skip 1)
      | none => (none, none, c)
  if increment = some 0 then none else some (chomping.getD .clip, increment, c)

/-- Moves over empty lines and the indentation of the next line, and gives the ends of the lines and
the widest indentation. Without an indentation to go to, all spaces are passed; a tab may not stand
among them. -/
def blockBreaks? (indent : Option Nat) :
    Nat → List Char → Nat → Cursor → Option (List Char × Nat × Cursor)
  | 0, breaks, widest, c => some (breaks, widest, c)
  | fuel + 1, breaks, widest, c =>
    let spaces := (c.run (· = ' ')).length
    let c := c.skip (match indent with
      | some n => min spaces (n - c.column)
      | none => spaces)
    let widest := max widest c.column
    if c.sees '\t' && indent.all (c.column < ·) then none
    else if c.seesAny isBreak then
      blockBreaks? indent fuel (breaks ++ c.breakText) widest c.skipBreak
    else some (breaks, widest, c)

/-- The lines of a block that have been read so far. -/
structure BlockLines where
  /-- The text, last character first. -/
  text : List Char := []
  /-- The end of the last line. -/
  last : List Char := []
  /-- The ends of empty lines after it. -/
  empty : List Char
  /-- The last line starts with a blank. -/
  blank : Bool := false

/-- Adds a line. Between two lines of a folded block that do not start with blanks the end of the
line is folded. -/
def BlockLines.add (b : BlockLines) (folded : Bool) (line lineEnd : List Char) (empty : List Char) :
    BlockLines :=
  let blank := line.head?.any isBlank
  let joint :=
    if folded && b.last = ['\n'] && !b.blank && !blank then (if b.empty.isEmpty then [' '] else [])
    else b.last
  { text := line.reverse ++ b.empty.reverse ++ joint.reverse ++ b.text
    last := lineEnd, empty, blank }

/-- Reads the lines of a block that are indented by `indent`. -/
def blockLines? (folded : Bool) (indent : Nat) :
    Nat → BlockLines → Cursor → Option (BlockLines × Cursor)
  | 0, b, c => some (b, c)
  | fuel + 1, b, c =>
    if c.column = indent ∧ ¬c.rest.isEmpty then do
      let line := c.run fun x => !isBreak x
      let c := c.skip line.length
      let (empty, _, after) ← blockBreaks? (some indent) (c.rest.length + 1) [] 0 c.skipBreak
      blockLines? folded indent fuel (b.add folded line c.breakText empty) after
    else some (b, c)

/-- The text of a block scalar, from its first character on, inside a collection that is indented by
`outer`. -/
def blockScalar? (folded : Bool) (outer : Int) (c : Cursor) : Option (List Char × Cursor) := do
  let (chomping, increment, c) ← blockHead? (c.skip 1)
  let c ← c.finishLine?
  let given := increment.map fun n => if 0 ≤ outer then outer.toNat + n else n
  let (empty, widest, c) ← blockBreaks? given (c.rest.length + 1) [] 0 c
  let indent := given.getD (max (max widest (outer + 1).toNat) 1)
  let (b, c) ← blockLines? folded indent (c.rest.length + 1) { empty } c
  let tail := match chomping with
    | .strip => []
    | .clip => b.last
    | .keep => b.last ++ b.empty
  return (b.text.reverse ++ tail, c)

end SiteCatalog.Yaml
