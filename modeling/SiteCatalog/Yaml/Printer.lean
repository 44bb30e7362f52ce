import SiteCatalog.Data
import SiteCatalog.Yaml.Char
import SiteCatalog.Yaml.Scalar

/-!
# YAML text

The block form in which documents are written. Records and lists are indented by two spaces, a list
that is the value of a field is not indented further, and empty ones are written as `[]` and braces.
A string is written plainly if it reads back as itself, in quotes otherwise, and over several lines
if it holds line feeds. The text is built by a writer that knows where on the line it stands.
-/

namespace SiteCatalog.Yaml

/-! ## The writer -/

/-- A text that is being written. -/
structure Writer where
  /-- The text, last character first. -/
  text : List Char
  column : Nat
  /-- The last character is a space. -/
  spaced : Bool
  /-- The line holds nothing but indentation and marks that stand for it. -/
  indented : Bool

namespace Writer

/-- A text that nothing has been written to. -/
def start : Writer :=
  ⟨[], 0, true, true⟩

/-- Writes a character. -/
def put (w : Writer) (c : Char) : Writer :=
  { w with text := c :: w.text, column := w.column + 1 }

/-- Writes characters. -/
def putAll (w : Writer) (cs : List Char) : Writer :=
  cs.foldl put w

/-- Writes a character that ends a line. -/
def putBreak (w : Writer) (c : Char) : Writer :=
  { w with text := c :: w.text, column := 0 }

/-- Goes to a column, on a new line unless the line is still empty up to there. -/
def indentTo (w : Writer) (indent : Nat) : Writer :=
  let w :=
    if !w.indented || indent < w.column || (w.column = indent && !w.spaced) then w.putBreak '\n'
    else w
  { w.putAll (List.replicate (indent - w.column) ' ') with spaced := true, indented := true }

/-- Writes a mark, after a space if one is needed and missing. -/
def mark (w : Writer) (mark : List Char) (needsSpace indents : Bool) : Writer :=
  let w := if needsSpace && !w.spaced then w.put ' ' else w
  { w.putAll mark with spaced := false, indented := w.indented && indents }

end Writer

/-! ## Scalars -/

/-- The ways to write a scalar. -/
inductive Style
  | plain
  | single
  | double
  | literal
  deriving DecidableEq

/-- Whether a plain scalar with these characters would be read as something else, given the
character before them. -/
def misreads (before : Option Char) : List Char → Bool
  | [] => false
  | c :: rest =>
    (match before with
      | none =>
        opensOther c || ((c = '?' || c = ':' || c = '-') && isGap rest.head?)
      | some _ =>
        (c = ':' && isGap rest.head?) || (c = '#' && isGap before))
      || misreads (some c) rest

/-- What a text allows and forbids. -/
structure Shape where
  /-- The text is empty. -/
  empty : Bool
  /-- Some character has to be escaped, or a space stands before the end of a line. -/
  escapes : Bool
  /-- A line starts with a space that the quotes would lose. -/
  breakThenSpace : Bool
  /-- A space or end of line stands at one of the ends. -/
  looseEnds : Bool
  trailingSpace : Bool
  multiline : Bool
  /-- The text would be read as something else. -/
  misread : Bool

/-- Whether a character of the first class is followed by one of the second. -/
def followed (p q : Char → Bool) : List Char → Bool
  | a :: b :: rest => (p a && q b) || followed p q (b :: rest)
  | _ => false

/-- The shape of a text. -/
def Shape.of (cs : List Char) : Shape :=
  let isSpace (c : Char) : Bool := c = ' '
  let isLoose (c : Char) : Bool := c = ' ' || isBreak c
  { empty := cs.isEmpty
    escapes := cs.any (fun c => !isWritable c) || followed isSpace isBreak cs
    breakThenSpace := followed isBreak isSpace cs
    looseEnds := cs.head?.any isLoose || cs.getLast?.any isLoose
    trailingSpace := cs.getLast?.any isSpace
    multiline := cs.any isBreak
    misread := ['-', '-', '-'].isPrefixOf cs || ['.', '.', '.'].isPrefixOf cs || misreads none cs }

/-- Whether a text may be written plainly. -/
def Shape.allowsPlain (s : Shape) : Bool :=
  !(s.escapes || s.breakThenSpace || s.looseEnds || s.multiline || s.misread)

/-- Whether a text may be written in single quotes. -/
def Shape.allowsSingle (s : Shape) : Bool :=
  !(s.escapes || s.breakThenSpace)

/-- Whether a text may be written over several lines. -/
def Shape.allowsLiteral (s : Shape) : Bool :=
  !(s.empty || s.escapes || s.trailingSpace)

/-- The style that the meaning of a string asks for: quotes if it would read back as something other
than a string, lines of its own if it holds line feeds. -/
def wantedStyle (s : String) : Style :=
  if s.toList.contains '\n' then .literal
  else match Scalar.resolve s with
    | .text => if isPadded s.toList then .single else .plain
    | _ => .single

/-- The style of a text, given the style that is wanted. The key of a field stays on one line. -/
def allowedStyle (shape : Shape) (isKey : Bool) (wanted : Style) : Style :=
  let wanted := if isKey && shape.multiline then .double else wanted
  let wanted := if wanted = .plain && (!shape.allowsPlain || (shape.empty && isKey)) then .single
    else wanted
  match wanted with
  | .single => if shape.allowsSingle then .single else .double
  | .literal => if shape.allowsLiteral && !isKey then .literal else .double
  | style => style

/-- A hexadecimal digit with capital letters. -/
def upperHexDigit (n : Nat) : Char :=
  if n < 10 then Char.ofNat (48 + n) else Char.ofNat (55 + n)

/-- The last hexadecimal digits of a number. -/
def upperHex : Nat → Nat → List Char
  | 0, _ => []
  | width + 1, n => upperHex width (n / 16) ++ [upperHexDigit (n % 16)]

/-- How a character is written between double quotes. -/
def escaped (c : Char) : List Char :=
  let n := c.toNat
  if n = 0 then ['\\', '0']
  else if n = 0x07 then ['\\', 'a']
  else if n = 0x08 then ['\\', 'b']
  else if n = 0x09 then ['\\', 't']
  else if n = 0x0A then ['\\', 'n']
  else if n = 0x0B then ['\\', 'v']
  else if n = 0x0C then ['\\', 'f']
  else if n = 0x0D then ['\\', 'r']
  else if n = 0x1B then ['\\', 'e']
  else if n = 0x22 then ['\\', '\x22']
  else if n = 0x5C then ['\\', '\\']
  else if n = 0x85 then ['\\', 'N']
  else if n = 0x2028 then ['\\', 'L']
  else if n = 0x2029 then ['\\', 'P']
  else if isWritable c then [c]
  else if n ≤ 0xFF then ['\\', 'x'] ++ upperHex 2 n
  else if n ≤ 0xFFFF then ['\\', 'u'] ++ upperHex 4 n
  else ['\\', 'U'] ++ upperHex 8 n

namespace Writer

/-- Writes a plain scalar. -/
def plain (w : Writer) (cs : List Char) : Writer :=
  let w := if !w.spaced && !cs.isEmpty then w.put ' ' else w
  { w.putAll cs with spaced := false, indented := w.indented && cs.isEmpty }

/-- Writes the characters between single quotes; `broken` says that a line has just ended. -/
def singleBody (indent : Nat) (broken : Bool) : List Char → Writer → Writer
  | [], w => if broken then w.indentTo indent else w
  | c :: rest, w =>
    if isBreak c then
      let w := if !broken && c = '\n' then w.putBreak '\n' else w
      singleBody indent true rest { w.putBreak c with indented := true }
    else if c = ' ' then singleBody indent broken rest (w.put ' ')
    else
      let w := if broken then w.indentTo indent else w
      let w := if c = '\'' then w.put '\'' else w
      singleBody indent false rest { w.put c with indented := false }

/-- Writes a text in single quotes. -/
def single (w : Writer) (indent : Nat) (cs : List Char) : Writer :=
  let w := w.mark ['\''] true false
  { (singleBody indent false cs w).mark ['\''] false false with spaced := false, indented := false }

/-- Writes a text in double quotes. -/
def double (w : Writer) (cs : List Char) : Writer :=
  let w := (w.mark ['\x22'] true false).putAll (cs.flatMap escaped)
  { w.mark ['\x22'] false false with spaced := false, indented := false }

/-- The marks of a text over several lines: its indentation if it starts with a space, and whether
it ends with no end of line or with several. -/
def literalMarks (cs : List Char) : List Char :=
  (if cs.head?.any fun c => c = ' ' || isBreak c then ['2'] else [])
    ++ match cs.reverse with
      | [] => ['-']
      | [c] => if isBreak c then ['+'] else ['-']
      | c :: d :: _ => if !isBreak c then ['-'] else if isBreak d then ['+'] else []

/-- Writes the lines of a text; `broken` says that a line has just ended. -/
def literalBody (indent : Nat) (broken : Bool) : List Char → Writer → Writer
  | [], w => w
  | c :: rest, w =>
    if isBreak c then literalBody indent true rest { w.putBreak c with indented := true }
    else
      let w := if broken then w.indentTo indent else w
      literalBody indent false rest { w.put c with indented := false }

/-- Writes a text over several lines. -/
def literal (w : Writer) (indent : Nat) (cs : List Char) : Writer :=
  let w := ((w.mark ['|'] true false).mark (literalMarks cs) false false).putBreak '\n'
  literalBody indent true cs { w with spaced := true, indented := true }

/-- Writes a text in a style. -/
def scalar (w : Writer) (indent : Nat) (isKey : Bool) (wanted : Style) (s : String) : Writer :=
  let cs := s.toList
  match allowedStyle (Shape.of cs) isKey wanted with
  | .plain => w.plain cs
  | .single => w.single indent cs
  | .double => w.double cs
  | .literal => w.literal indent cs

/-- Writes a tag. -/
def tag (w : Writer) (name : String) : Writer :=
  let w := if w.spaced then w else w.put ' '
  { w.putAll ('!' :: name.toList) with spaced := false, indented := false }

/-- Writes an empty list or record. -/
def empty (w : Writer) (opening closing : Char) : Writer :=
  (w.mark [opening] true false).mark [closing] false false

end Writer

/-! ## Trees -/

/-- Whether the key of a field is short and on one line. -/
def isSimpleKey (key : String) : Bool :=
  !key.toList.any isBreak && key.utf8ByteSize ≤ 128

/-- Where the contents of a collection go inside a collection that is indented by `indent`. -/
def deeper : Option Nat → Nat
  | none => 0
  | some indent => indent + 2

/-- Where the further lines of a scalar go. -/
def scalarIndent : Option Nat → Nat
  | none => 2
  | some indent => indent + 2

/-- Writes the key of a field and what separates it from its value. -/
def Writer.key (w : Writer) (indent : Nat) (key : String) : Writer :=
  let w := w.indentTo indent
  if isSimpleKey key then
    (w.scalar (indent + 2) true (wantedStyle key) key).mark [':'] false false
  else
    let w := (w.mark ['?'] true true).scalar (indent + 2) false (wantedStyle key) key
    (w.indentTo indent).mark [':'] true true

mutual

/-- Writes a tree inside a collection that is indented by `indent`, if there is one; `isField` says
that it is the value of a field. -/
def write (indent : Option Nat) (isField : Bool) : Data → Writer → Writer
  | .null, w => w.plain "null".toList
  | .bool b, w => w.plain (if b then "true" else "false").toList
  | .int i, w => w.plain (toString i).toList
  | .string s, w => w.scalar (scalarIndent indent) false (wantedStyle s) s
  | .list [], w => w.empty '[' ']'
  | .list (item :: rest), w =>
    let inner := match indent with
      | some n => if isField && !w.indented then n else n + 2
      | none => 0
    writeItems inner (item :: rest) w
  | .record [], w => w.empty '\x7b' '\x7d'
  | .record (field :: rest), w => writeFields (deeper indent) (field :: rest) w
  | .tagged tag payload, w => write indent isField payload (w.tag tag)

/-- Writes the items of a list. -/
def writeItems (indent : Nat) : List Data → Writer → Writer
  | [], w => w
  | item :: rest, w =>
    writeItems indent rest
      (write (some indent) false item ((w.indentTo indent).mark ['-'] true true))

/-- Writes the fields of a record. -/
def writeFields (indent : Nat) : List (String × Data) → Writer → Writer
  | [], w => w
  | (name, value) :: rest, w =>
    writeFields indent rest (write (some indent) true value (w.key indent name))

end

/-- The text of a document, which ends with a line feed. -/
def render (d : Data) : String :=
  String.ofList ((write none false d .start).indentTo 0).text.reverse

end SiteCatalog.Yaml
