import SiteCatalog.Pattern.Classes

/-!
# Reading patterns

The grammar of patterns. A reader walks the text once; the flags in force are part of what it
carries, since a directive such as `(?i)` holds from where it stands to the end of its group. What
is refused: unbalanced brackets, a repetition of nothing, unknown escapes and names, references to
groups, look-around, and patterns that could split a character.
-/

namespace SiteCatalog.Pattern

open SiteCatalog.Text

/-- The flags in force. -/
structure Flags where
  /-- Letters match whatever their case. -/
  caseless : Bool := false
  /-- `^` and `$` match at lines. -/
  multiline : Bool := false
  /-- The dot matches line feeds. -/
  dotAll : Bool := false
  /-- A carriage return ends lines too. -/
  carriage : Bool := false
  /-- Classes are those of Unicode, not of ASCII. -/
  unicode : Bool := true
  /-- White space and comments in the pattern are skipped. -/
  spaced : Bool := false

/-- What a reader carries: the rest of the pattern, the flags and the names of groups so far. -/
structure Cursor where
  rest : List Char
  flags : Flags
  names : List (List Char)

/-- A reader of a part of a pattern. -/
abbrev Reader := StateT Cursor Option

namespace Reader

/-- The next character, if any. -/
def peek : Reader (Option Char) := do
  return (← get).rest.head?

/-- Drops a number of characters. -/
def skip (n : Nat) : Reader Unit :=
  modify fun s => { s with rest := s.rest.drop n }

/-- Takes a character; there has to be one. -/
def next : Reader Char := do
  match (← get).rest with
  | c :: rest => do
    modify fun s => { s with rest }
    return c
  | [] => failure

/-- Takes a word if it comes next. -/
def takeWord (word : List Char) : Reader Bool := do
  if word.isPrefixOf (← get).rest then
    skip word.length
    return true
  else return false

/-- The text after white space and comments; `fuel` bounds the number of comments. -/
def dropSpace : Nat → List Char → List Char
  | 0, cs => cs
  | fuel + 1, cs =>
    match cs.dropWhile Text.isBlank with
    | '#' :: rest => dropSpace fuel (rest.dropWhile (· ≠ '\n'))
    | rest => rest

/-- Skips white space and comments if the flags say so. -/
def space : Reader Unit :=
  modify fun s => if s.flags.spaced then { s with rest := dropSpace s.rest.length s.rest } else s

/-- Takes a character and skips what may follow it; something has to remain. -/
def nextThenMore : Reader Char := do
  let c ← next
  space
  if (← peek).isNone then failure
  return c

/-- The flags in force. -/
def flags : Reader Flags := do
  return (← get).flags

/-- Succeeds if a condition holds. -/
def require (b : Bool) : Reader Unit :=
  if b then pure () else failure

end Reader

open Reader

/-- What one item of a class or one atom of a pattern can be. -/
inductive Atom
  /-- A character; the flag says that it was written as a character code. -/
  | char (c : Char) (coded : Bool)
  | set (s : CharSet)
  | look (l : Look)

/-- The value of a hexadecimal digit. -/
def hexValue? (c : Char) : Option Nat :=
  if '0' ≤ c ∧ c ≤ '9' then some (c.toNat - 48)
  else if 'a' ≤ c ∧ c ≤ 'f' then some (c.toNat - 87)
  else if 'A' ≤ c ∧ c ≤ 'F' then some (c.toNat - 55)
  else none

/-- The character with a code, if there is one. -/
def charOfCode? (n : Nat) : Option Char :=
  if n < 0xD800 ∨ (0xDFFF < n ∧ n < 0x110000) then some (Char.ofNat n) else none

/-- Reads a number of hexadecimal digits. -/
def hexDigits : Nat → Nat → Reader Nat
  | 0, acc => return acc
  | n + 1, acc => do
    space
    match hexValue? (← next) with
    | some d => hexDigits n (acc * 16 + d)
    | none => failure

/-- Reads hexadecimal digits up to a closing brace; `fuel` bounds their number. -/
def hexUntilBrace : Nat → Option Nat → Reader Nat
  | 0, _ => failure
  | fuel + 1, acc => do
    space
    let c ← next
    if c = '\x7d' then
      match acc with
      | some n => return n
      | none => failure
    else match hexValue? c with
      | some d => hexUntilBrace fuel (some (min (acc.getD 0 * 16 + d) 0x110000))
      | none => failure

/-- Reads a character code, whose usual number of digits is given. -/
def charCode (digits : Nat) : Reader Char := do
  space
  let n ← if (← peek) = some '\x7b' then do
      skip 1
      hexUntilBrace (← get).rest.length none
    else hexDigits digits 0
  match charOfCode? n with
  | some c => return c
  | none => failure

/-- Takes characters up to a closing brace; `fuel` bounds their number. -/
def untilBrace : Nat → List Char → Reader (List Char)
  | 0, _ => failure
  | fuel + 1, acc => do
    space
    let c ← next
    if c = '\x7d' then return acc.reverse else untilBrace fuel (c :: acc)

/-- What stands before and after the first occurrence of a word. -/
def splitAt? (word : List Char) : List Char → Option (List Char × List Char)
  | [] => none
  | c :: rest =>
    if word.isPrefixOf (c :: rest) then some ([], (c :: rest).drop word.length)
    else (splitAt? word rest).map fun (a, b) => (c :: a, b)

/-- The set that the text in braces stands for: a name, or a property and its value. -/
def bracedClass? (text : List Char) : Option CharSet :=
  match splitAt? ['!', '='] text with
  | some (p, v) => (valueClass? p v).map .complement
  | none => match splitAt? [':'] text with
    | some (p, v) => valueClass? p v
    | none => match splitAt? ['='] text with
      | some (p, v) => valueClass? p v
      | none => namedClass? text

/-- Whether a set holds a character in the other ASCII case. -/
def hasOtherAsciiCase (s : CharSet) (c : Char) : Bool :=
  s.has (asciiLower c) || ('a' ≤ c && c ≤ 'z' && s.has (Char.ofNat (c.toNat - 32)))

/-- A set with every other case of its characters, if the flags ask for it. -/
def caseless (flags : Flags) (s : CharSet) : CharSet :=
  if flags.caseless then
    if flags.unicode then .folded s else .union s (.property (hasOtherAsciiCase s))
  else s

/-- A set or its complement; without Unicode no complement is a set of characters. -/
def complementIf (negated : Bool) (flags : Flags) (s : CharSet) : Reader CharSet := do
  if negated then
    require flags.unicode
    return .complement s
  else return s

/-- Reads a category or property after its letter. -/
def namedSet (negated : Bool) : Reader CharSet := do
  let flags ← flags
  require flags.unicode
  space
  let c ← next
  let set? ← if c = '\x7b' then do
      let text ← untilBrace (← get).rest.length []
      pure (bracedClass? text)
    else pure (namedClass? [c])
  match set? with
  | some s => complementIf negated flags (caseless flags s)
  | none => failure

/-- The one-letter classes: digits, white space and word characters. -/
def letterSet (c : Char) : Reader CharSet := do
  let flags ← flags
  let s : CharSet :=
    if flags.unicode then
      if c = 'd' ∨ c = 'D' then .category fun g => decide (g = .nd)
      else if c = 's' ∨ c = 'S' then .property Text.isBlank
      else .property isWord
    else if c = 'd' ∨ c = 'D' then asciiDigit
    else if c = 's' ∨ c = 'S' then asciiSpace
    else asciiWord
  complementIf (c.isUpper) flags s

/-- The characters that count as parts of words. -/
def wordTest (flags : Flags) : Char → Bool :=
  if flags.unicode then isWord else isAsciiWord

/-- Reads what may follow a word boundary in braces, if it names a boundary: `none` if the brace
opens a repetition instead. -/
def boundaryName (start : Cursor) : Nat → List Char → Reader (Option (List Char))
  | 0, _ => failure
  | fuel + 1, acc => do
    space
    let c ← next
    if c.isAlpha || c = '-' then boundaryName start fuel (c :: acc)
    else if c = '\x7d' ∧ ¬acc.isEmpty then return some acc.reverse
    else if acc.isEmpty then do
      set start
      return none
    else failure

/-- Reads a word boundary after its letter. -/
def boundary : Reader Look := do
  let w := wordTest (← flags)
  if (← peek) = some '\x7b' then do
    let start ← get
    skip 1
    match ← boundaryName start (← get).rest.length [] with
    | none => return .wordBoundary w
    | some name =>
      match String.ofList name with
      | "start" => return .wordStart w
      | "end" => return .wordEnd w
      | "start-half" => return .wordStartHalf w
      | "end-half" => return .wordEndHalf w
      | _ => failure
  else return .wordBoundary w

/-- Reads an escape after its backslash. -/
def escape : Reader Atom := do
  let c ← next
  let flags ← flags
  if c = 'x' then return .char (← charCode 2) true
  else if c = 'u' then return .char (← charCode 4) true
  else if c = 'U' then return .char (← charCode 8) true
  else if c = 'p' then return .set (← namedSet false)
  else if c = 'P' then return .set (← namedSet true)
  else if c ∈ ['d', 's', 'w', 'D', 'S', 'W'] then return .set (← letterSet c)
  else if c = 'a' then return .char '\x07' false
  else if c = 'f' then return .char '\x0c' false
  else if c = 't' then return .char '\t' false
  else if c = 'n' then return .char '\n' false
  else if c = 'r' then return .char '\r' false
  else if c = 'v' then return .char '\x0b' false
  else if c = 'A' then return .look .textStart
  else if c = 'z' then return .look .textEnd
  else if c = 'b' then return .look (← boundary)
  else if c = 'B' then return .look (.noWordBoundary (wordTest flags))
  else if c = '<' then return .look (.wordStart (wordTest flags))
  else if c = '>' then return .look (.wordEnd (wordTest flags))
  else if c.isAlphanum || 0x7F < c.toNat then failure
  else return .char c false

/-- The set of one character; without Unicode a code above 127 would be a byte and is refused. -/
def singleSet (c : Char) (coded : Bool) : Reader CharSet := do
  let flags ← flags
  require (flags.unicode || !coded || c.toNat < 128)
  return caseless flags (.single c)

/-- An item of a class as a set. -/
def Atom.toSet : Atom → Reader CharSet
  | .char c _ => do
    require ((← flags).unicode || c.toNat < 128)
    return .single c
  | .set s => return s
  | .look _ => failure

/-- Reads one item of a class. -/
def classItem : Reader Atom := do
  let c ← next
  if c = '\\' then escape else return .char c false

/-- The character after the next one. -/
def second : Reader (Option Char) := do
  return ((← get).rest.drop 1).head?

/-- The character after the next one and what may be skipped there. -/
def secondAfterSpace : Reader (Option Char) := do
  let s ← get
  let rest := s.rest.drop 1
  return (if s.flags.spaced then dropSpace rest.length rest else rest).head?

/-- Reads an item of a class or a range of characters. -/
def classRange : Reader CharSet := do
  let first ← classItem
  space
  match ← peek with
  | none => failure
  | some c =>
    let after ← secondAfterSpace
    if c ≠ '-' ∨ after = some ']' ∨ after = some '-' then first.toSet
    else do
      let _ ← nextThenMore
      let last ← classItem
      match first, last with
      | .char a _, .char b _ => do
        require ((← flags).unicode || (a.toNat < 128 && b.toNat < 128))
        require (a ≤ b)
        return .range a b
      | _, _ => failure

/-- The named class that starts at a bracket inside a class, and the text after it. -/
def asciiClassAt? : List Char → Option (Bool × CharSet × List Char)
  | '[' :: ':' :: rest =>
    let (negated, rest) := match rest with
      | '^' :: r => (true, r)
      | r => (false, r)
    let name := rest.takeWhile (· ≠ ':')
    match rest.dropWhile (· ≠ ':') with
    | ':' :: ']' :: after => (asciiClass? (String.ofList name)).map fun s => (negated, s, after)
    | _ => none
  | _ => none

/-- The operations between the parts of a class. -/
inductive ClassOp
  | inter
  | diff
  | symmDiff

/-- Applies an operation that is waiting for its right side. -/
def applyOp (flags : Flags) : Option (ClassOp × CharSet) → CharSet → CharSet
  | none, s => s
  | some (.inter, t), s => .inter (caseless flags t) (caseless flags s)
  | some (.diff, t), s => (caseless flags t).diff (caseless flags s)
  | some (.symmDiff, t), s => (caseless flags t).symmDiff (caseless flags s)

/-- Reads the hyphens that open a class. -/
def leadingHyphens : Nat → CharSet → Bool → Reader (CharSet × Bool)
  | 0, acc, seen => return (acc, seen)
  | fuel + 1, acc, seen => do
    if (← peek) = some '-' then
      let _ ← nextThenMore
      leadingHyphens fuel (.union acc (.single '-')) true
    else return (acc, seen)

mutual

/-- Reads a class after its opening bracket, which ends at its own closing bracket. -/
def classBody : Nat → Reader CharSet
  | 0 => failure
  | fuel + 1 => do
    let flags ← flags
    space
    let negated ← match ← peek with
      | some '^' => do
        let _ ← nextThenMore
        pure true
      | some _ => pure false
      | none => failure
    let (start, seen) ← leadingHyphens fuel .none false
    let start ← if !seen && (← peek) = some ']' then do
        let _ ← nextThenMore
        pure (CharSet.single ']')
      else pure start
    let s ← classRest fuel none start
    complementIf negated flags (caseless flags s)

/-- Reads the rest of a class, given the operation that waits for its right side and the union that
is being read. -/
def classRest : Nat → Option (ClassOp × CharSet) → CharSet → Reader CharSet
  | 0, _, _ => failure
  | fuel + 1, waiting, acc => do
    space
    let flags ← flags
    match ← peek with
    | none => failure
    | some '[' =>
      match asciiClassAt? (← get).rest with
      | some (negated, s, after) => do
        modify fun cursor => { cursor with rest := after }
        let s ← complementIf negated flags (caseless flags s)
        classRest fuel waiting (.union acc s)
      | none => do
        skip 1
        let s ← classBody fuel
        classRest fuel waiting (.union acc s)
    | some ']' => do
      skip 1
      return applyOp flags waiting acc
    | some c =>
      if c = '&' ∧ (← second) = some '&' then do
        skip 2
        classRest fuel (some (.inter, applyOp flags waiting acc)) .none
      else if c = '-' ∧ (← second) = some '-' then do
        skip 2
        classRest fuel (some (.diff, applyOp flags waiting acc)) .none
      else if c = '~' ∧ (← second) = some '~' then do
        skip 2
        classRest fuel (some (.symmDiff, applyOp flags waiting acc)) .none
      else do
        let s ← classRange
        classRest fuel waiting (.union acc s)

end

/-- The number that digits write. -/
def decimal (ds : List Char) : Nat :=
  ds.foldl (fun n c => n * 10 + (c.toNat - 48)) 0

/-- Reads a count with blanks around it, if there is one; it has to fit in 32 bits. -/
def count : Reader (Option Nat) := do
  modify fun s => { s with rest := s.rest.dropWhile Text.isBlank }
  let ds := (← get).rest.takeWhile Char.isDigit
  modify fun s => { s with rest := (s.rest.drop ds.length).dropWhile Text.isBlank }
  if ds.isEmpty then return none
  require (decimal ds < UInt32.size)
  return some (decimal ds)

/-- Reads a counted repetition after its opening brace. -/
def bounds : Reader (Nat × Option Nat) := do
  space
  let least ← count
  let result ← match ← peek with
    | some ',' => do
      let _ ← nextThenMore
      match least with
      | none => failure
      | some least =>
        if (← peek) = some '\x7d' then pure (least, none)
        else match ← count with
          | some most => pure (least, some most)
          | none => failure
    | _ => match least with
      | some n => pure (n, some n)
      | none => failure
  require ((← next) = '\x7d')
  match result.2 with
  | some most => require (result.1 ≤ most)
  | none => pure ()
  return result

/-- Skips the mark that makes a repetition prefer few matches. -/
def skipLazyMark : Reader Unit := do
  if (← peek) = some '?' then skip 1

/-- Sets or clears the flag of a letter. -/
def Flags.set? (f : Flags) (on : Bool) (c : Char) : Option Flags :=
  if c = 'i' then some { f with caseless := on }
  else if c = 'm' then some { f with multiline := on }
  else if c = 's' then some { f with dotAll := on }
  else if c = 'R' then some { f with carriage := on }
  else if c = 'u' then some { f with unicode := on }
  else if c = 'x' then some { f with spaced := on }
  else if c = 'U' then some f
  else none

/-- Reads the letters of a group up to its colon or closing bracket, and says which of the two it
was. Each letter and the minus occur at most once, and a letter follows the minus. -/
def flagLetters : Nat → Flags → List Char → Reader (Flags × Bool × Bool)
  | 0, _, _ => failure
  | fuel + 1, f, seen => do
    let c ← next
    if c = ':' ∨ c = ')' then do
      require (seen.head? ≠ some '-')
      return (f, c = ':', seen.isEmpty)
    else do
      require (!seen.contains c)
      if c = '-' then flagLetters fuel f (c :: seen)
      else match f.set? (!seen.contains '-') c with
        | some f => flagLetters fuel f (c :: seen)
        | none => failure

/-- Reads the name of a group up to its closing angle. -/
def groupName : Nat → List Char → Reader (List Char)
  | 0, _ => failure
  | fuel + 1, acc => do
    let c ← next
    if c = '>' then
      require (!acc.isEmpty)
      return acc.reverse
    else
      let fits := if acc.isEmpty then c = '_' || isAlphabetic c
        else c = '_' || c = '.' || c = '[' || c = ']' || isAlphanumeric c
      require fits
      groupName fuel (c :: acc)

/-- A directive, which cannot be repeated, or a term. -/
inductive Item
  | directive
  | term (t : Term)

/-- The sequence of items, which are given last first. -/
def sequence (items : List Item) : Term :=
  items.foldl (fun t i => match i with
    | .directive => t
    | .term u => .seq u t) .empty

/-- The term of an atom. -/
def Atom.toTerm : Atom → Reader Term
  | .char c coded => do return .chars (← singleSet c coded)
  | .set s => return .chars s
  | .look l => return .look l

/-- The last item, ready to be repeated. -/
def repeatable? : List Item → Option (Term × List Item)
  | .term t :: rest => some (t, rest)
  | _ => none

mutual

/-- Reads alternatives up to a closing bracket or the end, which are left in place. -/
def alternatives : Nat → Reader Term
  | 0 => failure
  | fuel + 1 => do
    let t ← branch fuel []
    if (← peek) = some '|' then
      skip 1
      return .alt t (← alternatives fuel)
    else return t

/-- Reads one alternative; the items read so far are given last first. -/
def branch : Nat → List Item → Reader Term
  | 0, _ => failure
  | fuel + 1, items => do
    space
    let flags ← flags
    match ← peek with
    | none => return sequence items
    | some c =>
      if c = '|' ∨ c = ')' then return sequence items
      else if c = '(' then do
        skip 1
        branch fuel ((← group fuel) :: items)
      else if c = '[' then do
        skip 1
        branch fuel (.term (.chars (← classBody fuel)) :: items)
      else if c = '?' ∨ c = '*' ∨ c = '+' then
        match repeatable? items with
        | none => failure
        | some (t, rest) => do
          skip 1
          skipLazyMark
          let (least, most) : Nat × Option Nat :=
            if c = '?' then (0, some 1) else if c = '*' then (0, none) else (1, none)
          branch fuel (.term (.repeated t least most) :: rest)
      else if c = '\x7b' then
        match repeatable? items with
        | none => failure
        | some (t, rest) => do
          skip 1
          let (least, most) ← bounds
          space
          skipLazyMark
          branch fuel (.term (.repeated t least most) :: rest)
      else do
        skip 1
        let t ← if c = '\\' then do (← escape).toTerm
          else if c = '.' then do
            require flags.unicode
            pure (Term.chars (if flags.dotAll then .any
              else if flags.carriage then .complement (.union (.single '\n') (.single '\r'))
              else .complement (.single '\n')))
          else if c = '^' then
            pure (.look (if !flags.multiline then .textStart
              else if flags.carriage then .lineStartCR else .lineStart))
          else if c = '$' then
            pure (.look (if !flags.multiline then .textEnd
              else if flags.carriage then .lineEndCR else .lineEnd))
          else (Atom.char c false).toTerm
        branch fuel (.term t :: items)

/-- Reads a group or directive after its opening bracket. -/
def group : Nat → Reader Item
  | 0 => failure
  | fuel + 1 => do
    space
    let outer ← flags
    for look in [['?', '='], ['?', '!'], ['?', '<', '='], ['?', '<', '!']] do
      if ← takeWord look then failure
    let named ← if ← takeWord ['?', 'P', '<'] then pure true else takeWord ['?', '<']
    if named then
      let name ← groupName fuel []
      require (!(← get).names.contains name)
      modify fun s => { s with names := name :: s.names }
      return .term (← groupBody fuel outer)
    else if ← takeWord ['?'] then
      let (inner, colon, empty) ← flagLetters fuel outer []
      modify fun s => { s with flags := inner }
      if colon then return .term (← groupBody fuel outer)
      else
        require (!empty)
        return .directive
    else return .term (← groupBody fuel outer)

/-- Reads the alternatives of a group and its closing bracket, after which the outer flags hold. -/
def groupBody : Nat → Flags → Reader Term
  | 0, _ => failure
  | fuel + 1, outer => do
    let t ← alternatives fuel
    require ((← next) = ')')
    modify fun s => { s with flags := outer }
    return t

end

/-- How much a set of characters adds to the size of a pattern. -/
def CharSet.weight : CharSet → Nat
  | .none => 1
  | .range _ _ => 1
  | .category _ => 200
  | .property _ => 1000
  | .complement s => s.weight + 8
  | .union s t => s.weight + t.weight
  | .inter s t => s.weight + t.weight
  | .folded s => 2 * s.weight

/-- The size of a pattern in which counted repetitions are written out. -/
def Term.weight : Term → Nat
  | .empty => 1
  | .chars s => s.weight
  | .look _ => 1
  | .seq a b => a.weight + b.weight
  | .alt a b => a.weight + b.weight + 1
  | .repeated t min max => t.weight * (max.getD (min + 1)) + 1

/-- The largest size of a pattern. -/
def maxWeight : Nat := 350000

/-- The term that a pattern writes. -/
def parse? (source : String) : Option Term :=
  let cs := source.toList
  match (alternatives (4 * cs.length + 8)).run ⟨cs, {}, []⟩ with
  | some (t, cursor) => if cursor.rest.isEmpty ∧ t.weight ≤ maxWeight then some t else none
  | none => none

end Pattern

/-- A pattern with the term that its source writes. -/
structure Pattern where
  source : String
  term : Pattern.Term
  parses : Pattern.parse? source = some term

namespace Pattern

/-- The pattern of a source, if the source is well formed. -/
def ofSource? (source : String) : Option Pattern :=
  match h : parse? source with
  | some term => some ⟨source, term, h⟩
  | none => none

/-- Whether a pattern matches somewhere in a name. -/
def isMatch (p : Pattern) (name : String) : Bool :=
  p.term.matches name.toList

end Pattern

end SiteCatalog
