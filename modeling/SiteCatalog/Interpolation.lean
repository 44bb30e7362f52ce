import SiteCatalog.Expr
import SiteCatalog.Text.CharClass

/-!
# Interpolation

References to variables inside strings. A reference is `$name` or `$\x7bname\x7d` in braces, where
a name is an optional leading `::` and segments joined by `::`, each a letter or underscore
followed by word characters. References are found from the left, and each is as long as it can be.
-/

namespace SiteCatalog.Interpolation

open SiteCatalog.Text

/-- Characters that a segment of a variable name starts with. -/
def isSegmentStart (c : Char) : Bool :=
  ('A' ≤ c && c ≤ 'Z') || ('a' ≤ c && c ≤ 'z') || c = '_'

/-- The segment that a text starts with, and the rest. -/
def segment? : List Char → Option (List Char × List Char)
  | [] => none
  | c :: rest =>
    if isSegmentStart c then some (c :: rest.takeWhile isWord, rest.dropWhile isWord) else none

/-- Further segments, each after a separator; `fuel` bounds their number. -/
def moreSegments : Nat → List Char → List Char × List Char
  | 0, cs => ([], cs)
  | fuel + 1, cs =>
    match cs with
    | ':' :: ':' :: rest =>
      match segment? rest with
      | some (s, rest) =>
        let (more, rest) := moreSegments fuel rest
        (':' :: ':' :: s ++ more, rest)
      | none => ([], cs)
    | _ => ([], cs)

/-- The longest variable name that a text starts with, and the rest. -/
def variableName? (cs : List Char) : Option (List Char × List Char) :=
  let (lead, body) := match cs with
    | ':' :: ':' :: rest => ([':', ':'], rest)
    | _ => ([], cs)
  match segment? body with
  | some (s, rest) =>
    let (more, rest) := moreSegments rest.length rest
    some (lead ++ s ++ more, rest)
  | none => none

/-- The variable that a text refers to just after a dollar sign, and the rest. -/
def reference? : List Char → Option (List Char × List Char)
  | '\x7b' :: rest =>
    match variableName? rest with
    | some (name, '\x7d' :: rest) => some (name, rest)
    | _ => none
  | cs => variableName? cs

/-- A piece of a string. -/
inductive Part
  | text (cs : List Char)
  | variable (name : List Char)

/-- Puts a character before a list of parts. -/
def pushChar (c : Char) : List Part → List Part
  | .text cs :: rest => .text (c :: cs) :: rest
  | parts => .text [c] :: parts

/-- The parts of a string in order; `fuel` bounds the number of steps. -/
def partsFrom : Nat → List Char → List Part
  | 0, _ => []
  | _ + 1, [] => []
  | fuel + 1, c :: rest =>
    if c = '$' then
      match reference? rest with
      | some (name, rest) => .variable name :: partsFrom fuel rest
      | none => pushChar c (partsFrom fuel rest)
    else pushChar c (partsFrom fuel rest)

/-- The parts of a string: texts that are not empty, and variables. No two texts are adjacent. -/
def parts (cs : List Char) : List Part :=
  partsFrom cs.length cs

/-- The expression of a part. -/
def Part.toExpr : Part → Expr
  | .text cs => .literal (.str (String.ofList cs))
  | .variable name => .var (String.ofList name)

end Interpolation

/-- The expression that a string denotes. A string that is one reference keeps the variable's own
value; one with no reference is itself. -/
def interpolate (s : String) : Expr :=
  match Interpolation.parts s.toList with
  | [] => .literal (.str "")
  | [part] => part.toExpr
  | parts => .concat (parts.map Interpolation.Part.toExpr)

end SiteCatalog
