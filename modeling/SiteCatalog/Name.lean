import SiteCatalog.Text.Case

/-!
# Names

Names of classes, defined types, nodes and variables are segments joined by `::`. Classes and types
are known by their small letters without a leading `::`; resources are tagged with the capitalised
name of their type.
-/

namespace SiteCatalog.Name

open SiteCatalog.Text

/-- The separator of segments. -/
def separator : List Char := [':', ':']

/-- The text without the separators that it starts with. -/
def dropSeparators : List Char → List Char
  | ':' :: ':' :: rest => dropSeparators rest
  | cs => cs

/-- Whether a text starts with a separator. -/
def startsWithSeparator : List Char → Bool
  | ':' :: ':' :: _ => true
  | _ => false

/-- What stands before and after the last separator. -/
def splitLast? : List Char → Option (List Char × List Char)
  | [] => none
  | c :: rest =>
    match splitLast? rest with
    | some (before, after) => some (c :: before, after)
    | none => if startsWithSeparator (c :: rest) then some ([], rest.drop 1) else none

/-- The segments between separators, found from the left. -/
def segments : List Char → List (List Char)
  | [] => [[]]
  | ':' :: ':' :: rest => [] :: segments rest
  | c :: rest =>
    match segments rest with
    | s :: more => (c :: s) :: more
    | [] => [[c]]

/-- The name under which a class or type is known: small letters, no leading separator. -/
def normalize (s : String) : String :=
  String.ofList (lower (dropSeparators s.toList))

/-- All but the last segment of a name. -/
def qualifier (s : String) : String :=
  match splitLast? s.toList with
  | some (before, _) => String.ofList before
  | none => ""

/-- The class and the variable of a qualified variable name. -/
def splitVariable? (s : String) : Option (String × String) :=
  (splitLast? s.toList).map fun (c, v) => (String.ofList c, String.ofList v)

/-- A name with every segment capitalised. -/
def capitalize (s : String) : String :=
  String.ofList (separator.intercalate ((segments s.toList).map Text.capitalize))

/-- The tag of the resources of a type. -/
def tag (s : String) : String :=
  capitalize (String.ofList (lower s.toList))

/-- Whether a character is kept in the label of a pattern. -/
def isLabelChar (c : Char) : Bool :=
  isAlphanumeric c || c = '_' || c = '-' || c = ':' || c = '.'

/-- The printable name of a node that a pattern selects: its letters and digits without leading
points. -/
def patternLabel (pattern : String) : String :=
  String.ofList (lower ((pattern.toList.filter isLabelChar).dropWhile (· = '.')))

/-- What stands before the last point. -/
def beforeLastPoint? : List Char → Option (List Char)
  | [] => none
  | c :: rest =>
    match beforeLastPoint? rest with
    | some before => some (c :: before)
    | none => if c = '.' then some [] else none

/-- A host name and the prefixes of it that end before a point, longest first, as long as they are
not empty; `fuel` bounds their number. -/
def prefixesFrom : Nat → List Char → List (List Char)
  | 0, cs => [cs]
  | fuel + 1, cs =>
    cs :: match beforeLastPoint? cs with
      | some [] => []
      | some before => prefixesFrom fuel before
      | none => []

/-- The names under which a host is matched, most specific first. -/
def candidates (host : String) : List String :=
  (prefixesFrom host.toList.length host.toList).map String.ofList

/-- The part of a host name before its first point. -/
def short (host : String) : String :=
  String.ofList (host.toList.takeWhile (· ≠ '.'))

/-- The small letters of a name. -/
def lowercase (s : String) : String :=
  String.ofList (lower s.toList)

/-- Equality of names up to the case of ASCII letters. -/
def sameIgnoringCase (s t : String) : Bool :=
  asciiEq s.toList t.toList

/-- Whether a name consists of white space only. -/
def isBlank (s : String) : Bool :=
  (trim s.toList).isEmpty

end SiteCatalog.Name
