import SiteCatalog.Yaml.Basic
import SiteCatalog.Yaml.Scalar
import SiteCatalog.Yaml.Tree

/-!
# Values of trees

What a tree means when nothing is known about what it should be. Plain scalars are resolved, quoted
ones are strings, and the standard tags for truth values, numbers and null are checked. A tag of
the document's own, which starts with an exclamation mark, makes a tagged value. No key may occur
twice in a mapping.
-/

namespace SiteCatalog.Yaml

/-- The name of a tag of the document's own. -/
def localTag? (tag : Option String) : Option String :=
  match tag.map String.toList with
  | some ('!' :: name) => some (String.ofList name)
  | _ => none

/-- The name of a standard tag. -/
def standardTag (name : String) : String :=
  "tag:yaml.org,2002:" ++ name

/-- The value of a plain scalar. -/
def Scalar.toYaml? (s : String) : Scalar → Option Yaml
  | .null => some .null
  | .bool b => some (.bool b)
  | .number n => some (.number n)
  | .wide => none
  | .text => some (.string s)

/-- The value of a scalar without a tag of the document's own. -/
def scalarValue? (tag : Option String) (s : String) (quoting : Quoting) : Option Yaml :=
  match tag with
  | none => if quoting = .plain then (Scalar.resolve s).toYaml? s else some (.string s)
  | some tag =>
    if tag = standardTag "bool" then (boolWord? s).map .bool
    else if tag = standardTag "int" then
      (integer? s.toList).bind fun i => (Number.ofInt? i).map .number
    else if tag = standardTag "float" then (float? s.toList).map fun x => .number (.float x)
    else if tag = standardTag "null" then if isNullWord s then some .null else none
    else some (.string s)

mutual

/-- Whether two values are the same key. The order of the entries of a mapping does not count. -/
def same : Yaml → Yaml → Bool
  | .null, .null => true
  | .bool a, .bool b => a = b
  | .number a, .number b => a.sameKey b
  | .string a, .string b => a = b
  | .sequence as, .sequence bs => sameItems as bs
  | .mapping as, .mapping bs => as.length = bs.length && sameEntries as bs
  | .tagged t a, .tagged u b => t = u && same a b
  | _, _ => false

/-- Whether two lists of values are the same. -/
def sameItems : List Yaml → List Yaml → Bool
  | [], [] => true
  | a :: as, b :: bs => same a b && sameItems as bs
  | _, _ => false

/-- Whether every entry has an equal among other entries. -/
def sameEntries : List (Yaml × Yaml) → List (Yaml × Yaml) → Bool
  | [], _ => true
  | (k, v) :: rest, bs =>
    bs.any (fun entry => same k entry.1 && same v entry.2) && sameEntries rest bs

end

/-- Whether no key occurs twice. -/
def distinctKeys : List (Yaml × Yaml) → Bool
  | [] => true
  | (k, _) :: rest => !rest.any (fun entry => same k entry.1) && distinctKeys rest

mutual

/-- Whether no key occurs twice in any mapping inside a value. -/
def hasDistinctKeys : Yaml → Bool
  | .sequence items => allDistinct items
  | .mapping entries => distinctKeys entries && entriesDistinct entries
  | .tagged _ value => hasDistinctKeys value
  | _ => true

/-- Whether no key occurs twice in any of some values. -/
def allDistinct : List Yaml → Bool
  | [] => true
  | item :: rest => hasDistinctKeys item && allDistinct rest

/-- Whether no key occurs twice in any key or value. -/
def entriesDistinct : List (Yaml × Yaml) → Bool
  | [] => true
  | (key, value) :: rest => hasDistinctKeys key && hasDistinctKeys value && entriesDistinct rest

end

/-- The value, if no key occurs twice in any mapping in it. -/
def checked? (value : Yaml) : Option Yaml :=
  if hasDistinctKeys value then some value else none

namespace Tree

/-- The tag of a tree. -/
def tag : Tree → Option String
  | .scalar tag _ _ => tag
  | .sequence tag _ => tag
  | .mapping tag _ => tag

/-- The tree without its tag. -/
def untagged : Tree → Tree
  | .scalar _ text quoting => .scalar none text quoting
  | .sequence _ items => .sequence none items
  | .mapping _ entries => .mapping none entries

/-- A value under a tag of the document's own, if there is one; `tags` says whether there may be. -/
def underTag? (tags : Bool) (tag : Option String) (value : Option Yaml) : Option Yaml :=
  match localTag? tag with
  | none => value
  | some name => if tags && name ≠ "" then value.map (.tagged name) else none

mutual

/-- The value of a tree, in which keys may occur twice; `tags` says whether it may have tags of its
own. -/
def content? (tags : Bool) : Tree → Option Yaml
  | .scalar tag text quoting =>
    underTag? tags tag
      (scalarValue? (if (localTag? tag).isSome then none else tag) text quoting)
  | .sequence tag items => underTag? tags tag ((contents? tags items).map .sequence)
  | .mapping tag entries => underTag? tags tag ((contentEntries? tags entries).map .mapping)

/-- The values of items. -/
def contents? (tags : Bool) : List Tree → Option (List Yaml)
  | [] => some []
  | item :: rest => do
    let item ← content? tags item
    let rest ← contents? tags rest
    return item :: rest

/-- The values of entries. -/
def contentEntries? (tags : Bool) : List (Tree × Tree) → Option (List (Yaml × Yaml))
  | [] => some []
  | (key, value) :: rest => do
    let key ← content? tags key
    let value ← content? tags value
    let rest ← contentEntries? tags rest
    return (key, value) :: rest

end

/-- The value of a tree. -/
def value? (t : Tree) : Option Yaml := do
  checked? (← t.content? true)

end Tree

end SiteCatalog.Yaml

namespace SiteCatalog

/-- The value that a text writes. -/
def Yaml.parse? (text : String) : Option Yaml := do
  (← Yaml.tree? text).value?

end SiteCatalog
