import SiteCatalog.Table
import SiteCatalog.Yaml.Resolution

/-!
# Typed readings of trees

What a tree means when it is known what it should be. Where a text is wanted every scalar gives its
own, whatever it would resolve to. Where a collection is wanted nothing at all counts as an empty
one.
-/

namespace SiteCatalog.Yaml.Tree

/-- The text of a scalar. -/
def string? : Tree → Option String
  | .scalar _ text _ => some text
  | _ => none

/-- Whether a tree is a plain scalar without text. -/
def isMissing : Tree → Bool
  | .scalar _ text quoting => text = "" && quoting = .plain
  | _ => false

/-- Whether a tree stands for no value: a plain scalar that is empty or a word for null. A scalar
that is tagged as null has to be such a word. -/
def isNone? : Tree → Option Bool
  | .scalar tag text quoting =>
    if quoting ≠ .plain then some false
    else match tag with
      | none => some (text = "" || isNullWord text)
      | some tag =>
        if tag = standardTag "null" then (if isNullWord text then some true else none)
        else some false
  | _ => some false

/-- A value that may be absent. -/
def optional? {α : Type} (read : Tree → Option α) (t : Tree) : Option (Option α) :=
  match t.isNone? with
  | some true => some none
  | some false => (read t).map some
  | none => none

/-- The items of a sequence. -/
def items? : Tree → Option (List Tree)
  | .sequence _ items => some items
  | t => if t.isMissing then some [] else none

/-- The entries of a mapping. -/
def entries? : Tree → Option (List (Tree × Tree))
  | .mapping _ entries => some entries
  | t => if t.isMissing then some [] else none

/-- A list of values. -/
def list? {α : Type} (read : Tree → Option α) (t : Tree) : Option (List α) := do
  (← t.items?).mapM read

/-- Named values. A repeated name keeps its first place and its last value. -/
def table? {α : Type} (read : Tree → Option α) (t : Tree) : Option (Table α) := do
  let entries ← (← t.entries?).mapM fun (key, value) => do
    let name ← key.string?
    let v ← read value
    return (name, v)
  return Table.ofList entries

/-- The one entry with a name: `some none` if there is none, and nothing if there are several. -/
def field? {α : Type} (name : String) : List (String × α) → Option (Option α)
  | [] => some none
  | (k, v) :: rest =>
    if k = name then
      match field? name rest with
      | some none => some (some v)
      | _ => none
    else field? name rest

/-- The fields with the given names among entries; `closed` refuses others. -/
def fieldsOf? {α : Type} (names : List String) (closed : Bool) (entries : List (String × α)) :
    Option (List (Option α)) :=
  if closed && entries.any fun entry => !names.contains entry.1 then none
  else names.mapM fun name => field? name entries

/-- The fields of a record. -/
def fields? (names : List String) (closed : Bool) (t : Tree) : Option (List (Option Tree)) := do
  let entries ← (← t.entries?).mapM fun (key, value) => do
    let name ← key.string?
    return (name, value)
  fieldsOf? names closed entries

/-- The value of a field, or a default for a field that is missing. -/
def orDefault {α β : Type} (default : α) (read : β → Option α) : Option β → Option α
  | some t => read t
  | none => some default

/-- A natural number, in one of the forms of integers. -/
def natural? : Tree → Option Nat
  | .scalar tag text quoting =>
    if quoting = .plain || (quoting = .literal && tag = some (standardTag "int")) then
      match positive? text.toList with
      | some n => if n < UInt64.size then some n else none
      | none => none
    else none
  | _ => none

/-- The name of a choice and what is chosen: a tag of the document's own and the tree under it. -/
def choice? (t : Tree) : Option (String × Tree) :=
  (localTag? t.tag).map (·, t.untagged)

mutual

/-- How deep collections nest in a tree, counting the tree itself. -/
def depth : Tree → Nat
  | .scalar _ _ _ => 1
  | .sequence _ items => depthItems items + 1
  | .mapping _ entries => depthEntries entries + 1

/-- The depth of the deepest item. -/
def depthItems : List Tree → Nat
  | [] => 0
  | item :: rest => max (depth item) (depthItems rest)

/-- The depth of the deepest key or value. -/
def depthEntries : List (Tree × Tree) → Nat
  | [] => 0
  | (key, value) :: rest => max (max (depth key) (depth value)) (depthEntries rest)

end

end SiteCatalog.Yaml.Tree
