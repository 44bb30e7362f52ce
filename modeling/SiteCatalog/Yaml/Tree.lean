import SiteCatalog.Yaml.Node

/-!
# Trees

A YAML document in which every alias has been replaced by what it stands for. An anchor gets as its
number the count of different names before it, and an alias stands for the last node with the number
that its name has there. Trees nest at most 128 deep, and there is a limit on the number of aliases
that are followed.
-/

namespace SiteCatalog.Yaml

/-- A document without aliases. -/
inductive Tree
  | scalar (tag : Option String) (text : String) (quoting : Quoting)
  | sequence (tag : Option String) (items : List Tree)
  | mapping (tag : Option String) (entries : List (Tree × Tree))
  deriving Inhabited

/-- The tree of an empty document. -/
def Tree.empty : Tree :=
  .scalar none "" .plain

namespace Node

/-! ## Numbering -/

/-- A node with numbers in place of names. -/
inductive Numbered
  | alias (index : Nat)
  | scalar (index : Option Nat) (tag : Option String) (text : String) (quoting : Quoting)
  | sequence (index : Option Nat) (tag : Option String) (items : List Numbered)
  | mapping (index : Option Nat) (tag : Option String) (entries : List (Numbered × Numbered))

/-- The names of anchors so far, each with its latest number. -/
abbrev Names := List (List Char × Nat)

/-- Gives an anchor its number. -/
def nameAnchor (names : Names) : Option (List Char) → Option Nat × Names
  | none => (none, names)
  | some name =>
    let index := names.length
    (some index,
      if (names.lookup name).isSome then
        names.map fun entry => if entry.1 = name then (name, index) else entry
      else names ++ [(name, index)])

/-- The tag of a node as text. -/
def Props.tagText (p : Props) : Option String :=
  p.tag.map String.ofList

mutual

/-- Numbers the anchors of a node and the aliases in it. -/
def number? (names : Names) : Node → Option (Numbered × Names)
  | .alias name => (names.lookup name).map fun n => (.alias n, names)
  | .scalar props text quoting =>
    let (index, names) := nameAnchor names props.anchor
    some (.scalar index (Props.tagText props) (String.ofList text) quoting, names)
  | .sequence props items => do
    let (index, names) := nameAnchor names props.anchor
    let (items, names) ← numberItems? names items
    return (.sequence index (Props.tagText props) items, names)
  | .mapping props entries => do
    let (index, names) := nameAnchor names props.anchor
    let (entries, names) ← numberEntries? names entries
    return (.mapping index (Props.tagText props) entries, names)

/-- Numbers the anchors of items. -/
def numberItems? (names : Names) : List Node → Option (List Numbered × Names)
  | [] => some ([], names)
  | item :: rest => do
    let (item, names) ← number? names item
    let (rest, names) ← numberItems? names rest
    return (item :: rest, names)

/-- Numbers the anchors of entries. -/
def numberEntries? (names : Names) :
    List (Node × Node) → Option (List (Numbered × Numbered) × Names)
  | [] => some ([], names)
  | (key, value) :: rest => do
    let (key, names) ← number? names key
    let (value, names) ← number? names value
    let (rest, names) ← numberEntries? names rest
    return ((key, value) :: rest, names)

end

namespace Numbered

/-- The number of a node. -/
def number? : Numbered → Option Nat
  | .alias _ => none
  | .scalar n _ _ _ => n
  | .sequence n _ _ => n
  | .mapping n _ _ => n

/-- A node with its number, if it has one. -/
def own (n : Numbered) : List (Nat × Numbered) :=
  (n.number?.map (·, n)).toList

mutual

/-- The numbered nodes, in the order in which they start. -/
def anchored : Numbered → List (Nat × Numbered)
  | .alias _ => []
  | .scalar n tag text quoting => own (.scalar n tag text quoting)
  | .sequence n tag items => own (.sequence n tag items) ++ anchoredItems items
  | .mapping n tag entries => own (.mapping n tag entries) ++ anchoredEntries entries

/-- The numbered nodes of items. -/
def anchoredItems : List Numbered → List (Nat × Numbered)
  | [] => []
  | item :: rest => anchored item ++ anchoredItems rest

/-- The numbered nodes of entries. -/
def anchoredEntries : List (Numbered × Numbered) → List (Nat × Numbered)
  | [] => []
  | (key, value) :: rest => anchored key ++ anchored value ++ anchoredEntries rest

end

mutual

/-- The number of steps in which a node is read: one for a scalar or alias, two for a collection. -/
def steps : Numbered → Nat
  | .alias _ => 1
  | .scalar _ _ _ _ => 1
  | .sequence _ _ items => stepsItems items + 2
  | .mapping _ _ entries => stepsEntries entries + 2

/-- The number of steps for items. -/
def stepsItems : List Numbered → Nat
  | [] => 0
  | item :: rest => steps item + stepsItems rest

/-- The number of steps for entries. -/
def stepsEntries : List (Numbered × Numbered) → Nat
  | [] => 0
  | (key, value) :: rest => steps key + steps value + stepsEntries rest

end

/-! ## Replacing aliases -/

/-- The last node with a number. -/
def target? (targets : List (Nat × Numbered)) (index : Nat) : Option Numbered :=
  targets.reverse.lookup index

/-- The node that an alias stands for, which costs one of the aliases that may be followed; any
other node stands for itself. -/
def follow (targets : List (Nat × Numbered)) : Numbered → StateT Nat Option Numbered
  | .alias index => do
    match ← get with
    | 0 => failure
    | n + 1 =>
      set n
      target? targets index
  | node => return node

/-- The tree of a node that may nest to a depth. -/
def toTree (targets : List (Nat × Numbered)) : Nat → Numbered → StateT Nat Option Tree
  | 0, node => do
    match ← follow targets node with
    | .scalar _ tag text quoting => return .scalar tag text quoting
    | _ => failure
  | depth + 1, node => do
    match ← follow targets node with
    | .scalar _ tag text quoting => return .scalar tag text quoting
    | .sequence _ tag items =>
      let items ← items.mapM (toTree targets depth)
      return .sequence tag items
    | .mapping _ tag entries =>
      let entries ← entries.mapM fun (key, value) => do
        let key ← toTree targets depth key
        let value ← toTree targets depth value
        return (key, value)
      return .mapping tag entries
    | .alias _ => failure

end Numbered

/-- How deep collections may nest. -/
def maxDepth : Nat := 128

/-- The tree of a document. -/
def tree? (node : Node) : Option Tree := do
  let (node, _) ← node.number? []
  let (tree, _) ← (node.toTree node.anchored maxDepth).run (100 * node.steps)
  return tree

end Node

/-- The tree of a text that holds one document, or none. -/
def tree? (text : String) : Option Tree := do
  match ← nodes? text with
  | [] => return .empty
  | [node] => node.tree?
  | _ => none

end SiteCatalog.Yaml
