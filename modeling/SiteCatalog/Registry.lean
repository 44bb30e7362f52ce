import SiteCatalog.Descriptor

/-!
# The registry of types

Every class, node and defined type of a site. A type is named by its place, which never changes, and
found by its kind and key.
-/

namespace SiteCatalog

/-- The types of a site, in the order in which they were added. -/
structure Registry where
  environment : String
  types : List Descriptor

namespace Registry

/-- A registry without types. -/
def empty (environment : String) : Registry :=
  ⟨environment, []⟩

/-- The key that a name stands for: a pattern between slashes is kept as it is. -/
def lookupKey (name : String) : String :=
  if name.toList.head? = some '/' then name else Name.normalize name

/-- The type with a kind and a key. -/
def ofKey? (r : Registry) (kind : Kind) (key : String) : Option TypeId :=
  r.types.findIdx? fun d => d.kind = kind && d.key = key

/-- The type with a kind and a name, whatever the case and leading separators of the name. -/
def lookup (r : Registry) (kind : Kind) (name : String) : Option TypeId :=
  r.ofKey? kind (lookupKey name)

/-- The type at a place. -/
def get? (r : Registry) (id : TypeId) : Option Descriptor :=
  r.types[id]?

/-- Changes the type at a place. -/
def modify (r : Registry) (id : TypeId) (f : Descriptor → Descriptor) : Registry :=
  { r with types := r.types.modify id f }

theorem get?_modify (r : Registry) (id t : TypeId) (f : Descriptor → Descriptor) :
    (r.modify id f).get? t = if t = id then (r.get? t).map f else r.get? t := by
  simp only [get?, modify, List.getElem?_modify, eq_comm (a := t)]
  split <;> simp

@[simp] theorem length_modify (r : Registry) (id : TypeId) (f : Descriptor → Descriptor) :
    (r.modify id f).types.length = r.types.length := by
  simp [modify]

theorem lt_length_of_get? {r : Registry} {t : Nat} {d : Descriptor} (h : r.get? t = some d) :
    t < r.types.length :=
  (List.getElem?_eq_some_iff.mp h).1

/-- Adds a type whose kind and key are new. -/
def add (r : Registry) (d : Descriptor) : Except CompileError (TypeId × Registry) :=
  match r.ofKey? d.kind d.key with
  | some _ => .error (.duplicateType d.kind d.key)
  | none => .ok (r.types.length, { r with types := r.types ++ [d] })

/-- Joins a declaration of a class with the class of its name, or adds it. -/
def mergeClass (r : Registry) (d : Descriptor) (freezeMain : Bool) :
    Except CompileError (TypeId × Registry) :=
  match r.lookup .hostclass d.name with
  | some id =>
    match r.get? id with
    | some target => do
      let merged ← target.merge d freezeMain
      return (id, r.modify id fun _ => merged)
    | none => r.add d
  | none =>
    if d.kind = .hostclass then r.add d
    else .error (.mergeIncompatible (.hostclass, d.name) (d.kind, d.name) .onlyClasses)

/-- A namespace and the namespaces around it, from the inside out, without the empty one; `fuel`
bounds their number. -/
def enclosing : Nat → String → List String
  | 0, _ => []
  | fuel + 1, space =>
    if space = "" then [] else space :: enclosing fuel (Name.qualifier space)

/-- The type that a name means inside a namespace: the one of the innermost namespace that has it,
or the one at the top. A name with a leading separator is looked up at the top only. -/
def find (r : Registry) (kind : Kind) (space name : String) : Option TypeId :=
  if Name.startsWithSeparator name.toList then r.lookup kind name
  else
    let space := Name.normalize space
    match (enclosing (space.toList.length + 1) space).findSome?
        fun outer => r.lookup kind (outer ++ "::" ++ name) with
    | some id => some id
    | none => r.lookup kind name

/-- The types of a kind, in order. -/
def idsOf (r : Registry) (kind : Kind) : List TypeId :=
  (List.range r.types.length).filter fun id => (r.get? id).any (·.kind = kind)

/-- Whether a type is a node whose pattern fits one of several names. -/
def patternFits (r : Registry) (names : List String) (id : TypeId) : Bool :=
  (r.get? id).any fun d => d.kind = .node && d.pattern.isSome && names.any d.fits

/-- The node for a host with some candidate names, most specific first: a literal name wins over a
pattern, patterns are tried in order, and the node named `default` is the last resort. -/
def nodeFor (r : Registry) (names : List String) : Option TypeId :=
  match names.findSome? (r.lookup .node) with
  | some id => some id
  | none =>
    match (r.idsOf .node).find? (r.patternFits names) with
    | some id => some id
    | none => r.lookup .node "default"

/-- Whether a type is reached from an ancestor's child by known parents, of which at most `fuel` are
followed. -/
def reaches (r : Registry) (ancestor : TypeId) : Nat → Option TypeId → Bool
  | 0, _ => false
  | _ + 1, none => false
  | fuel + 1, some id =>
    id = ancestor || reaches r ancestor fuel ((r.get? id).bind (·.resolved))

/-- Whether a type is an ancestor of another as far as parents are known. -/
def isChildOf (r : Registry) (child ancestor : TypeId) : Bool :=
  r.reaches ancestor (r.types.length + 1) ((r.get? child).bind (·.resolved))

end Registry

end SiteCatalog
