import SiteCatalog.Error
import SiteCatalog.Expr
import SiteCatalog.Name
import SiteCatalog.Pattern.Reader
import SiteCatalog.Table

/-!
# Descriptors

One class, node or defined type. A descriptor is known by its key: its normalized name, or the
source of its pattern between slashes. A class may be declared in several places; `merge` joins the
declarations, and everything but the body, the documentation and a missing parent stays as in the
first one.
-/

namespace SiteCatalog

/-- The place of a type in its registry. -/
abbrev TypeId := Nat

/-- Appending an entry to a list leaves the places of the others. -/
theorem getElem?_snoc {α : Type} (l : List α) (a : α) (i : Nat) :
    (l ++ [a])[i]? = if i = l.length then some a else l[i]? := by
  rw [List.getElem?_append]
  split
  · next h => rw [if_neg (Nat.ne_of_lt h)]
  · next h =>
    split
    · next h' => simp [h']
    · next h' =>
      rw [List.getElem?_eq_none (by simp; omega), List.getElem?_eq_none (by omega)]

/-- A body that is linked in: it notes that it ran, includes classes, and may fail. -/
structure LinkedBody where
  label : String
  includes : List String
  refusal : Option String

/-- What runs when a type is evaluated. -/
inductive Body
  | code (e : Expr)
  | linked (b : LinkedBody)
  /-- The bodies of a class that is declared in several places, in order. -/
  | sequence (parts : List Body)

/-- The bodies of a sequence, and any other body as the only one. -/
def Body.parts : Body → List Body
  | sequence parts => parts
  | b => [b]

/-- The attributes that resources of every type accept. -/
def metaparameters : List String :=
  ["alias", "audit", "before", "check", "loglevel", "noop", "notify", "require", "schedule",
    "stage", "subscribe", "tag"]

/-- The title of the resource of the unnamed class. -/
def mainTitle : String := "main"

/-- A class, node or defined type. -/
structure Descriptor where
  kind : Kind
  name : String
  /-- The name that relative names inside the type are looked up from. -/
  space : String
  /-- The pattern that a node is selected by, if it has no literal name. -/
  pattern : Option Pattern
  /-- The name of the parent as it will be looked up. -/
  parent : Option String
  /-- The declared parameters; one without an expression has to be passed. -/
  parameters : Table (Option Expr)
  body : Option Body
  moduleName : Option String
  doc : String
  file : Option String
  line : Option Nat
  /-- The parent, once it has been looked up. -/
  resolved : Option TypeId

namespace Descriptor

/-- A type with a literal name. Relative names inside a class are looked up from the class itself,
inside a node or a defined type from its qualifier. -/
def ofName (kind : Kind) (name : String) : Descriptor :=
  let name := Name.normalize name
  { kind, name
    space := if kind = .hostclass then name else Name.qualifier name
    pattern := none, parent := none, parameters := [], body := none, moduleName := none, doc := ""
    file := none, line := none, resolved := none }

/-- A node that a pattern selects. -/
def ofPattern (p : Pattern) : Descriptor :=
  { ofName .node "" with name := Name.patternLabel p.source, space := "", pattern := some p }

/-- A node that the pattern with a source selects. -/
def ofPatternSource (source : String) : Except CompileError Descriptor :=
  match Pattern.ofSource? source with
  | some p => .ok (ofPattern p)
  | none => .error (.invalidPattern source)

/-- The form in which the name of a parent is kept: small letters, but a pattern as it is. -/
def parentName (parent : String) : String :=
  if parent.toList.head? = some '/' then parent else Name.lowercase parent

/-- The type with a parent. -/
def withParent (d : Descriptor) (parent : String) : Descriptor :=
  { d with parent := some (parentName parent) }

/-- The type with a declared parameter. -/
def withParameter (d : Descriptor) (name : String) (default : Option Expr) : Descriptor :=
  { d with parameters := d.parameters.insert name default }

/-- The key under which a type is registered. -/
def key (d : Descriptor) : String :=
  match d.pattern with
  | some p => "/" ++ p.source ++ "/"
  | none => d.name

/-- The tag of the resources of a type. -/
def resourceTag (d : Descriptor) : String :=
  match d.kind with
  | .hostclass => "Class"
  | .node => "Node"
  | .define => Name.capitalize d.name

/-- The title of the one resource of a class or node. -/
def resourceTitle (d : Descriptor) : String :=
  if d.kind = .hostclass ∧ d.name = "" then mainTitle else d.name

/-- Whether a node's pattern or name fits a host name. A pattern decides by itself whether it looks
at case; a name does not. -/
def fits (d : Descriptor) (candidate : String) : Bool :=
  match d.pattern with
  | some p => p.isMatch candidate
  | none => Name.sameIgnoringCase d.name candidate

/-- Whether a resource of the type may carry a parameter. -/
def acceptsParameter (d : Descriptor) (param : String) : Bool :=
  param = "name" || param = "title" || d.parameters.has param || metaparameters.contains param

/-- The conflict between a class and a further declaration of it, if there is one. -/
def conflict? (d source : Descriptor) (freezeMain : Bool) : Option MergeConflict :=
  if d.kind ≠ .hostclass then some (.targetNotClass d.name)
  else if source.kind ≠ .hostclass then some (.sourceNotClass source.name)
  else if freezeMain ∧ d.name = "" then some .frozenMain
  else match d.parent, source.parent with
    | some mine, some theirs =>
      if Name.normalize mine = Name.normalize theirs then none
      else some (.differentParents mine theirs)
    | _, _ => none

/-- The body of two declarations after each other. -/
def joinBodies : Option Body → Option Body → Option Body
  | none, theirs => theirs
  | mine, none => mine
  | some mine, some theirs => some (.sequence (mine.parts ++ theirs.parts))

/-- A class joined with a further declaration of it. -/
def merge (d source : Descriptor) (freezeMain : Bool) : Except CompileError Descriptor :=
  match conflict? d source freezeMain with
  | some conflict =>
    .error (.mergeIncompatible (d.kind, d.name) (source.kind, source.name) conflict)
  | none => .ok
    { d with
      parent := d.parent.or source.parent
      doc := d.doc ++ source.doc
      body := joinBodies d.body source.body }

end Descriptor

end SiteCatalog
