import SiteCatalog.Descriptor
import SiteCatalog.Manifest.Basic

/-!
# Validation of manifests

Faults that a manifest shows by itself, before it is joined with others: empty names, malformed
patterns, inheritance that cannot work, and parameters whose names are taken. All of them are
reported, in the order of the declarations.
-/

namespace SiteCatalog

/-- Who contains a statement. -/
inductive Owner
  | declaration (kind : Kind) (name : String)
  | main

/-- A fault of a manifest. -/
inductive Invalidity
  | emptyName (kind : Kind)
  | badPattern (source : String)
  | inheritingDefine (name parent : String)
  | selfInheritance (kind : Kind) (name : String)
  | takenParameter (kind : Kind) (name param : String)
  | emptyResourceType (owner : Owner)
  | emptyClassName (owner : Owner)
  | emptyInclude (owner : Owner)

/-- How messages name the owner of a statement. -/
def Owner.text : Owner → String
  | declaration kind name => CompileError.named kind name
  | main => "main"

/-- The message of a fault. -/
def Invalidity.message : Invalidity → String
  | emptyName kind => kind.text ++ " with an empty name"
  | badPattern source =>
    "node /" ++ source ++ "/ has an invalid pattern: malformed regular expression"
  | inheritingDefine name parent =>
    "define '" ++ name ++ "' cannot inherit from '" ++ parent ++ "'"
  | selfInheritance kind name => CompileError.named kind name ++ " inherits from itself"
  | takenParameter kind name param =>
    CompileError.named kind name ++ " cannot declare '" ++ param
      ++ "' as a parameter; it is a metaparameter"
  | emptyResourceType owner => owner.text ++ " declares a resource with an empty type"
  | emptyClassName owner => owner.text ++ " declares a class with an empty name"
  | emptyInclude owner => owner.text ++ " includes a class with an empty name"

/-- The fault of a statement, if it has one. -/
def Statement.invalidities (owner : Owner) : Statement → List Invalidity
  | .set _ => []
  | .includes names => if names.any Name.isBlank then [.emptyInclude owner] else []
  | .hostclass name _ => if Name.isBlank name then [.emptyClassName owner] else []
  | .resource type _ _ => if Name.isBlank type then [.emptyResourceType owner] else []

namespace Declaration

/-- The fault of the pattern that a node is named by. -/
def patternInvalidities (kind : Kind) (name : String) : List Invalidity :=
  match kind, Manifest.patternSource? name with
  | .node, some source => if (Pattern.ofSource? source).isSome then [] else [.badPattern source]
  | _, _ => []

/-- The fault of a declared parent. A parent is the entry itself if it has the same name up to the
case of ASCII letters. -/
def parentInvalidities (kind : Kind) (name : String) : Option String → List Invalidity
  | none => []
  | some parent =>
    if kind = .define then [.inheritingDefine name parent]
    else if Name.sameIgnoringCase parent name then [.selfInheritance kind name]
    else []

/-- The faults of the names of declared parameters. -/
def parameterInvalidities (kind : Kind) (name : String) (params : Table Yaml) : List Invalidity :=
  (params.keys.filter fun param => metaparameters.contains param || param = "title").map
    (.takenParameter kind name)

/-- The faults of a declaration. One without a name is not looked at further. -/
def invalidities (kind : Kind) (name : String) (d : Declaration) : List Invalidity :=
  if Name.isBlank name then [.emptyName kind]
  else patternInvalidities kind name ++ parentInvalidities kind name d.inherits
    ++ parameterInvalidities kind name d.params
    ++ d.body.flatMap (Statement.invalidities (.declaration kind name))

end Declaration

/-- The faults of a manifest. -/
def Manifest.invalidities (m : Manifest) : List Invalidity :=
  m.classes.flatMap (fun (name, d) => d.invalidities .hostclass name)
    ++ m.defines.flatMap (fun (name, d) => d.invalidities .define name)
    ++ m.nodes.flatMap (fun (name, d) => d.invalidities .node name)
    ++ m.main.flatMap (Statement.invalidities .main)

end SiteCatalog
