import SiteCatalog.Files.Fault
import SiteCatalog.Kind

/-!
# Errors

Why a site is refused or a catalog cannot be compiled. Each cause carries what its message names;
the wording is in `CompileError.message` alone.
-/

namespace SiteCatalog

/-- Operations that make no sense for the construct they are asked of. -/
inductive Misuse
  /-- A defined type has no single instance. -/
  | singletonDefine (name : String)
  /-- A defined type has no parent. -/
  | inheritingDefine (name : String)
  /-- Nodes are selected by host name and never declared. -/
  | declaredNode (title : String)
  /-- A linked body fails with a text of its own. -/
  | refused (text : String)
  deriving DecidableEq, Repr

/-- The text of a misuse. -/
def Misuse.text : Misuse → String
  | singletonDefine name =>
    "cannot realize define '" ++ name ++ "' as a singleton; declare an instance instead"
  | inheritingDefine name => "define '" ++ name ++ "' cannot inherit"
  | declaredNode title => "node '" ++ title ++ "' cannot be declared as a resource"
  | refused text => text

/-- Why two declarations are not declarations of one class. -/
inductive MergeConflict
  | targetNotClass (name : String)
  | sourceNotClass (name : String)
  | frozenMain
  | differentParents (mine theirs : String)
  | onlyClasses
  deriving DecidableEq, Repr

/-- The text of a merge conflict. -/
def MergeConflict.text : MergeConflict → String
  | targetNotClass name => "'" ++ name ++ "' is not a class; cannot add code to it"
  | sourceNotClass name => "'" ++ name ++ "' is not a class; cannot add code from it"
  | frozenMain => "top-level code cannot be reopened while freeze_main is enabled"
  | differentParents mine theirs =>
    "different parent classes ('" ++ mine ++ "' vs '" ++ theirs ++ "')"
  | onlyClasses => "only classes can be reopened"

/-- What is wrong with a manifest, a directory of them or a catalog file. -/
inductive ManifestFault
  | malformed
  | malformedFile (path : String)
  | hashValue
  | noDirectory (path : String)
  | badGlob (glob : String)
  | unreadable (path : String) (fault : FileFault)
  | malformedCatalog (path : String)
  deriving DecidableEq, Repr

/-- The text of a manifest fault. -/
def ManifestFault.text : ManifestFault → String
  | malformed => "YAML parse error: not a manifest"
  | malformedFile path => path ++ ": not a manifest"
  | hashValue => "hash values are not supported in manifests"
  | noDirectory path => "manifest directory " ++ path ++ " does not exist"
  | badGlob glob => "bad glob " ++ glob ++ ": malformed pattern"
  | unreadable path fault =>
    "attempting to read `" ++ path ++ "` resulted in an error: " ++ fault.text
  | malformedCatalog path => "invalid catalog " ++ path ++ ": not a catalog"

/-- The cause of a failure. -/
inductive CompileError
  /-- A declared parent does not exist. -/
  | unresolvableParent (kind : Kind) (name parent : String)
  /-- A parent is looked up relative to a scope, and there is none. -/
  | noScope (kind : Kind) (name : String)
  /-- A construct is its own ancestor; the chain leads from it to the repeated name. -/
  | parentCycle (kind : Kind) (chain : List String)
  | duplicateResource (reference : String)
  | invalidOperation (misuse : Misuse)
  | mergeIncompatible (target source : Kind × String) (conflict : MergeConflict)
  | unknownParameter (param : String) (kind : Kind) (name reference : String)
  | missingParameter (param : String) (kind : Kind) (name reference : String)
  | duplicateType (kind : Kind) (name : String)
  | unknownClass (name : String)
  | unknownVariable (name : String)
  | variableReassignment (name : String)
  | noMatchingNode (name : String)
  | invalidPattern (source : String)
  | manifest (fault : ManifestFault)
  | settings
  | file (context : String) (fault : FileFault)
  deriving DecidableEq, Repr

namespace CompileError

/-- A kind and a name as messages show them. -/
def named (kind : Kind) (name : String) : String :=
  kind.text ++ " '" ++ name ++ "'"

/-- The message of an error. -/
def message : CompileError → String
  | unresolvableParent kind name parent =>
    "could not find parent " ++ named kind parent ++ " of " ++ named kind name
  | noScope kind name => "cannot resolve the parent of " ++ named kind name ++ " without a scope"
  | parentCycle kind chain =>
    "inheritance cycle among " ++ kind.text ++ "s: " ++ " -> ".intercalate chain
  | duplicateResource reference =>
    "duplicate declaration: " ++ reference ++ " is already in the catalog"
  | invalidOperation misuse => "invalid operation: " ++ misuse.text
  | mergeIncompatible target source conflict =>
    "cannot merge " ++ named source.1 source.2 ++ " into " ++ named target.1 target.2 ++ ": "
      ++ conflict.text
  | unknownParameter param kind name reference =>
    reference ++ " does not accept parameter '" ++ param ++ "' (" ++ named kind name
      ++ " does not declare it)"
  | missingParameter param kind name reference =>
    "must pass parameter '" ++ param ++ "' to " ++ reference ++ " (" ++ named kind name
      ++ " has no default)"
  | duplicateType kind name => named kind name ++ " is already defined"
  | unknownClass name => "could not find class '" ++ name ++ "'"
  | unknownVariable name => "unknown variable '$" ++ name ++ "'"
  | variableReassignment name => "cannot reassign variable '$" ++ name ++ "'"
  | noMatchingNode name =>
    "could not find a node definition matching '" ++ name ++ "' and no default node exists"
  | invalidPattern source =>
    "invalid node pattern '" ++ source ++ "': malformed regular expression"
  | manifest fault => "manifest error: " ++ fault.text
  | settings => "settings error: malformed settings"
  | file context fault => context ++ ": " ++ fault.text

end CompileError

end SiteCatalog
