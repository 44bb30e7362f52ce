import SiteCatalog.Table
import SiteCatalog.Yaml.Basic

/-!
# Manifests

What one file of a site declares: classes, defined types, nodes, and statements of the top level.
Values are kept as they are written; they become expressions when the site is collected.
-/

namespace SiteCatalog

/-- A statement of a body. -/
inductive Statement
  /-- Assigns variables in order. -/
  | set (vars : Table Yaml)
  | includes (names : List String)
  | hostclass (name : String) (params : Table Yaml)
  | resource (type : String) (title : Yaml) (params : Table Yaml)

/-- The declaration of a class, a defined type or a node. -/
structure Declaration where
  inherits : Option String := none
  doc : String := ""
  /-- The parameters with their defaults; a null default marks a parameter that has to be passed. -/
  params : Table Yaml := []
  body : List Statement := []

/-- What one file declares. -/
structure Manifest where
  moduleName : Option String := none
  classes : Table Declaration := []
  defines : Table Declaration := []
  nodes : Table Declaration := []
  /-- The statements of the top level. -/
  main : List Statement := []
  file : Option String := none

/-- The source of the pattern that the key of a node writes between slashes. -/
def Manifest.patternSource? (key : String) : Option String :=
  match key.toList with
  | '/' :: rest =>
    if rest.getLast? = some '/' then some (String.ofList rest.dropLast) else none
  | _ => none

end SiteCatalog
