import SiteCatalog.CatalogDocument
import SiteCatalog.TypeDocument.Yaml

/-!
# Catalog documents in YAML

Reading a catalog document from YAML. Only the name of the catalog, and of each resource the type
and the title, have to be given.
-/

namespace SiteCatalog

open Yaml.Tree (orDefault)

/-- The resource that a tree stands for. -/
def ResourceEntry.ofTree? (t : Yaml.Tree) : Option ResourceEntry := do
  match ← t.fields? ["type", "title", "parameters"] false with
  | [some type, some title, parameters] =>
    return ⟨← type.string?, ← title.string?, ← orDefault [] (·.table? Value.ofTree?) parameters⟩
  | _ => none

namespace CatalogDocument

/-- The catalog document that a tree stands for. -/
def ofTree? (t : Yaml.Tree) : Option CatalogDocument := do
  match ← t.fields? ["name", "version", "classes", "tags", "resources"] false with
  | [some name, version, classes, tags, resources] =>
    return {
      name := ← name.string?
      version := ← orDefault none (·.optional? (·.string?)) version
      classes := ← orDefault [] (·.list? (·.string?)) classes
      tags := ← orDefault [] (·.list? (·.string?)) tags
      resources := ← orDefault [] (·.list? ResourceEntry.ofTree?) resources }
  | _ => none

/-- The catalog document that a text writes. -/
def ofText? (text : String) : Option CatalogDocument := do
  ofTree? (← Yaml.tree? text)

end CatalogDocument

end SiteCatalog
