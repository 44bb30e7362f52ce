import SiteCatalog.CatalogDocument.Yaml
import SiteCatalog.Files.System
import SiteCatalog.Yaml.Printer

/-!
# Catalog files

Every node has a catalog file in a directory of its own below an output directory. A catalog is
first written beside the file that it replaces, so that a reader never finds half of one.
-/

namespace SiteCatalog.CatalogDocument

/-- The catalog file of a node. -/
def filePath (out node : String) : String :=
  Path.join (Path.join out node) "catalog.yaml"

/-- The file in which a catalog is written before it takes its place. -/
def draftPath (path : String) : String :=
  path ++ ".tmp"

/-- The written form of a document. -/
def render (doc : CatalogDocument) : String :=
  Yaml.render doc.toData

variable {m : Type → Type} [Monad m] [FileSystem m]

/-- Reads the catalog file of a node, if there is one. -/
def load (out node : String) : ExceptT CompileError m (Option CatalogDocument) := do
  let path := filePath out node
  if ← (FileSystem.present path : m Bool) then
    let text ← FileSystem.attempt ("cannot read " ++ path) (FileSystem.readText path)
    match ofText? text with
    | some doc => return some doc
    | none => throw (.manifest (.malformedCatalog path))
  else return none

/-- Writes the catalog file of a document and gives its path. -/
def save (out : String) (doc : CatalogDocument) : ExceptT CompileError m String := do
  let path := filePath out doc.name
  let directory := (Path.parent? path).getD ""
  let draft := draftPath path
  FileSystem.attempt ("cannot create dir " ++ directory) (FileSystem.makeDirectories directory)
  FileSystem.attempt ("cannot write " ++ draft) (FileSystem.writeText draft doc.render)
  FileSystem.attempt ("cannot rename " ++ draft ++ " → " ++ path) (FileSystem.rename draft path)
  return path

end SiteCatalog.CatalogDocument
