import SiteCatalog.Files.Glob
import SiteCatalog.Manifest.Reader

/-!
# Manifest files

The manifests of a site are the YAML files below a directory, in the order of their paths. What lies
in a directory below one called `modules` belongs to the module that the directory is named for.
-/

namespace SiteCatalog.Manifest

/-- The name after the last `modules`, as long as another name follows it. -/
def moduleAmong? : List String → Option String
  | a :: b :: c :: rest =>
    (moduleAmong? (b :: c :: rest)).or (if a = "modules" then some b else none)
  | _ => none

/-- The module that a file belongs to by its path. -/
def moduleOfPath? (path : String) : Option String :=
  moduleAmong? (Path.names path)

/-- The manifest that a file with a given text holds. The module that the text names comes before
the one of the path. -/
def ofFile (path text : String) : Except CompileError Manifest :=
  match ofText? text with
  | some m => .ok { m with moduleName := m.moduleName.or (moduleOfPath? path), file := some path }
  | none => .error (.manifest (.malformedFile path))

/-- The globs of the manifests below a directory. -/
def globs (directory : String) : List String :=
  ["*.yaml", "*.yml"].map fun name => Path.join (Path.join directory "**") name

variable {m : Type → Type} [Monad m] [FileSystem m]

/-- Reads a manifest file. -/
def load (path : String) : ExceptT CompileError m Manifest := do
  let text ← FileSystem.attempt ("failed to read " ++ path) (FileSystem.readText path)
  ofFile path text

/-- Reads all manifest files below a directory, which has to exist. -/
def loadAll (directory : String) : ExceptT CompileError m (List Manifest) := do
  if ← (FileSystem.isDirectory directory : m Bool) then
    let paths := (← (globs directory).mapM Glob.find).flatten
    (paths.mergeSort Path.le).mapM load
  else throw (.manifest (.noDirectory directory))

end SiteCatalog.Manifest
