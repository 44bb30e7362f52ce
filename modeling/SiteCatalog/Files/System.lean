import SiteCatalog.Error
import SiteCatalog.Files.Path

/-!
# Working with files

What programs ask of a system of files, and what is built from that: reporting a failure with what
was attempted, and making a directory together with those above it.
-/

namespace SiteCatalog

/-- Programs in `m` work on files. -/
class FileSystem (m : Type → Type) where
  /-- Whether anything stands at a path. -/
  present : String → m Bool
  isDirectory : String → m Bool
  /-- The names in a directory. -/
  entries : String → m (Except FileFault (List String))
  readText : String → m (Except FileFault String)
  /-- Writes a file, over what is there. -/
  writeText : String → String → m (Except FileFault Unit)
  /-- Makes one directory, which must not exist. -/
  makeDirectory : String → m (Except FileFault Unit)
  /-- Moves a file, over another one if need be. -/
  rename : String → String → m (Except FileFault Unit)

namespace FileSystem

variable {m : Type → Type} [Monad m] [FileSystem m]

/-- An operation whose failure is reported with what was attempted. -/
def attempt {α : Type} (context : String) (operation : m (Except FileFault α)) :
    ExceptT CompileError m α :=
  ExceptT.mk do
    match ← operation with
    | .ok a => return .ok a
    | .error fault => return .error (.file context fault)

/-- Makes a directory unless it is there. -/
def ensureDirectory (path : String) : m (Except FileFault Unit) := do
  match ← makeDirectory path with
  | .ok () => return .ok ()
  | .error fault => if ← isDirectory path then return .ok () else return .error fault

/-- Makes the first of several directories, each of which lies in the next one: the next one only if
the first cannot be made without it. -/
def makeChain : List String → m (Except FileFault Unit)
  | [] => return .ok ()
  | path :: above => do
    match ← ensureDirectory path with
    | .error .notFound =>
      match ← makeChain above with
      | .ok () => ensureDirectory path
      | .error fault => return .error fault
    | result => return result

/-- Makes a directory and the directories above it, as far as they are not there. -/
def makeDirectories (path : String) : m (Except FileFault Unit) :=
  makeChain (Path.ancestry path)

end FileSystem

end SiteCatalog
