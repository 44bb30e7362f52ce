import SiteCatalog.Files.System
import SiteCatalog.Settings.Reader

/-!
# Settings files
-/

namespace SiteCatalog.Settings

variable {m : Type → Type} [Monad m] [FileSystem m]

/-- Reads a settings file. Without a file the defaults hold. -/
def load (path : String) : ExceptT CompileError m Settings := do
  if ← (FileSystem.present path : m Bool) then
    let text ← FileSystem.attempt ("cannot read " ++ path) (FileSystem.readText path)
    parse text
  else return {}

end SiteCatalog.Settings
