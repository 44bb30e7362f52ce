import SiteCatalog.Files.System
import SiteCatalog.Manifest.Values
import SiteCatalog.Yaml.Typed

/-!
# Facts files

What is known about a host, as a YAML mapping from names to values.
-/

namespace SiteCatalog.Facts

/-- The facts that a text writes. -/
def ofText? (text : String) : Option (Table Value) := do
  let facts ← (← Yaml.tree? text).table? (·.value?)
  return facts.map fun (name, y) => (name, y.toValue)

end SiteCatalog.Facts
