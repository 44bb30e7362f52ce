/-!
# Settings

How a site is compiled. The defaults hold for whatever a settings file leaves out.
-/

namespace SiteCatalog

/-- The settings of a site. -/
structure Settings where
  /-- The name of the environment. -/
  environment : String := "production"
  /-- The top-level code may not be reopened. -/
  freezeMain : Bool := false
  /-- A reference to an undefined variable is an error. -/
  strictVariables : Bool := false
  /-- The directory of the manifests. -/
  manifestDir : String := "manifests"
  deriving DecidableEq, Repr

end SiteCatalog
