import SiteCatalog.Name
import SiteCatalog.Table
import SiteCatalog.Value

/-!
# Hosts

The host that a catalog is compiled for: its name, what is known about it, and the classes that are
assigned to it from outside the site.
-/

namespace SiteCatalog

/-- A host. -/
structure Host where
  /-- The name as it was given. -/
  given : String
  facts : Table Value := []
  classes : List String := []

namespace Host

/-- The name in small letters. -/
def name (h : Host) : String :=
  Name.lowercase h.given

/-- The names under which the host is matched, most specific first and in the case they were given.
-/
def candidates (h : Host) : List String :=
  Name.candidates h.given

/-- Facts that every host has: its name in full and up to the first point. -/
def builtinFacts (h : Host) : Table Value :=
  [("clientcert", .str h.name), ("fqdn", .str h.name), ("hostname", .str (Name.short h.name))]

/-- The facts of the host, those given first; a given fact hides a built-in one. -/
def allFacts (h : Host) : Table Value :=
  h.facts ++ h.builtinFacts.filter fun fact => !h.facts.has fact.1

end Host

end SiteCatalog
