import SiteCatalog.Catalog
import SiteCatalog.Host
import SiteCatalog.Registry

/-!
# The state of a compilation

What a compilation reads and changes.
-/

namespace SiteCatalog.Compilation

/-- The state of a compilation. -/
structure State where
  types : Registry
  scopes : Scopes
  catalog : Catalog
  /-- What the linked bodies noted when they ran. -/
  log : List String

/-- The state before anything is bound or evaluated. -/
def State.initial (types : Registry) (host : Host) : State :=
  ⟨types, .initial, .empty host.name, []⟩

/-- Why a run ends without a result. -/
inductive Failure
  /-- The site is at fault. -/
  | error (e : CompileError)
  /-- A type, scope or resource is named that does not exist. -/
  | dangling
  /-- A bound on the evaluation was reached. -/
  | exhausted
  /-- The scopes above a scope are followed around a ring, so that the run never ends. -/
  | endless

end SiteCatalog.Compilation
