import SiteCatalog.Compilation.Ancestry

/-!
# Realization

Entering classes and nodes into the catalog. A class or node has one resource, and its parents are
entered before it, farthest first.
-/

namespace SiteCatalog.Compilation

/-- The resource of a class or node, if it has been entered. A resource of another type in its place
is a duplicate. -/
def realized? (type : TypeId) : Run (Option ResourceId) := do
  let d ← typeAt type
  if d.kind = .define then fail (.invalidOperation (.singletonDefine d.name))
  else
    match (← get).catalog.resource? d.resourceTag d.resourceTitle with
    | none => return none
    | some id =>
      let r ← resourceAt id
      if r.source = some type then return some id else fail (.duplicateResource r.reference)

/-- Enters a class or node whose parents have been entered, and tags the catalog with its title and
their names. -/
def addSingleton (scope : ScopeId) (type : TypeId) (ancestors : List TypeId)
    (params : Table Value) : Run ResourceId := do
  let d ← typeAt type
  let id ← addResource (.ofType d.resourceTag d.resourceTitle scope (some type) params)
  let names ← namesOf ancestors
  modifyCatalog (·.tag (d.resourceTitle :: names))
  return id

/-- Enters the types of a chain of parents that are not entered yet, farthest first. -/
def realizeChain (scope : ScopeId) : List TypeId → Run Unit
  | [] => return ()
  | type :: ancestors => do
    match ← realized? type with
    | some _ => return ()
    | none =>
      realizeChain scope ancestors
      let _ ← addSingleton scope type ancestors []

/-- The resource of a class or node, which is entered if need be; the parameters count only then. -/
def ensure (type : TypeId) (scope : ScopeId) (params : Table Value) : Run ResourceId := do
  match ← realized? type with
  | some id => return id
  | none =>
    let ancestors ← ancestry type (some scope)
    realizeChain scope ancestors
    addSingleton scope type ancestors params

end SiteCatalog.Compilation
