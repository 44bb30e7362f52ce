import SiteCatalog.Compilation.Run

/-!
# Ancestry

The parents of a class or node. A parent is looked up by name when it is first needed and remembered
from then on, so that later answers do not depend on the scope. A chain of parents that comes back
to one of its members is an error.
-/

namespace SiteCatalog.Compilation

/-- The type that the name of a parent means: for a node the node of that name, for a class the
class as seen from the class itself, and if there is none, as seen from a scope. -/
def parentNamed (types : Registry) (d : Descriptor) (parent : String) (space : String) :
    Except CompileError (Option TypeId) :=
  match d.kind with
  | .define => .error (.invalidOperation (.inheritingDefine d.name))
  | .node => .ok (types.lookup .node parent)
  | .hostclass =>
    .ok ((types.find .hostclass d.space parent).or (types.find .hostclass space parent))

/-- Remembers the parent of a type. The first one stays. -/
def cacheParent (type parent : TypeId) : Run Unit :=
  modifyTypes fun r => r.modify type fun d => { d with resolved := d.resolved.or (some parent) }

/-- The parent of a type, if it names one. -/
def resolveParent (type : TypeId) (scope : Option ScopeId) : Run (Option TypeId) := do
  let d ← typeAt type
  match d.parent, d.resolved with
  | none, _ => return none
  | some _, some known => return some known
  | some parent, none =>
    match scope with
    | none => fail (.noScope d.kind d.name)
    | some scope =>
      let space := (← scopeAt scope).space
      match ← ofExcept (parentNamed (← get).types d parent space) with
      | some found =>
        cacheParent type found
        return some found
      | none => fail (.unresolvableParent d.kind d.name parent)

/-- The names of types. -/
def namesOf : List TypeId → Run (List String)
  | [] => return []
  | id :: rest => do
    let d ← typeAt id
    let names ← namesOf rest
    return d.name :: names

/-- Extends a chain of types, which ends with `last`, by parents; `fuel` bounds their number. -/
def climb (scope : Option ScopeId) (kind : Kind) : Nat → List TypeId → TypeId → Run (List TypeId)
  | 0, _, _ => stop .exhausted
  | fuel + 1, chain, last => do
    match ← resolveParent last scope with
    | none => return chain
    | some parent =>
      if chain.contains parent then
        let names ← namesOf (chain ++ [parent])
        fail (.parentCycle kind names)
      else climb scope kind fuel (chain ++ [parent]) parent

/-- The parents of a type, nearest first. -/
def ancestry (type : TypeId) (scope : Option ScopeId) : Run (List TypeId) := do
  let d ← typeAt type
  let chain ← climb scope d.kind ((← get).types.types.length + 1) [type] type
  return chain.tail

end SiteCatalog.Compilation
