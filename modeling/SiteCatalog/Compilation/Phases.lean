import SiteCatalog.Catalog.Digest
import SiteCatalog.Compilation.Evaluation
import SiteCatalog.Settings

/-!
# Compiling a catalog

The phases of a compilation: the facts of the host are bound, the top-level code runs, then the node
that the host selects, then the classes assigned to the host, and last the instances of defined
types, until none is left.
-/

namespace SiteCatalog.Compilation

/-- Binds variables at the top. -/
def bindAtTop : Table Value → Run Unit
  | [] => return ()
  | (name, value) :: rest => do
    bind Scopes.top name value
    bindAtTop rest

/-- Enters a class or node at the top and runs it. -/
def evaluateAtTop (strict : Bool) (type : TypeId) : Run Unit := do
  let id ← ensure type Scopes.top []
  evaluateResource (runCode strict) id

/-- Runs the top-level code, which may be empty. -/
def evaluateMain (strict : Bool) : Run Unit := do
  let type ← match (← get).types.lookup .hostclass "" with
    | some id => pure id
    | none => addType (.ofName .hostclass "")
  evaluateAtTop strict type

/-- Runs the node that the host selects. A site with nodes has to have one for it. -/
def evaluateNode (strict : Bool) (host : Host) : Run Unit := do
  let types := (← get).types
  match types.nodeFor host.candidates with
  | some type => evaluateAtTop strict type
  | none =>
    if (types.idsOf .node).isEmpty then return ()
    else fail (.noMatchingNode host.name)

/-- Evaluates resources in order. -/
def evaluateResources (code : Code) : List ResourceId → Run Unit
  | [] => return ()
  | id :: rest => do
    evaluateResource code id
    evaluateResources code rest

/-- Evaluates the resources that are waiting, round after round until none is left, and gives their
number. -/
def evaluateDefinitions (code : Code) : Nat → Run Nat
  | 0 => stop .exhausted
  | rounds + 1 => do
    let pending := (← get).catalog.unevaluated
    if pending.isEmpty then return 0
    else
      evaluateResources code pending
      let later ← evaluateDefinitions code rounds
      return pending.length + later

/-- All phases, with a bound on the number of rounds in which defined types are evaluated. -/
def phases (rounds : Nat) (host : Host) (settings : Settings) : Run Unit := do
  let code := runCode settings.strictVariables
  bindAtTop host.allFacts
  evaluateMain settings.strictVariables
  evaluateNode settings.strictVariables host
  includeClasses code Scopes.top host.classes
  let _ ← evaluateDefinitions code rounds
  modifyCatalog (·.finalize)

/-- Compiles the catalog of a host. The final state is given whether or not that succeeds. -/
def compile (rounds : Nat) (types : Registry) (host : Host) (settings : Settings) :
    Except Failure Unit × State :=
  (phases rounds host settings).run (.initial types host)

/-- The moments of a compilation. -/
def history (rounds : Nat) (types : Registry) (host : Host) (settings : Settings) : List Visit :=
  (phases rounds host settings).visits [] (.initial types host)

/-- The states of a compilation, from the first one on. -/
def states (rounds : Nat) (types : Registry) (host : Host) (settings : Settings) : List State :=
  .initial types host :: (history rounds types host settings).map (·.state)

/-- More rounds than any evaluation takes that ends. -/
def enoughRounds : Nat := UInt64.size

end SiteCatalog.Compilation
