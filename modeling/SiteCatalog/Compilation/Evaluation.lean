import SiteCatalog.Compilation.Realization

/-!
# Evaluation

Running the bodies of types. The body of a resource runs at most once; running it may enter and run
further classes, among them classes that are being run already, which are then left alone. The
definitions up to `enter` take the running of a type's code as an argument; `evaluateCode` closes
the circle with a bound on the depth of nested runs.
-/

namespace SiteCatalog.Compilation

/-- Where a variable is looked up, and under which name. A qualified name is looked up from the
scope of its class, if the class has one, and from the top if nothing stands before the separator.
-/
def variablePlace? (s : State) (scope : ScopeId) (name : String) : Option (ScopeId × String) :=
  match Name.splitVariable? name with
  | none => some (scope, name)
  | some (type, var) =>
    if type = "" then some (Scopes.top, var)
    else
      match (s.types.lookup .hostclass type).bind s.scopes.ofType? with
      | some classScope => some (classScope, var)
      | none => none

/-- The value that was found for a variable; an unbound one is undefined, or an error under strict
variables. -/
def valueFound (strict : Bool) (name : String) : Option Value → Run Value
  | some v => return v
  | none => if strict then fail (.unknownVariable name) else return .undefined

/-- The value of a variable. -/
def lookupVariable (strict : Bool) (scope : ScopeId) (name : String) : Run Value := do
  let found ← match variablePlace? (← get) scope name with
    | some (place, var) => do
      let _ ← scopeAt place
      searched ((← get).scopes.lookup place var)
    | none => pure none
  valueFound strict name found

/-- The running of a type's code for a resource. -/
abbrev Code := TypeId → ResourceId → Run Unit

/-- Runs the code of a resource's type unless that already happened. -/
def evaluateResource (code : Code) (id : ResourceId) : Run Unit := follow (.evaluateResource id) do
  let r ← resourceAt id
  if r.evaluated then return ()
  else
    modifyCatalog (·.markEvaluated id)
    match r.source with
    | some type => code type id
    | none => return ()

/-- Enters and runs a class, whose name is looked up from the namespace of a scope. -/
def includeClass (code : Code) (scope : ScopeId) (name : String) (params : Table Value) :
    Run ResourceId := follow (.includeClass scope name params) do
  let space := (← scopeAt scope).space
  match (← get).types.find .hostclass space name with
  | none => fail (.unknownClass name)
  | some type =>
    let id ← ensure type scope params
    evaluateResource code id
    return id

/-- Includes classes in order. -/
def includeClasses (code : Code) (scope : ScopeId) : List String → Run Unit
  | [] => return ()
  | name :: rest => do
    let _ ← includeClass code scope name []
    includeClasses code scope rest

/-- Declares a resource. An instance of a defined type is run later, a resource of an unknown type
is never run, and the type `class` includes a class. -/
def declareResource (code : Code) (scope : ScopeId) (type title : String) (params : Table Value) :
    Run ResourceId := follow (.declareResource scope type title params) do
  if Name.sameIgnoringCase type "class" then includeClass code scope title params
  else if Name.sameIgnoringCase type "node" then fail (.invalidOperation (.declaredNode title))
  else
    let space := (← scopeAt scope).space
    match (← get).types.find .define space type with
    | some id =>
      let d ← typeAt id
      addResource (.ofType d.resourceTag title scope (some id) params)
    | none => addResource (.ofType type title scope none params)

/-- Declares a resource for each title. -/
def declareResources (code : Code) (scope : ScopeId) (type : String) (params : Table Value) :
    List Value → Run Unit
  | [] => return ()
  | title :: rest => do
    let _ ← declareResource code scope type title.text params
    declareResources code scope type params rest

/-- The titles that the value of a title stands for. -/
def titles : Value → List Value
  | .array items => items
  | v => [v]

mutual

/-- The value of an expression in a scope. Statements have no value. -/
def evaluate (strict : Bool) (code : Code) (scope : ScopeId) (e : Expr) : Run Value :=
  follow (.evaluate scope e) <| match e with
    | .literal v => return v
    | .var name => lookupVariable strict scope name
    | .concat parts => do
      let values ← evaluateAll strict code scope parts
      return .str (String.join (values.map Value.text))
    | .list items => do
      let values ← evaluateAll strict code scope items
      return .array values
    | .block statements => evaluateBlock strict code scope .undefined statements
    | .assign name value => do
      let v ← evaluate strict code scope value
      assign scope name v
      return .undefined
    | .includes names => do
      includeClasses code scope names
      return .undefined
    | .classDecl name params => do
      let values ← evaluateParams strict code scope params
      let _ ← includeClass code scope name values
      return .undefined
    | .declare type title params => do
      let v ← evaluate strict code scope title
      let values ← evaluateParams strict code scope params
      declareResources code scope type values (titles v)
      return .undefined
termination_by structural e

/-- The values of expressions, evaluated in order. -/
def evaluateAll (strict : Bool) (code : Code) (scope : ScopeId) : List Expr → Run (List Value)
  | [] => return []
  | e :: rest => do
    let v ← evaluate strict code scope e
    let vs ← evaluateAll strict code scope rest
    return v :: vs
termination_by structural es => es

/-- The value of the last of some statements, or the given value if there is none. -/
def evaluateBlock (strict : Bool) (code : Code) (scope : ScopeId) (last : Value) :
    List Expr → Run Value
  | [] => return last
  | e :: rest => do
    let v ← evaluate strict code scope e
    evaluateBlock strict code scope v rest
termination_by structural es => es

/-- The values of parameters, evaluated in order. -/
def evaluateParams (strict : Bool) (code : Code) (scope : ScopeId) :
    List (String × Expr) → Run (Table Value)
  | [] => return []
  | param :: rest => do
    let v ← evaluateParam strict code scope param
    let vs ← evaluateParams strict code scope rest
    return v :: vs
termination_by structural params => params

/-- The name of a parameter and its value. -/
def evaluateParam (strict : Bool) (code : Code) (scope : ScopeId) :
    String × Expr → Run (String × Value)
  | (name, e) => do
    let v ← evaluate strict code scope e
    return (name, v)
termination_by structural param => param

end

/-- Binds supplied parameters in order, coerced, each of which the type has to accept. -/
def bindSupplied (d : Descriptor) (reference : String) (scope : ScopeId) : Table Value → Run Unit
  | [] => return ()
  | (param, value) :: rest => do
    if d.acceptsParameter param then
      bind scope param value.coerce
      bindSupplied d reference scope rest
    else fail (.unknownParameter param d.kind d.name reference)

/-- The variables that every evaluation scope has: title and name, and the modules of the type and
of the place of the declaration, if there are any. -/
def builtinVariables (d : Descriptor) (r : Resource) (callerModule : Option String) : Table Value :=
  let small (s : String) : String := if d.kind = .hostclass then Name.lowercase s else s
  [("title", .str (small r.title)), ("name", .str (small r.name))]
    ++ (d.moduleName.map fun m => ("module_name", Value.str m)).toList
    ++ (callerModule.map fun m => ("caller_module_name", Value.str m)).toList

/-- Binds variables in order, except those among the supplied parameters. -/
def bindBuiltin (supplied : Table Value) (scope : ScopeId) : Table Value → Run Unit
  | [] => return ()
  | (name, value) :: rest => do
    if !supplied.has name then bind scope name value
    bindBuiltin supplied scope rest

/-- Enters a parameter into a resource. -/
def setParameter (id : ResourceId) (param : String) (value : Value) : Run Unit := do
  let _ ← resourceAt id
  modifyCatalog (·.setParameter id param value)

/-- Binds the declared parameters that are not supplied to their defaults, in order, and enters them
into the resource. -/
def bindDefaults (strict : Bool) (code : Code) (d : Descriptor) (id : ResourceId)
    (reference : String) (supplied : Table Value) (scope : ScopeId) :
    Table (Option Expr) → Run Unit
  | [] => return ()
  | (param, default) :: rest => do
    if !supplied.has param then
      match default with
      | none => fail (.missingParameter param d.kind d.name reference)
      | some e =>
        let v ← evaluate strict code scope e
        bind scope param v
        setParameter id param v
    bindDefaults strict code d id reference supplied scope rest

/-- Binds the parameters of a resource in its evaluation scope: the supplied ones, the built-in
variables, and the defaults. -/
def bindParameters (strict : Bool) (code : Code) (type : TypeId) (id : ResourceId)
    (scope : ScopeId) : Run Unit := do
  let d ← typeAt type
  let r ← resourceAt id
  let _ ← scopeAt r.scope
  let callerModule ← searched ((← get).scopes.moduleName r.scope)
  bindSupplied d r.reference scope r.params
  bindBuiltin r.params scope (builtinVariables d r callerModule)
  bindDefaults strict code d id r.reference r.params scope d.parameters

/-- The note of a linked body. -/
def LinkedBody.note (b : LinkedBody) (type : TypeId) (id : ResourceId) (scope : ScopeId) : String :=
  b.label ++ " r" ++ toString id ++ " s" ++ toString scope ++ " t" ++ toString type

/-- Runs a linked body. -/
def runLinked (code : Code) (type : TypeId) (id : ResourceId) (scope : ScopeId) (b : LinkedBody) :
    Run Unit := do
  note (LinkedBody.note b type id scope)
  includeClasses code scope b.includes
  match b.refusal with
  | some text => fail (.invalidOperation (.refused text))
  | none => return ()

mutual

/-- Runs a body. -/
def runBody (strict : Bool) (code : Code) (type : TypeId) (id : ResourceId) (scope : ScopeId) :
    Body → Run Unit
  | .code e => do
    let _ ← evaluate strict code scope e
  | .linked b => runLinked code type id scope b
  | .sequence parts => runBodies strict code type id scope parts

/-- Runs bodies in order. -/
def runBodies (strict : Bool) (code : Code) (type : TypeId) (id : ResourceId) (scope : ScopeId) :
    List Body → Run Unit
  | [] => return ()
  | b :: rest => do
    runBody strict code type id scope b
    runBodies strict code type id scope rest

end

/-- The scope in which a resource is evaluated: the top-level code runs where it is declared, and
everything else in a scope of its own. -/
def evaluationScope (type : TypeId) (d : Descriptor) (id : ResourceId) (r : Resource) :
    Run ScopeId := do
  if d.kind = .hostclass ∧ r.title = mainTitle then return r.scope
  else newScope {
    parent := some r.scope, source := some type, dynamic := true, space := d.space
    resource := some id, moduleName := d.moduleName }

/-- Puts a scope below another. -/
def putBelow (scope parent : ScopeId) : Run Unit := do
  let _ ← scopeAt scope
  modifyScopes (·.setParent scope parent)

/-- Puts a scope below the scope of a type, if one is remembered. -/
def putBelowType (scope : ScopeId) (type : TypeId) : Run Unit := do
  match (← get).scopes.ofType? type with
  | some above => putBelow scope above
  | none => return ()

/-- Enters and runs the parent of a class or node and puts the scope below the parent's. -/
def evaluateParent (code : Code) (type : TypeId) (enclosing scope : ScopeId) : Run Unit := do
  match ← ancestry type (some scope) with
  | [] => return ()
  | parent :: _ =>
    let id ← ensure parent enclosing []
    evaluateResource code id
    putBelowType scope parent

/-- Binds the parameters of a resource in its scope and runs the body of its type there. -/
def runInScope (strict : Bool) (code : Code) (type : TypeId) (d : Descriptor) (id : ResourceId)
    (scope : ScopeId) : Run Unit := do
  bindParameters strict code type id scope
  if d.kind ≠ .define then modifyScopes (·.setOfType type scope)
  follow (.body type id scope) <| match d.body with
    | some body => runBody strict code type id scope body
    | none => return ()

/-- Runs the code of a type for a resource: its parent first, then its parameters, then its body. -/
def enter (strict : Bool) (code : Code) (type : TypeId) (id : ResourceId) : Run Unit := do
  let d ← typeAt type
  let r ← resourceAt id
  if d.kind ≠ .define then modifyCatalog (·.addClass r.title)
  let scope ← evaluationScope type d id r
  if d.parent.isSome ∧ d.kind ≠ .define then evaluateParent code type r.scope scope
  runInScope strict code type d id scope

/-- Runs the code of a type with at most `depth` runs inside each other. -/
def evaluateCode (strict : Bool) : Nat → Code
  | 0, _, _ => stop .exhausted
  | depth + 1, type, id => follow (.code type id) (enter strict (evaluateCode strict depth) type id)

/-- Runs the code of a type. Nested runs are of different classes and nodes, so that there are at
most as many inside the outermost one as there are types. -/
def runCode (strict : Bool) : Code := fun type id => do
  evaluateCode strict ((← get).types.types.length + 1) type id

end SiteCatalog.Compilation
