import SiteCatalog.Compilation.Phases
import SiteCatalog.Proofs.Compilation.Bodies
import SiteCatalog.Proofs.Compilation.Pieces

/-!
# What holds of all runs of a compilation

A property of runs that single changes have, looking up parents, entering classes and declaring
other resources among them, and that is passed on by the ways in which runs are put together, is a
property of the evaluation of everything.

Results:
* `Compositional`, `Passage`, `Walk`: what has to be shown of runs that are put together, of the
  changes that bodies make, and of all single changes.
* `Passage.bindParameters`, `Passage.runOptional`, `Passage.phases`: what follows for parameters,
  bodies and the phases, if it holds of the evaluation of classes and resources.
* `Walk.evaluateCode`, `Walk.phases`: what follows for the evaluation of types, and for a whole
  compilation.
-/

namespace SiteCatalog.Compilation

/-- Declares a resource that is neither a class nor a node. -/
def declareOther (scope : ScopeId) (type title : String) (params : Table Value) :
    Run ResourceId := do
  let space := (← scopeAt scope).space
  match (← get).types.find .define space type with
  | some id =>
    let d ← typeAt id
    addResource (.ofType d.resourceTag title scope (some id) params)
  | none => addResource (.ofType type title scope none params)

theorem declareResource_eq (code : Code) (scope : ScopeId) (type title : String)
    (params : Table Value) : declareResource code scope type title params =
      follow (.declareResource scope type title params)
        (if Name.sameIgnoringCase type "class" then includeClass code scope title params
        else if Name.sameIgnoringCase type "node" then
          fail (.invalidOperation (.declaredNode title))
        else declareOther scope type title params) :=
  rfl

/-- Enters a class or node and evaluates it. -/
def request (code : Code) (type : TypeId) (scope : ScopeId) (params : Table Value) :
    Run ResourceId := do
  let id ← ensure type scope params
  evaluateResource code id
  return id

theorem evaluateAtTop_eq (strict : Bool) (type : TypeId) :
    evaluateAtTop strict type =
      request (runCode strict) type Scopes.top [] >>= fun _ => return () := by
  simp [evaluateAtTop, request]

/-- A property `U` of runs that is passed on to runs that are put together. -/
structure Compositional (U : (α : Type) → Run α → Prop) : Prop where
  pure : ∀ {α} (a : α), U α (pure a)
  stop : ∀ {α} f, U α (stop f)
  bind : ∀ {α β} {p : Run α} {k : α → Run β}, U α p → (∀ a, U β (k a)) → U β (p >>= k)
  get_bind : ∀ {β} {k : State → Run β}, (∀ s, U β (k s)) → U β (get >>= k)
  follow : ∀ {α} {c} {p : Run α}, U α p → U α (follow c p)

/-- A property `U` of runs that every change has that bodies make themselves, and that is passed on
to runs that are put together. -/
structure Passage (U : (α : Type) → Run α → Prop) : Prop extends Compositional U where
  bindVariable : ∀ scope name value, U Unit (Compilation.bind scope name value)
  assign : ∀ scope name value, U Unit (assign scope name value)
  note : ∀ text, U Unit (note text)
  setParameter : ∀ id param value, U Unit (modifyCatalog (·.setParameter id param value))
  declareOther : ∀ scope type title params, Name.sameIgnoringCase type "class" = false →
    Name.sameIgnoringCase type "node" = false →
    U ResourceId (declareOther scope type title params)

/-- A property `U` of runs that every change of a compilation has and that is passed on to runs that
are put together. -/
structure Walk (U : (α : Type) → Run α → Prop) : Prop extends Compositional U where
  modifyScopes : ∀ f, U Unit (modifyScopes f)
  note : ∀ text, U Unit (note text)
  setParameter : ∀ id param value, U Unit (modifyCatalog (·.setParameter id param value))
  addClass : ∀ title, U Unit (modifyCatalog (·.addClass title))
  ancestry : ∀ type scope, U (List TypeId) (ancestry type scope)
  request : ∀ {code : Code}, (∀ t id, U Unit (code t id)) →
    ∀ type scope params, U ResourceId (request code type scope params)
  declareOther : ∀ scope type title params, Name.sameIgnoringCase type "class" = false →
    Name.sameIgnoringCase type "node" = false →
    U ResourceId (declareOther scope type title params)

namespace Compositional

variable {U : (α : Type) → Run α → Prop} {α : Type} {strict : Bool} {code : Code}
  {scope : ScopeId} (h : Compositional U)

include h

theorem existing (o : Option α) : U α (existing o) := by
  cases o with
  | none => exact h.stop _
  | some a => exact h.pure a

theorem searched (o : Option α) : U α (searched o) := by
  cases o with
  | none => exact h.stop _
  | some a => exact h.pure a

theorem ofExcept (x : Except CompileError α) : U α (ofExcept x) := by
  cases x with
  | ok a => exact h.pure a
  | error e => exact h.stop _

theorem typeAt (t : TypeId) : U Descriptor (typeAt t) :=
  h.get_bind fun _ => h.existing _

theorem scopeAt (i : ScopeId) : U Scope (scopeAt i) :=
  h.get_bind fun _ => h.existing _

theorem resourceAt (id : ResourceId) : U Resource (resourceAt id) :=
  h.get_bind fun _ => h.existing _

theorem valueFound (name : String) (found : Option Value) :
    U Value (valueFound strict name found) := by
  unfold Compilation.valueFound
  split
  · exact h.pure _
  · split
    · exact h.stop _
    · exact h.pure _

theorem lookupVariable (name : String) : U Value (lookupVariable strict scope name) := by
  refine h.get_bind fun s => ?_
  dsimp only
  split
  · exact h.bind (h.scopeAt _) fun _ => h.get_bind fun _ =>
      h.bind (h.searched _) fun _ => h.valueFound name _
  · exact h.bind (h.pure _) fun _ => h.valueFound name _

section Mark

variable (hmark : ∀ id, U Unit (modifyCatalog (·.markEvaluated id)))

include hmark

theorem evaluateResource (hcode : ∀ t id, U Unit (code t id)) (id : ResourceId) :
    U Unit (evaluateResource code id) := by
  refine h.follow (h.bind (h.resourceAt id) fun r => ?_)
  split
  · exact h.pure ()
  · refine h.bind (hmark id) fun _ => ?_
    split
    · exact hcode _ id
    · exact h.pure ()

theorem request (hensure : ∀ type scope params, U ResourceId (ensure type scope params))
    (hcode : ∀ t id, U Unit (code t id)) (type : TypeId) (scope : ScopeId)
    (params : Table Value) : U ResourceId (request code type scope params) :=
  h.bind (hensure type scope params) fun id =>
    h.bind (h.evaluateResource hmark hcode id) fun _ => h.pure id

end Mark

end Compositional

namespace Passage

/-- A state to begin in, on which properties of runs do not depend. -/
def someState : State :=
  .initial (.empty "") { given := "" }

variable {U : (α : Type) → Run α → Prop} {strict : Bool} {code : Code} {scope : ScopeId}
  (h : Passage U)

section Changes

include h

theorem setParameterOf (id : ResourceId) (param : String) (value : Value) :
    U Unit (Compilation.setParameter id param value) :=
  h.bind (h.resourceAt id) fun _ => h.setParameter id param value

theorem bindSupplied {d : Descriptor} {reference : String} :
    ∀ params : Table Value, U Unit (bindSupplied d reference scope params)
  | [] => h.pure ()
  | (param, value) :: rest => by
    unfold Compilation.bindSupplied
    split
    · exact h.bind (h.bindVariable scope param _) fun _ => bindSupplied rest
    · exact h.stop _

theorem bindBuiltin {supplied : Table Value} :
    ∀ params : Table Value, U Unit (bindBuiltin supplied scope params)
  | [] => h.pure ()
  | (name, value) :: rest => by
    unfold Compilation.bindBuiltin
    split
    · exact h.bind (h.bindVariable scope name value) fun _ => bindBuiltin rest
    · exact bindBuiltin rest

theorem bindAtTop : ∀ facts : Table Value, U Unit (bindAtTop facts)
  | [] => h.pure ()
  | (name, value) :: rest => h.bind (h.bindVariable _ name value) fun _ => bindAtTop rest

end Changes

/-! ## Evaluation -/

section Code

variable (hrequest : ∀ type scope params, U ResourceId (request code type scope params))

include h hrequest

theorem includeClass (name : String) (params : Table Value) :
    U ResourceId (includeClass code scope name params) := by
  refine h.follow (h.bind (h.scopeAt scope) fun c => h.get_bind fun s => ?_)
  split
  · exact h.stop _
  · exact hrequest _ scope params

theorem declareResource (type title : String) (params : Table Value) :
    U ResourceId (declareResource code scope type title params) := by
  rw [declareResource_eq]
  refine h.follow ?_
  split
  · exact h.includeClass hrequest title params
  · next hclass =>
    split
    · exact h.stop _
    · next hnode =>
      exact h.declareOther scope type title params (Bool.eq_false_of_not_eq_true hclass)
        (Bool.eq_false_of_not_eq_true hnode)

/-- Expressions and bodies have the property, if the evaluation of classes has it. -/
theorem pieces (strict : Bool) :
    Pieces strict code scope (fun _ _ => True) fun α _ _ p => U α p where
  pure := fun a _ => h.pure a
  fail := fun _ _ => h.stop _
  bind := fun _ hp hk => h.bind hp fun a => hk a someState trivial
  follow := fun _ _ _ hp => h.follow (hp trivial)
  lookupVariable := fun name _ => h.lookupVariable name
  assign := fun name value _ => h.assign scope name value
  includeClass := fun name params _ => h.includeClass hrequest name params
  declareResource := fun type title params _ => h.declareResource hrequest type title params
  note := fun text _ => h.note text

theorem evaluate (e : Expr) : U Value (evaluate strict code scope e) :=
  @Pieces.evaluate _ _ _ _ _ (h.pieces hrequest strict) e [] someState trivial

theorem includeClasses (names : List String) : U Unit (includeClasses code scope names) :=
  @Pieces.includeClasses _ _ _ _ _ [] (h.pieces hrequest false) names someState trivial

theorem runOptional {type : TypeId} {id : ResourceId} (b : Option Body) :
    U Unit (runOptional strict code type id scope b) := by
  cases b with
  | none => exact h.pure ()
  | some b => exact @Pieces.runBody _ _ _ _ _ (h.pieces hrequest strict) _ _ b [] someState trivial

theorem bindDefaults {d : Descriptor} {id : ResourceId} {reference : String}
    {supplied : Table Value} : ∀ params : Table (Option Expr),
      U Unit (bindDefaults strict code d id reference supplied scope params)
  | [] => h.pure ()
  | (param, default) :: rest => by
    unfold Compilation.bindDefaults
    split
    · cases default with
      | none => exact h.stop _
      | some e =>
        refine h.bind (h.evaluate hrequest e) fun v => ?_
        refine h.bind (h.bindVariable scope param v) fun _ => ?_
        exact h.bind (h.setParameterOf id param v) fun _ => bindDefaults rest
    · exact bindDefaults rest

theorem bindParameters {type : TypeId} {id : ResourceId} :
    U Unit (bindParameters strict code type id scope) := by
  refine h.bind (h.typeAt type) fun d => h.bind (h.resourceAt id) fun r => ?_
  refine h.bind (h.scopeAt r.scope) fun _ => h.get_bind fun _ => ?_
  refine h.bind (h.searched _) fun _ => ?_
  refine h.bind (h.bindSupplied r.params) fun _ => h.bind (h.bindBuiltin _) fun _ => ?_
  exact h.bindDefaults hrequest d.parameters

end Code

/-! ## The phases -/

section Phases

variable (hrequest : ∀ type scope params,
  U ResourceId (request (runCode strict) type scope params))

include h hrequest

theorem evaluateAtTop (type : TypeId) : U Unit (evaluateAtTop strict type) := by
  rw [evaluateAtTop_eq]
  exact h.bind (hrequest type Scopes.top []) fun _ => h.pure ()

theorem evaluateNode (host : Host) : U Unit (evaluateNode strict host) := by
  refine h.get_bind fun s => ?_
  dsimp only
  split
  · exact h.evaluateAtTop hrequest _
  · split
    · exact h.pure ()
    · exact h.stop _

theorem evaluateMain (hmain : U TypeId (addType (.ofName .hostclass ""))) :
    U Unit (evaluateMain strict) := by
  refine h.get_bind fun s => ?_
  dsimp only
  split
  · exact h.evaluateAtTop hrequest _
  · exact h.bind hmain (h.evaluateAtTop hrequest)

end Phases

section Definitions

variable (hresource : ∀ id, U Unit (evaluateResource (runCode strict) id))

include h hresource

theorem evaluateResources :
    ∀ ids : List ResourceId, U Unit (evaluateResources (runCode strict) ids)
  | [] => h.pure ()
  | id :: rest => h.bind (hresource id) fun _ => evaluateResources rest

theorem evaluateDefinitions :
    ∀ rounds : ℕ, U Nat (evaluateDefinitions (runCode strict) rounds) := by
  intro rounds
  induction rounds with
  | zero => exact h.stop _
  | succ rounds ih =>
    refine h.get_bind fun s => ?_
    dsimp only
    split
    · exact h.pure 0
    · exact h.bind (h.evaluateResources hresource _) fun _ => h.bind ih fun _ => h.pure _

end Definitions

include h in
theorem phases {settings : Settings}
    (hrequest : ∀ type scope params,
      U ResourceId (request (runCode settings.strictVariables) type scope params))
    (hresource : ∀ id, U Unit (evaluateResource (runCode settings.strictVariables) id))
    (hmain : U TypeId (addType (.ofName .hostclass "")))
    (hfinal : U Unit (modifyCatalog (·.finalize))) (rounds : ℕ) (host : Host) :
    U Unit (phases rounds host settings) :=
  h.bind (h.bindAtTop host.allFacts) fun _ => h.bind (h.evaluateMain hrequest hmain) fun _ =>
    h.bind (h.evaluateNode hrequest host) fun _ =>
    h.bind (h.includeClasses hrequest host.classes) fun _ =>
    h.bind (h.evaluateDefinitions hresource rounds) fun _ => hfinal

end Passage

namespace Walk

variable {U : (α : Type) → Run α → Prop} {strict : Bool} {code : Code} {scope : ScopeId}
  (h : Walk U)

include h

theorem passage : Passage U where
  toCompositional := h.toCompositional
  bindVariable := fun scope _ _ => h.bind (h.scopeAt scope) fun _ => h.modifyScopes _
  assign := fun scope _ _ => h.bind (h.scopeAt scope) fun _ => h.get_bind fun _ =>
    h.bind (h.ofExcept _) fun _ => h.modifyScopes _
  note := h.note
  setParameter := h.setParameter
  declareOther := h.declareOther

theorem evaluationScope (type : TypeId) (d : Descriptor) (id : ResourceId) (r : Resource) :
    U ScopeId (evaluationScope type d id r) := by
  unfold Compilation.evaluationScope
  split
  · exact h.pure _
  · exact h.get_bind fun _ => h.bind (h.modifyScopes _) fun _ => h.pure _

/-! ## The evaluation of a resource -/

section Code

variable (hcode : ∀ t id, U Unit (code t id))

include hcode

theorem includeClasses (names : List String) : U Unit (includeClasses code scope names) :=
  h.passage.includeClasses (h.request hcode) names

theorem runInScope {type : TypeId} {d : Descriptor} {id : ResourceId} :
    U Unit (runInScope strict code type d id scope) := by
  have hbody : U Unit (Compilation.follow (.body type id scope)
      (runOptional strict code type id scope d.body)) :=
    h.follow (h.passage.runOptional (h.request hcode) d.body)
  refine h.bind (h.passage.bindParameters (h.request hcode)) fun _ => ?_
  dsimp only
  split
  · exact h.bind (h.modifyScopes _) fun _ => hbody
  · exact hbody

theorem evaluateParent {type : TypeId} {enclosing : ScopeId} :
    U Unit (evaluateParent code type enclosing scope) := by
  refine h.bind (h.ancestry type (some scope)) fun chain => ?_
  split
  · exact h.pure ()
  · next parent _ =>
    have hput : U Unit (putBelowType scope parent) := by
      refine h.get_bind fun s => ?_
      split
      · exact h.bind (h.scopeAt scope) fun _ => h.modifyScopes _
      · exact h.pure ()
    have hrequest := h.bind (h.request hcode parent enclosing []) fun _ => hput
    simpa only [Compilation.request, bind_assoc, pure_bind] using hrequest

theorem enter {type : TypeId} {id : ResourceId} : U Unit (enter strict code type id) := by
  have hrest : ∀ (d : Descriptor) (r : Resource), U Unit (do
      let scope ← Compilation.evaluationScope type d id r
      if d.parent.isSome ∧ d.kind ≠ .define then Compilation.evaluateParent code type r.scope scope
      Compilation.runInScope strict code type d id scope) := by
    refine fun d r => h.bind (h.evaluationScope type d id r) fun scope => ?_
    split
    · exact h.bind (h.evaluateParent hcode) fun _ => h.runInScope hcode
    · exact h.runInScope hcode
  refine h.bind (h.typeAt type) fun d => h.bind (h.resourceAt id) fun r => ?_
  dsimp only
  split
  · exact h.bind (h.addClass r.title) fun _ => hrest d r
  · exact hrest d r

end Code

/-! ## The phases -/

theorem evaluateCode : ∀ n t id, U Unit (evaluateCode strict n t id) := by
  intro n
  induction n with
  | zero => exact fun _ _ => h.stop _
  | succ n ih => exact fun t id => h.follow (h.enter ih)

theorem runCode (t : TypeId) (id : ResourceId) : U Unit (runCode strict t id) :=
  h.get_bind fun _ => h.evaluateCode _ t id

theorem evaluateAtTop (type : TypeId) : U Unit (evaluateAtTop strict type) :=
  h.passage.evaluateAtTop (h.request h.runCode) type

theorem evaluateNode (host : Host) : U Unit (evaluateNode strict host) :=
  h.passage.evaluateNode (h.request h.runCode) host

section Mark

variable (hmark : ∀ id, U Unit (modifyCatalog (·.markEvaluated id)))

include hmark

theorem evaluateDefinitions (rounds : ℕ) :
    U Nat (evaluateDefinitions (Compilation.runCode strict) rounds) :=
  h.passage.evaluateDefinitions (h.evaluateResource hmark h.runCode) rounds

theorem phases (hmain : U TypeId (addType (.ofName .hostclass "")))
    (hfinal : U Unit (modifyCatalog (·.finalize))) (rounds : ℕ) (host : Host)
    (settings : Settings) : U Unit (phases rounds host settings) :=
  h.passage.phases (h.request h.runCode) (h.evaluateResource hmark h.runCode) hmain hfinal rounds
    host

end Mark

end Walk

end SiteCatalog.Compilation
