import SiteCatalog.Compilation.State

/-!
# Runs

A run is a sequence of single steps on the state of a compilation. It ends with a result or with a
failure, and a run that fails keeps what it did to the state before. `Run.run` carries a run out;
`Run.visits` lists every state on the way together with the calls that were open at that moment.
Results:

* Runs are a lawful monad.
* `run_bind`, `visits_bind`: a run followed by another goes through the states of the first and then
  through those of the second.
* `run_follow`, `visits_follow`: a call is entered and left around the states of what it runs.
-/

namespace SiteCatalog.Compilation

/-- The operations whose beginning and end are part of the history of a run. -/
inductive Call
  | evaluate (scope : ScopeId) (e : Expr)
  | includeClass (scope : ScopeId) (name : String) (params : Table Value)
  | declareResource (scope : ScopeId) (type title : String) (params : Table Value)
  | evaluateResource (id : ResourceId)
  /-- The code of a type is entered for a resource. -/
  | code (type : TypeId) (id : ResourceId)
  /-- The body of a type runs for a resource in a scope. -/
  | body (type : TypeId) (id : ResourceId) (scope : ScopeId)

/-- A computation on the state. -/
inductive Run : Type → Type 1
  | done {α : Type} (result : Except Failure α) : Run α
  | read {α : Type} (next : State → Run α) : Run α
  | change {α : Type} (f : State → State) (next : Run α) : Run α
  | call {α β : Type} (c : Call) (inside : Run β) (next : β → Run α) : Run α

/-- What brings a run to a state. -/
inductive Event
  | change
  | enter (c : Call)
  /-- A call ends, with or without success; it began in the state `before`. -/
  | leave (c : Call) (before : State)

/-- A moment of a run. -/
structure Visit where
  event : Event
  /-- The calls that have begun and not ended, innermost first. -/
  inside : List Call
  state : State

namespace Run

variable {α β : Type}

/-- A run and what follows its result. -/
def bind {α β : Type} : Run α → (α → Run β) → Run β
  | done (.ok a), k => k a
  | done (.error f), _ => done (.error f)
  | read next, k => read fun s => (next s).bind k
  | change f next, k => change f (next.bind k)
  | call c inside next, k => call c inside fun b => (next b).bind k

instance : Monad Run where
  pure a := done (.ok a)
  bind := Run.bind

instance : MonadState State Run where
  get := read pure
  set s := change (fun _ => s) (pure ())
  modifyGet f := read fun s => change (fun _ => (f s).2) (pure (f s).1)

/-- Carries out a run. -/
def run {α : Type} : Run α → State → Except Failure α × State
  | done r, s => (r, s)
  | read next, s => (next s).run s
  | change f next, s => next.run (f s)
  | call _ inside next, s =>
    match inside.run s with
    | (.ok b, t) => (next b).run t
    | (.error f, t) => (.error f, t)

/-- The moments of a run that starts in a state while some calls are open. -/
def visits {α : Type} : Run α → List Call → State → List Visit
  | done _, _, _ => []
  | read next, calls, s => (next s).visits calls s
  | change f next, calls, s => ⟨.change, calls, f s⟩ :: next.visits calls (f s)
  | call c inside next, calls, s =>
    ⟨.enter c, calls, s⟩ :: inside.visits (c :: calls) s ++
      ⟨.leave c s, calls, (inside.run s).2⟩ ::
      match inside.run s with
      | (.ok b, t) => (next b).visits calls t
      | (.error _, _) => []

instance : LawfulMonad Run := by
  refine .mk' Run (fun p => ?_) (fun _ _ => rfl) fun p k l => ?_
  · show Run.bind p (fun a => done (.ok a)) = p
    induction p with
    | done r => cases r <;> rfl
    | read next ih => exact congrArg read (funext ih)
    | change f next ih => exact congrArg (change f) ih
    | call c inside next _ ih => exact congrArg (call c inside) (funext ih)
  · show Run.bind (Run.bind p k) l = Run.bind p fun a => Run.bind (k a) l
    induction p with
    | done r => cases r <;> rfl
    | read next ih => exact congrArg read (funext fun s => ih s k)
    | change f next ih => exact congrArg (change f) (ih k)
    | call c inside next _ ih => exact congrArg (call c inside) (funext fun b => ih b k)

theorem run_bind (p : Run α) (k : α → Run β) (s : State) :
    (p >>= k).run s = match p.run s with
      | (.ok a, t) => (k a).run t
      | (.error f, t) => (.error f, t) := by
  show (Run.bind p k).run s = _
  induction p generalizing s with
  | done r => cases r <;> rfl
  | read next ih => exact ih s k s
  | change f next ih => exact ih k (f s)
  | call c inside next _ ih =>
    simp only [Run.bind, run]
    split
    · exact ih _ k _
    · rfl

theorem run_bind_eq_ok {p : Run α} {k : α → Run β} {s t : State} {b : β} :
    (p >>= k).run s = (.ok b, t) ↔ ∃ a u, p.run s = (.ok a, u) ∧ (k a).run u = (.ok b, t) := by
  rw [run_bind]
  constructor
  · intro h
    split at h
    · next a u hrun => exact ⟨a, u, hrun, h⟩
    · cases h
  · rintro ⟨a, u, hrun, h⟩
    rw [hrun]
    exact h

theorem run_get_bind (k : State → Run α) (s : State) : (get >>= k).run s = (k s).run s :=
  rfl

theorem visits_bind (p : Run α) (k : α → Run β) (calls : List Call) (s : State) :
    (p >>= k).visits calls s = p.visits calls s ++ match p.run s with
      | (.ok a, t) => (k a).visits calls t
      | (.error _, _) => [] := by
  show (Run.bind p k).visits calls s = _
  induction p generalizing s with
  | done r => cases r <;> rfl
  | read next ih => exact ih s k s
  | change f next ih => simp only [Run.bind, visits, run, ih, List.cons_append]
  | call c inside next _ ih =>
    simp only [Run.bind, visits, run]
    split
    · simp only [ih, List.cons_append, List.append_assoc]
    · simp only [List.cons_append, List.append_nil]

theorem visits_bind_of_ok {p : Run α} {s t : State} {a : α} (h : p.run s = (.ok a, t))
    (k : α → Run β) (calls : List Call) :
    (p >>= k).visits calls s = p.visits calls s ++ (k a).visits calls t := by
  rw [visits_bind, h]

end Run

/-- Ends a run without a result. -/
def stop {α : Type} (f : Failure) : Run α :=
  .done (.error f)

/-- Fails with an error of the site. -/
def fail {α : Type} (e : CompileError) : Run α :=
  stop (.error e)

/-- A run as a call whose beginning and end are noted. -/
def follow {α : Type} (c : Call) (p : Run α) : Run α :=
  .call c p pure

theorem run_follow {α : Type} (c : Call) (p : Run α) (s : State) :
    (follow c p).run s = p.run s := by
  simp only [follow, Run.run]
  split
  · next b t h => rw [h]; rfl
  · next f t h => rw [h]

theorem visits_follow {α : Type} (c : Call) (p : Run α) (calls : List Call) (s : State) :
    (follow c p).visits calls s =
      ⟨.enter c, calls, s⟩ :: p.visits (c :: calls) s ++ [⟨.leave c s, calls, (p.run s).2⟩] := by
  simp only [follow, Run.visits]
  split <;> rfl

/-- Changes the state. -/
def update (f : State → State) : Run Unit :=
  .change f (return ())

/-- The result of an operation that may fail. -/
def ofExcept {α : Type} : Except CompileError α → Run α
  | .ok a => return a
  | .error e => fail e

/-- What an option holds; it has to hold something. -/
def existing {α : Type} : Option α → Run α
  | some a => return a
  | none => stop .dangling

/-- What a search through the scopes comes to; it has to come to an end. -/
def searched {α : Type} : Option α → Run α
  | some a => return a
  | none => stop .endless

/-- The type at a place. -/
def typeAt (id : TypeId) : Run Descriptor := do
  existing ((← get).types.get? id)

/-- The scope at a place. -/
def scopeAt (id : ScopeId) : Run Scope := do
  existing ((← get).scopes.get? id)

theorem run_typeAt_bind {α : Type} {s : State} {id : TypeId} {d : Descriptor}
    {k : Descriptor → Run α} (hd : s.types.get? id = some d) :
    (typeAt id >>= k).run s = (k d).run s := by
  show (existing (s.types.get? id) >>= k).run s = _
  rw [hd]
  rfl

theorem run_scopeAt_bind {α : Type} {s : State} {id : ScopeId} {c : Scope} {k : Scope → Run α}
    (hc : s.scopes.get? id = some c) : (scopeAt id >>= k).run s = (k c).run s := by
  show (existing (s.scopes.get? id) >>= k).run s = _
  rw [hc]
  rfl

/-- The resource at a place. -/
def resourceAt (id : ResourceId) : Run Resource := do
  existing ((← get).catalog.get? id)

/-- Changes the types. -/
def modifyTypes (f : Registry → Registry) : Run Unit :=
  update fun s => { s with types := f s.types }

/-- Changes the scopes. -/
def modifyScopes (f : Scopes → Scopes) : Run Unit :=
  update fun s => { s with scopes := f s.scopes }

/-- Changes the catalog. -/
def modifyCatalog (f : Catalog → Catalog) : Run Unit :=
  update fun s => { s with catalog := f s.catalog }

/-- Adds a note to the log. -/
def note (text : String) : Run Unit :=
  update fun s => { s with log := s.log ++ [text] }

/-- Adds a scope. -/
def newScope (scope : Scope) : Run ScopeId := do
  let (id, scopes) := (← get).scopes.push scope
  modifyScopes fun _ => scopes
  return id

/-- Adds a resource whose identity is new. -/
def addResource (r : Resource) : Run ResourceId := do
  let (id, catalog) ← ofExcept ((← get).catalog.add r)
  modifyCatalog fun _ => catalog
  return id

/-- Adds a type whose kind and key are new. -/
def addType (d : Descriptor) : Run TypeId := do
  let (id, types) ← ofExcept ((← get).types.add d)
  modifyTypes fun _ => types
  return id

/-- Binds a variable in a scope. -/
def bind (scope : ScopeId) (name : String) (value : Value) : Run Unit := do
  let _ ← scopeAt scope
  modifyScopes (·.bind scope name value)

/-- Assigns a variable that its scope does not bind yet. -/
def assign (scope : ScopeId) (name : String) (value : Value) : Run Unit := do
  let _ ← scopeAt scope
  let scopes ← ofExcept ((← get).scopes.assign scope name value)
  modifyScopes fun _ => scopes

end SiteCatalog.Compilation
