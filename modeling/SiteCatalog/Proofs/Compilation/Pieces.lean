import SiteCatalog.Compilation.Evaluation

/-!
# The pieces of bodies

Expressions and bodies are put together from few kinds of pieces: a variable is looked up or
assigned, a class is included, a resource is declared, a note is made. What holds of the pieces, and
of runs that are put together from such runs, holds of every body.

Results:
* `Pieces`: what has to be shown of the pieces.
* `Pieces.evaluate`, `Pieces.runBody`: what follows for expressions and bodies.
-/

namespace SiteCatalog.Compilation

/-- A property `W` of runs in a scope that begin in states that satisfy `A`: the pieces of bodies
have it, and so have runs that are put together from runs that have it. -/
structure Pieces (strict : Bool) (code : Code) (scope : ScopeId) (A : List Call → State → Prop)
    (W : (α : Type) → List Call → State → Run α → Prop) : Prop where
  pure : ∀ {α calls s} (a : α), A calls s → W α calls s (pure a)
  fail : ∀ {α calls s} e, A calls s → W α calls s (fail e)
  bind : ∀ {α β calls s} {p : Run α} {k : α → Run β}, A calls s → W α calls s p →
    (∀ a t, A calls t → W β calls t (k a)) → W β calls s (p >>= k)
  follow : ∀ {calls s} e {p : Run Value}, A calls s →
    (A (.evaluate scope e :: calls) s → W Value (.evaluate scope e :: calls) s p) →
    W Value calls s (follow (.evaluate scope e) p)
  lookupVariable : ∀ {calls s} name, A calls s →
    W Value calls s (lookupVariable strict scope name)
  assign : ∀ {calls s} name value, A calls s → W Unit calls s (assign scope name value)
  includeClass : ∀ {calls s} name params, A calls s →
    W ResourceId calls s (includeClass code scope name params)
  declareResource : ∀ {calls s} type title params, A calls s →
    W ResourceId calls s (declareResource code scope type title params)
  note : ∀ {calls s} text, A calls s → W Unit calls s (note text)

namespace Pieces

variable {strict : Bool} {code : Code} {scope : ScopeId} {A : List Call → State → Prop}
  {W : (α : Type) → List Call → State → Run α → Prop} {calls : List Call} {s : State}

theorem includeClasses (h : Pieces strict code scope A W) : ∀ (names : List String) {s : State},
    A calls s → W Unit calls s (includeClasses code scope names) := by
  intro names
  induction names with
  | nil => exact fun ha => h.pure () ha
  | cons name rest ih => exact fun ha => h.bind ha (h.includeClass name [] ha) fun _ t ht => ih ht

theorem declareResources (h : Pieces strict code scope A W) (type : String)
    (params : Table Value) : ∀ (titles : List Value) {s : State}, A calls s →
      W Unit calls s (declareResources code scope type params titles) := by
  intro titles
  induction titles with
  | nil => exact fun ha => h.pure () ha
  | cons title rest ih =>
    exact fun ha => h.bind ha (h.declareResource type title.text params ha) fun _ t ht => ih ht

/-! ## Expressions -/

mutual

theorem evaluate (h : Pieces strict code scope A W) (e : Expr) {calls : List Call} {s : State}
    (ha : A calls s) : W Value calls s (evaluate strict code scope e) := by
  rw [evaluate.eq_def]
  refine h.follow e ha fun ha => ?_
  cases e with
  | literal v => exact h.pure v ha
  | var name => exact h.lookupVariable name ha
  | concat parts => exact h.bind ha (h.evaluateAll parts ha) fun _ t ht => h.pure _ ht
  | list items => exact h.bind ha (h.evaluateAll items ha) fun _ t ht => h.pure _ ht
  | block statements => exact h.evaluateBlock statements ha
  | assign name value =>
    refine h.bind ha (h.evaluate value ha) fun v t ht => ?_
    exact h.bind ht (h.assign name v ht) fun _ u hu => h.pure _ hu
  | includes names => exact h.bind ha (h.includeClasses names ha) fun _ t ht => h.pure _ ht
  | classDecl name params =>
    refine h.bind ha (h.evaluateParams params ha) fun values t ht => ?_
    exact h.bind ht (h.includeClass name values ht) fun _ u hu => h.pure _ hu
  | declare type title params =>
    refine h.bind ha (h.evaluate title ha) fun v t ht => ?_
    refine h.bind ht (h.evaluateParams params ht) fun values u hu => ?_
    exact h.bind hu (h.declareResources type values (titles v) hu) fun _ w hw => h.pure _ hw
termination_by structural e

theorem evaluateAll (h : Pieces strict code scope A W) (es : List Expr) {calls : List Call}
    {s : State} (ha : A calls s) :
    W (List Value) calls s (evaluateAll strict code scope es) := by
  cases es with
  | nil => exact h.pure _ ha
  | cons e rest =>
    refine h.bind ha (h.evaluate e ha) fun v t ht => ?_
    exact h.bind ht (h.evaluateAll rest ht) fun _ u hu => h.pure _ hu
termination_by structural es

theorem evaluateBlock (h : Pieces strict code scope A W) (es : List Expr) {last : Value}
    {calls : List Call} {s : State} (ha : A calls s) :
    W Value calls s (evaluateBlock strict code scope last es) := by
  cases es with
  | nil => exact h.pure _ ha
  | cons e rest => exact h.bind ha (h.evaluate e ha) fun v t ht => h.evaluateBlock rest ht
termination_by structural es

theorem evaluateParams (h : Pieces strict code scope A W) (params : List (String × Expr))
    {calls : List Call} {s : State} (ha : A calls s) :
    W (Table Value) calls s (evaluateParams strict code scope params) := by
  cases params with
  | nil => exact h.pure _ ha
  | cons param rest =>
    refine h.bind ha (h.evaluateParam param ha) fun v t ht => ?_
    exact h.bind ht (h.evaluateParams rest ht) fun _ u hu => h.pure _ hu
termination_by structural params

theorem evaluateParam (h : Pieces strict code scope A W) (param : String × Expr)
    {calls : List Call} {s : State} (ha : A calls s) :
    W (String × Value) calls s (evaluateParam strict code scope param) := by
  obtain ⟨name, e⟩ := param
  exact h.bind ha (h.evaluate e ha) fun _ t ht => h.pure _ ht
termination_by structural param

end

/-! ## Bodies -/

theorem runLinked (h : Pieces strict code scope A W) {type : TypeId} {id : ResourceId}
    (b : LinkedBody) (ha : A calls s) : W Unit calls s (runLinked code type id scope b) := by
  refine h.bind ha (h.note _ ha) fun _ t ht => ?_
  refine h.bind ht (h.includeClasses b.includes ht) fun _ u hu => ?_
  split
  · exact h.fail _ hu
  · exact h.pure () hu

mutual

theorem runBody (h : Pieces strict code scope A W) {type : TypeId} {id : ResourceId} (b : Body)
    {calls : List Call} {s : State} (ha : A calls s) :
    W Unit calls s (runBody strict code type id scope b) := by
  cases b with
  | code e => exact h.bind ha (h.evaluate e ha) fun _ t ht => h.pure () ht
  | linked b => exact h.runLinked b ha
  | sequence parts => exact h.runBodies parts ha
termination_by structural b

theorem runBodies (h : Pieces strict code scope A W) {type : TypeId} {id : ResourceId}
    (parts : List Body) {calls : List Call} {s : State} (ha : A calls s) :
    W Unit calls s (runBodies strict code type id scope parts) := by
  cases parts with
  | nil => exact h.pure () ha
  | cons b rest => exact h.bind ha (h.runBody b ha) fun _ t ht => h.runBodies rest ht
termination_by structural parts

end

end Pieces

end SiteCatalog.Compilation
