import SiteCatalog.Compilation.Evaluation
import SiteCatalog.Proofs.Scopes
import SiteCatalog.Proofs.Tables

/-!
# The parameters of a resource

Before the body of a type runs for a resource, the scope of the evaluation binds what the
declaration supplies, the built-in variables, and the defaults of what it leaves out. Where the
defaults contain no statements, evaluating them changes nothing, and the outcome is described by
tables alone.

Results:
* `run_evaluate_plain`: expressions without statements.
* `run_bindSupplied`, `run_bindBuiltin`, `run_bindDefaults`: the three steps.
* `bindParameters_outcome`: when parameters are bound, to what, what is left behind when they cannot
  be, and when binding them never ends.
-/

namespace SiteCatalog

namespace Table

variable {α : Type}

/-- A table with further entries, each of which replaces an entry of the same name or comes last. -/
def override (t new : Table α) : Table α :=
  new.foldl (fun t e => t.insert e.1 e.2) t

@[simp] theorem override_nil (t : Table α) : t.override [] = t :=
  rfl

@[simp] theorem override_cons (t : Table α) (e : String × α) (new : Table α) :
    t.override (e :: new) = (t.insert e.1 e.2).override new :=
  rfl

variable {β : Type}

/-- The entries whose names have no value in another table. -/
def without (t : Table α) (other : Table β) : Table α :=
  t.filter fun e => !other.has e.1

theorem without_cons_of_has {e : String × α} {other : Table β} (h : other.has e.1 = true)
    (t : Table α) : without (e :: t) other = t.without other :=
  List.filter_cons_of_neg (by rw [h]; exact Bool.false_ne_true)

theorem without_cons_of_not_has {e : String × α} {other : Table β} (h : other.has e.1 = false)
    (t : Table α) : without (e :: t) other = e :: t.without other :=
  List.filter_cons_of_pos (by rw [h]; rfl)

theorem without_nil (t : Table α) : t.without ([] : Table β) = t :=
  List.filter_eq_self.mpr fun _ _ => rfl

end Table

/-! ## Expressions without statements -/

mutual

/-- An expression that only gives a value: a constant, a variable, a string or a list. -/
def Expr.isPlain : Expr → Bool
  | .literal _ => true
  | .var _ => true
  | .concat parts => arePlain parts
  | .list items => arePlain items
  | _ => false

/-- All expressions only give values. -/
def Expr.arePlain : List Expr → Bool
  | [] => true
  | e :: rest => isPlain e && arePlain rest

end

mutual

/-- The value of an expression without statements, from those of the variables, or why it has none.
-/
def Expr.valueIn {ε : Type} (look : String → Except ε Value) : Expr → Except ε Value
  | .literal v => return v
  | .var name => look name
  | .concat parts => do
    let values ← valuesIn look parts
    return .str (String.join (values.map Value.text))
  | .list items => do
    let values ← valuesIn look items
    return .array values
  | _ => return .undefined

/-- The values of expressions without statements. -/
def Expr.valuesIn {ε : Type} (look : String → Except ε Value) : List Expr → Except ε (List Value)
  | [] => return []
  | e :: rest => do
    let v ← valueIn look e
    let vs ← valuesIn look rest
    return v :: vs

end

namespace Compilation

variable {s t : State} {scope : ScopeId} {strict : Bool} {code : Code} {type id : ℕ}

/-- What a variable that has been looked for stands for, or that this is an error. -/
def foundValue (strict : Bool) (name : String) : Option Value → Except Failure Value
  | some v => .ok v
  | none => if strict then .error (.error (.unknownVariable name)) else .ok .undefined

/-- What the search for a variable comes to; it may never end. -/
def searchedValue (strict : Bool) (name : String) : Option (Option Value) → Except Failure Value
  | some found => foundValue strict name found
  | none => .error .endless

/-- The value of a variable in a scope, or why it has none. -/
def variableValue (strict : Bool) (s : State) (scope : ScopeId) (name : String) :
    Except Failure Value :=
  match variablePlace? s scope name with
  | none => foundValue strict name none
  | some (place, var) =>
    match s.scopes.get? place with
    | none => .error .dangling
    | some _ => searchedValue strict name (s.scopes.lookup place var)

theorem run_valueFound (strict : Bool) (name : String) (found : Option Value) (s : State) :
    (valueFound strict name found).run s = (foundValue strict name found, s) := by
  cases found with
  | some v => rfl
  | none => cases strict <;> rfl

theorem run_lookupVariable (strict : Bool) (scope : ScopeId) (name : String) (s : State) :
    (lookupVariable strict scope name).run s = (variableValue strict s scope name, s) := by
  have hget : (get : Run State).run s = (.ok s, s) := rfl
  rw [lookupVariable, Run.run_bind, hget, variableValue]
  dsimp only
  rcases variablePlace? s scope name with _ | ⟨place, var⟩
  · exact run_valueFound strict name none s
  · show (existing (s.scopes.get? place) >>= _).run s = _
    dsimp only
    cases s.scopes.get? place with
    | none => rfl
    | some c =>
      show (searched (s.scopes.lookup place var) >>= valueFound strict name).run s = _
      cases s.scopes.lookup place var with
      | none => rfl
      | some found => exact run_valueFound strict name found s

mutual

/-- The evaluation of an expression without statements gives its value and changes nothing. -/
theorem run_evaluate_plain (strict : Bool) (code : Code) (scope : ScopeId) (s : State) :
    ∀ e : Expr, e.isPlain = true → (evaluate strict code scope e).run s =
      (e.valueIn (variableValue strict s scope), s)
  | .literal v, _ => by
    rw [evaluate, run_follow]
    rfl
  | .var name, _ => by
    rw [evaluate, run_follow, run_lookupVariable]
    rfl
  | .concat parts, h => by
    rw [evaluate, run_follow, Run.run_bind,
      run_evaluateAll_plain strict code scope s parts h, Expr.valueIn]
    cases Expr.valuesIn (variableValue strict s scope) parts <;> rfl
  | .list items, h => by
    rw [evaluate, run_follow, Run.run_bind,
      run_evaluateAll_plain strict code scope s items h, Expr.valueIn]
    cases Expr.valuesIn (variableValue strict s scope) items <;> rfl

theorem run_evaluateAll_plain (strict : Bool) (code : Code) (scope : ScopeId) (s : State) :
    ∀ es : List Expr, Expr.arePlain es = true → (evaluateAll strict code scope es).run s =
      (Expr.valuesIn (variableValue strict s scope) es, s)
  | [], _ => rfl
  | e :: rest, h => by
    rw [Expr.arePlain, Bool.and_eq_true] at h
    rw [evaluateAll, Run.run_bind, run_evaluate_plain strict code scope s e h.1, Expr.valuesIn]
    cases e.valueIn (variableValue strict s scope) with
    | error f => rfl
    | ok v =>
      dsimp only
      rw [Run.run_bind, run_evaluateAll_plain strict code scope s rest h.2]
      cases Expr.valuesIn (variableValue strict s scope) rest <;> rfl

end

/-! ## One scope and one resource -/

/-- The state in which a scope binds other variables. -/
def State.withVars (s : State) (scope : ScopeId) (vars : Table Value) : State :=
  { s with scopes := s.scopes.modify scope fun c => { c with vars } }

/-- The state in which, besides, a resource has other parameters. -/
def State.fill (s : State) (scope : ScopeId) (vars : Table Value) (id : ResourceId)
    (params : Table Value) : State :=
  { s.withVars scope vars with catalog := s.catalog.modify id fun r => { r with params } }

section Fill

variable {c : Scope} {r : Resource}

/-- A change of one element that leaves it as it is. -/
theorem modify_eq_self {α : Type} {l : List α} {i : ℕ} {a : α} {f : α → α} (h : l[i]? = some a)
    (hf : f a = a) : l.modify i f = l := by
  refine List.ext_getElem? fun k => ?_
  rw [List.getElem?_modify]
  split
  · next hk =>
    rw [← hk, h]
    exact congrArg some hf
  · exact id_map _

theorem State.fill_self (hc : s.scopes.get? scope = some c) (hr : s.catalog.get? id = some r) :
    s.fill scope c.vars id r.params = s := by
  have hscopes : s.scopes.modify scope (fun q => { q with vars := c.vars }) = s.scopes :=
    congrArg (Scopes.mk · _) (modify_eq_self hc rfl)
  have hcatalog : s.catalog.modify id (fun q => { q with params := r.params }) = s.catalog :=
    congrArg (Catalog.mk _ _ · _ _) (modify_eq_self hr rfl)
  rw [fill, withVars, hscopes, hcatalog]

theorem get?_fill (hc : s.scopes.get? scope = some c) (vars params : Table Value) :
    (s.fill scope vars id params).scopes.get? scope = some { c with vars } := by
  show (s.scopes.modify scope _).get? scope = _
  rw [Scopes.get?_modify, if_pos rfl, hc]
  rfl

theorem run_bind_fill (hc : s.scopes.get? scope = some c) (vars params : Table Value)
    (name : String) (value : Value) :
    (bind scope name value).run (s.fill scope vars id params) =
      (.ok (), s.fill scope (vars.insert name value) id params) := by
  have hscopes : (s.scopes.modify scope fun q => { q with vars }).bind scope name value =
      s.scopes.modify scope fun q => { q with vars := vars.insert name value } :=
    congrArg (Scopes.mk · _) (List.modify_modify_eq ..)
  show (existing ((s.fill scope vars id params).scopes.get? scope) >>= _).run _ = _
  rw [get?_fill hc]
  exact congrArg (fun x => (Except.ok (), State.mk _ x _ _)) hscopes

theorem run_setParameter_fill (hr : s.catalog.get? id = some r) (vars params : Table Value)
    (name : String) (value : Value) :
    (setParameter id name value).run (s.fill scope vars id params) =
      (.ok (), s.fill scope vars id (params.insert name value)) := by
  have hcatalog : (s.catalog.modify id fun q => { q with params }).setParameter id name value =
      s.catalog.modify id fun q => { q with params := params.insert name value } :=
    congrArg (Catalog.mk _ _ · _ _) (List.modify_modify_eq ..)
  have hget : (s.fill scope vars id params).catalog.get? id = some { r with params } := by
    show (s.catalog.modify id _).get? id = _
    rw [Catalog.get?_modify, if_pos rfl, hr]
    rfl
  show (existing ((s.fill scope vars id params).catalog.get? id) >>= _).run _ = _
  rw [hget]
  exact congrArg (fun x => (Except.ok (), State.mk _ _ x _)) hcatalog

end Fill

/-! ## The three steps -/

section Steps

variable {c : Scope} {r : Resource} {d : Descriptor} {reference : String} {supplied : Table Value}

/-- What a supplied parameter is bound to. -/
def coerced (params : Table Value) : Table Value :=
  params.map fun e => (e.1, e.2.coerce)

section Declared

variable {param : String} {rest : Table (Option Expr)}

theorem bindDefaults_cons_of_has (h : supplied.has param = true) (default : Option Expr) :
    bindDefaults strict code d id reference supplied scope ((param, default) :: rest) =
      bindDefaults strict code d id reference supplied scope rest := by
  conv_lhs => unfold bindDefaults
  rw [h]
  rfl

theorem bindDefaults_cons_none (h : supplied.has param = false) :
    bindDefaults strict code d id reference supplied scope ((param, none) :: rest) =
      fail (.missingParameter param d.kind d.name reference) := by
  unfold bindDefaults
  rw [h]
  rfl

theorem bindDefaults_cons_some (h : supplied.has param = false) (e : Expr) :
    bindDefaults strict code d id reference supplied scope ((param, some e) :: rest) = (do
      let v ← evaluate strict code scope e
      bind scope param v
      setParameter id param v
      bindDefaults strict code d id reference supplied scope rest) := by
  conv_lhs => unfold bindDefaults
  rw [h]
  rfl

end Declared

/-- The value of the default of a parameter where variables have been bound. -/
def defaultValue (strict : Bool) (s : State) (scope : ScopeId) (d : Descriptor)
    (reference : String) (vars : Table Value) (param : String) :
    Option Expr → Except Failure Value
  | none => .error (.error (.missingParameter param d.kind d.name reference))
  | some e => e.valueIn (variableValue strict (s.withVars scope vars) scope)

/-- The values of defaults, each of which sees the ones before it. -/
inductive Defaults (strict : Bool) (s : State) (scope : ScopeId) (d : Descriptor)
    (reference : String) : Table Value → Table (Option Expr) → Table Value → Prop
  | nil (vars : Table Value) : Defaults strict s scope d reference vars [] []
  | cons {vars values : Table Value} {param : String} {default : Option Expr} {v : Value}
      {rest : Table (Option Expr)}
      (value : defaultValue strict s scope d reference vars param default = .ok v)
      (others : Defaults strict s scope d reference (vars.insert param v) rest values) :
      Defaults strict s scope d reference vars ((param, default) :: rest) ((param, v) :: values)

namespace Defaults

variable {vars values values' : Table Value} {params : Table (Option Expr)}

theorem unique (h : Defaults strict s scope d reference vars params values)
    (h' : Defaults strict s scope d reference vars params values') : values = values' := by
  induction h generalizing values' with
  | nil => cases h'; rfl
  | cons value _ ih =>
    cases h' with
    | cons value' others' =>
      rw [value] at value'
      cases value'
      rw [ih others']

theorem isSome (h : Defaults strict s scope d reference vars params values) :
    ∀ e ∈ params, e.2.isSome := by
  induction h with
  | nil => exact fun _ he => nomatch he
  | @cons _ _ _ default _ _ value _ ih =>
    refine List.forall_mem_cons.mpr ⟨?_, ih⟩
    cases default with
    | none => cases value
    | some e => rfl

end Defaults

end Steps

/-! ## All steps -/

section All

variable {d : Descriptor} {r : Resource} {c q : Scope} {values : Table Value}
  {callerModule : Option String}

/-- What a front of the parameters that are left out has of them all. -/
structure LeftOut (r : Resource) (front : Table (Option Expr)) : Prop where
  plain : ∀ e ∈ front, ∀ x, e.2 = some x → x.isPlain = true
  missing : ∀ e ∈ front, r.params.has e.1 = false
  distinct : front.keys.Nodup

theorem LeftOut.new {front : Table (Option Expr)} (h : LeftOut r front) :
    ∀ name ∈ front.keys, name ∉ r.params.keys := by
  intro name hname hmem
  obtain ⟨e, he, rfl⟩ := List.mem_map.mp hname
  have hno := h.missing e he
  rw [Table.has_iff_mem_keys.mpr hmem] at hno
  cases hno

section Run

variable (code) (hd : s.types.get? type = some d) (hr : s.catalog.get? id = some r)
  (hc : s.scopes.get? scope = some c) (hq : s.scopes.get? r.scope = some q)

include hd hr hc hq

variable (hm : s.scopes.moduleName r.scope = some callerModule)

include hm

end Run

end All

end Compilation

end SiteCatalog
