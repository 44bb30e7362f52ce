import SiteCatalog.Proofs.Compilation.Mirroring

/-!
# Corresponding compilations

Everything that a compilation does depends on its types by what they are and not by where they are,
and an unbound variable is the only thing that strictness decides about.

Results:
* `Mirrors.ensure`, `Mirrors.evaluate`, `Mirrors.evaluateCode`: the parts of a compilation.
* `Mirrors.phases`: a whole compilation.
* `outcome_eq_of_corresponds`: types in other places make no difference to the outcome.
* `outcome_of_lenient`: nor does less strictness if the compilation succeeds.
-/

namespace SiteCatalog.Compilation

open Comparison (Mirrors)

theorem parentNamed_map {σ : Equiv.Perm ℕ} {types types' : Registry} {d d' : Descriptor}
    (h : types.Corresponds σ types') (hd : d.Corresponds σ d') (parent space : String) :
    parentNamed types' d' parent space = (parentNamed types d parent space).map (Option.map σ) := by
  obtain ⟨body, file, -, rfl⟩ := hd
  unfold parentNamed
  cases d.kind with
  | define => rfl
  | node => exact congrArg Except.ok (h.lookup parent)
  | hostclass =>
    refine congrArg Except.ok ?_
    rw [h.find, h.find, Option.map_or]

namespace Comparison.Mirrors

variable {C : Comparison} {scope : ScopeId}

/-! ## Parents -/

theorem cacheParent (t p : TypeId) :
    C.Mirrors (cacheParent t p) (cacheParent (C.σ t) (C.σ p)) fun _ _ => True :=
  .update fun _ _ hs => ⟨hs.types.cache t p, hs.scopes, hs.catalog⟩

theorem resolveParent (t : TypeId) (scope : Option ScopeId) :
    C.Mirrors (resolveParent t scope) (resolveParent (C.σ t) scope)
      fun p p' => p' = p.map C.σ := by
  refine .bind (.typeAt t) ?_
  rintro d _ ⟨body, file, hbody, rfl⟩
  dsimp only
  cases hpar : d.parent with
  | none => exact .pure rfl
  | some parent =>
    cases hres : d.resolved with
    | some known => exact .pure rfl
    | none =>
      cases scope with
      | none => exact .stop _
      | some place =>
        refine .bind (.scopeAt place) ?_
        rintro c _ rfl
        refine .get_bind fun s s' hs => .bind (.ofExcept (f := Option.map C.σ) ?_) ?_
        · exact parentNamed_map hs.types ⟨body, file, hbody, by rw [hres, hpar]⟩ parent _
        · rintro found _ rfl
          cases found with
          | none => exact .stop _
          | some p => exact .bind (.cacheParent t p) fun _ _ _ => .pure rfl

theorem namesOf : ∀ types : List TypeId,
    C.Mirrors (namesOf types) (namesOf (types.map C.σ)) Eq
  | [] => .pure rfl
  | t :: rest => by
    refine .bind (.typeAt t) ?_
    rintro d _ ⟨body, file, -, rfl⟩
    refine .bind (namesOf rest) ?_
    rintro names _ rfl
    exact .pure rfl

theorem climb (place : Option ScopeId) (kind : Kind) : ∀ (fuel : ℕ) (chain : List TypeId)
    (last : TypeId), C.Mirrors (climb place kind fuel chain last)
      (climb place kind fuel (chain.map C.σ) (C.σ last)) fun l l' => l' = l.map C.σ := by
  intro fuel
  induction fuel with
  | zero => exact fun _ _ => .stop _
  | succ fuel ih =>
    intro chain last
    refine .bind (.resolveParent last place) ?_
    rintro p _ rfl
    cases p with
    | none => exact .pure rfl
    | some p =>
      have hcontains : (chain.map C.σ).contains (C.σ p) = chain.contains p := by
        rw [Bool.eq_iff_iff, List.contains_iff_mem, List.contains_iff_mem,
          List.mem_map_of_injective C.σ.injective]
      have happend : chain.map C.σ ++ [C.σ p] = (chain ++ [p]).map C.σ := by simp
      dsimp only [Option.map_some]
      rw [hcontains, happend]
      split
      · refine .bind (.namesOf _) ?_
        rintro names _ rfl
        exact .stop _
      · exact ih _ p

theorem ancestry (t : TypeId) (place : Option ScopeId) :
    C.Mirrors (ancestry t place) (ancestry (C.σ t) place) fun l l' => l' = l.map C.σ := by
  refine .bind (.typeAt t) ?_
  rintro d _ ⟨body, file, -, rfl⟩
  refine .get_bind fun s s' hs => .bind (V := fun l l' => l' = l.map C.σ) ?_ ?_
  · rw [hs.types.length]
    exact .climb place d.kind _ [t] t
  · rintro l _ rfl
    exact .pure (List.map_tail ..).symm

/-! ## Entering classes and nodes -/

theorem realized? (t : TypeId) : C.Mirrors (realized? t) (realized? (C.σ t)) Eq := by
  refine .bind (.typeAt t) ?_
  rintro d _ ⟨body, file, -, rfl⟩
  dsimp only
  split
  · exact .stop _
  · refine .get_bind fun s s' hs => ?_
    have hfind : s'.catalog.resource? (d.resourceTag) (d.resourceTitle) =
        s.catalog.resource? d.resourceTag d.resourceTitle := by
      rw [hs.catalog, Catalog.resource?_rename]
    generalize hfound : s'.catalog.resource? _ _ = found
    obtain rfl := hfound.symm.trans hfind
    cases s.catalog.resource? d.resourceTag d.resourceTitle with
    | none => exact .pure rfl
    | some id =>
      refine .bind (.resourceAt id) ?_
      rintro r _ rfl
      have hsource : (r.rename C.σ).source = some (C.σ t) ↔ r.source = some t :=
        (Option.map_injective C.σ.injective).eq_iff (a := r.source) (b := some t)
      simp only [hsource]
      split
      · exact .pure rfl
      · exact .stop _

theorem addSingleton (t : TypeId) (ancestors : List TypeId) (params : Table Value) :
    C.Mirrors (addSingleton scope t ancestors params)
      (addSingleton scope (C.σ t) (ancestors.map C.σ) params) Eq := by
  refine .bind (.typeAt t) ?_
  rintro d _ ⟨body, file, -, rfl⟩
  refine .bind (.addResource (.ofType d.resourceTag d.resourceTitle scope (some t) params)) ?_
  rintro id _ rfl
  refine .bind (.namesOf ancestors) ?_
  rintro names _ rfl
  exact .bind (.modifyCatalog fun _ => rfl) fun _ _ _ => .pure rfl

theorem realizeChain : ∀ types : List TypeId,
    C.Mirrors (realizeChain scope types) (realizeChain scope (types.map C.σ)) fun _ _ => True
  | [] => .pure trivial
  | t :: ancestors => by
    refine .bind (.realized? t) ?_
    rintro found _ rfl
    cases found with
    | some id => exact .pure trivial
    | none =>
      refine .bind (realizeChain ancestors) fun _ _ _ => ?_
      exact .bind (.addSingleton t ancestors []) fun _ _ _ => .pure trivial

theorem ensure (t : TypeId) (params : Table Value) :
    C.Mirrors (ensure t scope params) (ensure (C.σ t) scope params) Eq := by
  refine .bind (.realized? t) ?_
  rintro found _ rfl
  cases found with
  | some id => exact .pure rfl
  | none =>
    refine .bind (.ancestry t (some scope)) ?_
    rintro ancestors _ rfl
    exact .bind (.realizeChain ancestors) fun _ _ _ => .addSingleton t ancestors params

/-! ## Variables -/

theorem valueFound (name : String) (found : Option Value) :
    C.Mirrors (valueFound C.strict name found) (valueFound C.strict' name found) Eq := by
  cases found with
  | some v => exact .pure rfl
  | none =>
    dsimp only [Compilation.valueFound]
    cases hstrict : C.strict with
    | false =>
      have hstrict' : C.strict' = false := by
        by_contra hne
        rw [C.le (by simpa using hne)] at hstrict
        cases hstrict
      rw [hstrict']
      exact .pure rfl
    | true =>
      cases hstrict' : C.strict' with
      | true => exact .stop _
      | false => exact .waive ⟨hstrict, hstrict', name, rfl⟩

theorem variablePlace?_eq {s s' : State} (hs : s.Corresponds C.σ s') (name : String) :
    variablePlace? s' scope name = variablePlace? s scope name := by
  unfold variablePlace?
  split
  · rfl
  · next type var _ =>
    have hplace : (s'.types.lookup .hostclass type).bind s'.scopes.ofType? =
        (s.types.lookup .hostclass type).bind s.scopes.ofType? := by
      rw [hs.types.lookup, hs.scopes]
      cases s.types.lookup .hostclass type with
      | none => rfl
      | some t => exact s.scopes.ofType?_rename t
    rw [hplace]

theorem lookupVariable (name : String) :
    C.Mirrors (lookupVariable C.strict scope name) (lookupVariable C.strict' scope name) Eq := by
  refine .get_bind fun s s' hs => ?_
  dsimp only
  rw [variablePlace?_eq hs]
  rcases variablePlace? s scope name with _ | ⟨place, var⟩
  · refine .bind (.pure rfl) ?_
    rintro found _ rfl
    exact .valueFound name found
  · refine .bind (.scopeAt place) fun _ _ _ => .get_bind fun u u' hu => .bind (.searched ?_) ?_
    · rw [hu.scopes, Scopes.lookup_rename]
    · rintro found _ rfl
      exact .valueFound name found

/-! ## Classes and resources -/

section Code

variable {code code' : Code} (hcode : ∀ t id, C.Mirrors (code t id) (code' (C.σ t) id) fun _ _ => True)

include hcode

theorem evaluateResource (id : ResourceId) :
    C.Mirrors (evaluateResource code id) (evaluateResource code' id) fun _ _ => True := by
  refine .follow (.bind (.resourceAt id) ?_)
  rintro r _ rfl
  show C.Mirrors _ (if r.evaluated then _ else _) _
  split
  · exact .pure trivial
  · refine .bind (.modifyCatalog fun c => c.modify_rename id fun _ => rfl) fun _ _ _ => ?_
    rw [Resource.source_rename]
    cases r.source with
    | none => exact .pure trivial
    | some t => exact hcode t id

theorem includeClass (name : String) (params : Table Value) :
    C.Mirrors (includeClass code scope name params) (includeClass code' scope name params) Eq := by
  refine .follow (.bind (.scopeAt scope) ?_)
  rintro c _ rfl
  refine .get_bind fun s s' hs => ?_
  simp only [Scope.space_rename, hs.types.find]
  cases s.types.find .hostclass c.space name with
  | none => exact .stop _
  | some t =>
    refine .bind (.ensure t params) ?_
    rintro id _ rfl
    exact .bind (.evaluateResource hcode id) fun _ _ _ => .pure rfl

theorem includeClasses : ∀ names : List String,
    C.Mirrors (includeClasses code scope names) (includeClasses code' scope names) fun _ _ => True
  | [] => .pure trivial
  | name :: rest => .bind (.includeClass hcode name []) fun _ _ _ => includeClasses rest

theorem declareResource (type title : String) (params : Table Value) :
    C.Mirrors (declareResource code scope type title params)
      (declareResource code' scope type title params) Eq := by
  refine .follow ?_
  split
  · exact .includeClass hcode title params
  · split
    · exact .stop _
    · refine .bind (.scopeAt scope) ?_
      rintro c _ rfl
      refine .get_bind fun s s' hs => ?_
      simp only [Scope.space_rename, hs.types.find]
      cases s.types.find .define c.space type with
      | none => exact .addResource (.ofType type title scope none params)
      | some t =>
        refine .bind (.typeAt t) ?_
        rintro d _ ⟨body, file, -, rfl⟩
        exact .addResource (.ofType d.resourceTag title scope (some t) params)

theorem declareResources (type : String) (params : Table Value) (titles : List Value) :
    C.Mirrors (declareResources code scope type params titles)
      (declareResources code' scope type params titles) fun _ _ => True := by
  induction titles with
  | nil => exact .pure trivial
  | cons title rest ih =>
    exact .bind (.declareResource hcode type title.text params) fun _ _ _ => ih

end Code

/-! ## Expressions and bodies -/

variable {code code' : Code}

mutual

theorem evaluate (hcode : ∀ t id, C.Mirrors (code t id) (code' (C.σ t) id) fun _ _ => True)
    (e : Expr) : C.Mirrors (evaluate C.strict code scope e) (evaluate C.strict' code' scope e)
      Eq := by
  rw [evaluate.eq_def, evaluate.eq_def C.strict']
  refine .follow ?_
  cases e with
  | literal v => exact .pure rfl
  | var name => exact .lookupVariable name
  | concat parts =>
    refine .bind (.evaluateAll hcode parts) ?_
    rintro values _ rfl
    exact .pure rfl
  | list items =>
    refine .bind (.evaluateAll hcode items) ?_
    rintro values _ rfl
    exact .pure rfl
  | block statements => exact .evaluateBlock hcode statements
  | assign name value =>
    refine .bind (.evaluate hcode value) ?_
    rintro v _ rfl
    exact .bind (.assign scope name v) fun _ _ _ => .pure rfl
  | includes names => exact .bind (.includeClasses hcode names) fun _ _ _ => .pure rfl
  | classDecl name params =>
    refine .bind (.evaluateParams hcode params) ?_
    rintro values _ rfl
    exact .bind (.includeClass hcode name values) fun _ _ _ => .pure rfl
  | declare type title params =>
    refine .bind (.evaluate hcode title) ?_
    rintro v _ rfl
    refine .bind (.evaluateParams hcode params) ?_
    rintro values _ rfl
    exact .bind (.declareResources hcode type values (titles v)) fun _ _ _ => .pure rfl
termination_by structural e

theorem evaluateAll (hcode : ∀ t id, C.Mirrors (code t id) (code' (C.σ t) id) fun _ _ => True)
    (es : List Expr) : C.Mirrors (evaluateAll C.strict code scope es)
      (evaluateAll C.strict' code' scope es) Eq := by
  cases es with
  | nil => exact .pure rfl
  | cons e rest =>
    refine .bind (.evaluate hcode e) ?_
    rintro v _ rfl
    refine .bind (.evaluateAll hcode rest) ?_
    rintro vs _ rfl
    exact .pure rfl
termination_by structural es

theorem evaluateBlock (hcode : ∀ t id, C.Mirrors (code t id) (code' (C.σ t) id) fun _ _ => True)
    (es : List Expr) {last : Value} : C.Mirrors (evaluateBlock C.strict code scope last es)
      (evaluateBlock C.strict' code' scope last es) Eq := by
  cases es with
  | nil => exact .pure rfl
  | cons e rest =>
    refine .bind (.evaluate hcode e) ?_
    rintro v _ rfl
    exact .evaluateBlock hcode rest
termination_by structural es

theorem evaluateParams (hcode : ∀ t id, C.Mirrors (code t id) (code' (C.σ t) id) fun _ _ => True)
    (params : List (String × Expr)) : C.Mirrors (evaluateParams C.strict code scope params)
      (evaluateParams C.strict' code' scope params) Eq := by
  cases params with
  | nil => exact .pure rfl
  | cons param rest =>
    refine .bind (.evaluateParam hcode param) ?_
    rintro v _ rfl
    refine .bind (.evaluateParams hcode rest) ?_
    rintro vs _ rfl
    exact .pure rfl
termination_by structural params

theorem evaluateParam (hcode : ∀ t id, C.Mirrors (code t id) (code' (C.σ t) id) fun _ _ => True)
    (param : String × Expr) : C.Mirrors (evaluateParam C.strict code scope param)
      (evaluateParam C.strict' code' scope param) Eq := by
  obtain ⟨name, e⟩ := param
  refine .bind (.evaluate hcode e) ?_
  rintro v _ rfl
  exact .pure rfl
termination_by structural param

end

theorem note (text text' : String) : C.Mirrors (note text) (note text') fun _ _ => True :=
  .update fun _ _ hs => ⟨hs.types, hs.scopes, hs.catalog⟩

mutual

theorem runBody (hcode : ∀ t id, C.Mirrors (code t id) (code' (C.σ t) id) fun _ _ => True)
    {t : TypeId} {id : ResourceId} (b : Body) : C.Mirrors (runBody C.strict code t id scope b)
      (runBody C.strict' code' (C.σ t) id scope b) fun _ _ => True := by
  cases b with
  | code e => exact .bind (.evaluate hcode e) fun _ _ _ => .pure trivial
  | linked b =>
    refine .bind (.note _ _) fun _ _ _ => .bind (.includeClasses hcode b.includes) fun _ _ _ => ?_
    cases b.refusal with
    | none => exact .pure trivial
    | some text => exact .stop _
  | sequence parts => exact .runBodies hcode parts
termination_by structural b

theorem runBodies (hcode : ∀ t id, C.Mirrors (code t id) (code' (C.σ t) id) fun _ _ => True)
    {t : TypeId} {id : ResourceId} (parts : List Body) :
    C.Mirrors (runBodies C.strict code t id scope parts)
      (runBodies C.strict' code' (C.σ t) id scope parts) fun _ _ => True := by
  cases parts with
  | nil => exact .pure trivial
  | cons b rest =>
    exact .bind (.runBody hcode b) fun _ _ _ => .runBodies hcode rest
termination_by structural parts

end

/-! ## The evaluation of a resource -/

section Evaluation

variable {d d' : Descriptor} {id : ResourceId}

theorem bindSupplied (hd : d.Corresponds C.σ d') (reference : String) : ∀ params : Table Value,
    C.Mirrors (bindSupplied d reference scope params) (bindSupplied d' reference scope params)
      fun _ _ => True
  | [] => .pure trivial
  | (param, value) :: rest => by
    have hrest := bindSupplied hd reference rest
    obtain ⟨body, file, -, rfl⟩ := hd
    unfold Compilation.bindSupplied
    show C.Mirrors _ (if d.acceptsParameter param then _ else _) _
    split
    · exact .bind (.bindVariable scope param _) fun _ _ _ => hrest
    · exact .stop _

theorem bindBuiltin (supplied : Table Value) : ∀ params : Table Value,
    C.Mirrors (bindBuiltin supplied scope params) (bindBuiltin supplied scope params)
      fun _ _ => True
  | [] => .pure trivial
  | (name, value) :: rest => by
    unfold Compilation.bindBuiltin
    split
    · exact .bind (.bindVariable scope name value) fun _ _ _ => bindBuiltin supplied rest
    · exact bindBuiltin supplied rest

theorem setParameter (param : String) (value : Value) :
    C.Mirrors (setParameter id param value) (setParameter id param value) fun _ _ => True :=
  .bind (.resourceAt id) fun _ _ _ => .modifyCatalog fun c => c.modify_rename id fun _ => rfl

variable (hcode : ∀ t id, C.Mirrors (code t id) (code' (C.σ t) id) fun _ _ => True)

include hcode

theorem bindDefaults (hd : d.Corresponds C.σ d') (reference : String) (supplied : Table Value) :
    ∀ params : Table (Option Expr),
      C.Mirrors (bindDefaults C.strict code d id reference supplied scope params)
        (bindDefaults C.strict' code' d' id reference supplied scope params) fun _ _ => True
  | [] => .pure trivial
  | (param, default) :: rest => by
    have hrest := bindDefaults hd reference supplied rest
    unfold Compilation.bindDefaults
    split
    · cases default with
      | none =>
        obtain ⟨body, file, -, rfl⟩ := hd
        exact .stop _
      | some e =>
        refine .bind (.evaluate hcode e) ?_
        rintro v _ rfl
        refine .bind (.bindVariable scope param v) fun _ _ _ => ?_
        exact .bind (.setParameter param v) fun _ _ _ => hrest
    · exact hrest

theorem bindParameters (t : TypeId) :
    C.Mirrors (bindParameters C.strict code t id scope)
      (bindParameters C.strict' code' (C.σ t) id scope) fun _ _ => True := by
  refine .bind (.typeAt t) fun d d' hd => .bind (.resourceAt id) ?_
  rintro r _ rfl
  refine .bind (.scopeAt r.scope) fun _ _ _ => .get_bind fun s s' hs => ?_
  have hmodule : s'.scopes.moduleName r.scope = s.scopes.moduleName r.scope := by
    rw [hs.scopes, Scopes.moduleName_rename]
  refine .bind (.searched hmodule) ?_
  rintro callerModule _ rfl
  have hvariables : builtinVariables d' (r.rename C.σ) callerModule =
      builtinVariables d r callerModule := by
    obtain ⟨body, file, -, rfl⟩ := hd
    rfl
  refine .bind (.bindSupplied hd r.reference r.params) fun _ _ _ => ?_
  refine .bind (V := fun _ _ => True) ?_ fun _ _ _ => ?_
  · show C.Mirrors _ (Compilation.bindBuiltin r.params scope
      (builtinVariables d' (r.rename C.σ) callerModule)) _
    rw [hvariables]
    exact .bindBuiltin _ _
  · have hd₀ := hd
    obtain ⟨body, file, -, rfl⟩ := hd
    exact bindDefaults hcode hd₀ r.reference r.params d.parameters

theorem runOptional {t : TypeId} : ∀ b : Option Body,
    C.Mirrors (runOptional C.strict code t id scope b)
      (runOptional C.strict' code' (C.σ t) id scope b) fun _ _ => True
  | none => .pure trivial
  | some b => .runBody hcode b

theorem runInScope (hd : d.Corresponds C.σ d') (t : TypeId) :
    C.Mirrors (runInScope C.strict code t d id scope)
      (runInScope C.strict' code' (C.σ t) d' id scope) fun _ _ => True := by
  obtain ⟨body, file, hbody, rfl⟩ := hd
  have hrun : C.Mirrors (Compilation.follow (.body t id scope)
      (Compilation.runOptional C.strict code t id scope d.body))
      (Compilation.follow (.body (C.σ t) id scope)
        (Compilation.runOptional C.strict' code' (C.σ t) id scope body)) fun _ _ => True :=
    .follow (.of_run_eq (.runOptional hcode d.body) (hbody _ _ _ _ _))
  have hrecord : C.Mirrors (Compilation.modifyScopes (·.setOfType t scope))
      (Compilation.modifyScopes (·.setOfType (C.σ t) scope)) fun _ _ => True :=
    .modifyScopes fun s => s.setOfType_rename t scope
  refine .bind (.bindParameters hcode t) fun _ _ _ => ?_
  dsimp only
  split
  · exact .bind hrecord fun _ _ _ => hrun
  · exact hrun

theorem evaluateParent (t : TypeId) (enclosing : ScopeId) :
    C.Mirrors (evaluateParent code t enclosing scope)
      (evaluateParent code' (C.σ t) enclosing scope) fun _ _ => True := by
  refine .bind (.ancestry t (some scope)) ?_
  rintro chain _ rfl
  cases chain with
  | nil => exact .pure trivial
  | cons parent rest =>
    refine .bind (.ensure parent []) ?_
    rintro id _ rfl
    refine .bind (.evaluateResource hcode id) fun _ _ _ => .get_bind fun s s' hs => ?_
    rw [hs.scopes, Scopes.ofType?_rename]
    cases s.scopes.ofType? parent with
    | none => exact .pure trivial
    | some above =>
      exact .bind (.scopeAt scope) fun _ _ _ =>
        .modifyScopes fun s => s.setParent_rename scope above

omit hcode in
theorem evaluationScope (hd : d.Corresponds C.σ d') (t : TypeId) (r : Resource) :
    C.Mirrors (evaluationScope t d id r) (evaluationScope (C.σ t) d' id (r.rename C.σ)) Eq := by
  obtain ⟨body, file, -, rfl⟩ := hd
  unfold Compilation.evaluationScope
  show C.Mirrors _ (if d.kind = .hostclass ∧ r.title = mainTitle then _ else _) _
  split
  · exact .pure rfl
  · exact .newScope _

theorem enter (t : TypeId) (id : ResourceId) : C.Mirrors (enter C.strict code t id)
    (enter C.strict' code' (C.σ t) id) fun _ _ => True := by
  refine .bind (.typeAt t) fun d d' hd => .bind (.resourceAt id) ?_
  rintro r _ rfl
  have hd₀ := hd
  obtain ⟨body, file, -, rfl⟩ := hd
  have hrest : C.Mirrors (do
      let scope ← Compilation.evaluationScope t d id r
      if d.parent.isSome ∧ d.kind ≠ .define then Compilation.evaluateParent code t r.scope scope
      Compilation.runInScope C.strict code t d id scope : Run Unit) (do
      let d' : Descriptor := { d with body, file, resolved := d.resolved.map C.σ }
      let scope ← Compilation.evaluationScope (C.σ t) d' id (r.rename C.σ)
      if d.parent.isSome ∧ d.kind ≠ .define then
        Compilation.evaluateParent code' (C.σ t) r.scope scope
      Compilation.runInScope C.strict' code' (C.σ t) d' id scope : Run Unit) fun _ _ => True := by
    refine .bind (.evaluationScope hd₀ t r) ?_
    rintro scope _ rfl
    dsimp only
    split
    · exact .bind (.evaluateParent hcode t r.scope) fun _ _ _ => .runInScope hcode hd₀ t
    · exact .runInScope hcode hd₀ t
  dsimp only
  split
  · exact .bind (.modifyCatalog fun _ => rfl) fun _ _ _ => hrest
  · exact hrest

end Evaluation

theorem evaluateCode : ∀ (depth : ℕ) (t : TypeId) (id : ResourceId),
    C.Mirrors (evaluateCode C.strict depth t id) (evaluateCode C.strict' depth (C.σ t) id)
      fun _ _ => True := by
  intro depth
  induction depth with
  | zero => exact fun _ _ => .stop _
  | succ depth ih => exact fun t id => .follow (.enter ih t id)

theorem runCode (t : TypeId) (id : ResourceId) :
    C.Mirrors (runCode C.strict t id) (runCode C.strict' (C.σ t) id) fun _ _ => True :=
  .get_bind fun s s' hs => by
    rw [hs.types.length]
    exact .evaluateCode _ t id

/-! ## The phases -/

theorem bindAtTop : ∀ facts : Table Value,
    C.Mirrors (bindAtTop facts) (bindAtTop facts) fun _ _ => True
  | [] => .pure trivial
  | (name, value) :: rest => .bind (.bindVariable Scopes.top name value) fun _ _ _ => bindAtTop rest

theorem evaluateAtTop (t : TypeId) :
    C.Mirrors (evaluateAtTop C.strict t) (evaluateAtTop C.strict' (C.σ t)) fun _ _ => True := by
  refine .bind (.ensure t []) ?_
  rintro id _ rfl
  exact .evaluateResource .runCode id

theorem addType {d : Descriptor} (hd : d.resolved = none) :
    C.Mirrors (addType d) (addType d) fun t t' => t' = C.σ t := by
  refine .get_bind fun s s' hs => ?_
  refine .bind (V := fun x x' => x'.1 = C.σ x.1 ∧ x.2.Corresponds C.σ x'.2) ?_ ?_
  · unfold Registry.add
    rw [hs.types.ofKey?]
    cases s.types.ofKey? d.kind d.key with
    | some t => exact .stop _
    | none =>
      refine .pure ⟨?_, hs.types.append (.of_unresolved hd)⟩
      rw [hs.types.length]
      exact (hs.types.fixed _ le_rfl).symm
  · rintro ⟨t, types⟩ ⟨_, types'⟩ ⟨rfl, htypes⟩
    exact .bind (.update fun _ _ hu => ⟨htypes, hu.scopes, hu.catalog⟩) fun _ _ _ => .pure rfl

theorem evaluateMain :
    C.Mirrors (evaluateMain C.strict) (evaluateMain C.strict') fun _ _ => True := by
  refine .get_bind fun s s' hs => ?_
  dsimp only
  rw [hs.types.lookup]
  cases s.types.lookup .hostclass "" with
  | some t => exact .evaluateAtTop t
  | none =>
    refine .bind (.addType rfl) ?_
    rintro t _ rfl
    exact .evaluateAtTop t

theorem evaluateNode (host : Host) :
    C.Mirrors (evaluateNode C.strict host) (evaluateNode C.strict' host) fun _ _ => True := by
  refine .get_bind fun s s' hs => ?_
  dsimp only
  rw [hs.types.nodeFor, hs.types.isEmpty_idsOf]
  cases s.types.nodeFor host.candidates with
  | some t => exact .evaluateAtTop t
  | none =>
    dsimp only [Option.map_none]
    split
    · exact .pure trivial
    · exact .stop _

theorem evaluateResources : ∀ ids : List ResourceId,
    C.Mirrors (evaluateResources (Compilation.runCode C.strict) ids)
      (evaluateResources (Compilation.runCode C.strict') ids) fun _ _ => True
  | [] => .pure trivial
  | id :: rest => .bind (.evaluateResource .runCode id) fun _ _ _ => evaluateResources rest

theorem evaluateDefinitions : ∀ rounds : ℕ,
    C.Mirrors (evaluateDefinitions (Compilation.runCode C.strict) rounds)
      (evaluateDefinitions (Compilation.runCode C.strict') rounds) Eq := by
  intro rounds
  induction rounds with
  | zero => exact .stop _
  | succ rounds ih =>
    refine .get_bind fun s s' hs => ?_
    dsimp only
    rw [hs.catalog, Catalog.unevaluated_rename]
    split
    · exact .pure rfl
    · refine .bind (.evaluateResources _) fun _ _ _ => .bind ih ?_
      rintro later _ rfl
      exact .pure rfl

theorem phases (rounds : ℕ) (host : Host) {settings settings' : Settings}
    (hstrict : settings.strictVariables = C.strict)
    (hstrict' : settings'.strictVariables = C.strict') :
    C.Mirrors (phases rounds host settings) (phases rounds host settings') fun _ _ => True := by
  unfold Compilation.phases
  rw [hstrict, hstrict']
  refine .bind (.bindAtTop _) fun _ _ _ => .bind .evaluateMain fun _ _ _ => ?_
  refine .bind (.evaluateNode host) fun _ _ _ => ?_
  refine .bind (.includeClasses .runCode host.classes) fun _ _ _ => ?_
  refine .bind (.evaluateDefinitions rounds) fun _ _ _ => ?_
  exact .modifyCatalog fun c => c.finalize_rename

end Comparison.Mirrors

/-! ## Outcomes -/

/-- What a compilation comes to: the document of a catalog, or a failure. -/
def outcome (rounds : ℕ) (types : Registry) (host : Host) (settings : Settings) :
    Except Failure CatalogDocument :=
  match compile rounds types host settings with
  | (.ok (), t) => .ok (.ofCatalog t.catalog)
  | (.error f, _) => .error f

section Outcome

variable {types types' : Registry} {settings settings' : Settings}

theorem Comparison.outcome (C : Comparison) (h : types.Corresponds C.σ types')
    (hstrict : settings.strictVariables = C.strict)
    (hstrict' : settings'.strictVariables = C.strict') (rounds : ℕ) (host : Host) :
    match outcome rounds types host settings with
    | .ok doc => outcome rounds types' host settings' = .ok doc
    | .error f => C.Waives f ∨ outcome rounds types' host settings' = .error f := by
  have hstart : (State.initial types host).Corresponds C.σ (.initial types' host) := ⟨h, rfl, rfl⟩
  have hrun := Mirrors.phases rounds host hstrict hstrict' _ _ hstart
  unfold Compilation.outcome compile
  split at hrun
  · next hfirst =>
    obtain ⟨_, t', hsecond, ht, -⟩ := hrun
    rw [hfirst, hsecond]
    simp only [ht.catalog, Catalog.document_rename]
  · next f t hfirst =>
    rw [hfirst]
    refine hrun.imp_right ?_
    rintro ⟨t', hsecond⟩
    rw [hsecond]

/-- Where the types of a site are makes no difference to what a compilation comes to. -/
theorem outcome_eq_of_corresponds {σ : Equiv.Perm ℕ} (h : types.Corresponds σ types')
    (rounds : ℕ) (host : Host) (settings : Settings) :
    outcome rounds types' host settings = outcome rounds types host settings := by
  have hstrict : settings.strictVariables = settings.strictVariables := rfl
  have hrun := Comparison.outcome ⟨σ, settings.strictVariables, settings.strictVariables, id⟩ h
    hstrict hstrict rounds host
  split at hrun
  · next hfirst => rw [hfirst, hrun]
  · next f hfirst =>
    rcases hrun with ⟨ht, hf, -⟩ | hrun
    · cases ht.symm.trans hf
    · rw [hfirst, hrun]

/-- A compilation that succeeds comes to the same if it is less strict. -/
theorem outcome_of_lenient {rounds : ℕ} {host : Host} {doc : CatalogDocument}
    (hle : settings'.strictVariables = true → settings.strictVariables = true)
    (h : outcome rounds types host settings = .ok doc) :
    outcome rounds types host settings' = .ok doc := by
  have hrun := Comparison.outcome ⟨.refl ℕ, _, _, hle⟩ (.refl types) rfl rfl rounds host
  rw [h] at hrun
  exact hrun

end Outcome

end SiteCatalog.Compilation
