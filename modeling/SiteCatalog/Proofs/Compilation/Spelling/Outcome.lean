import SiteCatalog.Proofs.Compilation.AfterFacts
import SiteCatalog.Proofs.Compilation.Simulation
import SiteCatalog.Proofs.Compilation.Spelling.Entering

/-!
# Passing a default explicitly

A declaration that passes the constant default of a parameter comes to the same as the declaration
that leaves it out: to the same failure, or to the same catalog but for the order of the parameters
of a resource and the version. Since passed values are coerced before they are bound, values that
are computed from the parameter are equal only after coercion, unless coercion leaves the default as
it is.

Results:
* `Related.start`, `evaluateMain_alongside`: the first phases.
* `Related.like_document`: the catalogs at the end.
* `outcome_of_spelled`: spelling defaults out makes no difference to what a compilation comes to.
* `not_outcome_eq_spelled`: where it makes one.
-/

namespace SiteCatalog

/-- The same resource with the same parameters in some order, with values that `V` relates. -/
structure ResourceEntry.Like (V : Value → Value → Prop) (e e' : ResourceEntry) : Prop where
  type : e'.type = e.type
  title : e'.title = e.title
  parameters : ∃ params, List.Forall₂ (Table.SameEntry V) e.parameters params ∧
    params.Perm e'.parameters

/-- The same catalog, with values that `V` relates. The version, which is computed from the rest,
does not count. -/
structure CatalogDocument.Like (V : Value → Value → Prop) (doc doc' : CatalogDocument) : Prop where
  name : doc'.name = doc.name
  classes : doc'.classes = doc.classes
  tags : doc'.tags = doc.tags
  resources : List.Forall₂ (ResourceEntry.Like V) doc.resources doc'.resources

theorem Pointwise.forall₂ {α β : Type} {R : α → β → Prop} : ∀ {l : List α} {l' : List β},
    Pointwise (fun _ => R) l l' → List.Forall₂ R l l'
  | [], [], _ => .nil
  | [], _ :: _, h => nomatch h 0
  | _ :: _, [], h => nomatch h 0
  | _ :: _, _ :: _, h => by
    have hhead := h 0
    cases hhead with
    | some hR => exact .cons hR (forall₂ fun i => h (i + 1))

namespace Compilation

/-! ## The start -/

/-- After the facts have been bound, only the top exists. -/
def State.onlyTop (types : Registry) (host : Host) (vars : Table Value) : State :=
  ⟨types, ⟨[{ vars }], []⟩, .empty host.name, []⟩

theorem withFacts_onlyTop (host : Host) (facts : Table Value) : ∀ vars : Table Value, ∃ vars',
    ∀ types, (State.onlyTop types host vars).withFacts facts = .onlyTop types host vars' := by
  induction facts with
  | nil => exact fun vars => ⟨vars, fun _ => rfl⟩
  | cons fact rest ih => exact fun vars => ih (vars.insert fact.1 fact.2)

/-- The facts of a host are bound to the same effect whatever the types are. -/
theorem run_bindAtTop_initial (host : Host) : ∃ vars, ∀ types,
    (bindAtTop host.allFacts).run (.initial types host) = (.ok (), .onlyTop types host vars) := by
  obtain ⟨vars, hvars⟩ := withFacts_onlyTop host host.allFacts []
  exact ⟨vars, fun types => (run_bindAtTop host.allFacts rfl).trans
    (congrArg (Except.ok (), ·) (hvars types))⟩

/-- The unnamed class is added where there is none. -/
theorem run_addType_main {s : State} (h : s.types.lookup .hostclass "" = none) :
    (addType (.ofName .hostclass "")).run s =
      (.ok s.types.types.length, { s with types := s.types.withMain }) := by
  have hadd : s.types.add (.ofName .hostclass "") = .ok (s.types.types.length,
      { s.types with types := s.types.types ++ [.ofName .hostclass ""] }) :=
    Registry.add_of_ofKey?_eq_none h
  show (ofExcept (s.types.add (.ofName .hostclass "")) >>= fun x =>
    modifyTypes (fun _ => x.2) >>= fun _ => pure x.1 : Run TypeId).run s = _
  rw [hadd, Registry.withMain_of_none h]
  rfl

namespace Spelling

variable {S : Spelling}

/-- The top, before the resource of the unnamed class exists. -/
def Frame.atTop : Frame :=
  ⟨[(Scopes.top, "")], [], [], [], false⟩

theorem Frame.places_atTop : atTop.Places Scopes.top :=
  ⟨⟨"", List.mem_cons_self⟩, List.not_mem_nil, .inr rfl⟩

theorem Frame.sees_atTop : atTop.enter.Sees Scopes.top "" :=
  ⟨List.mem_cons_self, List.not_mem_nil, rfl⟩

/-- Two compilations of sites with an unnamed class start alike. -/
theorem Related.start {types types' : Registry} (hmain : types.types = S.types.withMain.types)
    (h : Pointwise (fun _ => S.added.TypeSpelled) types.types types'.types) (host : Host)
    (vars : Table Value) :
    S.Related Frame.atTop (.onlyTop types host vars) (.onlyTop types' host vars) where
  origin := by
    rw [← hmain]
    exact .of_forall _ fun _ d _ => ⟨d.resolved, rfl⟩
  types := h
  arena := .of_forall _ fun _ c _ =>
    ⟨c.vars, rfl, fun _ => List.forall₂_same.mpr fun _ _ => S.likeness.refl _⟩
  ofTypes := rfl
  resources := fun _ => .none
  catalog := rfl
  fits := {
    spaces := List.forall_mem_singleton.mpr ⟨_, rfl, rfl⟩
    hidden := List.forall_mem_nil _
    parents := List.forall_mem_singleton.mpr fun _ hp => nomatch hp
    classes := List.forall_mem_nil _
    declared := List.forall_mem_nil _
    preparing := List.forall_mem_nil _
    begun := List.forall_mem_nil _
    singleton := List.forall_mem_nil _
    entered := fun hentered => nomatch hentered }

theorem evaluateAtTop_main {t : TypeId} {d : Descriptor} (hd : S.types.withMain.get? t = some d)
    (hmain : d.IsMain) {s s' : State} (hs : S.Related Frame.atTop s s')
    (hempty : s.catalog.resources = []) :
    (evaluateAtTop S.strict t).Alongside (evaluateAtTop S.strict t) s s' fun _ _ u u' =>
      S.Related Frame.atTop.enter u u' := by
  refine (Mirrors.ensure_main hd hmain Frame.places_atTop hs hempty).bind ?_
  rintro id _ u u' ⟨hu, rfl⟩
  exact (Mirrors.evaluateResource (codeMirrors_runCode S) Frame.sees_atTop id u u' hu).mono
    fun _ _ _ _ hv => hv.1

/-- The top-level code runs in both compilations. -/
theorem evaluateMain_alongside {types' : Registry} (h : S.added.SiteSpelled types') (host : Host)
    (vars : Table Value) :
    (evaluateMain S.strict).Alongside (evaluateMain S.strict) (.onlyTop S.types host vars)
      (.onlyTop types' host vars) fun _ _ t t' => S.Related Frame.atTop.enter t t' := by
  have hfound : S.types.FoundLike types' := h.mono fun _ _ _ _ _ hd => hd.foundLike
  have hlookup : types'.lookup .hostclass "" = S.types.lookup .hostclass "" :=
    congrFun hfound.lookup_eq.symm ""
  refine .get_bind ?_
  have htypes : ∀ types : Registry, (State.onlyTop types host vars).types = types := fun _ => rfl
  rw [htypes, htypes, hlookup]
  cases hmain : S.types.lookup .hostclass "" with
  | some t =>
    have hsame := Registry.withMain_of_some hmain
    obtain ⟨d, hd, hunnamed⟩ := Registry.isMain_of_lookup hmain
    exact evaluateAtTop_main (hsame.symm ▸ hd) hunnamed (.start (by rw [hsame]) h host vars) rfl
  | none =>
    refine .bind_left (run_addType_main hmain) (.bind_right (run_addType_main
      (hlookup.trans hmain)) ?_)
    have hlength : types'.types.length = S.types.types.length := h.length_eq.symm
    have hnew : S.types.withMain.get? S.types.types.length = some (.ofName .hostclass "") := by
      rw [Registry.withMain_of_none hmain, Registry.get?_append, if_pos rfl]
    have hboth : Pointwise (fun _ => S.added.TypeSpelled) S.types.withMain.types
        types'.withMain.types := by
      rw [Registry.withMain_of_none hmain, Registry.withMain_of_none (hlookup.trans hmain)]
      exact h.concat (.refl _ _)
    show (evaluateAtTop S.strict S.types.types.length).Alongside
      (evaluateAtTop S.strict types'.types.length) _ _ _
    rw [hlength]
    exact evaluateAtTop_main hnew isMain_ofName (.start rfl hboth host vars) rfl

/-! ## The later phases -/

namespace Mirrors

theorem evaluateAtTop (t : TypeId) :
    S.Mirrors Frame.atTop.enter (evaluateAtTop S.strict t) (evaluateAtTop S.strict t)
      fun _ _ => True := by
  refine .bind (.ensure Frame.sees_atTop.places t (.inl .nil)) ?_
  rintro id _ rfl
  exact .evaluateResource (codeMirrors_runCode S) Frame.sees_atTop id

theorem evaluateNode (host : Host) :
    S.Mirrors Frame.atTop.enter (evaluateNode S.strict host) (evaluateNode S.strict host)
      fun _ _ => True := by
  refine .get_bind fun s s' hs => ?_
  dsimp only
  rw [← hs.foundLike.nodeFor_eq, ← hs.foundLike.idsOf_eq]
  cases s.types.nodeFor host.candidates with
  | some t => exact .evaluateAtTop t
  | none =>
    dsimp only
    split
    · exact .pure trivial
    · exact .stop _

theorem evaluateResources : ∀ ids : List ResourceId,
    S.Mirrors Frame.atTop.enter (evaluateResources (runCode S.strict) ids)
      (evaluateResources (runCode S.strict) ids) fun _ _ => True
  | [] => .pure trivial
  | id :: rest =>
    .bind (.evaluateResource (codeMirrors_runCode S) Frame.sees_atTop id) fun _ _ _ =>
      evaluateResources rest

end Mirrors

/-- Round after round the same resources are waiting, until none is left. -/
theorem evaluateDefinitions_alongside (rounds : ℕ) : ∀ {s s' : State},
    S.Related Frame.atTop.enter s s' →
    (evaluateDefinitions (runCode S.strict) rounds).Alongside
      (evaluateDefinitions (runCode S.strict) rounds) s s' fun _ _ t t' =>
      S.Related Frame.atTop.enter t t' ∧ t.catalog.unevaluated = [] := by
  induction rounds with
  | zero => exact fun _ => .stop _
  | succ rounds ih =>
    intro s s' hs
    refine .get_bind ?_
    dsimp only
    rw [hs.unevaluated_eq]
    split
    · next hnone => exact .pure ⟨hs, List.isEmpty_iff.mp hnone⟩
    · refine (Mirrors.evaluateResources _ s s' hs).bind fun _ _ u u' hu => ?_
      exact (ih hu.1).bind fun _ _ _ _ ht => .pure ht

/-! ## The end -/

/-- Once all defaults are there, a resource has the same parameters in both compilations. -/
theorem ResourceLike.alike {prepared : Prop} {r r' : Resource}
    (h : S.ResourceLike prepared r r') (hready : ¬prepared)
    (hdone : r.source.isSome = true → r.evaluated = true) :
    Table.Alike S.like r.params r'.params := by
  by_cases hevaluated : r.evaluated = true
  · exact h.settled hevaluated hready
  · rcases h.raw (.inl (Bool.eq_false_iff.mpr hevaluated)) with hsame | ⟨-, hsource, -⟩
    · exact .of_forall₂ hsame
    · exact absurd (hdone (hsource ▸ rfl)) hevaluated

/-- When nothing is waiting, the catalogs are written alike. -/
theorem Related.like_document {F : Frame} {s s' : State} (h : S.Related F s s')
    (hpreparing : F.preparing = []) (hdone : s.catalog.unevaluated = []) :
    CatalogDocument.Like S.like (.ofCatalog s.catalog.finalize) (.ofCatalog s'.catalog.finalize) := by
  have hname : s'.catalog.name = s.catalog.name := by rw [h.catalog]
  have hclasses : s'.catalog.classes = s.catalog.classes := by rw [h.catalog]
  have htags : s'.catalog.tags = s.catalog.tags := by rw [h.catalog]
  refine ⟨hname, hclasses, htags, ?_⟩
  refine List.forall₂_map_left_iff.mpr (List.forall₂_map_right_iff.mpr
    (Pointwise.forall₂ (h.resources.mono fun id r r' hr _ hlike => ?_)))
  have hready : ¬F.Prepares id := by
    rintro ⟨e, he, -⟩
    rw [hpreparing] at he
    cases he
  have hevaluated : r.source.isSome = true → r.evaluated = true := by
    intro hsource
    by_contra hwait
    have hmem := mem_unevaluated.mpr ⟨r, hr, hsource, Bool.eq_false_iff.mpr hwait⟩
    rw [hdone] at hmem
    cases hmem
  refine ⟨?_, ?_, (hlike.alike hready hevaluated).exists_perm⟩
  · rw [hlike.shape]
  · rw [hlike.shape]

/-- All phases, from the first states on. -/
theorem phases_alongside {types' : Registry} (h : S.added.SiteSpelled types') (rounds : ℕ)
    (host : Host) {settings : Settings} (hstrict : settings.strictVariables = S.strict) :
    (phases rounds host settings).Alongside (phases rounds host settings) (.initial S.types host)
      (.initial types' host) fun _ _ t t' =>
      CatalogDocument.Like S.like (.ofCatalog t.catalog) (.ofCatalog t'.catalog) := by
  obtain ⟨vars, hfacts⟩ := run_bindAtTop_initial host
  rw [phases, hstrict]
  refine .bind_left (hfacts _) (.bind_right (hfacts _) ?_)
  refine (evaluateMain_alongside h host vars).bind fun _ _ s₁ s₁' h₁ => ?_
  refine (Mirrors.evaluateNode host s₁ s₁' h₁).bind fun _ _ s₂ s₂' h₂ => ?_
  refine (Mirrors.includeClasses (codeMirrors_runCode S) Frame.sees_atTop Frame.sees_atTop
    host.classes s₂ s₂' h₂.1).bind fun _ _ s₃ s₃' h₃ => ?_
  refine (evaluateDefinitions_alongside rounds h₃.1).bind fun _ _ s₄ s₄' h₄ => ?_
  exact .update (h₄.1.like_document rfl h₄.2)

/-- Runs side by side give outcomes that agree. -/
theorem agree_outcome {V : CatalogDocument → CatalogDocument → Prop} {types types' : Registry}
    {rounds : ℕ} {host : Host} {settings : Settings}
    (h : (phases rounds host settings).Alongside (phases rounds host settings)
      (.initial types host) (.initial types' host) fun _ _ t t' =>
      V (.ofCatalog t.catalog) (.ofCatalog t'.catalog)) :
    Agree V (outcome rounds types host settings) (outcome rounds types' host settings) := by
  unfold outcome compile
  unfold Run.Alongside at h
  rcases hrun : (phases rounds host settings).run (.initial types host) with ⟨f | ⟨⟩, t⟩
  · rw [hrun] at h
    obtain ⟨t', hrun'⟩ := h
    rw [hrun']
    exact rfl
  · rw [hrun] at h
    obtain ⟨_, t', hrun', hV⟩ := h
    rw [hrun']
    exact hV

end Spelling

/-- Spelling the constant default of a parameter out, in any declarations of its class or defined
type that leave it out, makes no difference to what a compilation comes to, but for the order of the
parameters of a resource, the version, and coercion. -/
theorem outcome_of_spelled {types types' : Registry} (D : LiteralDefault types)
    (h : D.SiteSpelled types') (rounds : ℕ) (host : Host) (settings : Settings) :
    Agree (CatalogDocument.Like fun v w => v.coerce = w.coerce)
        (outcome rounds types host settings) (outcome rounds types' host settings) ∧
      (D.value.coerce = D.value → Agree (CatalogDocument.Like Eq)
        (outcome rounds types host settings) (outcome rounds types' host settings)) := by
  constructor
  · let S : Spelling := ⟨types, D, _, Value.likeness_coerce, (Value.coerce_coerce _).symm,
      settings.strictVariables⟩
    exact Spelling.agree_outcome (Spelling.phases_alongside (S := S) h rounds host rfl)
  · intro hcoerce
    let S : Spelling := ⟨types, D, _, Value.likeness_eq, hcoerce.symm, settings.strictVariables⟩
    exact Spelling.agree_outcome (Spelling.phases_alongside (S := S) h rounds host rfl)

/-! ## Where it makes a difference -/

/-- A defined type with some parameters, of which one instance is declared, and a class that looks
at the port of the place where it is included. -/
def gauges (parameters : Table (Option Expr)) (passed : List (String × Expr)) : Registry where
  environment := "production"
  types := [
    { Descriptor.ofName .hostclass "" with
      body := some (.code (.declare "gauge" (.literal (.str "g")) passed)) },
    { Descriptor.ofName .define "gauge" with
      parameters
      body := some (.code (.declare "notify" (.literal (.str "n")) [("port", .var "port")])) },
    { Descriptor.ofName .hostclass "reader" with
      body := some (.code (.declare "notify" (.literal (.str "r")) [("port", .var "port")])) }]

/-- Parameters of which some come before the port and assign other variables, and one comes after it
and looks at it. -/
def portParameters : Table (Option Expr) :=
  [("unit", some (.block [.assign "kind" (.literal (.str "raw")), .var "kind"])),
    ("port", some (.literal (.str "80"))),
    ("path", some (.concat [.literal (.str "/"), .var "port"]))]

/-- The port, whose default is a string. -/
def portDefault : LiteralDefault (gauges portParameters []) where
  type := 1
  descriptor := (gauges portParameters []).types[1]
  param := "port"
  value := .str "80"
  before := portParameters.take 1
  after := portParameters.drop 2
  known := rfl
  parameters := rfl
  distinct := by decide

/-- The port is passed in the one declaration of the defined type, among other defaults. -/
theorem outcome_of_spelled_port :
    portDefault.SiteSpelled (gauges portParameters [("port", .literal (.str "80"))]) ∧
      (outcome 2 (gauges portParameters []) ⟨"web01", [], []⟩ {}).toOption.isSome ∧
      Agree (CatalogDocument.Like Eq) (outcome 2 (gauges portParameters []) ⟨"web01", [], []⟩ {})
        (outcome 2 (gauges portParameters [("port", .literal (.str "80"))]) ⟨"web01", [], []⟩ {}) := by
  have hmain : Spelled portDefault "" (.declare "gauge" (.literal (.str "g")) [])
      (.declare "gauge" (.literal (.str "g")) [("port", .literal (.str "80"))]) :=
    @Spelled.addToInstances _ portDefault "" "gauge" _ _ [] [] [] (by decide +kernel)
      (by decide +kernel) ⟨by decide, by decide +kernel⟩ (.literal _) .nil
  have h : portDefault.SiteSpelled (gauges portParameters [("port", .literal (.str "80"))]) := by
    intro i
    rcases i with _ | _ | _ | i
    · exact .some ⟨_, rfl, .some (.code hmain)⟩
    · exact .some (.refl _ _)
    · exact .some (.refl _ _)
    · exact .none
  exact ⟨h, by decide +kernel, (outcome_of_spelled portDefault h 2 ⟨"web01", [], []⟩ {}).2 rfl⟩

/-- Whether a value is a string. -/
def isString : Value → Bool
  | .str _ => true
  | _ => false

/-- How many parameters have a string as their value, resource by resource. -/
def strings (doc : CatalogDocument) : List ℕ :=
  doc.resources.map fun r => r.parameters.countP fun e => isString e.2

theorem strings_eq {doc doc' : CatalogDocument} (h : CatalogDocument.Like Eq doc doc') :
    strings doc = strings doc' := by
  have hcounts : List.Forall₂ Eq (strings doc) (strings doc') := by
    refine List.forall₂_map_left_iff.mpr (List.forall₂_map_right_iff.mpr
      (h.resources.imp fun r r' hr => ?_))
    obtain ⟨params, hsame, hperm⟩ := hr.parameters
    have hequal : List.Forall₂ Eq r.parameters params :=
      hsame.imp fun _ _ he => Prod.ext he.1 he.2
    rw [List.forall₂_eq_eq_eq] at hequal
    rw [hequal, hperm.countP_eq]
  rwa [List.forall₂_eq_eq_eq] at hcounts

theorem strings_eq_of_agree {x y : Except Failure CatalogDocument}
    (h : Agree (CatalogDocument.Like Eq) x y) :
    x.toOption.map strings = y.toOption.map strings := by
  have htoOption : ∀ z : Except Failure CatalogDocument,
      (z.map strings).toOption = z.toOption.map strings := by
    rintro (_ | _) <;> rfl
  rw [← htoOption, ← htoOption, h.map_eq fun _ _ => strings_eq]

/-- Passing the default of the port makes a difference. -/
def PortMatters (parameters : Table (Option Expr)) (v : Value) : Prop :=
  parameters.find? "port" = some (some (.literal v)) ∧
    ¬Agree (CatalogDocument.Like Eq) (outcome 2 (gauges parameters []) ⟨"web01", [], []⟩ {})
      (outcome 2 (gauges parameters [("port", .literal v)]) ⟨"web01", [], []⟩ {})

/-- A number that is passed is bound as a string; and a default that comes before the port sees the
port where it is passed, as does a class that it includes. -/
theorem not_outcome_eq_spelled :
    PortMatters [("port", some (.literal (.int 80)))] (.int 80) ∧
      PortMatters [("label", some (.var "port")), ("port", some (.literal (.str "80")))]
        (.str "80") ∧
      PortMatters [("label", some (.includes ["reader"])), ("port", some (.literal (.str "80")))]
        (.str "80") := by
  refine ⟨⟨rfl, mt strings_eq_of_agree ?_⟩, ⟨rfl, mt strings_eq_of_agree ?_⟩, rfl,
    mt strings_eq_of_agree ?_⟩
  · decide +kernel
  · decide +kernel
  · decide +kernel

end Compilation

end SiteCatalog
