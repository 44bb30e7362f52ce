import SiteCatalog.Proofs.Names
import SiteCatalog.Proofs.Redeclaration

/-!
# Code that is spread over manifests

The statements of a class, or of the top level, may be cut into two parts that stand in manifests
after each other. The site is accepted as before and every compilation over it comes to the same.

Results:
* `Manifest.Splits`: the last statements of a class or of the top level move to a further manifest.
* `Manifest.Splits.collect`: collecting the two manifests instead of the one.
* `outcome_of_split`: splitting a manifest of a site.
-/

namespace SiteCatalog

open Compilation (SameBody outcome exists_bodyOf_append)
open Descriptor (joinBodies)

namespace Manifest

variable {m m' n : Manifest} {d : Descriptor} {r s : Registry} {freeze : Bool}

/-! ## Classes among what a manifest declares -/

/-- The classes that a manifest declares are named by its entries, but for the unnamed one. -/
theorem Declares.name (h : m.Declares d) (hkind : d.kind = .hostclass) :
    (∃ e ∈ m.classes, d.name = Name.normalize e.1) ∨ m.main ≠ [] ∧ d.name = "" := by
  cases h with
  | hostclass he h =>
    obtain ⟨_, _, -, -, rfl⟩ := Declaration.describe_eq_ok h
    exact .inl ⟨_, he, rfl⟩
  | main h =>
    obtain ⟨_, hbody, rfl⟩ := mainOf?_eq_ok h
    refine .inr ⟨?_, rfl⟩
    intro hmain
    rw [hmain] at hbody
    cases hbody
  | define _ h =>
    obtain ⟨_, _, -, -, rfl⟩ := Declaration.describe_eq_ok h
    cases hkind
  | node _ h =>
    obtain ⟨_, hbase, -, h⟩ := describe_of_nodeOf h
    obtain ⟨_, _, -, -, rfl⟩ := Declaration.describe_eq_ok h
    cases hbase.symm.trans hkind

/-! ## Collecting a manifest part by part -/

theorem collectClasses_append (l₁ l₂ : Table Declaration) :
    m.collectClasses freeze (l₁ ++ l₂) r =
      m.collectClasses freeze l₁ r >>= m.collectClasses freeze l₂ := by
  induction l₁ generalizing r with
  | nil => rfl
  | cons entry rest ih =>
    rw [List.cons_append, collectClasses, collectClasses, bind_assoc]
    refine bind_congr fun c => ?_
    rw [bind_assoc]
    exact bind_congr fun x => ih

/-- Classes take nothing over from the other sections of their manifest. -/
theorem collectClasses_with (m : Manifest) (classes : Table Declaration) (main : List Statement)
    (entries : Table Declaration) :
    collectClasses { m with classes, main } freeze entries r =
      m.collectClasses freeze entries r := by
  induction entries generalizing r with
  | nil => rfl
  | cons entry rest ih =>
    rw [collectClasses, collectClasses]
    exact bind_congr fun c => bind_congr fun x => ih

/-- After the classes before it, a class is collected, and then the rest of the manifest. -/
theorem collect_with_classes (m : Manifest) (l₁ l₂ : Table Declaration) (name : String)
    (e : Declaration) : collect { m with classes := l₁ ++ (name, e) :: l₂ } freeze r = (do
      let r ← m.collectClasses freeze l₁ r
      let c ← m.classOf name e
      let x ← r.mergeClass c freeze
      collect { m with classes := l₂ } freeze x.2) := by
  rw [collect, collectClasses_with, collectClasses_append, bind_assoc]
  refine bind_congr fun r => ?_
  rw [collectClasses, bind_assoc]
  refine bind_congr fun c => ?_
  rw [bind_assoc]
  refine bind_congr fun x => ?_
  rw [collect, collectClasses_with]
  rfl

/-- After the classes the top-level statements are collected, and then the rest of the manifest. -/
theorem collect_with_main (m : Manifest) (statements : List Statement) :
    collect { m with main := statements } freeze r = (do
      let r ← m.collectClasses freeze m.classes r
      let r ← collectMain { m with main := statements } freeze r
      collect { m with classes := [], main := [] } freeze r) := by
  rw [collect, collectClasses_with]
  rfl

/-! ## Splitting a manifest -/

/-- The last statements of a class or of the top level move from a manifest to a further one. -/
inductive Splits (freeze : Bool) : Manifest → Manifest → Manifest → Prop
  /-- No later class of the manifest has the name of the class, and the further manifest declares
  nothing but the class with the statements. -/
  | hostclass {m : Manifest} {before after : Table Declaration} {name again : String}
      {e : Declaration} {s₁ s₂ : List Statement} {moduleName file : Option String} :
      Name.normalize name ≠ "" →
      (∀ other ∈ after, Name.normalize other.1 ≠ Name.normalize name) →
      Name.normalize again = Name.normalize name →
      Splits freeze { m with classes := before ++ (name, { e with body := s₁ ++ s₂ }) :: after }
        { m with classes := before ++ (name, { e with body := s₁ }) :: after }
        { moduleName, file, classes := [(again, { body := s₂ })] }
  /-- The top-level code can be split unless it is frozen. -/
  | main {m : Manifest} {s₁ s₂ : List Statement} {moduleName file : Option String} :
      freeze = false →
      Splits freeze { m with main := s₁ ++ s₂ } { m with main := s₁ }
        { moduleName, file, main := s₂ }

/-! ### A class -/

theorem classOf_eq_ok {name : String} {e : Declaration} {c : Descriptor}
    (h : m.classOf name e = .ok c) :
    c.kind = .hostclass ∧ c.name = Name.normalize name ∧ c.key = c.name ∧
      Declaration.bodyOf e.body = .ok c.body ∧ ∀ {statements body},
        Declaration.bodyOf statements = .ok body →
          m.classOf name { e with body := statements } = .ok (c.withBody body) := by
  obtain ⟨parameters, body, hparameters, hbody, rfl⟩ := Declaration.describe_eq_ok h
  exact ⟨rfl, rfl, rfl, hbody, fun hbody' => Declaration.describe_of_eq_ok _ m hparameters hbody'⟩

/-- A manifest that declares nothing but a class brings the class what it lacks. -/
theorem collect_of_lacks {again : String} {statements : List Statement} {body : Option Body}
    (h : Registry.Lacks freeze (Name.normalize again) body s r)
    (hbody : Declaration.bodyOf statements = .ok body) (moduleName file : Option String) :
    ∃ s', collect { moduleName, file, classes := [(again, { body := statements })] } freeze r =
      .ok s' ∧ s.Corresponds (.refl ℕ) s' := by
  obtain ⟨c, hc, hkind, hname, hparent, hdoc, rfl⟩ : ∃ c : Descriptor,
      classOf { moduleName, file } again { body := statements } = .ok c ∧ c.kind = .hostclass ∧
        c.name = Name.normalize again ∧ c.parent = none ∧ c.doc = "" ∧ c.body = body :=
    ⟨_, Declaration.describe_of_eq_ok _ _ rfl hbody, rfl, rfl, rfl, rfl, rfl⟩
  rw [← Registry.lookupKey_normalize, ← hname] at h
  obtain ⟨x, hx, hx'⟩ := h.supply hkind hparent hdoc
  exact ⟨x.2, (collect_with_classes { moduleName, file } [] [] again _).trans
    ((bind_of_eq_ok hc).trans (bind_of_eq_ok hx)), hx'⟩

theorem collect_of_split_class {before after : Table Declaration} {name again : String}
    {e : Declaration} {s₁ s₂ : List Statement} {moduleName file : Option String}
    (hname : Name.normalize name ≠ "")
    (hafter : ∀ other ∈ after, Name.normalize other.1 ≠ Name.normalize name)
    (hagain : Name.normalize again = Name.normalize name)
    (h : collect { m with classes := before ++ (name, { e with body := s₁ ++ s₂ }) :: after }
      freeze r = .ok s) :
    ∃ r' s', collect { m with classes := before ++ (name, { e with body := s₁ }) :: after }
        freeze r = .ok r' ∧
      collect { moduleName, file, classes := [(again, { body := s₂ })] } freeze r' = .ok s' ∧
      s.Corresponds (.refl ℕ) s' := by
  -- up to the class nothing is different
  rw [collect_with_classes] at h
  obtain ⟨r₁, hr₁, h⟩ := exists_of_bind_eq_ok h
  obtain ⟨c, hc, h⟩ := exists_of_bind_eq_ok h
  obtain ⟨x, hx, h⟩ := exists_of_bind_eq_ok h
  obtain ⟨hckind, hcname, hckey, hbody, hc'⟩ := classOf_eq_ok hc
  obtain ⟨b₁, b₂, hb₁, hb₂, hsame⟩ := exists_bodyOf_append hbody
  have hkey : Registry.lookupKey c.name = c.key := by
    rw [hckey, hcname, Registry.lookupKey_normalize]
  have hopen : ¬(freeze ∧ c.name = "") := fun hmain => hname (hcname ▸ hmain.2)
  obtain ⟨x', hx', hlacks⟩ := Registry.Lacks.of_mergeClass hkey hopen hsame hx
  rw [hckey, hcname] at hlacks
  -- the rest of the manifest does not touch the class
  have hrest : ∀ d, Declares { m with classes := after } d → d.kind = .hostclass →
      Registry.lookupKey d.name ≠ Name.normalize name := by
    intro d hd hkind
    obtain ⟨other, hother, hd⟩ | ⟨-, hd⟩ := hd.name hkind
    · rw [hd, Registry.lookupKey_normalize]
      exact hafter other hother
    · rw [hd, Registry.lookupKey_empty]
      exact hname.symm
  obtain ⟨r', hr', hlacks⟩ :=
    (Registry.Lacks.carries freeze (Name.normalize name) b₂).collect hrest hlacks h
  obtain ⟨s', hs', hcorresponds⟩ := collect_of_lacks (hagain ▸ hlacks) hb₂ moduleName file
  refine ⟨r', s', ?_, hs', hcorresponds⟩
  rw [collect_with_classes]
  exact (bind_of_eq_ok hr₁).trans ((bind_of_eq_ok (hc' hb₁)).trans ((bind_of_eq_ok hx').trans hr'))

/-! ### The top level -/

/-- The unnamed class with a body. -/
def mainOf (file : Option String) (body : Option Body) : Descriptor :=
  { Descriptor.ofName .hostclass "" with body, file }

theorem collectMain_of_bodyOf {body : Body} (h : Declaration.bodyOf m.main = .ok (some body)) :
    m.collectMain freeze r = (do
      let x ← r.mergeClass (mainOf m.file (some body)) freeze
      return x.2) := by
  rw [collectMain, mainOf?, h]
  rfl

theorem lookupKey_mainOf (file : Option String) (body : Option Body) :
    Registry.lookupKey (mainOf file body).name = (mainOf file body).key :=
  Registry.lookupKey_empty

theorem collectMain_eq_ok (h : m.collectMain freeze r = .ok s) (hmain : m.main ≠ []) :
    ∃ body x, Declaration.bodyOf m.main = .ok (some body) ∧
      r.mergeClass (mainOf m.file (some body)) freeze = .ok x ∧ s = x.2 := by
  obtain ⟨main, hmain?, -⟩ := exists_of_bind_eq_ok h
  obtain ⟨body, hbody, -⟩ := exists_of_bind_eq_ok hmain?
  cases body with
  | none => exact absurd (Declaration.eq_nil_of_bodyOf hbody) hmain
  | some body =>
    rw [collectMain_of_bodyOf hbody] at h
    obtain ⟨x, hx, h⟩ := exists_of_bind_eq_ok h
    exact ⟨body, x, hbody, hx, (Except.ok.inj h).symm⟩

/-- Only its classes and its top-level statements declare classes of a manifest. -/
theorem kind_of_declares (h : Declares { m with classes := [], main := [] } d) :
    d.kind ≠ .hostclass := by
  intro hkind
  obtain ⟨_, he, -⟩ | ⟨hmain, -⟩ := h.name hkind
  · cases he
  · exact hmain rfl

/-- If there is an unnamed class anyway, the last statements of the top level may be left out. -/
theorem collectMain_lacks {s₁ : List Statement} {body b₁ b₂ : Option Body} {x : TypeId × Registry}
    (hb₁ : Declaration.bodyOf s₁ = .ok b₁) (hsame : SameBody body (joinBodies b₁ b₂))
    (hx : r.mergeClass (mainOf m.file body) false = .ok x)
    (hclass : s₁ ≠ [] ∨ (r.lookup .hostclass "").isSome) :
    ∃ r', collectMain { m with main := s₁ } false r = .ok r' ∧
      Registry.Lacks false "" b₂ x.2 r' := by
  have hopen : ¬(false = true ∧ (mainOf m.file body).name = "") := fun hfrozen => nomatch hfrozen.1
  obtain ⟨x', hx', hlacks⟩ :=
    Registry.Lacks.of_mergeClass (lookupKey_mainOf m.file body) hopen hsame hx
  refine ⟨x'.2, ?_, hlacks⟩
  cases b₁ with
  | some b₁ =>
    rw [collectMain_of_bodyOf hb₁]
    exact bind_of_eq_ok hx'
  | none =>
    have hs₁ := Declaration.eq_nil_of_bodyOf hb₁
    obtain ⟨t, ht⟩ := Option.isSome_iff_exists.mp (hclass.resolve_left (absurd hs₁))
    rw [hs₁, Registry.mergeClass_bare ht rfl rfl rfl hx']
    rfl

/-- A manifest with top-level statements only declares the unnamed class. -/
theorem collect_of_main {statements : List Statement} {body : Body} {x : TypeId × Registry}
    {moduleName file : Option String} (hbody : Declaration.bodyOf statements = .ok (some body))
    (hx : r.mergeClass (mainOf file (some body)) freeze = .ok x) :
    collect { moduleName, file, main := statements } freeze r = .ok x.2 := by
  have hmain : collectMain { moduleName, file, main := statements } freeze r = .ok x.2 :=
    (collectMain_of_bodyOf hbody).trans (bind_of_eq_ok hx)
  exact (collect_with_main { moduleName, file } statements).trans (bind_of_eq_ok hmain)

theorem collect_of_split_main {s₁ s₂ : List Statement} {moduleName file : Option String}
    (hr : r.Fresh) (h : collect { m with main := s₁ ++ s₂ } false r = .ok s) :
    ∃ r' s' σ, collect { m with main := s₁ } false r = .ok r' ∧
      collect { moduleName, file, main := s₂ } false r' = .ok s' ∧ s.Corresponds σ s' := by
  obtain ⟨-, -, -, hs⟩ := (Registry.Fresh.carries false).collect (fun _ hd => hd.resolved)
    ⟨rfl, hr⟩ h
  by_cases hs₂ : s₂ = []
  · rw [hs₂, List.append_nil] at h
    exact ⟨s, s, .refl ℕ, h, by rw [hs₂]; rfl, .refl s⟩
  rw [collect_with_main] at h
  obtain ⟨r₁, hr₁, h⟩ := exists_of_bind_eq_ok h
  obtain ⟨r₂, hr₂, hrest⟩ := exists_of_bind_eq_ok h
  obtain ⟨body, x, hbody, hx, rfl⟩ :=
    collectMain_eq_ok hr₂ (List.append_ne_nil_of_right_ne_nil _ hs₂)
  obtain ⟨b₁, b₂, hb₁, hb₂, hsame⟩ := exists_bodyOf_append hbody
  cases b₂ with
  | none => exact absurd (Declaration.eq_nil_of_bodyOf hb₂) hs₂
  | some b₂ =>
    by_cases hclass : s₁ ≠ [] ∨ (r₁.lookup .hostclass "").isSome
    · obtain ⟨r₂', hr₂', hlacks⟩ := collectMain_lacks hb₁ hsame hx hclass
      obtain ⟨r', hr', hlacks⟩ := (Registry.Lacks.carries false "" (some b₂)).collect
        (fun d hd hkind => absurd hkind (kind_of_declares hd)) hlacks hrest
      obtain ⟨x', hx', hcorresponds⟩ := hlacks.supply (d := mainOf file (some b₂)) rfl rfl rfl
      refine ⟨r', x'.2, .refl ℕ, ?_, collect_of_main hb₂ hx', hcorresponds⟩
      rw [collect_with_main]
      exact (bind_of_eq_ok hr₁).trans ((bind_of_eq_ok hr₂').trans hr')
    · -- the unnamed class is declared by the further manifest only
      obtain ⟨rfl, hnone⟩ : s₁ = [] ∧ r₁.lookup .hostclass "" = none := by simpa using hclass
      cases hbody.symm.trans hb₂
      obtain ⟨r', hr', hmisses⟩ := (Registry.Misses.carries (mainOf m.file (some body)) false).collect
        (fun _ => kind_of_declares) (.of_mergeClass hnone hx) hrest
      obtain ⟨x', σ, hx', hcorresponds⟩ := hmisses.supply (d := mainOf file (some body)) hs
        ⟨some body, file, .refl _, rfl⟩ rfl (lookupKey_mainOf ..)
      refine ⟨r', x'.2, σ, ?_, collect_of_main hb₂ hx', hcorresponds⟩
      rw [collect_with_main]
      exact (bind_of_eq_ok hr₁).trans ((bind_of_eq_ok rfl).trans hr')

/-- Instead of a manifest, the two parts of it can be collected. -/
theorem Splits.collect (hsplit : Splits freeze m m' n) (hr : r.Fresh)
    (h : m.collect freeze r = .ok s) : ∃ r' s' σ, m'.collect freeze r = .ok r' ∧
      n.collect freeze r' = .ok s' ∧ s.Corresponds σ s' := by
  cases hsplit with
  | hostclass hname hafter hagain =>
    obtain ⟨r', s', hr', hs', hcorresponds⟩ := collect_of_split_class hname hafter hagain h
    exact ⟨r', s', .refl ℕ, hr', hs', hcorresponds⟩
  | main hfreeze =>
    subst hfreeze
    exact collect_of_split_main hr h

theorem collectAll_append (before after : List Manifest) :
    collectAll freeze (before ++ after) r =
      collectAll freeze before r >>= collectAll freeze after := by
  induction before generalizing r with
  | nil => rfl
  | cons m rest ih =>
    rw [List.cons_append, collectAll, collectAll, bind_assoc]
    exact bind_congr fun r => ih

end Manifest

/-- If the last statements of a class or of the top level move from one manifest of an accepted site
to a further manifest right after it, the site is accepted, and every compilation over it comes to
the same document or the same failure. -/
theorem outcome_of_split {before after : List Manifest} {m m' n : Manifest} {settings : Settings}
    {types : Registry} (hsplit : m.Splits settings.freezeMain m' n)
    (h : Registry.ofManifests (before ++ m :: after) settings = .ok types) :
    ∃ types', Registry.ofManifests (before ++ m' :: n :: after) settings = .ok types' ∧
      ∀ rounds host settings,
        outcome rounds types' host settings = outcome rounds types host settings := by
  unfold Registry.ofManifests at h ⊢
  rw [Manifest.collectAll_append] at h ⊢
  obtain ⟨r, hr, h⟩ := exists_of_bind_eq_ok h
  obtain ⟨s, hs, h⟩ := exists_of_bind_eq_ok h
  obtain ⟨r', s', σ, hr', hs', hσ⟩ := hsplit.collect (Registry.fresh_collectAll (.empty _) hr) hs
  obtain ⟨types', htypes', hσ⟩ := (Registry.Corresponds.carries σ settings.freezeMain).collectAll
    (fun _ _ _ hd => hd.resolved) hσ h
  refine ⟨types', ?_, Compilation.outcome_eq_of_corresponds hσ⟩
  exact (bind_of_eq_ok hr).trans ((bind_of_eq_ok hr').trans ((bind_of_eq_ok hs').trans htypes'))

/-- The first statements of a class. -/
def assignment : List Statement := [.set [("x", .string "v")]]

/-- The last statements of the class, which use the variable. -/
def announcement : List Statement := [.resource "notify" (.string "$x") []]

/-- A manifest with a class and the inclusion of it. -/
def including (statements : List Statement) : Manifest :=
  { classes := [("app", { body := statements })], main := [.includes ["app"]] }

/-- The class is opened again under another spelling of its name. -/
theorem outcome_of_split_announcement : ∃ types types',
    Registry.ofManifests [including (assignment ++ announcement)] {} = .ok types ∧
      Registry.ofManifests
        [including assignment, { classes := [("::App", { body := announcement })] }] {} =
          .ok types' ∧
      (outcome 1 types ⟨"web01", [], []⟩ {}).toOption.isSome ∧
      ∀ rounds host settings,
        outcome rounds types' host settings = outcome rounds types host settings := by
  have hsite : (Registry.ofManifests [including (assignment ++ announcement)] {}).toOption.any
      (fun types => (outcome 1 types ⟨"web01", [], []⟩ {}).toOption.isSome) = true := by
    decide +kernel
  obtain ⟨types, htypes, hsome⟩ := (Option.any_eq_true ..).mp hsite
  have hbuild : Registry.ofManifests ([] ++ including (assignment ++ announcement) :: []) {} =
      .ok types := eq_ok_of_toOption htypes
  have hsplit : (including (assignment ++ announcement)).Splits false (including assignment)
      { classes := [("::App", { body := announcement })] } :=
    @Manifest.Splits.hostclass false { main := [.includes ["app"]] } [] [] "app" "::App" {}
      assignment announcement none none (by decide +kernel) (fun _ h => nomatch h)
      (by decide +kernel)
  obtain ⟨types', htypes', houtcome⟩ := outcome_of_split hsplit hbuild
  exact ⟨types, types', hbuild, htypes', hsome, houtcome⟩

end SiteCatalog
