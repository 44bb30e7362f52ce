import Mathlib.Data.List.Sort
import Mathlib.Logic.Relation
import SiteCatalog.Proofs.Compilation.Enrolment
import SiteCatalog.Proofs.Compilation.Once

/-!
# The order in which instances are evaluated

Instances of defined types wait until all classes and nodes have been evaluated, and are evaluated
in rounds. Running one of them may declare further ones and include further classes, but classes and
nodes are evaluated as soon as they are entered, and no instance is evaluated by another one. So the
instances of a round are those that have not been evaluated, and those of the next round have been
declared after them.

Results:
* `UpToDate`: the classes and nodes that have been entered are waited for by no one, and only some
  instances have been evaluated.
* `UpToDate.walk`: evaluation of a body keeps this.
* `Turn.evaluateResource`: what the evaluation of one instance enters.
* `instances_in_order`: the rounds of a compilation.
-/

namespace SiteCatalog.Compilation

variable {s t : State} {id : ℕ} {type : TypeId} {past : List ResourceId} {strict : Bool}

/-! ## Instances of defined types -/

/-- A type is a defined type. -/
def isDefine (types : Registry) (type : TypeId) : Bool :=
  (types.get? type).any (·.kind = .define)

/-- The resource at a place is an instance of a defined type. -/
def isInstance (s : State) (id : ResourceId) : Bool :=
  (s.catalog.get? id).any fun r => r.source.any (isDefine s.types)

/-- The instances of defined types, in the order of their declaration. -/
def instances (s : State) : List ResourceId :=
  (List.range s.catalog.resources.length).filter (isInstance s)

/-- The resources of defined types whose code is entered in a history, in order. -/
def enteredInstances (types : Registry) (h : List Visit) : List ResourceId :=
  ((entered h).filter fun e => isDefine types e.1).map (·.2)

theorem isDefine_iff {types : Registry} : isDefine types type = true ↔
    ∃ d, types.get? type = some d ∧ d.kind = .define := by
  simp [isDefine, Option.any_eq_true]

theorem isInstance_iff : isInstance s id = true ↔
    ∃ r t, s.catalog.get? id = some r ∧ r.source = some t ∧ isDefine s.types t = true := by
  simp only [isInstance, Option.any_eq_true]
  constructor
  · rintro ⟨r, hr, t, ht, hd⟩
    exact ⟨r, t, hr, ht, hd⟩
  · rintro ⟨r, t, hr, ht, hd⟩
    exact ⟨r, hr, t, ht, hd⟩

theorem not_singleton_of_isDefine (h : isDefine s.types type = true) : ¬Singleton s type := by
  obtain ⟨d, hd, hk⟩ := isDefine_iff.mp h
  rintro ⟨d', hd', hk'⟩
  rw [hd] at hd'
  cases hd'
  exact hk' hk

theorem isDefine_of_extends {types types' : Registry} (h : types.Extends types') (type : TypeId) :
    isDefine types' type = isDefine types type := by
  rw [Bool.eq_iff_iff, isDefine_iff, isDefine_iff]
  constructor
  · rintro ⟨d', hd', hk⟩
    obtain ⟨d, hd, heq, -⟩ := h.kept_back hd'
    exact ⟨d, hd, by rw [heq] at hk; exact hk⟩
  · rintro ⟨d, hd, hk⟩
    obtain ⟨_, hd', -⟩ := h.kept type d hd
    exact ⟨_, hd', hk⟩

theorem mem_instances : id ∈ instances s ↔ isInstance s id = true := by
  rw [instances, List.mem_filter, List.mem_range, and_iff_right_iff_imp, isInstance_iff]
  rintro ⟨r, t, hr, -⟩
  exact Catalog.lt_length_of_get? hr

theorem pairwise_instances (s : State) : (instances s).Pairwise (· < ·) :=
  List.pairwise_lt_range.filter _

theorem enteredInstances_append (types : Registry) (h h' : List Visit) :
    enteredInstances types (h ++ h') = enteredInstances types h ++ enteredInstances types h' := by
  simp [enteredInstances, entered_append]

theorem enteredInstances_of_extends {types types' : Registry} (h : types.Extends types')
    (hist : List Visit) : enteredInstances types' hist = enteredInstances types hist := by
  simp only [enteredInstances, isDefine_of_extends h]

/-! ## Classes that have been entered are evaluated -/

/-- Resources keep their sources, and what has been evaluated stays so. -/
structure Retains (s t : State) : Prop where
  types : s.types.Extends t.types
  resources : ∀ id r, s.catalog.get? id = some r → ∃ r', t.catalog.get? id = some r' ∧
    r'.source = r.source ∧ (r.evaluated = true → r'.evaluated = true)

namespace Retains

theorem done (h : Retains s t) (hid : Done s id) : Done t id := by
  obtain ⟨r, hr, hev⟩ := hid
  obtain ⟨r', hr', -, hev'⟩ := h.resources id r hr
  exact ⟨r', hr', hev' hev⟩

theorem evaluated (h : Retains s t) (ht : Evaluated s type) : Evaluated t type := by
  obtain ⟨id, r, hr, hsrc, hev⟩ := ht
  obtain ⟨r', hr', hsrc', hev'⟩ := h.resources id r hr
  exact ⟨id, r', hr', hsrc'.trans hsrc, hev' hev⟩

theorem singleton_back (h : Retains s t) (ht : Singleton t type) : Singleton s type := by
  obtain ⟨d', hd', hk⟩ := ht
  obtain ⟨d, hd, heq, -⟩ := h.types.kept_back hd'
  rw [heq] at hk
  exact ⟨d, hd, hk⟩

theorem isInstance_eq (h : Retains s t) {r : Resource} (hr : s.catalog.get? id = some r) :
    isInstance t id = isInstance s id := by
  obtain ⟨r', hr', hsrc, -⟩ := h.resources id r hr
  have heq : isDefine t.types = isDefine s.types := funext (isDefine_of_extends h.types)
  rw [isInstance, isInstance, hr, hr', Option.any_some, Option.any_some, hsrc, heq]

theorem isInstance (h : Retains s t) (hid : isInstance s id = true) :
    Compilation.isInstance t id = true := by
  obtain ⟨r, _, hr, -⟩ := isInstance_iff.mp hid
  rw [h.isInstance_eq hr, hid]

theorem of_types {known : Registry} (h : s.types.Extends known) :
    Retains s { s with types := known } :=
  ⟨h, fun _ r hr => ⟨r, hr, rfl, fun hev => hev⟩⟩

theorem of_status (hty : t.types = s.types) (hst : SameStatus s t) : Retains s t := by
  refine ⟨hty ▸ .refl _, fun id r hr => ?_⟩
  obtain ⟨r', hr', hsrc, -, hev⟩ := hst.get? hr
  exact ⟨r', hr', hsrc, fun h => hev.trans h⟩

theorem of_step {scope : ScopeId} (h : Step scope s t) : Retains s t := by
  refine ⟨h.types, fun id r hr => ?_⟩
  obtain ⟨r', hr', hg⟩ := h.resources id r hr
  exact ⟨r', hr', hg.source, hg.evaluated⟩

theorem of_added {new : List Resource} (hty : s.types.Extends t.types)
    (hres : t.catalog.resources = s.catalog.resources ++ new) : Retains s t := by
  exact ⟨hty, fun id r hr => ⟨r, Catalog.get?_of_resources_append hres hr, rfl, fun hev => hev⟩⟩

end Retains

/-- A class or node has been evaluated, at least in part, or is about to be, before a child of it
that has been. -/
def Covered (s : State) (t : TypeId) : Prop :=
  ∃ u l, s.types.Ancestry u l ∧ t ∈ u :: l ∧ Singleton s u ∧ Evaluated s u

theorem Covered.mono (h : Covered s type) (hst : Retains s t) : Covered t type := by
  obtain ⟨u, l, hl, hmem, hsing, he⟩ := h
  exact ⟨u, l, hl.mono hst.types, hmem, hsing.of_extends hst.types, hst.evaluated he⟩

/-- Every class or node that has been entered is covered, and of the instances of defined types
those in `past` have been evaluated. -/
structure UpToDate (past : List ResourceId) (s : State) : Prop where
  classes : ∀ t, Realized s t → Covered s t
  instances : ∀ id, isInstance s id = true → Done s id → id ∈ past
  ran : ∀ id ∈ past, Done s id

namespace UpToDate

/-- When no evaluation is going on, all classes and nodes have been evaluated. -/
theorem evaluated (h : UpToDate past s) (hs : Sound s) (hr : Ready [] none s)
    {r : Resource} (hget : s.catalog.get? id = some r) (hsrc : r.source = some type)
    (ht : Singleton s type) : r.evaluated = true := by
  obtain ⟨u, l, hl, hmem, hsing, hu⟩ := h.classes type ⟨ht, id, r, hget, hsrc⟩
  have he : Evaluated s type := by
    rcases List.mem_cons.mp hmem with rfl | hmem
    · exact hu
    · exact (hr.evaluated_of_ancestry hs hl hsing hu type hmem).2
  obtain ⟨j, r', hr', hsrc', hev⟩ := he
  obtain rfl := hs.unique ht hget hsrc hr' hsrc'
  rw [hget] at hr'
  cases hr'
  exact hev

theorem of_untouched (hu : Untouched s) : UpToDate [] s where
  classes := by
    rintro t ⟨-, id, r, hr, -⟩
    rw [hu.get?] at hr
    cases hr
  instances := by
    rintro id - ⟨r, hr, -⟩
    rw [hu.get?] at hr
    cases hr
  ran := fun _ hmem => nomatch hmem

/-- No class or node is entered and nothing is evaluated. -/
theorem change (h : UpToDate past s) (hst : Retains s t)
    (hold : ∀ u, Realized t u → Realized s u)
    (hdone : ∀ id, isInstance t id = true → Done t id → isInstance s id = true ∧ Done s id) :
    UpToDate past t where
  classes := fun u hu => (h.classes u (hold u hu)).mono hst
  instances := fun id hid hd => h.instances id (hdone id hid hd).1 (hdone id hid hd).2
  ran := fun id hmem => hst.done (h.ran id hmem)

/-- Parents become known. -/
theorem of_types {known : Registry} (h : UpToDate past s) (he : s.types.Extends known) :
    UpToDate past { s with types := known } := by
  have hst : Retains s { s with types := known } := .of_types he
  refine h.change hst (fun u hu => ⟨hst.singleton_back hu.1, hu.2⟩) ?_
  rintro i hi ⟨r, hr, hev⟩
  exact ⟨hst.isInstance_eq hr ▸ hi, r, hr, hev⟩

/-- Resources keep their sources, and the same ones have been evaluated. -/
theorem of_status (h : UpToDate past s) (hty : t.types = s.types) (hst : SameStatus s t) :
    UpToDate past t := by
  have hretains : Retains s t := .of_status hty hst
  refine h.change hretains ?_ ?_
  · rintro u ⟨hu, id, r, hr, hsrc⟩
    obtain ⟨r', hr', hsrc', -⟩ := hst.symm.get? hr
    exact ⟨hretains.singleton_back hu, id, r', hr', hsrc'.trans hsrc⟩
  · rintro id hid ⟨r, hr, hev⟩
    obtain ⟨r', hr', -, -, hev'⟩ := hst.symm.get? hr
    exact ⟨hretains.isInstance_eq hr' ▸ hid, r', hr', hev'.trans hev⟩

/-- A resource of no class or node is added, which waits. -/
theorem append (h : UpToDate past s) {r : Resource} (hwait : r.evaluated = false)
    (hsrc : ∀ u, r.source = some u → ¬Singleton s u) :
    UpToDate past { s with catalog := s.catalog.append r } := by
  have hst : Retains s { s with catalog := s.catalog.append r } := .of_added (.refl _) rfl
  refine h.change hst ?_ ?_
  · rintro u ⟨hu, i, q, hq, hsource⟩
    rcases Catalog.old_or_new hq with hq | ⟨-, rfl⟩
    · exact ⟨hu, i, q, hq, hsource⟩
    · exact absurd hu (hsrc u hsource)
  · rintro i hi ⟨q, hq, hev⟩
    rcases Catalog.old_or_new hq with hq | ⟨-, rfl⟩
    · exact ⟨hst.isInstance_eq hq ▸ hi, q, hq, hev⟩
    · rw [hwait] at hev
      cases hev

end UpToDate

/-! ## Marking resources as evaluated -/

theorem realized_of_mark (h : Realized (s.mark id) type) : Realized s type := by
  obtain ⟨hsing, i, r, hr, hsrc⟩ := h
  rw [get?_mark] at hr
  split at hr
  · obtain ⟨q, hq, rfl⟩ := Option.map_eq_some_iff.mp hr
    exact ⟨hsing, i, q, hq, hsrc⟩
  · exact ⟨hsing, i, r, hr, hsrc⟩

theorem isInstance_mark (s : State) (id i : ResourceId) :
    isInstance (s.mark id) i = isInstance s i := by
  rw [isInstance, isInstance, get?_mark]
  split
  · cases s.catalog.get? i <;> rfl
  · rfl

theorem done_of_mark {i : ResourceId} (h : Done (s.mark id) i) : i = id ∨ Done s i := by
  obtain ⟨r, hr, hev⟩ := h
  rw [get?_mark] at hr
  split at hr
  · next heq => exact .inl heq
  · exact .inr ⟨r, hr, hev⟩

theorem retains_mark (s : State) (id : ResourceId) : Retains s (s.mark id) :=
  .of_step (Step.mark Scopes.top s id)

theorem get?_mark_self {r : Resource} (hr : s.catalog.get? id = some r) :
    (s.mark id).catalog.get? id = some { r with evaluated := true } := by
  rw [get?_mark, if_pos rfl, hr]
  rfl

/-- An instance is going to be evaluated. -/
theorem UpToDate.mark (h : UpToDate past s) {r : Resource} (hr : s.catalog.get? id = some r) :
    UpToDate (past ++ [id]) (s.mark id) where
  classes := fun u hu => (h.classes u (realized_of_mark hu)).mono (retains_mark s id)
  instances := by
    intro i hi hd
    rw [isInstance_mark] at hi
    rcases done_of_mark hd with rfl | hd
    · exact List.mem_append_right _ (List.mem_singleton_self _)
    · exact List.mem_append_left _ (h.instances i hi hd)
  ran := by
    intro i hi
    rcases List.mem_append.mp hi with hi | hi
    · exact (retains_mark s id).done (h.ran i hi)
    · rw [List.mem_singleton.mp hi]
      exact ⟨_, get?_mark_self hr, rfl⟩

/-- The class or node `type` has been entered and has to be evaluated; besides, everything is up to
date. -/
structure Owes (past : List ResourceId) (type : TypeId) (id : ResourceId) (s : State) : Prop where
  resource : ∃ r, s.catalog.get? id = some r ∧ r.source = some type
  singleton : Singleton s type
  classes : ∀ u, Realized s u → Covered s u ∨ ∃ l, s.types.Ancestry type l ∧ u ∈ type :: l
  instances : ∀ i, isInstance s i = true → Done s i → i ∈ past
  ran : ∀ i ∈ past, Done s i

namespace Owes

theorem of_upToDate (h : UpToDate past s) (ht : Singleton s type) {r : Resource}
    (hr : s.catalog.get? id = some r) (hsrc : r.source = some type) : Owes past type id s where
  resource := ⟨r, hr, hsrc⟩
  singleton := ht
  classes := fun u hu => .inl (h.classes u hu)
  instances := h.instances
  ran := h.ran

theorem upToDate (h : Owes past type id s) (he : Evaluated s type) : UpToDate past s where
  classes := by
    intro u hu
    rcases h.classes u hu with hu | ⟨l, hl, hmem⟩
    · exact hu
    · exact ⟨type, l, hl, hmem, h.singleton, he⟩
  instances := h.instances
  ran := h.ran

/-- Now it is evaluated. -/
theorem mark (h : Owes past type id s) : UpToDate past (s.mark id) := by
  obtain ⟨r, hr, hsrc⟩ := h.resource
  have hst := retains_mark s id
  have hget := get?_mark_self hr
  have howes : Owes past type id (s.mark id) := by
    refine ⟨⟨_, hget, hsrc⟩, h.singleton, ?_, ?_, fun i hi => hst.done (h.ran i hi)⟩
    · exact fun u hu => (h.classes u (realized_of_mark hu)).imp_left fun hc => hc.mono hst
    · intro i hi hd
      rw [isInstance_mark] at hi
      rcases done_of_mark hd with rfl | hd
      · obtain ⟨q, u, hq, hsource, hdef⟩ := isInstance_iff.mp hi
        rw [hr] at hq
        cases hq
        rw [hsrc] at hsource
        cases hsource
        exact absurd h.singleton (not_singleton_of_isDefine hdef)
      · exact h.instances i hi hd
  exact howes.upToDate ⟨id, _, hget, hsrc, rfl⟩

/-- Resources have been added, of `type` and of parents of it. -/
theorem of_added {l : List TypeId} {new : List Resource} (h : UpToDate past s)
    (hl : t.types.Ancestry type l) (hty : s.types.Extends t.types)
    (hres : t.catalog.resources = s.catalog.resources ++ new)
    (hnew : ∀ q ∈ new, q.evaluated = false ∧ ∃ u ∈ type :: l, q.source = some u)
    (ht : Singleton t type) (hlast : ∃ r, t.catalog.get? id = some r ∧ r.source = some type) :
    Owes past type id t := by
  have hst : Retains s t := .of_added hty hres
  refine ⟨hlast, ht, ?_, ?_, fun i hi => hst.done (h.ran i hi)⟩
  · rintro u ⟨hu, i, q, hq, hsrc⟩
    rcases Catalog.old_or_mem hres hq with hq | hq
    · exact .inl ((h.classes u ⟨hst.singleton_back hu, i, q, hq, hsrc⟩).mono hst)
    · obtain ⟨-, v, hv, hsrc'⟩ := hnew q hq
      rw [hsrc] at hsrc'
      cases hsrc'
      exact .inr ⟨l, hl, hv⟩
  · rintro i hi ⟨q, hq, hqe⟩
    rcases Catalog.old_or_mem hres hq with hq | hmem
    · exact h.instances i (hst.isInstance_eq hq ▸ hi) ⟨q, hq, hqe⟩
    · rw [(hnew q hmem).1] at hqe
      cases hqe

/-- A class or node has been entered after its missing parents. -/
theorem of_enrolled {scope : ScopeId} {l : List TypeId} {new : List Resource} {r : Resource}
    {params : Table Value} (h : UpToDate past s) (hl : t.types.Ancestry type l)
    (hnew : List.Forall₂ (IsEntry s.types scope []) (missing s l).reverse new)
    (hr : IsEntry s.types scope params type r) (ht : Enrolled s (new ++ [r]) t)
    (hid : id + 1 = t.catalog.resources.length) : Owes past type id t := by
  have hwait : ∀ {params u q}, IsEntry s.types scope params u q →
      q.evaluated = false ∧ q.source = some u := by
    rintro _ u _ ⟨d, -, -, rfl⟩
    exact ⟨rfl, rfl⟩
  have ⟨d, hd, hk, _⟩ := hr
  refine of_added h hl ht.types ht.resources (fun q hq => ?_) (.of_extends ⟨d, hd, hk⟩ ht.types) ?_
  · rcases List.mem_append.mp hq with hq | hq
    · obtain ⟨u, hu, hq⟩ := exists_of_forall₂_right hnew hq
      have hmem := mem_of_mem_missing (List.mem_reverse.mp hu)
      exact ⟨(hwait hq).1, u, List.mem_cons_of_mem _ hmem, (hwait hq).2⟩
    · rw [List.mem_singleton.mp hq]
      exact ⟨(hwait hr).1, type, List.mem_cons_self, (hwait hr).2⟩
  · have hlast : id = (s.catalog.resources ++ new).length := by
      rw [ht.resources] at hid
      simp only [List.length_append, List.length_singleton] at hid ⊢
      omega
    refine ⟨r, ?_, (hwait hr).2⟩
    rw [Catalog.get?, ht.resources, ← List.append_assoc, hlast, List.getElem?_concat_length]

end Owes

/-! ## What evaluation does -/

namespace Run.Keeps

variable {α : Type} {J I H : State → Prop} {p : Run α} {P Q : α → State → Prop}

/-- What a run brings about by itself, when it succeeds. -/
theorem of_meets {C : Contract} (hp : p.Meets C [] [] s P)
    (hQ : ∀ a h t, C.ok h t → P a t → Q a t) : p.Keeps J (fun _ => True) s Q := by
  refine fun _ _ => ⟨fun _ _ _ => trivial, ?_⟩
  unfold Run.Meets at hp
  rcases hrun : p.run s with ⟨_ | a, t⟩
  · trivial
  · rw [hrun] at hp
    exact hQ a _ t hp.1 hp.2

/-- A condition that holds at every moment holds in the end. -/
theorem and_holds (hp : p.Keeps J I s P) (hH : p.Holds H) (hs : H s) :
    p.Keeps J I s fun a t => P a t ∧ H t := by
  intro calls hv
  obtain ⟨hvisits, hresult⟩ := hp calls hv
  refine ⟨hvisits, ?_⟩
  have hlast := hH calls [] s hs fun _ hmem => nomatch hmem
  unfold Run.Meets at hlast
  split at hresult
  · next hrun =>
    rw [hrun] at hlast
    exact ⟨hresult, hlast.1.1⟩
  · exact hresult

end Run.Keeps

/-- A run that succeeds, after which no more instances have been evaluated than before and all
classes and nodes that have been entered are covered if they were before. -/
def KeepsUp (past : List ResourceId) {α : Type} (p : Run α) : Prop :=
  ∀ s, Sound s → UpToDate past s → p.Keeps Sound (fun _ => True) s fun _ t => UpToDate past t

/-- After a class or node has been entered it has to be evaluated. -/
theorem ensure_owes {scope : ScopeId} {params : Table Value} (hs : Sound s)
    (h : UpToDate past s) :
    (ensure type scope params).Keeps Sound (fun _ => True) s fun id t => Owes past type id t := by
  by_cases hex : ∃ d, s.types.get? type = some d
  case neg =>
    refine .bind hs (P := fun _ _ => False) ?_ fun _ _ _ hf => hf.elim
    exact .typeAt_bind trivial fun d hd => absurd ⟨d, hd⟩ hex
  obtain ⟨d, hd⟩ := hex
  refine .bind hs (.of_meets (C := ⟨fun _ _ => True, fun _ _ _ => True⟩)
    (realized?_exact hs hd trivial fun _ => trivial) fun _ _ _ _ hP => hP) ?_
  rintro found t ht ⟨rfl, hk, hfound, hnone⟩
  cases found with
  | some id =>
    obtain ⟨r, hr, hsrc⟩ := hfound id rfl
    exact .pure (.of_upToDate h ⟨d, hd, hk⟩ hr hsrc)
  | none =>
    obtain ⟨-, hfree⟩ := hnone rfl
    refine .bind hs (((ancestry_alike hs).imp (fun _ _ => trivial) fun _ _ hx => hx).and_holds
      ((LookingUp.since t).ancestry type (some scope)) ⟨t.types, .refl _, rfl⟩) ?_
    rintro l u hu ⟨⟨-, -, hl⟩, known, he, rfl⟩
    obtain ⟨_, hd', -⟩ := he.kept type d hd
    refine .of_meets (realize_enrolls hu hd' hk hfree fun p hp =>
      hl.lt_length p (List.mem_cons_of_mem _ hp)) ?_
    rintro id h' v ⟨htypes, new, r, hnew, hr, hv⟩ hid
    exact .of_enrolled (h.of_types he) (htypes ▸ hl) hnew hr hv hid

/-- The evaluation of what has to be evaluated. -/
theorem evaluateResource_keepsUp {code : Code} (hcode : ∀ t id, KeepsUp past (code t id))
    (hs : Sound s) (h : Owes past type id s) :
    (evaluateResource code id).Keeps Sound (fun _ => True) s fun _ t => UpToDate past t := by
  obtain ⟨r, hr, hsrc⟩ := h.resource
  refine .follow trivial (.resourceAt_bind trivial fun r' hr' => ?_) fun _ _ _ => trivial
  rw [hr] at hr'
  cases hr'
  split
  · next hev => exact .pure (h.upToDate ⟨id, r, hr, hsrc, hev⟩)
  · refine .bind hs (.update (P := fun _ t => t = s.mark id) fun _ => rfl) ?_
    rintro - t ht rfl
    rw [hsrc]
    exact hcode type id _ ht h.mark

namespace KeepsUp

theorem composed : Compositional fun _ p => KeepsUp past p where
  pure := fun _ _ _ h => .pure h
  stop := fun _ _ _ _ => .stop trivial
  bind := fun hp hk s hs h => .bind hs (hp s hs h) fun a t ht h' => hk a t ht h'
  get_bind := fun hk s hs h => .get_bind (hk s s hs h)
  follow := fun hp s hs h => .follow trivial (hp s hs h) fun _ _ _ => trivial

/-- A change of the state that neither resources nor types depend on. -/
theorem update {f : State → State} (hf : ∀ s, UpToDate past s → UpToDate past (f s)) :
    KeepsUp past (Compilation.update f) :=
  fun s _ h => .update fun _ => hf s h

theorem request {code : Code} (hcode : ∀ t id, KeepsUp past (code t id)) (type : TypeId)
    (scope : ScopeId) (params : Table Value) : KeepsUp past (request code type scope params) :=
  fun _ hs h => .bind hs (ensure_owes hs h) fun _ _ ht howes =>
    .bind ht (evaluateResource_keepsUp hcode ht howes) fun _ _ _ h' => .pure h'

/-- The evaluation of everything but instances keeps up. -/
theorem walk (past : List ResourceId) : Walk fun _ p => KeepsUp past p where
  toCompositional := composed
  modifyScopes := fun _ => update fun _ h => h.of_status rfl fun _ => rfl
  note := fun _ => update fun _ h => h.of_status rfl fun _ => rfl
  setParameter := fun id param value => update fun s h =>
    h.of_status rfl (.setParameter s id param value)
  addClass := fun _ => update fun _ h => h.of_status rfl fun _ => rfl
  ancestry := by
    intro type scope s hs h
    refine (((ancestry_alike hs).imp (fun _ _ => trivial) fun _ _ hx => hx).and_holds
      ((LookingUp.since s).ancestry type scope) ⟨s.types, .refl _, rfl⟩).imp (fun _ h => h) ?_
    rintro l t ⟨-, known, he, rfl⟩
    exact h.of_types he
  request := request
  declareOther := by
    intro scope type title params _ _ s hs h
    refine .scopeAt_bind trivial fun c _ => .get_bind ?_
    split
    · next type' hfind =>
      refine .typeAt_bind trivial fun d hd => ?_
      refine (addResource_keeps (I := fun _ => True) hs trivial).imp (fun _ h => h) ?_
      rintro - t rfl
      obtain ⟨d', hd', hk⟩ := Registry.get?_of_find hfind
      refine h.append rfl ?_
      rintro _ ⟨⟩
      exact not_singleton_of_isDefine (isDefine_iff.mpr ⟨d', hd', hk⟩)
    · refine (addResource_keeps (I := fun _ => True) hs trivial).imp (fun _ h => h) ?_
      rintro - t rfl
      refine h.append rfl ?_
      rintro _ ⟨⟩

end KeepsUp

/-! ## The evaluation of instances -/

/-- An instance whose evaluation begins is the only one that is evaluated by then. -/
theorem evaluateInstance_keepsUp {r : Resource} (hs : Sound s) (h : UpToDate past s)
    (hr : s.catalog.get? id = some r) (hsrc : r.source = some type) (hwait : r.evaluated = false) :
    (evaluateResource (runCode strict) id).Keeps Sound (fun _ => True) s fun _ t =>
      UpToDate (past ++ [id]) t := by
  refine .follow trivial (.resourceAt_bind trivial fun r' hr' => ?_) fun _ _ _ => trivial
  rw [hr] at hr'
  cases hr'
  rw [if_neg (by rw [hwait]; exact Bool.false_ne_true)]
  refine .bind hs (.update (P := fun _ t => t = s.mark id) fun _ => rfl) ?_
  rintro - t ht rfl
  rw [hsrc]
  exact (KeepsUp.walk _).runCode type id _ ht (h.mark hr)

/-- A turn of the loop in which instances are evaluated: what waits is evaluated. -/
def Round (strict : Bool) (s t : State) : Prop :=
  s.catalog.unevaluated ≠ [] ∧
    (evaluateResources (runCode strict) s.catalog.unevaluated).run s = (.ok (), t)

/-- Between the evaluations of instances: those in `past` have been evaluated. -/
structure Turn (past : List ResourceId) (s : State) : Prop where
  sound : Sound s
  ready : Ready [] none s
  upToDate : UpToDate past s

namespace Turn

/-- What waits are instances that have not been evaluated. -/
theorem mem_unevaluated_iff (h : Turn past s) :
    id ∈ s.catalog.unevaluated ↔ isInstance s id = true ∧ ¬Done s id := by
  rw [mem_unevaluated]
  constructor
  · rintro ⟨r, hr, hsome, hwait⟩
    obtain ⟨ty, hsrc⟩ := Option.isSome_iff_exists.mp hsome
    refine ⟨isInstance_iff.mpr ⟨r, ty, hr, hsrc, ?_⟩, ?_⟩
    · by_contra hdef
      have hlt := h.sound.inRange.resourceSource id r ty hr hsrc
      have hsing : Singleton s ty := ⟨_, List.getElem?_eq_getElem hlt, fun hk =>
        hdef (isDefine_iff.mpr ⟨_, List.getElem?_eq_getElem hlt, hk⟩)⟩
      rw [h.upToDate.evaluated h.sound h.ready hr hsrc hsing] at hwait
      cases hwait
    · rintro ⟨r', hr', hev⟩
      rw [hr] at hr'
      cases hr'
      rw [hwait] at hev
      cases hev
  · rintro ⟨hid, hwait⟩
    obtain ⟨r, ty, hr, hsrc, -⟩ := isInstance_iff.mp hid
    exact ⟨r, hr, by rw [hsrc]; rfl, Bool.eq_false_of_not_eq_true fun hev => hwait ⟨r, hr, hev⟩⟩

/-- The evaluation of an instance enters its code and that of no other instance. -/
theorem evaluateResource (h : Turn past s) (hid : isInstance s id = true) (hwait : ¬Done s id)
    (hrun : (evaluateResource (runCode strict) id).run s = (.ok (), t)) :
    Turn (past ++ [id]) t ∧ Step Scopes.top s t ∧
      enteredInstances t.types ((Compilation.evaluateResource (runCode strict) id).visits [] s) =
        [id] := by
  obtain ⟨r, ty, hr, hsrc, hdef⟩ := isInstance_iff.mp hid
  have hfalse : r.evaluated = false := Bool.eq_false_of_not_eq_true fun hev => hwait ⟨r, hr, hev⟩
  have hroom : r.evaluated = false → remaining (s.mark id) < remaining s + 1 := fun _ =>
    Nat.lt_succ_of_le (remaining_le_of_step (Step.mark r.scope s id))
  have hmeets : (Compilation.evaluateResource (runCode strict) id).Meets (lawfully r.scope s) []
      [] s _ :=
    evaluateResource_meets (runCode_runs strict _) h.sound hr hsrc (h.ready.with_due _) hroom
  unfold Run.Meets at hmeets
  rw [hrun, List.nil_append] at hmeets
  obtain ⟨⟨hcourse, hcomplete⟩, hready, -⟩ := hmeets
  have hup := (evaluateInstance_keepsUp h.sound h.upToDate hr hsrc hfalse []
    fun v hv => (hcourse.visits v hv).sound).2
  rw [hrun] at hup
  have hstep : Step Scopes.top s t := (Step.refl Scopes.top s).trans_of_visible hcourse.step
    fun hh => absurd rfl (hh.resource id r hr)
  refine ⟨⟨hcourse.sound, hready, hup⟩, hstep, ?_⟩
  obtain ⟨r', hr', hg⟩ := hstep.resources id r hr
  have hsrc' : r'.source = some ty := hg.source.trans hsrc
  have hentered : ∀ ty', r'.source = some ty' → (ty', id) ∈ entered
      ((Compilation.evaluateResource (runCode strict) id).visits [] s) := by
    obtain ⟨q, hq, hev⟩ := hup.ran id (List.mem_append_right _ (List.mem_singleton_self _))
    rw [hr'] at hq
    cases hq
    exact fun ty' hty' => hcomplete.entered id r' ty' hr' hev hty' hwait
  -- what is entered for an instance is entered for one that had not been evaluated before
  have hfilter : ∀ e ∈ entered ((Compilation.evaluateResource (runCode strict) id).visits [] s),
      isDefine t.types e.1 = decide (e.2 = id) := by
    intro e he
    obtain ⟨q, hq, hqsrc, hqev⟩ := hcourse.marked e he
    rw [Bool.eq_iff_iff, decide_eq_true_eq]
    constructor
    · intro hdefine
      have hmem := hup.instances e.2 (isInstance_iff.mpr ⟨q, e.1, hq, hqsrc, hdefine⟩) ⟨q, hq, hqev⟩
      refine (List.mem_append.mp hmem).elim (fun hold => ?_) List.mem_singleton.mp
      exact absurd (h.upToDate.ran e.2 hold) (hcourse.fresh e he)
    · intro heq
      rw [heq, hr'] at hq
      cases hq
      rw [hsrc'] at hqsrc
      cases hqsrc
      rw [isDefine_of_extends hstep.types, hdef]
  rw [enteredInstances, List.filter_congr hfilter,
    filter_entered hcourse.toOrderly hr' hentered, hsrc']
  rfl

/-- So does the evaluation of instances one after the other. -/
theorem evaluateResources : ∀ {ids past : List ResourceId} {s : State}, Turn past s → ids.Nodup →
    (∀ id ∈ ids, isInstance s id = true ∧ ¬Done s id) →
    (evaluateResources (runCode strict) ids).run s = (.ok (), t) →
    Turn (past ++ ids) t ∧ Step Scopes.top s t ∧ enteredInstances t.types
      ((Compilation.evaluateResources (runCode strict) ids).visits [] s) = ids := by
  intro ids
  induction ids with
  | nil =>
    intro past s h _ _ hrun
    cases hrun
    exact ⟨by rwa [List.append_nil], .refl _ _, rfl⟩
  | cons id rest ih =>
    intro past s h hnodup hids hrun
    obtain ⟨hid, hrest⟩ := List.nodup_cons.mp hnodup
    rw [Compilation.evaluateResources, Run.run_bind] at hrun
    rw [Compilation.evaluateResources, Run.visits_bind]
    split at hrun
    · next u hrun₁ =>
      obtain ⟨hinstance, hwait⟩ := hids id List.mem_cons_self
      obtain ⟨h₁, hstep₁, hentered₁⟩ := h.evaluateResource hinstance hwait hrun₁
      have hids₁ : ∀ i ∈ rest, isInstance u i = true ∧ ¬Done u i := by
        intro i hi
        obtain ⟨hii, hwi⟩ := hids i (List.mem_cons_of_mem _ hi)
        have hiu := (Retains.of_step hstep₁).isInstance hii
        refine ⟨hiu, fun hd => ?_⟩
        rcases List.mem_append.mp (h₁.upToDate.instances i hiu hd) with hold | hnew
        · exact hwi (h.upToDate.ran i hold)
        · exact hid (List.mem_singleton.mp hnew ▸ hi)
      obtain ⟨h₂, hstep₂, hentered₂⟩ := ih h₁ hrest hids₁ hrun
      rw [enteredInstances_append]
      refine ⟨by rwa [List.append_assoc] at h₂, hstep₁.trans hstep₂, ?_⟩
      rw [enteredInstances_of_extends hstep₂.types, hentered₁, hentered₂]
      rfl
    · cases hrun

/-- What waits after a round has been declared during the round. -/
theorem length_le_of_waiting (h : Turn past s) (ht : Turn (past ++ s.catalog.unevaluated) t)
    (hstep : Step Scopes.top s t) {scope : ScopeId} {u : State} (hstep' : Step scope t u)
    (hid : isInstance u id = true) (hwait : ¬Done t id) : s.catalog.resources.length ≤ id := by
  by_contra hlt
  have hr := List.getElem?_eq_getElem (l := s.catalog.resources) (Nat.lt_of_not_le hlt)
  obtain ⟨r', hr', -⟩ := hstep.resources id _ hr
  have hs : isInstance s id = true := by
    rw [← (Retains.of_step hstep).isInstance_eq hr,
      ← (Retains.of_step hstep').isInstance_eq hr', hid]
  by_cases hdone : Done s id
  · exact hwait (hstep.done hdone)
  · have hmem := h.mem_unevaluated_iff.mpr ⟨hs, hdone⟩
    exact hwait (ht.upToDate.ran id (List.mem_append_right _ hmem))

/-- The rounds from some state on evaluate the instances that have not been evaluated, in the order
of their declaration. -/
theorem evaluateDefinitions : ∀ {rounds n : ℕ} {past : List ResourceId} {s : State},
    Turn past s → (evaluateDefinitions (runCode strict) rounds).run s = (.ok n, t) →
    Step Scopes.top s t ∧ ∃ ids : List ResourceId, enteredInstances t.types
      ((Compilation.evaluateDefinitions (runCode strict) rounds).visits [] s) = ids ∧
      ids.Pairwise (· < ·) ∧ (∀ id, id ∈ ids ↔ isInstance t id = true ∧ ¬Done s id) ∧
      n = ids.length := by
  intro rounds
  induction rounds with
  | zero =>
    intro n past s _ hrun
    cases hrun
  | succ rounds ih =>
    intro n past s h hrun
    let next : Run Nat := if s.catalog.unevaluated.isEmpty then return 0 else do
      Compilation.evaluateResources (runCode strict) s.catalog.unevaluated
      let later ← Compilation.evaluateDefinitions (runCode strict) rounds
      return s.catalog.unevaluated.length + later
    have hnext : next.run s = (.ok n, t) := hrun
    show Step Scopes.top s t ∧ ∃ ids, enteredInstances t.types (next.visits [] s) = ids ∧ _
    have hsorted : s.catalog.unevaluated.Pairwise (· < ·) := List.pairwise_lt_range.filter _
    by_cases hempty : s.catalog.unevaluated.isEmpty
    · have heq : next = return 0 := if_pos hempty
      rw [heq] at hnext ⊢
      cases hnext
      refine ⟨.refl _ _, [], rfl, .nil, fun id => ?_, rfl⟩
      rw [← h.mem_unevaluated_iff, List.isEmpty_iff.mp hempty]
    · have heq : next = _ := if_neg hempty
      rw [heq] at hnext ⊢
      obtain ⟨⟨⟩, u, hround, hrest⟩ := Run.run_bind_eq_ok.mp hnext
      obtain ⟨later, v, hlater, hlast⟩ := Run.run_bind_eq_ok.mp hrest
      cases hlast
      obtain ⟨hu, hstep, hentered⟩ := h.evaluateResources (hsorted.imp Nat.ne_of_lt)
        (fun id hid => h.mem_unevaluated_iff.mp hid) hround
      obtain ⟨hstep', ids, hids, hordered, hmem, rfl⟩ := ih hu hlater
      refine ⟨hstep.trans hstep', s.catalog.unevaluated ++ ids, ?_, ?_, fun id => ?_, by simp⟩
      · rw [Run.visits_bind_of_ok hround, Run.visits_bind_of_ok hlater, enteredInstances_append,
          enteredInstances_append, enteredInstances_of_extends hstep'.types, hentered, hids]
        exact congrArg _ (List.append_nil ids)
      · refine List.pairwise_append.mpr ⟨hsorted, hordered, fun a ha b hb => ?_⟩
        obtain ⟨r, hr, -⟩ := mem_unevaluated.mp ha
        obtain ⟨hb', hwait⟩ := (hmem b).mp hb
        exact (Catalog.lt_length_of_get? hr).trans_le (h.length_le_of_waiting hu hstep hstep' hb' hwait)
      · rw [List.mem_append, h.mem_unevaluated_iff, hmem]
        have hall := Retains.of_step (hstep.trans hstep')
        constructor
        · rintro (⟨hid, hwait⟩ | ⟨hid, hwait⟩)
          · exact ⟨hall.isInstance hid, hwait⟩
          · exact ⟨hid, fun hd => hwait (hstep.done hd)⟩
        · rintro ⟨hid, hwait⟩
          by_cases hd : Done u id
          case neg => exact .inr ⟨hid, hd⟩
          have ⟨r, hr, _⟩ := hd
          have hidu : isInstance u id = true := by
            rw [← (Retains.of_step hstep').isInstance_eq hr, hid]
          rcases List.mem_append.mp (hu.upToDate.instances id hidu hd) with hold | hnew
          · exact absurd (h.upToDate.ran id hold) hwait
          · exact .inl (h.mem_unevaluated_iff.mp hnew)

theorem round (h : Turn past s) (hround : Round strict s t) :
    Turn (past ++ s.catalog.unevaluated) t :=
  (h.evaluateResources (List.pairwise_lt_range.filter _ |>.imp Nat.ne_of_lt)
    (fun _ hid => h.mem_unevaluated_iff.mp hid) hround.2).1

theorem rounds (h : Turn past s) (hrounds : Relation.ReflTransGen (Round strict) s t) :
    ∃ past', Turn past' t := by
  induction hrounds with
  | refl => exact ⟨past, h⟩
  | tail _ hround ih =>
    obtain ⟨past', h'⟩ := ih
    exact ⟨_, h'.round hround⟩

end Turn

/-! ## The rounds of a compilation -/

theorem evaluateMain_upToDate (hs : Sound s) (hu : Untouched s) :
    (evaluateMain strict).Keeps Sound (fun _ => True) s fun _ t => UpToDate [] t := by
  refine .get_bind ?_
  dsimp only
  split
  · exact (KeepsUp.walk []).evaluateAtTop _ s hs (.of_untouched hu)
  · refine .bind hs (P := fun _ t => UpToDate [] t) ?_ fun type t ht h =>
      (KeepsUp.walk []).evaluateAtTop type t ht h
    refine .get_bind (.ofExcept_bind trivial fun x _ => ?_)
    refine .bind hs (.update (P := fun _ t => UpToDate [] t) fun _ => ?_) fun _ _ _ h => .pure h
    exact .of_untouched ⟨hu.resources, hu.classes, hu.ofTypes⟩

/-- When the evaluation of instances begins, none has been evaluated. -/
theorem turn_of_firstPhases {types : Registry} {host : Host} {settings : Settings}
    (hclosed : types.Closed)
    (h : (firstPhases host settings).run (.initial types host) = (.ok (), s)) : Turn [] s := by
  have hs : Sound (.initial types host) := sound_initial hclosed host
  have hmeets := firstPhases_meets hclosed host settings
  unfold Run.Meets at hmeets
  rw [h, List.nil_append] at hmeets
  obtain ⟨⟨ho, -⟩, hready⟩ := hmeets
  have hkeeps : (firstPhases host settings).Keeps Sound (fun _ => True) (.initial types host)
      fun _ t => UpToDate [] t := by
    have hfacts : (bindAtTop host.allFacts).Meets (overall (.initial types host)) [] []
        (.initial types host) fun _ t => Untouched t :=
      bindAtTop_meets host.allFacts (compiled_initial hclosed host) ⟨rfl, rfl, rfl⟩
    refine .bind hs (.of_meets hfacts fun _ _ _ _ hu => hu) ?_
    refine fun _ s₁ hs₁ hu₁ => .bind hs₁ (evaluateMain_upToDate hs₁ hu₁) fun _ s₂ hs₂ h₂ => ?_
    refine .bind hs₂ ((KeepsUp.walk []).evaluateNode host s₂ hs₂ h₂) fun _ s₃ hs₃ h₃ => ?_
    exact (KeepsUp.walk []).includeClasses (KeepsUp.walk []).runCode host.classes s₃ hs₃ h₃
  have hup := (hkeeps [] fun v hv => (ho.visits v hv).sound).2
  rw [h] at hup
  exact ⟨ho.sound, hready, hup⟩

section

variable (rounds : ℕ) {types : Registry} (host : Host) (settings : Settings)

/-- A compilation that succeeds evaluates the instances of defined types, those that are declared
meanwhile among them, in the order of their declaration, and counts them. Whenever a round of them
begins or the last one has ended, every class and node has been evaluated. -/
theorem instances_in_order (hclosed : types.Closed)
    (h : compile rounds types host settings = (.ok (), t)) :
    ∃ s n u, (firstPhases host settings).run (.initial types host) = (.ok (), s) ∧
      (evaluateDefinitions (runCode settings.strictVariables) rounds).run s = (.ok n, u) ∧
      t = { u with catalog := u.catalog.finalize } ∧
      (∀ v, Relation.ReflTransGen (Round settings.strictVariables) s v →
        ∀ id r type, v.catalog.get? id = some r → r.source = some type → Singleton v type →
          r.evaluated = true) ∧
      enteredInstances t.types
        ((evaluateDefinitions (runCode settings.strictVariables) rounds).visits [] s) =
          instances t ∧
      (instances t).Pairwise (· < ·) ∧ n = (instances t).length := by
  rw [compile, phases_eq_firstPhases] at h
  obtain ⟨⟨⟩, s, hfirst, h⟩ := Run.run_bind_eq_ok.mp h
  obtain ⟨n, u, hdefs, h⟩ := Run.run_bind_eq_ok.mp h
  cases h
  have hturn := turn_of_firstPhases hclosed hfirst
  obtain ⟨hstep, ids, hids, hordered, hmem, hn⟩ := hturn.evaluateDefinitions hdefs
  have hinstances : ids = instances u := by
    refine List.Perm.eq_of_pairwise' hordered (pairwise_instances u) ?_
    rw [List.perm_ext_iff_of_nodup (hordered.imp Nat.ne_of_lt)
      ((pairwise_instances u).imp Nat.ne_of_lt)]
    intro id
    rw [hmem, mem_instances, and_iff_left_iff_imp]
    rintro hid ⟨r, hr, hev⟩
    have hids : isInstance s id = true := by
      rw [← (Retains.of_step hstep).isInstance_eq hr, hid]
    cases hturn.upToDate.instances id hids ⟨r, hr, hev⟩
  refine ⟨s, n, u, hfirst, hdefs, rfl, ?_, hids.trans hinstances, pairwise_instances u,
    hinstances ▸ hn⟩
  intro v hv id r type hr hsrc hsing
  obtain ⟨past, hv⟩ := hturn.rounds hv
  exact hv.upToDate.evaluated hv.sound hv.ready hr hsrc hsing

end

/-- A defined type whose instances declare instances of another one, which include a class that
declares an instance of the first again. -/
def cascade : Registry where
  environment := "production"
  types := [
    { Descriptor.ofName .hostclass "" with
      body := some (.code (.block [
        .declare "d" (.literal (.str "i")) [], .declare "d" (.literal (.str "j")) []])) },
    { Descriptor.ofName .define "d" with
      body := some (.code (.declare "e" (.var "title") [])) },
    { Descriptor.ofName .define "e" with
      body := some (.code (.includes ["c"])) },
    { Descriptor.ofName .hostclass "c" with
      body := some (.code (.declare "d" (.literal (.str "k")) [])) }]

/-- The cascade takes four rounds, and the class is entered in the second one. -/
theorem instances_in_order_cascade :
    ∃ s t, compile 5 cascade ⟨"web01", [], []⟩ {} = (.ok (), t) ∧
      instances t = [1, 2, 3, 4, 6, 7] ∧
      enteredInstances t.types ((evaluateDefinitions (runCode false) 5).visits [] s) =
        [1, 2, 3, 4, 6, 7] ∧
      ∃ u, (evaluateDefinitions (runCode false) 5).run s = (.ok 6, u) := by
  have hok : (compile 5 cascade ⟨"web01", [], []⟩ {}).1.toBool = true := by decide +kernel
  have hids : instances (compile 5 cascade ⟨"web01", [], []⟩ {}).2 = [1, 2, 3, 4, 6, 7] := by
    decide +kernel
  rcases hcompile : compile 5 cascade ⟨"web01", [], []⟩ {} with ⟨⟨⟩ | ⟨⟨⟩⟩, t⟩
  · rw [hcompile] at hok
    cases hok
  · rw [hcompile] at hids
    obtain ⟨s, n, u, -, hrun, -, -, hentered, -, rfl⟩ := instances_in_order 5 ⟨"web01", [], []⟩ {}
      (Registry.closed_of_unresolved (r := cascade) (by decide +kernel)) hcompile
    rw [hids] at hentered hrun
    exact ⟨s, t, rfl, hids, hentered, u, hrun⟩

end SiteCatalog.Compilation
