import SiteCatalog.Proofs.Compilation.Alongside
import SiteCatalog.Proofs.Compilation.Spelling.Sites
import SiteCatalog.Proofs.Compilation.Spelling.Values
import SiteCatalog.Proofs.Scopes

/-!
# States of two compilations

A compilation of a site and one of the site where a default is spelled out go through the same
states, except that values which pass for each other may differ, that resources may have been
declared with the default, and that their parameters may come in another order.

Results:
* `Spelling.Related`: what the states have to do with each other.
* `Related.modifyScope`, `Related.modifyResource`, `Related.append`: the changes that both
  compilations make.
* `Related.mark`, `Related.settle`, `Related.push`: the evaluation of a resource begins, its defaults
  are there, and it gets a scope of its own.
-/

namespace SiteCatalog.Compilation

/-- What tells two compilations apart: the default that is spelled out, and which values pass for each
other. -/
structure Spelling where
  types : Registry
  added : LiteralDefault types
  like : Value → Value → Prop
  likeness : Value.Likeness like
  /-- A passed default is bound to its coerced value. -/
  coerced : like added.value added.value.coerce
  strict : Bool

/-! ## Where a run is -/

/-- A resource whose evaluation has begun and whose defaults are not bound yet. -/
structure Preparation where
  id : ResourceId
  type : TypeId
  title : String

/-- Where a run is. -/
structure Frame where
  /-- Scopes whose namespaces are known. -/
  spaces : List (ScopeId × String)
  /-- Scopes to which nothing refers yet. -/
  hidden : List ScopeId
  preparing : List Preparation
  /-- Resources whose evaluation has begun and whose defaults are being bound or are bound. -/
  begun : List ResourceId
  /-- Whether the resource of the unnamed class exists. -/
  entered : Bool

namespace Frame

/-- The evaluation of a resource has begun. -/
def prepare (F : Frame) (e : Preparation) : Frame :=
  { F with preparing := e :: F.preparing }

/-- The namespace of a scope is known. -/
def know (F : Frame) (k : ScopeId) (space : String) : Frame :=
  { F with spaces := (k, space) :: F.spaces }

/-- The defaults of a resource are being bound. -/
def begin (F : Frame) (id : ResourceId) : Frame :=
  { F with begun := id :: F.begun }

/-- The evaluation of a resource has begun, and nothing refers to some scopes yet. -/
def before (F : Frame) (e : Preparation) (hidden : List ScopeId) : Frame :=
  { F.prepare e with hidden := hidden ++ F.hidden }

/-- The resource of the unnamed class exists. -/
def enter (F : Frame) : Frame :=
  { F with entered := true }

/-- A resource is being prepared. -/
def Prepares (F : Frame) (id : ResourceId) : Prop :=
  ∃ e ∈ F.preparing, e.id = id

/-- A scope exists and may be referred to. -/
def Visible (F : Frame) (s : State) (k : ScopeId) : Prop :=
  k < s.scopes.arena.length ∧ k ∉ F.hidden

/-- A known scope that may be referred to, in which classes can be entered. -/
structure Places (F : Frame) (scope : ScopeId) : Prop where
  known : ∃ space, (scope, space) ∈ F.spaces
  notHidden : scope ∉ F.hidden
  main : F.entered = true ∨ scope = Scopes.top

/-- A scope with a known namespace, in which code can run. -/
structure Sees (F : Frame) (scope : ScopeId) (space : String) : Prop where
  known : (scope, space) ∈ F.spaces
  notHidden : scope ∉ F.hidden
  entered : F.entered = true

theorem Sees.places {F : Frame} {scope : ScopeId} {space : String} (h : F.Sees scope space) :
    F.Places scope :=
  ⟨⟨space, h.known⟩, h.notHidden, .inl h.entered⟩

/-- The identity of the resource of the unnamed class. -/
def mainIdentity : Identity :=
  Identity.of "Class" mainTitle

/-- A state in which a run can be there. -/
structure Fits (F : Frame) (types : Registry) (s : State) : Prop where
  spaces : ∀ e ∈ F.spaces, ∃ c, s.scopes.get? e.1 = some c ∧ c.space = e.2
  hidden : ∀ k ∈ F.hidden, k < s.scopes.arena.length
  parents : ∀ c ∈ s.scopes.arena, ∀ p, c.parent = some p → F.Visible s p
  classes : ∀ e ∈ s.scopes.ofTypes, F.Visible s e.2
  declared : ∀ r ∈ s.catalog.resources, F.Visible s r.scope
  preparing : ∀ e ∈ F.preparing, ∃ r, s.catalog.get? e.id = some r ∧ r.evaluated = true ∧
    r.source = some e.type ∧ r.title = e.title
  begun : ∀ id ∈ F.begun, ∃ r, s.catalog.get? id = some r ∧ r.evaluated = true
  /-- Only the resource of the unnamed class has its title, and it stands at the top. -/
  singleton : ∀ r ∈ s.catalog.resources, ∀ t d, r.source = some t → types.get? t = some d →
    d.kind = .hostclass → r.title = d.resourceTitle ∧ (r.title = mainTitle → r.scope = Scopes.top)
  entered : F.entered = true → ∃ r ∈ s.catalog.resources, r.identity = mainIdentity

namespace Fits

variable {F : Frame} {types : Registry} {s : State}

theorem visible (h : F.Fits types s) {k : ScopeId} (hk : F.Places k) : F.Visible s k := by
  obtain ⟨space, hknown⟩ := hk.known
  obtain ⟨c, hc, -⟩ := h.spaces _ hknown
  exact ⟨Scopes.lt_length_of_get? hc, hk.notHidden⟩

/-- The scope of a resource may be referred to. -/
theorem visible_of_get? (h : F.Fits types s) {id : ResourceId} {r : Resource}
    (hr : s.catalog.get? id = some r) : F.Visible s r.scope :=
  h.declared r (List.mem_of_getElem? hr)

/-- One scope changes, but neither its namespace nor its parent, unless a scope that may be referred
to becomes its parent. -/
theorem modifyScope (h : F.Fits types s) (k : ScopeId) {f : Scope → Scope}
    (hspace : ∀ c, (f c).space = c.space)
    (hparent : ∀ c p, (f c).parent = some p → c.parent = some p ∨ F.Visible s p) :
    F.Fits types { s with scopes := s.scopes.modify k f } := by
  have hvisible : ∀ j, F.Visible s j → F.Visible { s with scopes := s.scopes.modify k f } j :=
    fun j hj => ⟨by rw [Scopes.length_modify]; exact hj.1, hj.2⟩
  constructor
  case spaces =>
    intro e he
    obtain ⟨c, hc, hspaceOf⟩ := h.spaces e he
    rw [Scopes.get?_modify, hc]
    split
    · exact ⟨f c, rfl, (hspace c).trans hspaceOf⟩
    · exact ⟨c, rfl, hspaceOf⟩
  case hidden =>
    intro j hj
    rw [Scopes.length_modify]
    exact h.hidden j hj
  case parents =>
    refine forall_mem_modify (P := fun c => ∀ p, c.parent = some p → F.Visible _ p)
      (fun c hc p hp => hvisible p (h.parents c hc p hp)) fun c hc p hp => ?_
    exact (hparent c p hp).elim (hc p) (hvisible p)
  case classes => exact fun e he => hvisible _ (h.classes e he)
  case declared => exact fun r hr => hvisible _ (h.declared r hr)
  case preparing => exact h.preparing
  case begun => exact h.begun
  case singleton => exact h.singleton
  case entered => exact h.entered

/-- A scope is added, to which nothing refers yet. -/
theorem push (h : F.Fits types s) {e : Preparation} {c : Scope} {k : ScopeId}
    (hk : k = s.scopes.arena.length) (he : (F.prepare e).Fits types s)
    (hparent : ∀ p, c.parent = some p → F.Visible s p) :
    ((F.know k c.space).before e [k]).Fits types
      { s with scopes := (s.scopes.push c).2 } := by
  have hlength : ((s.scopes.push c).2).arena.length = s.scopes.arena.length + 1 := by
    simp [Scopes.push]
  have hvisible : ∀ j, F.Visible s j → ((F.know k c.space).before e [k]).Visible
      { s with scopes := (s.scopes.push c).2 } j := by
    rintro j ⟨hlt, hnot⟩
    refine ⟨hlength ▸ Nat.lt_succ_of_lt hlt, fun hj => ?_⟩
    rcases List.mem_cons.mp hj with rfl | hj
    · exact Nat.ne_of_lt hlt hk
    · exact hnot hj
  constructor
  case spaces =>
    refine List.forall_mem_cons.mpr ⟨⟨c, ?_, rfl⟩, fun e he => ?_⟩
    · rw [Scopes.get?_push, if_pos hk]
    · obtain ⟨q, hq, hspace⟩ := h.spaces e he
      exact ⟨q, Scopes.get?_push_of_get? hq _, hspace⟩
  case hidden =>
    refine List.forall_mem_cons.mpr ⟨?_, fun j hj => hlength ▸ Nat.lt_succ_of_lt (h.hidden j hj)⟩
    rw [hlength, hk]
    exact Nat.lt_succ_self _
  case parents =>
    intro q hq p hp
    rcases List.mem_append.mp hq with hq | hq
    · exact hvisible p (h.parents q hq p hp)
    · rw [List.mem_singleton.mp hq] at hp
      exact hvisible p (hparent p hp)
  case classes => exact fun e he => hvisible _ (h.classes e he)
  case declared => exact fun r hr => hvisible _ (h.declared r hr)
  case preparing => exact he.preparing
  case begun => exact h.begun
  case singleton => exact h.singleton
  case entered => exact h.entered

/-- Less is known of the place of the run. -/
theorem weaken {G : Frame} (h : G.Fits types s) (hspaces : F.spaces ⊆ G.spaces)
    (hhidden : F.hidden ⊆ G.hidden) (hpreparing : F.preparing ⊆ G.preparing)
    (hbegun : F.begun ⊆ G.begun) (hentered : F.entered = true → G.entered = true) :
    F.Fits types s where
  spaces e he := h.spaces e (hspaces he)
  hidden k hk := h.hidden k (hhidden hk)
  parents c hc p hp := ⟨(h.parents c hc p hp).1, fun hk => (h.parents c hc p hp).2 (hhidden hk)⟩
  classes e he := ⟨(h.classes e he).1, fun hk => (h.classes e he).2 (hhidden hk)⟩
  declared r hr := ⟨(h.declared r hr).1, fun hk => (h.declared r hr).2 (hhidden hk)⟩
  preparing e he := h.preparing e (hpreparing he)
  begun id hid := h.begun id (hbegun hid)
  singleton := h.singleton
  entered hF := h.entered (hentered hF)

/-- The namespace of a scope becomes known. -/
theorem know (h : F.Fits types s) {k : ScopeId} {c : Scope} (hc : s.scopes.get? k = some c) :
    (F.know k c.space).Fits types s where
  spaces := List.forall_mem_cons.mpr ⟨⟨c, hc, rfl⟩, h.spaces⟩
  hidden := h.hidden
  parents := h.parents
  classes := h.classes
  declared := h.declared
  preparing := h.preparing
  begun := h.begun
  singleton := h.singleton
  entered := h.entered

/-- The scope of a class is remembered. -/
theorem setOfType (h : F.Fits types s) (t : TypeId) {k : ScopeId} (hk : F.Visible s k) :
    F.Fits types { s with scopes := s.scopes.setOfType t k } where
  spaces := h.spaces
  hidden := h.hidden
  parents := h.parents
  classes e he := by
    rcases List.mem_cons.mp he with rfl | he
    · exact hk
    · exact h.classes e (List.mem_filter.mp he).1
  declared := h.declared
  preparing := h.preparing
  begun := h.begun
  singleton := h.singleton
  entered := h.entered

/-- One resource changes, but not in what it is known by. -/
theorem modifyResource (h : F.Fits types s) (id : ResourceId) {f : Resource → Resource}
    (hf : ∀ r, (f r).tag = r.tag ∧ (f r).title = r.title ∧ (f r).scope = r.scope ∧
      (f r).source = r.source ∧ (r.evaluated = true → (f r).evaluated = true)) :
    F.Fits types { s with catalog := s.catalog.modify id f } where
  spaces := h.spaces
  hidden := h.hidden
  parents := h.parents
  classes := h.classes
  declared := forall_mem_modify (P := fun (r : Resource) => F.Visible s r.scope) h.declared fun r hr => by
    rw [(hf r).2.2.1]
    exact hr
  preparing e he := by
    obtain ⟨r, hr, hdone, hsource, htitle⟩ := h.preparing e he
    obtain ⟨-, ht, -, hs, hd⟩ := hf r
    rw [Catalog.get?_modify, hr]
    split
    · exact ⟨f r, rfl, hd hdone, hs.trans hsource, ht.trans htitle⟩
    · exact ⟨r, rfl, hdone, hsource, htitle⟩
  begun i hi := by
    obtain ⟨r, hr, hdone⟩ := h.begun i hi
    obtain ⟨-, -, -, -, hd⟩ := hf r
    rw [Catalog.get?_modify, hr]
    split
    · exact ⟨f r, rfl, hd hdone⟩
    · exact ⟨r, rfl, hdone⟩
  singleton := forall_mem_modify (P := fun (r : Resource) => ∀ t d, r.source = some t → types.get? t = some d →
      d.kind = .hostclass → r.title = d.resourceTitle ∧ (r.title = mainTitle → r.scope = Scopes.top))
    h.singleton fun r hr => by
      obtain ⟨-, ht, hc, hs, -⟩ := hf r
      rw [ht, hc, hs]
      exact hr
  entered hentered := by
    obtain ⟨r, hr, hidentity⟩ := h.entered hentered
    obtain ⟨i, hi⟩ := List.mem_iff_getElem?.mp hr
    have hget := s.catalog.get?_modify id i f
    rw [show s.catalog.get? i = some r from hi] at hget
    split at hget
    · refine ⟨f r, List.mem_of_getElem? hget, ?_⟩
      rw [Resource.identity, (hf r).1, (hf r).2.1]
      exact hidentity
    · exact ⟨r, List.mem_of_getElem? hget, hidentity⟩

/-- The evaluation of a resource begins. -/
theorem prepare (h : F.Fits types s) {e : Preparation} (he : ∃ r, s.catalog.get? e.id = some r ∧
    r.evaluated = true ∧ r.source = some e.type ∧ r.title = e.title) :
    (F.prepare e).Fits types s where
  spaces := h.spaces
  hidden := h.hidden
  parents := h.parents
  classes := h.classes
  declared := h.declared
  preparing := List.forall_mem_cons.mpr ⟨he, h.preparing⟩
  begun := h.begun
  singleton := h.singleton
  entered := h.entered

/-- A resource is added. -/
theorem append (h : F.Fits types s) {r : Resource} (hr : F.Visible s r.scope)
    (hsingleton : ∀ t d, r.source = some t → types.get? t = some d → d.kind = .hostclass →
      r.title = d.resourceTitle ∧ (r.title = mainTitle → r.scope = Scopes.top)) :
    F.Fits types { s with catalog := s.catalog.append r } where
  spaces := h.spaces
  hidden := h.hidden
  parents := h.parents
  classes := h.classes
  declared := List.forall_mem_append.mpr ⟨h.declared, List.forall_mem_singleton.mpr hr⟩
  preparing e he := by
    obtain ⟨q, hq, hsame⟩ := h.preparing e he
    exact ⟨q, Catalog.get?_append_of_get? hq _, hsame⟩
  begun i hi := by
    obtain ⟨q, hq, hdone⟩ := h.begun i hi
    exact ⟨q, Catalog.get?_append_of_get? hq _, hdone⟩
  singleton := List.forall_mem_append.mpr
    ⟨h.singleton, List.forall_mem_singleton.mpr hsingleton⟩
  entered hentered := by
    obtain ⟨q, hq, hidentity⟩ := h.entered hentered
    exact ⟨q, List.mem_append_left _ hq, hidentity⟩

end Fits

end Frame

/-! ## Resources, scopes and states -/

namespace Spelling

variable (S : Spelling)

/-- The same parameters, with values that pass for each other. -/
def Same (params params' : Table Value) : Prop :=
  List.Forall₂ (Table.SameEntry S.like) params params'

/-- The same parameters and the default. -/
structure Added (params params' : Table Value) : Prop where
  split : ∃ front back, params' = front ++ (S.added.param, S.added.value) :: back ∧
    S.Same params (front ++ back)
  omitted : S.added.Omitted params.keys

/-- A resource as it was declared, perhaps with the default. The unnamed class is not declared. -/
def Raw (r r' : Resource) : Prop :=
  S.Same r.params r'.params ∨ S.Added r.params r'.params ∧ r.source = some S.added.type ∧
    ¬(S.added.descriptor.kind = .hostclass ∧ r.title = mainTitle)

/-- A resource is known by the same, and it is as it was declared, or all its defaults are there. -/
structure ResourceLike (prepared : Prop) (r r' : Resource) : Prop where
  shape : r' = { r with params := r'.params }
  raw : r.evaluated = false ∨ prepared → S.Raw r r'
  settled : r.evaluated = true → ¬prepared → Table.Alike S.like r.params r'.params

/-- A scope has variables with values that pass for each other. -/
def ScopeLike (c c' : Scope) : Prop :=
  ∃ vars, c' = { c with vars } ∧ Table.Alike S.like c.vars vars

/-- The states of two compilations that are at the same place. -/
structure Related (F : Frame) (s s' : State) : Prop where
  origin : Pointwise (fun _ d e => ∃ resolved, e = { d with resolved }) S.types.withMain.types
    s.types.types
  types : Pointwise (fun _ => S.added.TypeSpelled) s.types.types s'.types.types
  arena : Pointwise (fun _ => S.ScopeLike) s.scopes.arena s'.scopes.arena
  ofTypes : s'.scopes.ofTypes = s.scopes.ofTypes
  resources : Pointwise (fun id => S.ResourceLike (F.Prepares id)) s.catalog.resources
    s'.catalog.resources
  catalog : s'.catalog = { s.catalog with resources := s'.catalog.resources }
  fits : F.Fits S.types.withMain s

namespace Related

variable {S} {F G : Frame} {s s' : State}

/-! ### What is read -/

theorem foundLike (h : S.Related F s s') : s.types.FoundLike s'.types :=
  h.types.mono fun _ _ _ _ _ hd => hd.foundLike

theorem origin_foundLike (h : S.Related F s s') : S.types.withMain.FoundLike s.types :=
  h.origin.mono fun _ _ _ _ _ hd => by
    obtain ⟨_, rfl⟩ := hd
    exact ⟨rfl, rfl, rfl⟩

theorem scope (h : S.Related F s s') (k : ScopeId) :
    Option.Rel S.ScopeLike (s.scopes.get? k) (s'.scopes.get? k) :=
  h.arena k

theorem exists_scope (h : S.Related F s s') {k : ScopeId} {c : Scope}
    (hc : s.scopes.get? k = some c) :
    ∃ c', s'.scopes.get? k = some c' ∧ S.ScopeLike c c' := by
  have hk := h.scope k
  rw [hc] at hk
  generalize s'.scopes.get? k = o at hk
  cases hk with
  | some hlike => exact ⟨_, rfl, hlike⟩

theorem parent?_eq (h : S.Related F s s') : s'.scopes.parent? = s.scopes.parent? := by
  funext k
  have hk := h.scope k
  rw [Scopes.parent?, Scopes.parent?]
  generalize s.scopes.get? k = o, s'.scopes.get? k = o' at hk
  cases hk with
  | none => rfl
  | some hc =>
    obtain ⟨_, rfl, -⟩ := hc
    rfl

theorem moduleName_eq (h : S.Related F s s') : s'.scopes.moduleName = s.scopes.moduleName := by
  refine Scopes.moduleName_congr h.arena.length_eq.symm h.parent?_eq fun i => ?_
  have hi := h.scope i
  generalize s.scopes.get? i = o, s'.scopes.get? i = o' at hi
  cases hi with
  | none => rfl
  | some hc =>
    obtain ⟨_, rfl, -⟩ := hc
    rfl

theorem resource?_eq (h : S.Related F s s') : s'.catalog.resource? = s.catalog.resource? := by
  funext type title
  refine (h.resources.findIdx?_eq fun _ r r' hr => ?_).symm
  rw [hr.shape]
  rfl

theorem unevaluated_eq (h : S.Related F s s') : s'.catalog.unevaluated = s.catalog.unevaluated := by
  rw [Catalog.unevaluated, Catalog.unevaluated, h.resources.length_eq]
  refine congrArg (List.filter · _) (funext fun id => ?_)
  have hid : Option.Rel _ (s.catalog.get? id) (s'.catalog.get? id) := h.resources id
  generalize s.catalog.get? id = o, s'.catalog.get? id = o' at hid
  cases hid with
  | none => rfl
  | some hr =>
    rw [hr.shape]
    rfl

/-! ### Changes of types and lists -/

/-- What linked bodies note does not count. -/
theorem note (h : S.Related F s s') (text text' : String) :
    S.Related F { s with log := s.log ++ [text] } { s' with log := s'.log ++ [text'] } where
  origin := h.origin
  types := h.types
  arena := h.arena
  ofTypes := h.ofTypes
  resources := h.resources
  catalog := h.catalog
  fits := ⟨h.fits.spaces, h.fits.hidden, h.fits.parents, h.fits.classes, h.fits.declared,
    h.fits.preparing, h.fits.begun, h.fits.singleton, h.fits.entered⟩

/-- A parent becomes known. -/
theorem cache (h : S.Related F s s') (t p : TypeId) :
    S.Related F
      { s with types := s.types.modify t fun d => { d with resolved := d.resolved.or (some p) } }
      { s' with types := s'.types.modify t fun d => { d with resolved := d.resolved.or (some p) } }
      where
  origin := by
    intro i
    have hi := h.origin i
    show Option.Rel _ _ ((s.types.types.modify t _)[i]?)
    rw [List.getElem?_modify]
    generalize S.types.withMain.types[i]? = o, s.types.types[i]? = o' at hi
    cases hi with
    | none => exact .none
    | some hd =>
      obtain ⟨_, rfl⟩ := hd
      refine .some ?_
      split
      · exact ⟨_, rfl⟩
      · exact ⟨_, rfl⟩
  types := h.types.modify (fun _ _ _ _ hd => hd) fun d d' _ _ hd => by
    obtain ⟨body, rfl, hbody⟩ := hd
    exact ⟨body, rfl, hbody⟩
  arena := h.arena
  ofTypes := h.ofTypes
  resources := h.resources
  catalog := h.catalog
  fits := ⟨h.fits.spaces, h.fits.hidden, h.fits.parents, h.fits.classes, h.fits.declared,
    h.fits.preparing, h.fits.begun, h.fits.singleton, h.fits.entered⟩

/-- The lists of a catalog change, but not its resources. -/
theorem modifyLists (h : S.Related F s s') {f : Catalog → Catalog}
    (hf : ∀ c resources, f { c with resources } = { f c with resources }) :
    S.Related F { s with catalog := f s.catalog } { s' with catalog := f s'.catalog } := by
  have hresources : ∀ c, (f c).resources = c.resources := fun c => by
    have hsame := congrArg Catalog.resources (hf c c.resources)
    exact hsame
  have hcatalog : f s'.catalog = { f s.catalog with resources := s'.catalog.resources } := by
    conv_lhs => rw [h.catalog]
    exact hf _ _
  have hfits : F.Fits S.types.withMain { s with catalog := f s.catalog } := by
    constructor
    case spaces => exact h.fits.spaces
    case hidden => exact h.fits.hidden
    case parents => exact h.fits.parents
    case classes => exact h.fits.classes
    case declared => exact fun r hr => h.fits.declared r (hresources _ ▸ hr)
    case preparing =>
      intro e he
      rw [Catalog.get?, hresources]
      exact h.fits.preparing e he
    case begun =>
      intro i hi
      rw [Catalog.get?, hresources]
      exact h.fits.begun i hi
    case singleton => exact fun r hr => h.fits.singleton r (hresources _ ▸ hr)
    case entered =>
      rw [hresources]
      exact h.fits.entered
  exact {
    origin := h.origin
    types := h.types
    arena := h.arena
    ofTypes := h.ofTypes
    resources := by
      show Pointwise _ (f s.catalog).resources (f s'.catalog).resources
      rw [hresources, hresources]
      exact h.resources
    catalog := by
      show f s'.catalog = { f s.catalog with resources := (f s'.catalog).resources }
      rw [hresources]
      exact hcatalog
    fits := hfits }

/-! ### Changes of scopes -/

theorem modifyScope (h : S.Related F s s') (k : ScopeId) {f g : Scope → Scope}
    (hf : ∀ c c', S.ScopeLike c c' → S.ScopeLike (f c) (g c'))
    (hspace : ∀ c, (f c).space = c.space)
    (hparent : ∀ c p, (f c).parent = some p → c.parent = some p ∨ F.Visible s p) :
    S.Related F { s with scopes := s.scopes.modify k f }
      { s' with scopes := s'.scopes.modify k g } where
  origin := h.origin
  types := h.types
  arena := h.arena.modify (fun _ _ _ _ hc => hc) fun c c' _ _ hc => hf c c' hc
  ofTypes := h.ofTypes
  resources := h.resources
  catalog := h.catalog
  fits := h.fits.modifyScope k hspace hparent

theorem bind (h : S.Related F s s') (k : ScopeId) (name : String) {v v' : Value}
    (hv : S.like v v') :
    S.Related F { s with scopes := s.scopes.bind k name v }
      { s' with scopes := s'.scopes.bind k name v' } := by
  refine h.modifyScope k ?_ (fun _ => rfl) fun _ _ hp => .inl hp
  rintro c _ ⟨vars, rfl, hvars⟩
  exact ⟨_, rfl, hvars.insert hv name⟩

theorem setParent (h : S.Related F s s') (k : ScopeId) {p : ScopeId} (hp : F.Visible s p) :
    S.Related F { s with scopes := s.scopes.setParent k p }
      { s' with scopes := s'.scopes.setParent k p } := by
  refine h.modifyScope k ?_ (fun _ => rfl) fun c q hq => .inr (Option.some.inj hq ▸ hp)
  rintro c _ ⟨vars, rfl, hvars⟩
  exact ⟨vars, rfl, hvars⟩

theorem setOfType (h : S.Related F s s') (t : TypeId) {k : ScopeId} (hk : F.Visible s k) :
    S.Related F { s with scopes := s.scopes.setOfType t k }
      { s' with scopes := s'.scopes.setOfType t k } where
  origin := h.origin
  types := h.types
  arena := h.arena
  ofTypes := by
    show (t, k) :: s'.scopes.ofTypes.filter _ = (t, k) :: s.scopes.ofTypes.filter _
    rw [h.ofTypes]
  resources := h.resources
  catalog := h.catalog
  fits := h.fits.setOfType t hk

/-! ### Changes of resources -/

theorem modifyResource (h : S.Related F s s') (id : ResourceId) {f g : Resource → Resource}
    (hlike : ∀ r r', s.catalog.get? id = some r → s'.catalog.get? id = some r' →
      S.ResourceLike (F.Prepares id) r r' → S.ResourceLike (F.Prepares id) (f r) (g r'))
    (hf : ∀ r, (f r).tag = r.tag ∧ (f r).title = r.title ∧ (f r).scope = r.scope ∧
      (f r).source = r.source ∧ (r.evaluated = true → (f r).evaluated = true)) :
    S.Related F { s with catalog := s.catalog.modify id f }
      { s' with catalog := s'.catalog.modify id g } where
  origin := h.origin
  types := h.types
  arena := h.arena
  ofTypes := h.ofTypes
  resources := h.resources.modify (fun _ _ _ _ hr => hr) hlike
  catalog := by
    show s'.catalog.modify id g =
      { s.catalog.modify id f with resources := (s'.catalog.modify id g).resources }
    rw [h.catalog]
    rfl
  fits := h.fits.modifyResource id hf

theorem prepares_iff {e : Preparation} (hidden : List ScopeId) {id : ResourceId} (hid : id ≠ e.id) :
    (F.before e hidden).Prepares id ↔ F.Prepares id := by
  rw [Frame.Prepares, Frame.Prepares, Frame.before, Frame.prepare, List.exists_mem_cons_iff]
  exact or_iff_right (Ne.symm hid)

/-- The evaluation of a resource begins. -/
theorem mark (h : S.Related F s s') {e : Preparation} {r : Resource}
    (hr : s.catalog.get? e.id = some r) (hnew : r.evaluated = false)
    (hsource : r.source = some e.type) (htitle : r.title = e.title) :
    S.Related (F.prepare e) { s with catalog := s.catalog.markEvaluated e.id }
      { s' with catalog := s'.catalog.markEvaluated e.id } where
  origin := h.origin
  types := h.types
  arena := h.arena
  ofTypes := h.ofTypes
  resources := by
    refine h.resources.modify (fun j q q' hj hq => ?_) fun q q' hq _ hlike => ?_
    · rw [show (F.prepare e).Prepares j ↔ F.Prepares j from prepares_iff [] hj]
      exact hq
    · cases hr.symm.trans hq
      refine ⟨?_, fun _ => hlike.raw (.inl hnew), fun _ hno => ?_⟩
      · show { q' with evaluated := true } = _
        rw [hlike.shape]
      · exact absurd ⟨e, List.mem_cons_self, rfl⟩ hno
  catalog := by
    show s'.catalog.markEvaluated e.id = { s.catalog.markEvaluated e.id with
      resources := (s'.catalog.markEvaluated e.id).resources }
    rw [h.catalog]
    rfl
  fits := by
    have hmodified := h.fits.modifyResource e.id (f := fun q => { q with evaluated := true })
      fun _ => ⟨rfl, rfl, rfl, rfl, fun _ => rfl⟩
    refine hmodified.prepare ⟨{ r with evaluated := true }, ?_, rfl, hsource, htitle⟩
    show (s.catalog.modify e.id _).get? e.id = _
    rw [Catalog.get?_modify, if_pos rfl, hr]
    rfl

/-- The defaults of a resource are there. -/
theorem settle {e : Preparation} {hidden : List ScopeId}
    (h : S.Related (F.before e hidden) s s') (hfree : ¬F.Prepares e.id) {f g : Resource → Resource}
    (hlike : ∀ r r', s.catalog.get? e.id = some r → s'.catalog.get? e.id = some r' →
      S.Raw r r' → r' = { r with params := r'.params } →
      g r' = { f r with params := (g r').params } ∧ Table.Alike S.like (f r).params (g r').params)
    (hf : ∀ r, (f r).tag = r.tag ∧ (f r).title = r.title ∧ (f r).scope = r.scope ∧
      (f r).source = r.source ∧ (r.evaluated = true → (f r).evaluated = true)) :
    S.Related (F.begin e.id) { s with catalog := s.catalog.modify e.id f }
      { s' with catalog := s'.catalog.modify e.id g } where
  origin := h.origin
  types := h.types
  arena := h.arena
  ofTypes := h.ofTypes
  resources := by
    have hdone : ∀ r, s.catalog.get? e.id = some r → r.evaluated = true := by
      intro r hr
      obtain ⟨q, hq, hdone, -⟩ := h.fits.preparing e List.mem_cons_self
      cases hr.symm.trans hq
      exact hdone
    refine h.resources.modify (fun j q q' hj hq => ?_) fun r r' hr hr' hres => ?_
    · rw [prepares_iff hidden hj] at hq
      exact hq
    · obtain ⟨hshape, halike⟩ := hlike r r' hr hr'
        (hres.raw (.inr ⟨e, List.mem_cons_self, rfl⟩)) hres.shape
      refine ⟨hshape, fun hraw => ?_, fun _ _ => halike⟩
      rcases hraw with hnew | hprepared
      · rw [(hf r).2.2.2.2 (hdone r hr)] at hnew
        cases hnew
      · exact absurd hprepared hfree
  catalog := by
    show s'.catalog.modify e.id g =
      { s.catalog.modify e.id f with resources := (s'.catalog.modify e.id g).resources }
    rw [h.catalog]
    rfl
  fits := by
    have hfits := h.fits.modifyResource e.id hf
    have hpreparing := hfits.preparing e List.mem_cons_self
    have hweak : F.Fits S.types.withMain { s with catalog := s.catalog.modify e.id f } :=
      hfits.weaken (fun _ h => h) (List.subset_append_right ..) (List.subset_cons_self ..)
        (fun _ h => h) id
    exact {
      spaces := hweak.spaces
      hidden := hweak.hidden
      parents := hweak.parents
      classes := hweak.classes
      declared := hweak.declared
      preparing := hweak.preparing
      begun := by
        obtain ⟨r, hr, hdone, -⟩ := hpreparing
        exact List.forall_mem_cons.mpr ⟨⟨r, hr, hdone⟩, hweak.begun⟩
      singleton := hweak.singleton
      entered := hweak.entered }

/-- A resource whose evaluation has begun gets a scope of its own, to which nothing refers yet. -/
theorem push {e : Preparation} (h : S.Related (F.prepare e) s s') {c : Scope} {k : ScopeId}
    (hk : k = s.scopes.arena.length) (hparent : ∀ p, c.parent = some p → F.Visible s p) :
    S.Related ((F.know k c.space).before e [k]) { s with scopes := (s.scopes.push c).2 }
      { s' with scopes := (s'.scopes.push c).2 } where
  origin := h.origin
  types := h.types
  arena := h.arena.concat ⟨c.vars, rfl, fun _ => List.forall₂_same.mpr fun _ _ => S.likeness.refl _⟩
  ofTypes := h.ofTypes
  resources := h.resources
  catalog := h.catalog
  fits := by
    have hweak : F.Fits S.types.withMain s :=
      h.fits.weaken (fun _ h => h) (fun _ h => h) (List.subset_cons_self ..) (fun _ h => h) id
    exact hweak.push hk h.fits hparent

theorem append (h : S.Related F s s') {r r' : Resource} (hshape : r' = { r with params := r'.params })
    (hnew : r.evaluated = false) (hraw : S.Raw r r') (hscope : F.Visible s r.scope)
    (hsingleton : ∀ t d, r.source = some t → S.types.withMain.get? t = some d →
      d.kind = .hostclass →
      r.title = d.resourceTitle ∧ (r.title = mainTitle → r.scope = Scopes.top)) :
    S.Related F { s with catalog := s.catalog.append r }
      { s' with catalog := s'.catalog.append r' } where
  origin := h.origin
  types := h.types
  arena := h.arena
  ofTypes := h.ofTypes
  resources := h.resources.concat ⟨hshape, fun _ => hraw, fun hdone => by
    rw [hnew] at hdone
    cases hdone⟩
  catalog := by
    show s'.catalog.append r' =
      { s.catalog.append r with resources := (s'.catalog.append r').resources }
    rw [h.catalog]
    rfl
  fits := h.fits.append hscope hsingleton

/-- Less is known of the place of the runs. -/
theorem weaken (h : S.Related G s s') (hspaces : F.spaces ⊆ G.spaces)
    (hhidden : F.hidden ⊆ G.hidden) (hpreparing : F.preparing = G.preparing)
    (hbegun : F.begun ⊆ G.begun) (hentered : F.entered = true → G.entered = true) :
    S.Related F s s' where
  origin := h.origin
  types := h.types
  arena := h.arena
  ofTypes := h.ofTypes
  resources := by
    have hprepares : F.Prepares = G.Prepares := by
      funext id
      rw [Frame.Prepares, Frame.Prepares, hpreparing]
    rw [hprepares]
    exact h.resources
  catalog := h.catalog
  fits := h.fits.weaken hspaces hhidden (fun _ he => hpreparing ▸ he) hbegun hentered

/-- The resource of the unnamed class turns out to exist. -/
theorem enter (h : S.Related F s s')
    (hmain : ∃ r ∈ s.catalog.resources, r.identity = Frame.mainIdentity) :
    S.Related F.enter s s' where
  origin := h.origin
  types := h.types
  arena := h.arena
  ofTypes := h.ofTypes
  resources := h.resources
  catalog := h.catalog
  fits := ⟨h.fits.spaces, h.fits.hidden, h.fits.parents, h.fits.classes, h.fits.declared,
    h.fits.preparing, h.fits.begun, h.fits.singleton, fun _ => hmain⟩

/-- The namespace of a scope becomes known. -/
theorem know (h : S.Related F s s') {k : ScopeId} {c : Scope} (hc : s.scopes.get? k = some c) :
    S.Related (F.know k c.space) s s' where
  origin := h.origin
  types := h.types
  arena := h.arena
  ofTypes := h.ofTypes
  resources := h.resources
  catalog := h.catalog
  fits := h.fits.know hc

end Related

end Spelling

end SiteCatalog.Compilation
