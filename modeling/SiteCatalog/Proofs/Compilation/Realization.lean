import SiteCatalog.Compilation.Realization
import SiteCatalog.Proofs.Compilation.Contract
import SiteCatalog.Proofs.Compilation.Step

/-!
# Looking up parents and entering classes

Neither touches a scope. Parents become known, and resources are added in the scope of the request,
none of them evaluated; what goes wrong is the fault of the site.

Results:
* `climb_meets`, `ancestry_meets`: the parents of a type are found, and the bound on their number is
  never reached.
* `addSingleton_meets`, `realizeChain_meets`, `ensure_meets`: a class or node is entered after its
  parent.
-/

namespace SiteCatalog.Compilation

/-! ## What happens meanwhile -/

/-- Between two states parents have become known and resources have been entered in a scope. -/
structure Quiet (scope : ScopeId) (s t : State) : Prop where
  types : s.types.Extends t.types
  scopes : t.scopes = s.scopes
  classes : t.catalog.classes = s.catalog.classes
  tags : s.catalog.tags <+: t.catalog.tags
  resources : ∃ new, t.catalog.resources = s.catalog.resources ++ new ∧
    ∀ r ∈ new, r.evaluated = false ∧ r.scope = scope

namespace Quiet

variable {scope : ScopeId} {o s t : State}

@[refl] theorem refl (scope : ScopeId) (s : State) : Quiet scope s s where
  types := .refl _
  scopes := rfl
  classes := rfl
  tags := List.prefix_refl _
  resources := ⟨[], by simp⟩

theorem trans (h : Quiet scope o s) (h' : Quiet scope s t) : Quiet scope o t where
  types := h.types.trans h'.types
  scopes := h'.scopes.trans h.scopes
  classes := h'.classes.trans h.classes
  tags := h.tags.trans h'.tags
  resources := by
    obtain ⟨new, heq, hnew⟩ := h.resources
    obtain ⟨new', heq', hnew'⟩ := h'.resources
    refine ⟨new ++ new', by rw [heq', heq, List.append_assoc], fun r hr => ?_⟩
    rcases List.mem_append.mp hr with hr | hr
    · exact hnew r hr
    · exact hnew' r hr

theorem of_types {types : Registry} (h : s.types.Extends types) :
    Quiet scope s { s with types } where
  types := h
  scopes := rfl
  classes := rfl
  tags := List.prefix_refl _
  resources := ⟨[], by simp⟩

theorem add {r : Resource} (hr : r.evaluated = false) (hscope : r.scope = scope) :
    Quiet scope s { s with catalog := s.catalog.append r } where
  types := .refl _
  scopes := rfl
  classes := rfl
  tags := List.prefix_refl _
  resources := ⟨[r], rfl, by simp [hr, hscope]⟩

theorem tag (names : List String) : Quiet scope s { s with catalog := s.catalog.tag names } where
  types := .refl _
  scopes := rfl
  classes := rfl
  tags := s.catalog.tags_prefix_tag names
  resources := ⟨[], by simp [Catalog.tag]⟩

/-- Resources stay as they are. -/
theorem kept (h : Quiet scope s t) {id : ResourceId} {r : Resource}
    (hr : s.catalog.get? id = some r) : t.catalog.get? id = some r := by
  obtain ⟨new, heq, -⟩ := h.resources
  exact Catalog.get?_of_resources_append heq hr

/-- A resource is an old one, or it has not been evaluated. -/
theorem old_or_new (h : Quiet scope s t) {id : ResourceId} {r : Resource}
    (hr : t.catalog.get? id = some r) :
    s.catalog.get? id = some r ∨ r.evaluated = false ∧ r.scope = scope := by
  obtain ⟨new, heq, hnew⟩ := h.resources
  exact (Catalog.old_or_mem heq hr).imp_right (hnew r)

theorem done_back (h : Quiet scope s t) {id : ResourceId} (hid : Done t id) : Done s id := by
  obtain ⟨r, hr, he⟩ := hid
  rcases h.old_or_new hr with hr | ⟨hn, -⟩
  · exact ⟨r, hr, he⟩
  · rw [hn] at he; cases he

theorem evaluated_back (h : Quiet scope s t) {ty : TypeId} (hty : Evaluated t ty) :
    Evaluated s ty := by
  obtain ⟨id, r, hr, hs, he⟩ := hty
  rcases h.old_or_new hr with hr | ⟨hn, -⟩
  · exact ⟨id, r, hr, hs, he⟩
  · rw [hn] at he; cases he

theorem step (h : Quiet scope s t) : Step scope s t where
  types := h.types
  resources := fun _ r hr => ⟨r, h.kept hr, .refl r⟩
  tags := h.tags
  classes := by rw [h.classes]
  scopes := by rw [h.scopes]; exact (Step.refl scope s).scopes
  ofType := by rw [h.scopes]; exact fun _ _ => rfl
  hidden := by
    intro k hk hne
    refine ⟨by rw [h.scopes]; exact hk.lt, by rw [h.scopes]; exact hk.parent, ?_,
      by rw [h.scopes]; exact hk.ofType⟩
    intro id r hr
    rcases h.old_or_new hr with hr | ⟨-, hscope⟩
    · exact hk.resource id r hr
    · rw [hscope]; exact Ne.symm hne

end Quiet

/-- The history since `o`, in which types and classes have only been looked up and entered. -/
structure Realizing (scope : ScopeId) (o : State) (h : List Visit) (s : State)
    (anywhere : Prop := False) : Prop where
  sound : Sound s anywhere
  quiet : Quiet scope o s
  visits : ∀ v ∈ h, v.event = .change ∧ Sound v.state anywhere ∧ v.state.types.Persists s.types

/-- What looking up parents and entering classes has to meet. -/
def quietly (scope : ScopeId) (o : State) (anywhere : Prop := False) : Contract where
  ok h s := Realizing scope o h s anywhere
  failed f h s := (∃ e, f = .error e) ∧ Realizing scope o h s anywhere

variable {scope : ScopeId} {o s : State} {h : List Visit} {calls : List Call} {anywhere : Prop}

namespace Realizing

theorem start (hs : Sound s anywhere) : Realizing scope s [] s anywhere :=
  ⟨hs, .refl scope s, fun _ hv => nomatch hv⟩

theorem change (hr : Realizing scope o h s anywhere) {s' : State} (hs : Sound s' anywhere)
    (hq : Quiet scope s s') :
    Realizing scope o (h ++ [⟨.change, calls, s'⟩]) s' anywhere := by
  refine ⟨hs, hr.quiet.trans hq, fun v hv => ?_⟩
  rcases List.mem_append.mp hv with hv | hv
  · obtain ⟨hevent, hsound, hkept⟩ := hr.visits v hv
    exact ⟨hevent, hsound, hkept.trans hq.types.persists⟩
  · rw [List.mem_singleton] at hv
    subst hv
    exact ⟨rfl, hs, .refl _⟩

theorem fails {α : Type} {P : α → State → Prop} (hr : Realizing scope o h s anywhere)
    (e : CompileError) :
    (fail e : Run α).Meets (quietly scope o anywhere) calls h s P :=
  .stop ⟨⟨e, rfl⟩, hr⟩

/-- What a run does from a state on, it does in the middle of a history. -/
theorem resume {α : Type} {p : Run α} {P : α → State → Prop} (hr : Realizing scope o h s anywhere)
    (hp : p.Meets (quietly scope s anywhere) calls [] s P) :
    p.Meets (quietly scope o anywhere) calls h s fun a t => P a t ∧ Quiet scope s t := by
  have happend : ∀ h' t, Realizing scope s h' t anywhere →
      Realizing scope o (h ++ h') t anywhere := by
    intro h' t hr'
    refine ⟨hr'.sound, hr.quiet.trans hr'.quiet, fun v hv => ?_⟩
    rcases List.mem_append.mp hv with hv | hv
    · obtain ⟨hevent, hsound, hkept⟩ := hr.visits v hv
      exact ⟨hevent, hsound, hkept.trans hr'.quiet.types.persists⟩
    · exact hr'.visits v hv
  refine hp.rebase (fun a h' t hok hP => ⟨happend h' t hok, hP, hok.quiet⟩) ?_
  rintro f h' t ⟨he, hfail⟩
  exact ⟨he, happend h' t hfail⟩

end Realizing

/-! ## Parents -/

/-- The parent of a type, as far as it is known. -/
def ParentIs (types : Registry) (type : TypeId) : Option TypeId → Prop
  | none => ∃ d, types.get? type = some d ∧ d.parent = none
  | some p => ∃ d, types.get? type = some d ∧ d.parent.isSome ∧ d.resolved = some p

theorem found_of_parentNamed {types : Registry} {d : Descriptor} {parent space : String}
    {p : TypeId}
    (h : parentNamed types d parent space = .ok (some p)) : p < types.types.length := by
  unfold parentNamed at h
  split at h
  · cases h
  · obtain ⟨d, hd, -⟩ := Registry.get?_of_lookup (Except.ok.inj h)
    exact Registry.lt_length_of_get? hd
  · rcases Option.or_eq_some_iff.mp (Except.ok.inj h) with h | ⟨-, h⟩
    · obtain ⟨d, hd, -⟩ := Registry.get?_of_find h
      exact Registry.lt_length_of_get? hd
    · obtain ⟨d, hd, -⟩ := Registry.get?_of_find h
      exact Registry.lt_length_of_get? hd

theorem Sound.cacheParent {type p : TypeId} (hs : Sound s anywhere)
    (hp : p < s.types.types.length) :
    Sound { s with types := s.types.modify type fun d =>
      { d with resolved := d.resolved.or (some p) } } anywhere := by
  have he := s.types.extends_cache type p
  refine hs.of_types he ?_ rfl rfl
  intro t d q hd hq
  rw [he.length]
  rw [Registry.get?_modify] at hd
  split at hd
  · obtain ⟨d', hd', rfl⟩ := Option.map_eq_some_iff.mp hd
    rcases Option.or_eq_some_iff.mp hq with hq | ⟨-, hq⟩
    · exact hs.inRange.resolved t d' q hd' hq
    · cases hq; exact hp
  · exact hs.inRange.resolved t d q hd hq

theorem resolveParent_meets {type place : ℕ} (hs : Sound s anywhere)
    (htype : type < s.types.types.length) (hplace : place < s.scopes.arena.length) :
    (resolveParent type (some place)).Meets (quietly scope s anywhere) calls [] s fun p t =>
      ParentIs t.types type p := by
  have hr : Realizing scope s [] s anywhere := .start hs
  have hd := List.getElem?_eq_getElem htype
  refine .typeAt_bind hd ?_
  split
  · next hp => exact .pure hr ⟨_, hd, hp⟩
  · next hp hk => exact .pure hr ⟨_, hd, by rw [hp]; rfl, hk⟩
  · next parent hp hk =>
    refine .scopeAt_bind (List.getElem?_eq_getElem hplace) (.get_bind ?_)
    refine .ofExcept_bind (fun found hfound => ?_) (fun e _ => ⟨⟨e, rfl⟩, hr⟩)
    cases found with
    | none => exact hr.fails _
    | some p =>
      have hlt := found_of_parentNamed hfound
      have he := s.types.extends_cache type p
      refine .bind (.update (hr.change (hs.cacheParent hlt) (.of_types he))) ?_
      rintro - h' t hok rfl
      refine .pure hok ⟨{ s.types.types[type] with resolved := some p }, ?_, by rw [hp]; rfl, rfl⟩
      show Registry.get? (s.types.modify _ _) type = _
      rw [Registry.get?_modify, if_pos rfl, Registry.get?, hd, Option.map_some, hk]
      rfl

/-- Reading the names of types changes nothing. -/
theorem namesOf_meets {C : Contract} : ∀ {types : List TypeId},
    (∀ t ∈ types, t < s.types.types.length) → C.ok h s →
    (namesOf types).Meets C calls h s fun _ t => t = s := by
  intro types
  induction types generalizing h with
  | nil => exact fun _ hr => .pure hr rfl
  | cons type rest ih =>
    intro hlt hr
    have hd := List.getElem?_eq_getElem (hlt type (by simp))
    refine .typeAt_bind hd (.bind (ih (fun t ht => hlt t (by simp [ht])) hr) ?_)
    rintro names h' t hok rfl
    exact .pure hok rfl

/-- The chain has no repetition, so that the types are used up before the bound is reached. -/
theorem climb_meets {place : ℕ} {kind : Kind} : ∀ (fuel : ℕ) {chain : List TypeId} {last : TypeId}
    {s : State}, Sound s anywhere → place < s.scopes.arena.length → chain.Nodup →
    (∀ x ∈ chain, x < s.types.types.length) → last ∈ chain →
    s.types.types.length + 2 ≤ fuel + chain.length →
    (climb (some place) kind fuel chain last).Meets (quietly scope s anywhere) calls [] s
      fun found t =>
      ∃ l, found = chain ++ l ∧ t.types.Ancestry last l := by
  intro fuel
  induction fuel with
  | zero =>
    intro chain last s _ _ hnodup hlt _ hfuel
    have := length_le_of_nodup hnodup hlt
    omega
  | succ fuel ih =>
    intro chain last s hs hplace hnodup hlt hlast hfuel
    refine .bind ((Realizing.start hs).resume (resolveParent_meets hs (hlt last hlast) hplace)) ?_
    rintro p h' t hok ⟨hp, hq⟩
    cases p with
    | none =>
      obtain ⟨d, hd, hn⟩ := hp
      exact .pure hok ⟨[], by simp, .root hd hn⟩
    | some p =>
      obtain ⟨d, hd, hpar, hknown⟩ := hp
      have hplt : p < t.types.types.length := hok.sound.inRange.resolved last d p hd hknown
      have hlt' : ∀ x ∈ chain ++ [p], x < t.types.types.length := by
        intro x hx
        rcases List.mem_append.mp hx with hx | hx
        · exact hq.types.length ▸ hlt x hx
        · rw [List.mem_singleton] at hx; exact hx ▸ hplt
      dsimp only
      split
      · refine .bind (namesOf_meets hlt' hok) ?_
        rintro names h'' t' hok' rfl
        exact hok'.fails _
      · next hnew =>
        have hnew' : p ∉ chain := by simpa using hnew
        have hnodup' : (chain ++ [p]).Nodup :=
          List.Nodup.append hnodup (by simp) (by simpa using hnew')
        have hlen := hq.types.length
        refine .mono (hok.resume (ih hok.sound (hq.scopes ▸ hplace) hnodup' hlt' (by simp)
          (by simp; omega))) ?_
        rintro found t' ⟨⟨l, rfl, hl⟩, hq'⟩
        exact ⟨p :: l, by simp, .child_of_extends hq'.types hd hpar hknown hl⟩

theorem ancestry_meets {type place : ℕ} (hs : Sound s anywhere)
    (htype : type < s.types.types.length) (hplace : place < s.scopes.arena.length) :
    (ancestry type (some place)).Meets (quietly scope s anywhere) calls [] s fun l t =>
      t.types.Ancestry type l := by
  refine .typeAt_bind (List.getElem?_eq_getElem htype) (.get_bind (.bind (climb_meets _ hs hplace
    (by simp) (by simpa using htype) (by simp) (by simp)) ?_))
  rintro found h' t hok ⟨l, rfl, hl⟩
  exact .pure hok hl

/-! ## Entering classes and nodes -/

/-- A class or node has been entered. -/
def Realized (s : State) (t : TypeId) : Prop :=
  Singleton s t ∧ ∃ id r, s.catalog.get? id = some r ∧ r.source = some t

/-- Where a class or node may be entered: in any scope once the unnamed class has been, which is
entered at the top, unless it may be entered `anywhere`. -/
def Enterable (scope : ScopeId) (s : State) (anywhere : Prop := False) : Prop :=
  scope < s.scopes.arena.length ∧ (¬anywhere → MainRealized s ∨ scope = Scopes.top)

theorem Enterable.of_quiet {t : State} (h : Enterable scope s anywhere) (hq : Quiet scope s t) :
    Enterable scope t anywhere := by
  refine ⟨by rw [hq.scopes]; exact h.1, fun horder => (h.2 horder).imp_left fun hm => ?_⟩
  exact hq.step.mainRealized hm

theorem realized?_meets {type : TypeId} (hs : Sound s anywhere)
    (htype : type < s.types.types.length) :
    (realized? type).Meets (quietly scope s anywhere) calls [] s fun found t =>
      t = s ∧ Singleton s type ∧
      ∀ id, found = some id → ∃ r, s.catalog.get? id = some r ∧ r.source = some type := by
  have hr : Realizing scope s [] s anywhere := .start hs
  have hd := List.getElem?_eq_getElem htype
  refine .typeAt_bind hd ?_
  split
  · exact hr.fails _
  · next hdef =>
    refine .get_bind ?_
    split
    · exact .pure hr ⟨rfl, ⟨_, hd, hdef⟩, fun _ h => nomatch h⟩
    · next id hid =>
      have hlt : id < s.catalog.resources.length := by
        rw [Catalog.resource?, List.findIdx?_eq_some_iff_getElem] at hid
        exact hid.1
      have hget := List.getElem?_eq_getElem hlt
      refine .resourceAt_bind hget ?_
      split
      · next hsrc =>
        refine .pure hr ⟨rfl, ⟨_, hd, hdef⟩, ?_⟩
        rintro _ ⟨⟩
        exact ⟨_, hget, hsrc⟩
      · exact hr.fails _

theorem addSingleton_meets {type : TypeId} {ancestors : List TypeId} {params : Table Value}
    (hs : Sound s anywhere) (hscope : Enterable scope s anywhere) (htype : Singleton s type)
    (hanc : s.types.Ancestry type ancestors) (hparent : ∀ p ∈ ancestors.head?, Realized s p) :
    (addSingleton scope type ancestors params).Meets (quietly scope s anywhere) calls [] s
      fun id t =>
      ∃ r, t.catalog.get? id = some r ∧ r.source = some type := by
  have hr : Realizing scope s [] s anywhere := .start hs
  obtain ⟨d, hd, hdef⟩ := htype
  refine .typeAt_bind hd (.bind (.addResource (fun hnew => ?_) fun e _ => ⟨⟨e, rfl⟩, hr⟩) ?_)
  · refine hr.change (hs.add hnew ⟨_, List.getElem?_eq_getElem hscope.1⟩ ?_ rfl rfl rfl)
      (.add rfl rfl)
    rintro _ ⟨⟩
    refine ⟨d, hd, fun _ => ⟨⟨rfl, rfl⟩, fun horder hk htitle => ?_, fun hpar => ?_⟩⟩
    · -- the unnamed class has a resource of this identity already, or is entered at the top
      rcases hscope.2 horder with ⟨id, r', m, d', hr', hs', hd', hmain⟩ | htop
      · obtain ⟨htag', htitle'⟩ := hs.singleton id r' m d' hr' hs' hd' (by rw [hmain.1]; decide)
        refine absurd ?_ (hnew id r' hr')
        rw [Resource.identity, Resource.identity, htag', htitle',
          Descriptor.resourceTitle_of_isMain hmain, ← htitle, Descriptor.resourceTag, hmain.1,
          Resource.ofType, Descriptor.resourceTag, hk]
      · exact htop
    · cases hanc with
      | root hd' hn =>
        rw [hd] at hd'; cases hd'
        rw [hn] at hpar; cases hpar
      | child hd' _ hp _ =>
        rw [hd] at hd'; cases hd'
        obtain ⟨hs, id, r', hr', hs'⟩ := hparent _ rfl
        exact ⟨_, hp, hs, id, r', hr', hs'⟩
  · rintro id h' t hok ⟨rfl, rfl⟩
    refine .bind (namesOf_meets (fun x hx => hanc.lt_length x (by simp [hx])) hok) ?_
    rintro names h'' t hok' rfl
    refine .bind (.update (hok'.change (hok'.sound.of_types (.refl _) hok'.sound.inRange.resolved
      rfl rfl) (.tag _))) ?_
    rintro - h₃ t hok'' rfl
    refine .pure hok'' ⟨.ofType d.resourceTag d.resourceTitle scope (some type) params, ?_, rfl⟩
    show Catalog.get? (Catalog.append _ _) _ = _
    rw [Catalog.get?_append, if_pos rfl]

/-- A resource that is no class or node may be added anywhere. -/
theorem addResource_meets {r : Resource} (hs : Sound s anywhere)
    (hscope : scope < s.scopes.arena.length) (hr : r.scope = scope) (hwait : r.evaluated = false)
    (hsource : ∀ t, r.source = some t → ∃ d, s.types.get? t = some d ∧ d.kind = .define) :
    (addResource r).Meets (quietly scope s anywhere) calls [] s fun _ _ => True := by
  have hstart : Realizing scope s [] s anywhere := .start hs
  refine Run.Meets.mono (.addResource (fun hnew => ?_) fun e _ => ⟨⟨e, rfl⟩, hstart⟩)
    fun _ _ _ => trivial
  refine hstart.change (hs.add hnew ⟨_, List.getElem?_eq_getElem (hr ▸ hscope)⟩ ?_ rfl rfl rfl)
    (.add hwait hr)
  intro t ht
  obtain ⟨d, hd, hk⟩ := hsource t ht
  exact ⟨d, hd, fun hdef => absurd hk hdef⟩

/-- After a chain of parents has been entered, its first member has been. -/
theorem realizeChain_meets : ∀ {types : List TypeId} {s : State}, Sound s anywhere →
    Enterable scope s anywhere →
    (∀ t rest, types = t :: rest → s.types.Ancestry t rest) →
    (realizeChain scope types).Meets (quietly scope s anywhere) calls [] s fun _ t =>
      ∀ p ∈ types.head?, Realized t p := by
  intro types
  induction types with
  | nil => exact fun hs _ _ => .pure (.start hs) (by simp)
  | cons type ancestors ih =>
    intro s hs hscope hanc
    have hchain : s.types.Ancestry type ancestors := hanc type ancestors rfl
    refine .bind (realized?_meets hs (hchain.lt_length type (by simp))) ?_
    rintro found h' t hok ⟨rfl, hsing, hfound⟩
    cases found with
    | some id =>
      obtain ⟨r, hr', hs⟩ := hfound id rfl
      refine .pure hok ?_
      rintro _ ⟨⟩
      exact ⟨hsing, id, r, hr', hs⟩
    | none =>
      refine .bind (hok.resume (ih hs hscope ?_)) ?_
      · rintro p rest rfl
        cases hchain with
        | child _ _ _ hrest => exact hrest
      · rintro - h'' t' hok' ⟨hparent, hq⟩
        refine .bind (hok'.resume (addSingleton_meets hok'.sound (hscope.of_quiet hq)
          (hsing.of_extends hq.types) (hchain.mono hq.types) hparent)) ?_
        rintro id h₃ t'' hok'' ⟨⟨r, hr', hs'⟩, hq'⟩
        refine .pure hok'' ?_
        rintro _ ⟨⟩
        exact ⟨hsing.of_extends (hq.types.trans hq'.types), id, r, hr', hs'⟩

theorem ensure_meets {type : TypeId} {params : Table Value} (hs : Sound s anywhere)
    (hscope : Enterable scope s anywhere) (htype : type < s.types.types.length) :
    (ensure type scope params).Meets (quietly scope s anywhere) calls [] s fun id t =>
      Singleton t type ∧
      ∃ r, t.catalog.get? id = some r ∧ r.source = some type := by
  refine .bind (realized?_meets hs htype) ?_
  rintro found h' t hok ⟨rfl, hsing, hfound⟩
  cases found with
  | some id => exact .pure hok ⟨hsing, hfound id rfl⟩
  | none =>
    refine .bind (hok.resume (ancestry_meets hs htype hscope.1)) ?_
    rintro ancestors h₁ t₁ hok₁ ⟨hanc, hq₁⟩
    refine .bind (hok₁.resume (realizeChain_meets hok₁.sound (hscope.of_quiet hq₁) ?_)) ?_
    · rintro p rest rfl
      cases hanc with
      | child _ _ _ hrest => exact hrest
    · rintro - h₂ t₂ hok₂ ⟨hparent, hq₂⟩
      have hsing₂ : Singleton t₂ type := hsing.of_extends (hq₁.types.trans hq₂.types)
      refine .mono (hok₂.resume (addSingleton_meets hok₂.sound ((hscope.of_quiet hq₁).of_quiet hq₂)
        hsing₂ (hanc.mono hq₂.types) hparent)) ?_
      rintro id t₃ ⟨hr', hq₃⟩
      exact ⟨hsing₂.of_extends hq₃.types, hr'⟩

end SiteCatalog.Compilation
