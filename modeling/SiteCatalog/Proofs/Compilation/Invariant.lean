import SiteCatalog.Compilation.Run
import SiteCatalog.Proofs.Registry
import SiteCatalog.Proofs.Scopes

/-!
# The invariant of a compilation

What holds of every state of a compilation: the places it names exist, the scopes form a tree under
the top, the classes and nodes that have been entered have one resource each and stand behind their
parents, and the scopes of classes are those in which they were evaluated.

Results:
* `InRange.of_types`, `InRange.of_resources`, `InRange.add`: places go on to exist.
* `Sound.unique`: a class or node has one resource.
* `Sound.of_types`, `Sound.of_resources`: parents become known, resources are marked and completed.
* `Sound.add`: a resource is added.
* `Sound.fair_of_lookup`, `Sound.fair_of_moduleName`: only if the unnamed class has a parent can a
  search through the scopes go on forever.
-/

namespace SiteCatalog.Compilation

/-! ## Notions -/

/-- A class or a node. -/
def Singleton (s : State) (t : TypeId) : Prop :=
  ∃ d, s.types.get? t = some d ∧ d.kind ≠ .define

/-- A type has a resource that has been evaluated, at least in part. -/
def Evaluated (s : State) (t : TypeId) : Prop :=
  ∃ id r, s.catalog.get? id = some r ∧ r.source = some t ∧ r.evaluated = true

/-- A resource has been evaluated, at least in part. -/
def Done (s : State) (id : ResourceId) : Prop :=
  ∃ r, s.catalog.get? id = some r ∧ r.evaluated = true

/-- The unnamed class has been entered. -/
def MainRealized (s : State) : Prop :=
  ∃ id r t d, s.catalog.get? id = some r ∧ r.source = some t ∧ s.types.get? t = some d ∧ d.IsMain

/-- The unnamed class has been evaluated, at least in part. -/
def MainStarted (s : State) : Prop :=
  ∃ t d, s.types.get? t = some d ∧ d.IsMain ∧ Evaluated s t

/-- Nothing refers to a scope. -/
structure Hidden (s : State) (k : ℕ) : Prop where
  lt : k < s.scopes.arena.length
  parent : ∀ z, s.scopes.parent? z ≠ some k
  resource : ∀ id r, s.catalog.get? id = some r → r.scope ≠ k
  ofType : ∀ t, s.scopes.ofType? t ≠ some k

/-- Every place that a state names exists. -/
structure InRange (s : State) : Prop where
  resolved : s.types.Closed
  scopeParent : ∀ k c (p : ℕ), s.scopes.get? k = some c → c.parent = some p →
    p < s.scopes.arena.length
  scopeSource : ∀ k c (t : ℕ), s.scopes.get? k = some c → c.source = some t →
    t < s.types.types.length
  scopeResource : ∀ k c (id : ℕ), s.scopes.get? k = some c → c.resource = some id →
    id < s.catalog.resources.length
  resourceScope : ∀ id r (k : ℕ), s.catalog.get? id = some r → r.scope = k →
    k < s.scopes.arena.length
  resourceSource : ∀ id r (t : ℕ), s.catalog.get? id = some r → r.source = some t →
    t < s.types.types.length

/-- The invariant. If the calls of a compilation are made in order, a class that bears the title of
the unnamed class is evaluated at the top; otherwise it may be evaluated `anywhere`. -/
structure Sound (s : State) (anywhere : Prop := False) : Prop where
  inRange : InRange s
  top : ∃ c, s.scopes.get? Scopes.top = some c ∧ c.source = none
  /-- Only the top may be without a parent. -/
  hasParent : ∀ k c, s.scopes.get? k = some c → k ≠ Scopes.top → c.parent.isSome
  upward : s.scopes.parent? Scopes.top = none →
    ∀ k c, s.scopes.get? k = some c → ∃ l, Leads s.scopes.parent? k l
  /-- The top can only have been put below the parent of the unnamed class. -/
  topParent : ∀ p, s.scopes.parent? Scopes.top = some p →
    ∃ t d, s.types.get? t = some d ∧ d.IsMain ∧ d.parent.isSome
  classPlace : ∀ t k, s.scopes.ofType? t = some k →
    ∃ d c, s.types.get? t = some d ∧ d.kind ≠ .define ∧ s.scopes.get? k = some c ∧
      (¬anywhere → (d.IsMain → k = Scopes.top) ∧ (¬d.IsMain → c.source = some t))
  classEvaluated : ∀ t k, s.scopes.ofType? t = some k → Evaluated s t
  identity : ∀ (i j : ℕ) r r', s.catalog.get? i = some r → s.catalog.get? j = some r' →
    r.identity = r'.identity → i = j
  singleton : ∀ id r t d, s.catalog.get? id = some r → r.source = some t →
    s.types.get? t = some d → d.kind ≠ .define →
    r.tag = Name.tag d.resourceTag ∧ r.title = d.resourceTitle
  mainPlace : ¬anywhere → ∀ id r t d, s.catalog.get? id = some r → r.source = some t →
    s.types.get? t = some d → d.kind = .hostclass → r.title = mainTitle → r.scope = Scopes.top
  /-- The parent of a class or node that has been entered is known and was entered before. -/
  parent : ∀ (id : ℕ) r t d, s.catalog.get? id = some r → r.source = some t →
    s.types.get? t = some d → d.kind ≠ .define → d.parent.isSome →
    ∃ p, d.resolved = some p ∧ Singleton s p ∧
      ∃ (j : ℕ) (r' : Resource), s.catalog.get? j = some r' ∧ r'.source = some p ∧ j < id

theorem Singleton.of_extends {s s' : State} {t : TypeId} (ht : Singleton s t)
    (he : s.types.Extends s'.types) : Singleton s' t := by
  obtain ⟨d, hd, hk⟩ := ht
  obtain ⟨_, hd', -⟩ := he.kept t d hd
  exact ⟨_, hd', hk⟩

/-! ## Places that exist -/

namespace InRange

variable {s s' : State}

/-- Parents become known. -/
theorem of_types (h : InRange s) (he : s.types.Extends s'.types) (hc : s'.types.Closed)
    (hsc : s'.scopes = s.scopes) (hres : s'.catalog.resources = s.catalog.resources) :
    InRange s' := by
  have hget : ∀ id, s'.catalog.get? id = s.catalog.get? id := fun id => by
    rw [Catalog.get?, Catalog.get?, hres]
  constructor
  case resolved => exact hc
  case scopeParent => rw [hsc]; exact h.scopeParent
  case scopeSource => rw [hsc, he.length]; exact h.scopeSource
  case scopeResource => rw [hsc, hres]; exact h.scopeResource
  case resourceScope => simp only [hget, hsc]; exact h.resourceScope
  case resourceSource => simp only [hget, he.length]; exact h.resourceSource

/-- Resources change, but neither their scopes nor their types. -/
theorem of_resources (h : InRange s) (hty : s'.types = s.types) (hsc : s'.scopes = s.scopes)
    (hlen : s'.catalog.resources.length = s.catalog.resources.length)
    (hback : ∀ id r', s'.catalog.get? id = some r' → ∃ r, s.catalog.get? id = some r ∧
      r'.scope = r.scope ∧ r'.source = r.source) : InRange s' := by
  constructor
  case resolved => rw [hty]; exact h.resolved
  case scopeParent => rw [hsc]; exact h.scopeParent
  case scopeSource => rw [hsc, hty]; exact h.scopeSource
  case scopeResource => rw [hsc, hlen]; exact h.scopeResource
  case resourceScope =>
    intro id r' k hr' hk
    obtain ⟨r, hr, hscope, -⟩ := hback id r' hr'
    rw [hsc]
    exact h.resourceScope id r k hr (hscope ▸ hk)
  case resourceSource =>
    intro id r' t hr' ht
    obtain ⟨r, hr, -, hsource⟩ := hback id r' hr'
    rw [hty]
    exact h.resourceSource id r t hr (hsource ▸ ht)

/-- A resource is added that has its scope and its type. -/
theorem add (h : InRange s) {r : Resource} (hscope : ∃ c, s.scopes.get? r.scope = some c)
    (hsource : ∀ t, r.source = some t → ∃ d, s.types.get? t = some d)
    (hty : s'.types = s.types) (hsc : s'.scopes = s.scopes)
    (hres : s'.catalog = s.catalog.append r) : InRange s' := by
  constructor
  case resolved => rw [hty]; exact h.resolved
  case scopeParent => rw [hsc]; exact h.scopeParent
  case scopeSource => rw [hsc, hty]; exact h.scopeSource
  case scopeResource =>
    rw [hsc, hres]
    intro k c id hc hid
    have hlt := h.scopeResource k c id hc hid
    rw [Catalog.append, List.length_append]
    omega
  case resourceScope =>
    rw [hsc, hres]
    intro id r' k hr' hk
    rcases Catalog.old_or_new hr' with hr' | ⟨-, rfl⟩
    · exact h.resourceScope id r' k hr' hk
    · obtain ⟨c, hc⟩ := hscope
      exact Scopes.lt_length_of_get? (hk ▸ hc)
  case resourceSource =>
    rw [hty, hres]
    intro id r' t hr' ht
    rcases Catalog.old_or_new hr' with hr' | ⟨-, rfl⟩
    · exact h.resourceSource id r' t hr' ht
    · obtain ⟨d, hd⟩ := hsource t ht
      exact Registry.lt_length_of_get? hd

end InRange

/-! ## Classes and nodes that have been entered -/

namespace Sound

variable {s s' : State} {anywhere : Prop}

/-- What holds if the calls of a compilation are made in order holds anyway. -/
theorem loosen (h : Sound s) (anywhere : Prop) : Sound s anywhere where
  inRange := h.inRange
  top := h.top
  hasParent := h.hasParent
  upward := h.upward
  topParent := h.topParent
  classPlace := by
    intro t k hk
    obtain ⟨d, c, hd, hdef, hc, hplace⟩ := h.classPlace t k hk
    exact ⟨d, c, hd, hdef, hc, fun _ => hplace not_false⟩
  classEvaluated := h.classEvaluated
  identity := h.identity
  singleton := h.singleton
  mainPlace := fun _ => h.mainPlace not_false
  parent := h.parent

theorem classScope (h : Sound s) {t : TypeId} {k : ScopeId} (hk : s.scopes.ofType? t = some k) :
    ∃ d c, s.types.get? t = some d ∧ d.kind ≠ .define ∧ s.scopes.get? k = some c ∧
      (d.IsMain → k = Scopes.top) ∧ (¬d.IsMain → c.source = some t) := by
  obtain ⟨d, c, hd, hdef, hc, hplace⟩ := h.classPlace t k hk
  exact ⟨d, c, hd, hdef, hc, hplace not_false⟩

theorem lt_of_classScope (h : Sound s anywhere) {t : TypeId} {k : ℕ}
    (hk : s.scopes.ofType? t = some k) :
    k < s.scopes.arena.length := by
  obtain ⟨_, c, -, -, hc, -⟩ := h.classPlace t k hk
  exact Scopes.lt_length_of_get? hc

/-- A class or node has one resource. -/
theorem unique (h : Sound s anywhere) {t : TypeId} {i j : ℕ} {r r' : Resource} (ht : Singleton s t)
    (hr : s.catalog.get? i = some r) (hs : r.source = some t)
    (hr' : s.catalog.get? j = some r') (hs' : r'.source = some t) : i = j := by
  obtain ⟨d, hd, hk⟩ := ht
  obtain ⟨htag, htitle⟩ := h.singleton i r t d hr hs hd hk
  obtain ⟨htag', htitle'⟩ := h.singleton j r' t d hr' hs' hd hk
  apply h.identity i j r r' hr hr'
  rw [Resource.identity, Resource.identity, htag, htag', htitle, htitle']

/-- Of the classes that have been entered, one at most bears the title of the unnamed class. -/
theorem eq_of_title (h : Sound s anywhere) {i j : ℕ} {r r' : Resource} {t m : TypeId}
    {d d' : Descriptor} (hr : s.catalog.get? i = some r) (hs : r.source = some t)
    (hd : s.types.get? t = some d) (hk : d.kind = .hostclass) (ht : r.title = mainTitle)
    (hr' : s.catalog.get? j = some r') (hs' : r'.source = some m)
    (hd' : s.types.get? m = some d') (hmain : d'.IsMain) : t = m := by
  obtain ⟨htag, -⟩ := h.singleton i r t d hr hs hd (by rw [hk]; decide)
  obtain ⟨htag', htitle'⟩ := h.singleton j r' m d' hr' hs' hd' (by rw [hmain.1]; decide)
  have hidx : i = j := by
    apply h.identity i j r r' hr hr'
    rw [Resource.identity, Resource.identity, htag, htag', ht, htitle',
      Descriptor.resourceTitle_of_isMain hmain, Descriptor.resourceTag, Descriptor.resourceTag, hk,
      hmain.1]
  subst hidx
  cases hr.symm.trans hr'
  exact Option.some.inj (hs.symm.trans hs')

/-- A class whose resource bears the title of the unnamed class is the unnamed class, once that has
been entered. -/
theorem isMain_of_title (h : Sound s anywhere) (hm : MainRealized s) {id : ℕ} {r : Resource}
    {t : TypeId} {d : Descriptor} (hr : s.catalog.get? id = some r) (hs : r.source = some t)
    (hd : s.types.get? t = some d) (hk : d.kind = .hostclass) (ht : r.title = mainTitle) :
    d.IsMain := by
  obtain ⟨j, r', m, d', hr', hs', hd', hmain⟩ := hm
  obtain rfl := h.eq_of_title hr hs hd hk ht hr' hs' hd' hmain
  cases hd.symm.trans hd'
  exact hmain

/-! ## Changes of types and of lists -/

/-- The invariant does not look at what a catalog lists besides its resources, and it stays true
when parents become known. -/
theorem of_types (h : Sound s anywhere) (he : s.types.Extends s'.types) (hc : s'.types.Closed)
    (hsc : s'.scopes = s.scopes) (hres : s'.catalog.resources = s.catalog.resources) :
    Sound s' anywhere := by
  have hget : ∀ id, s'.catalog.get? id = s.catalog.get? id := fun id => by
    rw [Catalog.get?, Catalog.get?, hres]
  constructor
  case inRange => exact h.inRange.of_types he hc hsc hres
  case top => rw [hsc]; exact h.top
  case hasParent => rw [hsc]; exact h.hasParent
  case upward => rw [hsc]; exact h.upward
  case topParent =>
    rw [hsc]
    intro p hp
    obtain ⟨t, d, hd, hmain, hpar⟩ := h.topParent p hp
    obtain ⟨_, hd', -⟩ := he.kept t d hd
    exact ⟨t, _, hd', hmain, hpar⟩
  case classPlace =>
    rw [hsc]
    intro t k hk
    obtain ⟨d, c, hd, hdef, hc, hplace⟩ := h.classPlace t k hk
    obtain ⟨_, hd', -⟩ := he.kept t d hd
    exact ⟨_, c, hd', hdef, hc, hplace⟩
  case classEvaluated =>
    rw [hsc]
    intro t k hk
    simpa only [Evaluated, hget] using h.classEvaluated t k hk
  case identity => simp only [hget]; exact h.identity
  case singleton =>
    simp only [hget]
    intro id r t d' hr hs hd' hk
    obtain ⟨d, hd, heq, -⟩ := he.kept_back hd'
    rw [heq] at hk ⊢
    exact h.singleton id r t d hr hs hd hk
  case mainPlace =>
    simp only [hget]
    intro horder id r t d' hr hs hd' hk ht
    obtain ⟨d, hd, heq, -⟩ := he.kept_back hd'
    rw [heq] at hk
    exact h.mainPlace horder id r t d hr hs hd hk ht
  case parent =>
    simp only [hget]
    intro id r t d' hr hs hd' hk hpar
    obtain ⟨d, hd, heq, hknown⟩ := he.kept_back hd'
    rw [heq] at hk hpar
    obtain ⟨p, hp, hsing, hbefore⟩ := h.parent id r t d hr hs hd hk hpar
    exact ⟨p, hknown p hp, hsing.of_extends he, hbefore⟩

/-! ## Changes of resources -/

/-- Parameters may be entered into resources, and resources may be marked as evaluated. -/
theorem of_resources (h : Sound s anywhere) (hty : s'.types = s.types) (hsc : s'.scopes = s.scopes)
    (hlen : s'.catalog.resources.length = s.catalog.resources.length)
    (hback : ∀ id r', s'.catalog.get? id = some r' → ∃ r, s.catalog.get? id = some r ∧
      r'.tag = r.tag ∧ r'.title = r.title ∧ r'.scope = r.scope ∧ r'.source = r.source)
    (hkept : ∀ id r, s.catalog.get? id = some r → ∃ r', s'.catalog.get? id = some r' ∧
      r'.source = r.source ∧ (r.evaluated = true → r'.evaluated = true)) : Sound s' anywhere := by
  constructor
  case inRange =>
    refine h.inRange.of_resources hty hsc hlen fun id r' hr' => ?_
    obtain ⟨r, hr, -, -, hscope, hsource⟩ := hback id r' hr'
    exact ⟨r, hr, hscope, hsource⟩
  case top => rw [hsc]; exact h.top
  case hasParent => rw [hsc]; exact h.hasParent
  case upward => rw [hsc]; exact h.upward
  case topParent => rw [hsc, hty]; exact h.topParent
  case classPlace => rw [hsc, hty]; exact h.classPlace
  case classEvaluated =>
    rw [hsc]
    intro t k hk
    obtain ⟨id, r, hr, hs, hev⟩ := h.classEvaluated t k hk
    obtain ⟨r', hr', hsource, hev'⟩ := hkept id r hr
    exact ⟨id, r', hr', hsource.trans hs, hev' hev⟩
  case identity =>
    intro i j r₁ r₂ h₁ h₂ heq
    obtain ⟨r₁', h₁', ht₁, hl₁, -⟩ := hback i r₁ h₁
    obtain ⟨r₂', h₂', ht₂, hl₂, -⟩ := hback j r₂ h₂
    apply h.identity i j r₁' r₂' h₁' h₂'
    rwa [Resource.identity, Resource.identity, ht₁, ht₂, hl₁, hl₂] at heq
  case singleton =>
    rw [hty]
    intro id r' t d hr' hs hd hk
    obtain ⟨r, hr, htag, htitle, -, hsource⟩ := hback id r' hr'
    rw [htag, htitle]
    exact h.singleton id r t d hr (hsource ▸ hs) hd hk
  case mainPlace =>
    rw [hty]
    intro horder id r' t d hr' hs hd hk ht
    obtain ⟨r, hr, -, htitle, hscope, hsource⟩ := hback id r' hr'
    rw [hscope]
    exact h.mainPlace horder id r t d hr (hsource ▸ hs) hd hk (htitle ▸ ht)
  case parent =>
    rw [hty]
    intro id r' t d hr' hs hd hk hpar
    obtain ⟨r, hr, -, -, -, hsource⟩ := hback id r' hr'
    obtain ⟨p, hp, ⟨d', hd', hk'⟩, j, q, hq, hqs, hlt⟩ :=
      h.parent id r t d hr (hsource ▸ hs) hd hk hpar
    obtain ⟨q', hq', hqs', -⟩ := hkept j q hq
    exact ⟨p, hp, ⟨d', by rw [hty]; exact hd', hk'⟩, j, q', hq', hqs'.trans hqs, hlt⟩

/-- A resource of a new identity may be added. One of a class or node bears its tag and title, and
comes after the parent's. -/
theorem add (h : Sound s anywhere) {r : Resource}
    (hnew : ∀ id r', s.catalog.get? id = some r' → r'.identity ≠ r.identity)
    (hscope : ∃ c, s.scopes.get? r.scope = some c)
    (hsource : ∀ t, r.source = some t → ∃ d, s.types.get? t = some d ∧ (d.kind ≠ .define →
      (r.tag = Name.tag d.resourceTag ∧ r.title = d.resourceTitle) ∧
      (¬anywhere → d.kind = .hostclass → r.title = mainTitle → r.scope = Scopes.top) ∧
      (d.parent.isSome → ∃ p, d.resolved = some p ∧ Singleton s p ∧
        ∃ (j : ℕ) (r' : Resource), s.catalog.get? j = some r' ∧ r'.source = some p)))
    (hty : s'.types = s.types) (hsc : s'.scopes = s.scopes)
    (hres : s'.catalog = s.catalog.append r) : Sound s' anywhere := by
  have hcases : ∀ (id : ℕ) r', s'.catalog.get? id = some r' →
      s.catalog.get? id = some r' ∨ id = s.catalog.resources.length ∧ r' = r := by
    rw [hres]
    exact fun _ _ => Catalog.old_or_new
  have hold : ∀ (id : ℕ) r', s.catalog.get? id = some r' → s'.catalog.get? id = some r' := by
    rw [hres]
    exact fun _ _ hr' => Catalog.get?_append_of_get? hr' r
  constructor
  case inRange =>
    exact h.inRange.add hscope (fun t ht => (hsource t ht).imp fun _ hd => hd.1) hty hsc hres
  case top => rw [hsc]; exact h.top
  case hasParent => rw [hsc]; exact h.hasParent
  case upward => rw [hsc]; exact h.upward
  case topParent => rw [hsc, hty]; exact h.topParent
  case classPlace => rw [hsc, hty]; exact h.classPlace
  case classEvaluated =>
    rw [hsc]
    intro t k hk
    obtain ⟨id, r', hr', hs, hev⟩ := h.classEvaluated t k hk
    exact ⟨id, r', hold id r' hr', hs, hev⟩
  case identity =>
    intro i j r₁ r₂ h₁ h₂ heq
    rcases hcases i r₁ h₁ with h₁ | ⟨rfl, rfl⟩
    · rcases hcases j r₂ h₂ with h₂ | ⟨rfl, rfl⟩
      · exact h.identity i j r₁ r₂ h₁ h₂ heq
      · exact absurd heq (hnew i r₁ h₁)
    · rcases hcases j r₂ h₂ with h₂ | ⟨rfl, rfl⟩
      · exact absurd heq.symm (hnew j r₂ h₂)
      · rfl
  case singleton =>
    rw [hty]
    intro id r' t d hr' hs hd hk
    rcases hcases id r' hr' with hr' | ⟨-, rfl⟩
    · exact h.singleton id r' t d hr' hs hd hk
    · obtain ⟨d', hd', hnew'⟩ := hsource t hs
      rw [hd] at hd'; cases hd'
      exact (hnew' hk).1
  case mainPlace =>
    rw [hty]
    intro horder id r' t d hr' hs hd hk ht
    rcases hcases id r' hr' with hr' | ⟨-, rfl⟩
    · exact h.mainPlace horder id r' t d hr' hs hd hk ht
    · obtain ⟨d', hd', hnew'⟩ := hsource t hs
      rw [hd] at hd'; cases hd'
      exact (hnew' (by rw [hk]; decide)).2.1 horder hk ht
  case parent =>
    rw [hty]
    have hsing : ∀ p, Singleton s p → Singleton s' p := by
      rintro p ⟨d, hd, hk⟩
      exact ⟨d, by rw [hty]; exact hd, hk⟩
    intro id r' t d hr' hs hd hk hpar
    rcases hcases id r' hr' with hr' | ⟨rfl, rfl⟩
    · obtain ⟨p, hp, hsp, j, q, hq, hqs, hlt⟩ := h.parent id r' t d hr' hs hd hk hpar
      exact ⟨p, hp, hsing p hsp, j, q, hold j q hq, hqs, hlt⟩
    · obtain ⟨d', hd', hnew'⟩ := hsource t hs
      rw [hd] at hd'; cases hd'
      obtain ⟨p, hp, hsp, j, q, hq, hqs⟩ := (hnew' hk).2.2 hpar
      exact ⟨p, hp, hsing p hsp, j, q, hold j q hq, hqs, Catalog.lt_length_of_get? hq⟩

/-! ## Searches through the scopes -/

/-- In a site whose unnamed class has no parent, the top stays without one. -/
theorem top_parent (h : Sound s anywhere) (hr : s.types.Rooted) :
    s.scopes.parent? Scopes.top = none := by
  cases hp : s.scopes.parent? Scopes.top with
  | none => rfl
  | some p =>
    obtain ⟨t, d, hd, hmain, hpar⟩ := h.topParent p hp
    rw [hr t d hd hmain] at hpar
    cases hpar

/-- Where a way upwards ends, the top is its end. -/
theorem top_parent_of_leads (h : Sound s anywhere) {k : ℕ} {l : List ScopeId}
    (hk : k < s.scopes.arena.length) (hl : Leads s.scopes.parent? k l) :
    (k :: l).getLast? = some Scopes.top ∧ s.scopes.parent? Scopes.top = none := by
  have hrange : ∀ z ∈ k :: l, z < s.scopes.arena.length := by
    refine hl.forall_mem hk fun y z hyz => ?_
    obtain ⟨c, hc, hp⟩ := Option.bind_eq_some_iff.mp hyz
    exact h.inRange.scopeParent y c z hc hp
  obtain ⟨z, hz, hend⟩ := hl.exists_last
  have hget := List.getElem?_eq_getElem (hrange z (List.mem_of_getLast? hz))
  by_cases htop : z = Scopes.top
  · rw [← htop]
    exact ⟨hz, hend⟩
  · have hparent := h.hasParent z _ hget htop
    rw [← Scopes.parent?_of_get? hget, hend] at hparent
    cases hparent

theorem exists_leads (h : Sound s anywhere) (hr : s.types.Rooted) {k : ℕ}
    (hk : k < s.scopes.arena.length) : ∃ l, Leads s.scopes.parent? k l :=
  h.upward (h.top_parent hr) k _ (List.getElem?_eq_getElem hk)

end Sound

/-- Why a run may fail: the site is at fault, or its unnamed class has a parent and the scopes that
are followed form a ring. -/
inductive Fair (s : State) : Failure → Prop
  | error (e : CompileError) : Fair s (.error e)
  | endless (h : ¬s.types.Rooted) : Fair s .endless

theorem Fair.of_error {s : State} {f : Failure} (h : ∃ e, f = .error e) : Fair s f := by
  obtain ⟨e, rfl⟩ := h
  exact .error e

theorem Fair.ne_dangling {s : State} {f : Failure} (h : Fair s f) : f ≠ .dangling := by
  rintro rfl
  cases h

theorem Fair.ne_exhausted {s : State} {f : Failure} (h : Fair s f) : f ≠ .exhausted := by
  rintro rfl
  cases h

/-- Where the unnamed class has no parent, the site is at fault. -/
theorem Fair.exists_error {s : State} {f : Failure} (h : Fair s f) (hr : s.types.Rooted) :
    ∃ e, f = .error e := by
  cases h with
  | error e => exact ⟨e, rfl⟩
  | endless h => exact absurd hr h

namespace Sound

variable {s : State} {k : ScopeId} {anywhere : Prop}

theorem fair_of_lookup (h : Sound s anywhere) (hk : k < s.scopes.arena.length) {name : String}
    (hnone : s.scopes.lookup k name = none) : Fair s .endless := by
  refine .endless fun hr => ?_
  obtain ⟨l, hl⟩ := h.exists_leads hr hk
  rw [Scopes.lookup_eq name hl] at hnone
  cases hnone

theorem fair_of_moduleName (h : Sound s anywhere) (hk : k < s.scopes.arena.length)
    (hnone : s.scopes.moduleName k = none) : Fair s .endless :=
  .endless fun hr => Scopes.moduleName_eq_none_iff.mp hnone (h.exists_leads hr hk)

end Sound

end SiteCatalog.Compilation
