import SiteCatalog.Proofs.Compilation.Phases
import SiteCatalog.Proofs.Compilation.Upkeep

/-!
# Tags

A catalog is tagged with the titles of the classes and nodes that have been entered and with the
names of their ancestors. While one is being entered there is a moment at which its resource exists
and its tags do not; whenever a call begins or ends they are complete.

Results:
* `Sound.resource?_eq`, `Sound.exists_entered`: where the resources of a class or node and of its
  ancestors are.
* `ensure_upholds`: entering classes and nodes keeps the tags exact.
* `steady_tagged`: so does everything else.
* `entered_consistent`: every beginning and every end of a call.
-/

namespace SiteCatalog.Compilation

open Run (Upholds)

variable {s s' : State} {t : TypeId} {id : ℕ} {title tag : String}

/-! ## Notions -/

/-- The resource at a place is that of a class or node, and bears a title. -/
def Entered (s : State) (t : TypeId) (id : ResourceId) (title : String) : Prop :=
  Singleton s t ∧ ∃ r, s.catalog.get? id = some r ∧ r.source = some t ∧ r.title = title

/-- The tags that come with the resource of a type. -/
def Bears (types : Registry) (t : TypeId) (title tag : String) : Prop :=
  tag = Name.lowercase title ∨ ∃ chain, types.Ancestry t chain ∧
    ∃ p ∈ chain, ∃ d, types.get? p = some d ∧ tag = Name.lowercase d.name

/-- The tags of the catalog are those that come with the resources of classes and nodes. -/
def Tagged (s : State) : Prop :=
  ∀ tag, tag ∈ s.catalog.tags ↔ ∃ t id title, Entered s t id title ∧ Bears s.types t title tag

/-- The resources of classes and nodes, in the index, in their order and in the tags. -/
structure Consistent (s : State) : Prop where
  unique : ∀ t i j title title', Entered s t i title → Entered s t j title' → i = j
  found : ∀ t d id title, s.types.get? t = some d → Entered s t id title →
    s.catalog.resource? d.resourceTag d.resourceTitle = some id
  parent : ∀ t d (id : ℕ) title, s.types.get? t = some d → Entered s t id title →
    d.parent.isSome → ∃ p, d.resolved = some p ∧ ∃ (j : ℕ) (title' : String),
      Entered s p j title' ∧ j < id
  rootFirst : ∀ t (id : ℕ) title, Entered s t id title → ∃ chain, s.types.Ancestry t chain ∧
    ∃ ids : List ℕ, List.Forall₂ (fun p j => ∃ title', Entered s p j title') chain ids ∧
      (id :: ids).Pairwise (· > ·)
  tags : Tagged s

/-! ## Resources of classes and nodes -/

namespace Sound

theorem entered_unique (h : Sound s) {i j : ℕ} {title' : String} (hi : Entered s t i title)
    (hj : Entered s t j title') : i = j := by
  obtain ⟨ht, r, hr, hsrc, -⟩ := hi
  obtain ⟨-, r', hr', hsrc', -⟩ := hj
  exact h.unique ht hr hsrc hr' hsrc'

theorem tag_resourceTag {d : Descriptor} (hk : d.kind ≠ .define) :
    Name.tag (Name.tag d.resourceTag) = Name.tag d.resourceTag := by
  have hclass : Name.tag (Name.tag "Class") = Name.tag "Class" := by decide
  have hnode : Name.tag (Name.tag "Node") = Name.tag "Node" := by decide
  unfold Descriptor.resourceTag
  split
  · exact hclass
  · exact hnode
  · next hdef => exact absurd hdef hk

/-- The resource of a class or node is the one that is found for it. -/
theorem resource?_eq (h : Sound s) {d : Descriptor} (hd : s.types.get? t = some d)
    (he : Entered s t id title) :
    s.catalog.resource? d.resourceTag d.resourceTitle = some id := by
  obtain ⟨⟨d', hd', hk⟩, r, hr, hsrc, -⟩ := he
  rw [hd] at hd'
  cases hd'
  obtain ⟨htag, htitle⟩ := h.singleton id r t d hr hsrc hd hk
  have hidentity : r.identity = Identity.of d.resourceTag d.resourceTitle := by
    rw [Resource.identity, htag, htitle, Identity.of, Identity.of, tag_resourceTag hk]
  obtain ⟨hlt, heq⟩ := List.getElem?_eq_some_iff.mp hr
  rw [Catalog.resource?, List.findIdx?_eq_some_iff_getElem]
  refine ⟨hlt, by rw [heq]; exact decide_eq_true hidentity, fun j hj hsame => ?_⟩
  -- no two resources have the same identity
  have hget := List.getElem?_eq_getElem (l := s.catalog.resources) (hj.trans hlt)
  have := h.identity j id _ r hget hr ((of_decide_eq_true hsame).trans hidentity.symm)
  omega

theorem exists_parent (h : Sound s) {d : Descriptor} (hd : s.types.get? t = some d)
    (he : Entered s t id title) (hpar : d.parent.isSome) :
    ∃ p, d.resolved = some p ∧ ∃ (j : ℕ) (title' : String), Entered s p j title' ∧ j < id := by
  obtain ⟨⟨d', hd', hk⟩, r, hr, hsrc, -⟩ := he
  rw [hd] at hd'
  cases hd'
  obtain ⟨p, hp, hsing, j, r', hr', hsrc', hlt⟩ := h.parent id r t d hr hsrc hd hk hpar
  exact ⟨p, hp, j, r'.title, ⟨hsing, r', hr', hsrc', rfl⟩, hlt⟩

/-- The ancestors of a class or node that has been entered have been entered before it, the farthest
first. -/
theorem exists_entered (h : Sound s) : ∀ (id : ℕ) {t : TypeId} {title : String},
    Entered s t id title → ∃ chain, s.types.Ancestry t chain ∧
      ∃ ids : List ℕ, List.Forall₂ (fun p j => ∃ title', Entered s p j title') chain ids ∧
        (id :: ids).Pairwise (· > ·) := by
  intro id
  induction id using Nat.strong_induction_on with
  | _ id ih =>
    intro t title he
    have ⟨⟨d, hd, _⟩, _⟩ := he
    cases hpar : d.parent with
    | none => exact ⟨[], .root hd hpar, [], .nil, List.pairwise_singleton _ _⟩
    | some parent =>
      have hsome : d.parent.isSome := by rw [hpar]; rfl
      obtain ⟨p, hp, j, title', he', hlt⟩ := h.exists_parent hd he hsome
      obtain ⟨chain, hanc, ids, hids, hsorted⟩ := ih j hlt he'
      refine ⟨p :: chain, .child hd hsome hp hanc, j :: ids, .cons ⟨title', he'⟩ hids, ?_⟩
      refine List.pairwise_cons.mpr ⟨fun i hi => ?_, hsorted⟩
      rcases List.mem_cons.mp hi with rfl | hi
      · exact hlt
      · exact (List.rel_of_pairwise_cons hsorted hi).trans hlt

theorem consistent (h : Sound s) (ht : Tagged s) : Consistent s where
  unique := fun _ _ _ _ _ hi hj => h.entered_unique hi hj
  found := fun _ _ _ _ hd he => h.resource?_eq hd he
  parent := fun _ _ _ _ hd he hpar => h.exists_parent hd he hpar
  rootFirst := fun _ id _ he => h.exists_entered id he
  tags := ht

end Sound

/-! ## What the tags depend on -/

/-- The known parents of a type do not change when more become known. -/
theorem Bears.of_extends {types types' : Registry} (he : types.Extends types')
    (hb : Bears types t title tag) : Bears types' t title tag := by
  refine hb.imp_right ?_
  rintro ⟨chain, hanc, p, hp, d, hd, htag⟩
  obtain ⟨_, hd', -⟩ := he.kept p d hd
  exact ⟨chain, hanc.mono he, p, hp, _, hd', htag⟩

theorem bears_of_extends_iff {types types' : Registry} (he : types.Extends types')
    {chain : List TypeId} (hanc : types.Ancestry t chain) :
    Bears types' t title tag ↔ Bears types t title tag := by
  refine ⟨fun hb => hb.imp_right ?_, .of_extends he⟩
  rintro ⟨chain', hanc', p, hp, d', hd', htag⟩
  obtain rfl := hanc'.leads.unique (hanc.mono he).leads
  obtain ⟨d, hd, heq, -⟩ := he.kept_back hd'
  rw [heq] at htag
  exact ⟨chain', hanc, p, hp, d, hd, htag⟩

/-- Nothing has changed that the tags depend on. -/
structure Alike (s s' : State) : Prop where
  types : s.types.Extends s'.types
  tags : s'.catalog.tags = s.catalog.tags
  resources : ∀ id, (s'.catalog.get? id).map (fun r => (r.source, r.title)) =
    (s.catalog.get? id).map fun r => (r.source, r.title)

namespace Alike

@[refl] theorem refl (s : State) : Alike s s :=
  ⟨.refl _, rfl, fun _ => rfl⟩

theorem trans {u : State} (h : Alike s s') (h' : Alike s' u) : Alike s u :=
  ⟨h.types.trans h'.types, h'.tags.trans h.tags,
    fun id => (h'.resources id).trans (h.resources id)⟩

theorem of_types (h : s.types.Extends s'.types) (hc : s'.catalog = s.catalog) : Alike s s' :=
  ⟨h, by rw [hc], fun _ => by rw [hc]⟩

/-- A resource may change in everything but its source and title. -/
theorem modify (s : State) (id : ResourceId) {f : Resource → Resource}
    (hf : ∀ r, (f r).source = r.source ∧ (f r).title = r.title) :
    Alike s { s with catalog := s.catalog.modify id f } := by
  refine ⟨.refl _, rfl, fun i => ?_⟩
  rw [Catalog.get?_modify]
  split
  · cases s.catalog.get? i with
    | none => rfl
    | some r => simp [hf r]
  · rfl

theorem singleton_iff (h : Alike s s') : Singleton s' t ↔ Singleton s t := by
  refine ⟨?_, fun ht => ht.of_extends h.types⟩
  rintro ⟨d', hd', hk⟩
  obtain ⟨d, hd, heq, -⟩ := h.types.kept_back hd'
  rw [heq] at hk
  exact ⟨d, hd, hk⟩

theorem entered_iff (h : Alike s s') : Entered s' t id title ↔ Entered s t id title := by
  have hresource : (∃ r, s'.catalog.get? id = some r ∧ r.source = some t ∧ r.title = title) ↔
      ∃ r, s.catalog.get? id = some r ∧ r.source = some t ∧ r.title = title := by
    have hmap : ∀ o : Option Resource, (∃ r, o = some r ∧ r.source = some t ∧ r.title = title) ↔
        o.map (fun r => (r.source, r.title)) = some (some t, title) := by
      simp [Option.map_eq_some_iff, Prod.ext_iff]
    rw [hmap, hmap, h.resources]
  rw [Entered, Entered, h.singleton_iff, hresource]

end Alike

theorem Tagged.of_alike (ht : Tagged s) (hs : Sound s) (h : Alike s s') : Tagged s' := by
  intro tag
  rw [h.tags, ht tag]
  refine exists_congr fun ty => exists_congr fun id => exists_congr fun title => ?_
  rw [h.entered_iff]
  refine and_congr_right fun he => ?_
  obtain ⟨chain, hanc, -⟩ := hs.exists_entered id he
  exact (bears_of_extends_iff h.types hanc).symm

/-! ## Parents -/

variable {o : State} {J I : State → Prop}

theorem resolveParent_keeps {type : TypeId} {scope : Option ScopeId} (hs : Sound s)
    (h : Alike o s) : (resolveParent type scope).Keeps Sound (Alike o) s fun p t =>
      Alike o t ∧ s.types.Extends t.types ∧ ParentIs t.types type p := by
  refine .typeAt_bind h fun d hd => ?_
  split
  · next hp => exact .pure ⟨h, .refl _, d, hd, hp⟩
  · next hp hk => exact .pure ⟨h, .refl _, d, hd, by rw [hp]; rfl, hk⟩
  · next hp hk =>
    cases scope with
    | none => exact .stop h
    | some place =>
      refine .scopeAt_bind h fun c _ => .get_bind (.ofExcept_bind h fun found _ => ?_)
      cases found with
      | none => exact .stop h
      | some p =>
        have he := s.types.extends_cache type p
        refine .bind hs (.update (P := fun _ t => t = _) fun _ => rfl) ?_
        rintro - t - rfl
        refine .pure ⟨h.trans (.of_types he rfl), he, { d with resolved := some p }, ?_,
          by rw [hp]; rfl, rfl⟩
        show Registry.get? (s.types.modify _ _) type = _
        rw [Registry.get?_modify, if_pos rfl, hd, Option.map_some, hk]
        rfl

theorem namesOf_upholds : ∀ types : List TypeId, (namesOf types).Upholds J I
  | [] => .pure
  | _ :: rest => .bind .typeAt fun _ => .bind (namesOf_upholds rest) fun _ => .pure

/-- A chain of parents goes on to a type without one. -/
theorem climb_keeps {scope : Option ScopeId} {kind : Kind} : ∀ (fuel : ℕ) {chain : List TypeId}
    {last : TypeId} {s : State}, Sound s → Alike o s →
    (climb scope kind fuel chain last).Keeps Sound (Alike o) s fun found t => Alike o t ∧
      s.types.Extends t.types ∧ ∃ l, found = chain ++ l ∧ t.types.Ancestry last l := by
  intro fuel
  induction fuel with
  | zero => exact fun _ h => .stop h
  | succ fuel ih =>
    intro chain last s hs h
    refine .bind hs (resolveParent_keeps hs h) ?_
    rintro p t ht ⟨h', he, hp⟩
    cases p with
    | none =>
      obtain ⟨d, hd, hn⟩ := hp
      exact .pure ⟨h', he, [], by simp, .root hd hn⟩
    | some p =>
      obtain ⟨d, hd, hpar, hknown⟩ := hp
      dsimp only
      split
      · exact .bind ht (namesOf_upholds _ t ht h') fun _ _ _ hx => .stop hx
      · refine (ih ht h').imp (fun _ hx => hx) ?_
        rintro found u ⟨h'', he', l, rfl, hl⟩
        exact ⟨h'', he.trans he', p :: l, by simp, .child_of_extends he' hd hpar hknown hl⟩

/-- Looking up the parents of a type changes nothing that the tags depend on. -/
theorem ancestry_alike {type : TypeId} {scope : Option ScopeId} (hs : Sound s) :
    (ancestry type scope).Keeps Sound (Alike s) s fun l t => Alike s t ∧
      s.types.Extends t.types ∧ t.types.Ancestry type l := by
  refine .typeAt_bind (.refl s) fun d _ => .get_bind (.bind hs (climb_keeps _ hs (.refl s)) ?_)
  rintro found t - ⟨h, he, l, rfl, hl⟩
  exact .pure ⟨h, he, hl⟩

theorem ancestry_keeps {type : TypeId} {scope : Option ScopeId} (hs : Sound s) (ht : Tagged s) :
    (ancestry type scope).Keeps Sound Tagged s fun l t =>
      Tagged t ∧ s.types.Extends t.types ∧ t.types.Ancestry type l :=
  (ancestry_alike hs).imp (fun _ h => ht.of_alike hs h) fun _ _ hx =>
    ⟨ht.of_alike hs hx.1, hx.2⟩

/-! ## Entering classes and nodes -/

theorem mem_tags_tag {c : Catalog} {names : List String} :
    tag ∈ (c.tag names).tags ↔ tag ∈ c.tags ∨ ∃ name ∈ names, tag = Name.lowercase name := by
  show tag ∈ names.foldl (fun tags name => Catalog.addOnce tags (Name.lowercase name)) c.tags ↔ _
  generalize c.tags = tags
  induction names generalizing tags with
  | nil => simp
  | cons name rest ih =>
    rw [List.foldl_cons, ih, Catalog.mem_addOnce]
    simp [or_assoc]

/-- The names of types that exist. -/
theorem namesOf_keeps (hs : J s) : ∀ {types : List TypeId},
    (∀ p ∈ types, ∃ d, s.types.get? p = some d) → (namesOf types).Keeps J I s fun names t => t = s ∧
      ∀ name, name ∈ names ↔ ∃ p ∈ types, ∃ d, s.types.get? p = some d ∧ name = d.name := by
  intro types
  induction types with
  | nil => exact fun _ => .pure ⟨rfl, by simp⟩
  | cons type rest ih =>
    intro hdesc
    obtain ⟨d, hd⟩ := hdesc type (by simp)
    refine .known_typeAt_bind hd (.bind hs (ih fun p hp => hdesc p (by simp [hp])) ?_)
    rintro names t - ⟨rfl, hnames⟩
    exact .pure ⟨rfl, by simp [hnames, hd]⟩

theorem addResource_keeps {r : Resource} (hs : J s) (hI : I s) :
    (addResource r).Keeps J I s fun _ t => t = { s with catalog := s.catalog.append r } := by
  refine .get_bind (.ofExcept_bind hI fun x hx => ?_)
  obtain ⟨rfl, -⟩ := Catalog.add_eq_ok hx
  refine .bind hs (.update (P := fun _ t => t = _) fun _ => rfl) ?_
  rintro - t - rfl
  exact .pure rfl

/-- A resource has come to the others. -/
theorem entered_append_iff {r : Resource} {catalog : Catalog}
    (hres : catalog.resources = s.catalog.resources ++ [r]) :
    Entered { s with catalog } t id title ↔ Entered s t id title ∨
      Singleton s t ∧ id = s.catalog.resources.length ∧ r.source = some t ∧ r.title = title := by
  have hget : catalog.get? id =
      if id = s.catalog.resources.length then some r else s.catalog.get? id := by
    rw [← Catalog.get?_append, Catalog.get?, hres]
    rfl
  show Singleton s t ∧ (∃ r', catalog.get? id = some r' ∧ _) ↔ _
  rw [hget, Entered, ← and_or_left]
  refine and_congr_right fun _ => ?_
  split
  · next heq =>
    subst heq
    have hnone : s.catalog.get? s.catalog.resources.length = none := List.getElem?_eq_none le_rfl
    simp [hnone]
  · next hne => simp [hne]

/-- The resource of a class or node is added together with its tags. -/
theorem Tagged.add_singleton {r : Resource} {type : TypeId} {catalog : Catalog} (ht : Tagged s)
    (htype : Singleton s type) (hsrc : r.source = some type)
    (hres : catalog.resources = s.catalog.resources ++ [r])
    (htags : ∀ tag, tag ∈ catalog.tags ↔ tag ∈ s.catalog.tags ∨ Bears s.types type r.title tag) :
    Tagged { s with catalog } := by
  intro tag
  show tag ∈ catalog.tags ↔ ∃ t id title, _ ∧ Bears s.types t title tag
  rw [htags, ht tag]
  simp only [entered_append_iff hres]
  constructor
  · rintro (⟨t, id, title, he, hb⟩ | hb)
    · exact ⟨t, id, title, .inl he, hb⟩
    · exact ⟨type, _, r.title, .inr ⟨htype, rfl, hsrc, rfl⟩, hb⟩
  · rintro ⟨t, id, title, he | ⟨-, -, hs, rfl⟩, hb⟩
    · exact .inl ⟨t, id, title, he, hb⟩
    · rw [hsrc] at hs
      cases hs
      exact .inr hb

/-- A resource of no class or node brings no tags. -/
theorem Tagged.add_other {r : Resource} (ht : Tagged s)
    (hsrc : ∀ t, r.source = some t → ¬Singleton s t) :
    Tagged { s with catalog := s.catalog.append r } := by
  intro tag
  show tag ∈ s.catalog.tags ↔ ∃ t id title, _ ∧ Bears s.types t title tag
  have hres : (s.catalog.append r).resources = s.catalog.resources ++ [r] := rfl
  simp only [ht tag, entered_append_iff hres]
  refine exists_congr fun t => exists_congr fun id => exists_congr fun title => ?_
  refine and_congr_left fun _ => (or_iff_left ?_).symm
  rintro ⟨hsing, -, hs, -⟩
  exact hsrc t hs hsing

theorem addSingleton_keeps {scope : ScopeId} {type : TypeId} {ancestors : List TypeId}
    {params : Table Value} (hs : Sound s) (ht : Tagged s) (htype : Singleton s type)
    (hanc : s.types.Ancestry type ancestors) :
    (addSingleton scope type ancestors params).Keeps Sound Tagged s fun _ t =>
      Tagged t ∧ t.types = s.types := by
  have ⟨d, hd, _⟩ := htype
  have hdesc : ∀ p ∈ ancestors, ∃ d, s.types.get? p = some d := fun p hp =>
    ⟨_, List.getElem?_eq_getElem (hanc.lt_length p (by simp [hp]))⟩
  refine .known_typeAt_bind hd (.bind hs (addResource_keeps hs ht) ?_)
  rintro place u hu rfl
  refine .bind hu (namesOf_keeps hu hdesc) ?_
  rintro names u - ⟨rfl, hnames⟩
  have hbears : ∀ tag, Bears s.types type d.resourceTitle tag ↔
      ∃ name ∈ d.resourceTitle :: names, tag = Name.lowercase name := by
    intro tag
    simp only [List.mem_cons, hnames, exists_eq_or_imp, Bears]
    refine or_congr_right ⟨?_, ?_⟩
    · rintro ⟨chain, hanc', p, hp, d', hd', htag⟩
      obtain rfl := hanc'.leads.unique hanc.leads
      exact ⟨d'.name, ⟨p, hp, d', hd', rfl⟩, htag⟩
    · rintro ⟨_, ⟨p, hp, d', hd', rfl⟩, htag⟩
      exact ⟨ancestors, hanc, p, hp, d', hd', htag⟩
  have hresources : ((s.catalog.append (.ofType d.resourceTag d.resourceTitle scope (some type)
      params)).tag (d.resourceTitle :: names)).resources = s.catalog.resources ++ [_] := rfl
  have htagged := ht.add_singleton htype rfl hresources fun tag => by
    rw [mem_tags_tag, ← hbears]
    rfl
  refine .bind hu (.update (P := fun _ t => t = _) fun _ => rfl) ?_
  rintro - u - rfl
  exact .pure ⟨htagged, rfl⟩

theorem realized?_keeps {type : TypeId} (ht : Tagged s) :
    (realized? type).Keeps Sound Tagged s fun _ t => t = s ∧ Singleton s type := by
  refine .typeAt_bind ht fun d hd => ?_
  split
  · exact .stop ht
  · next hdef =>
    refine .get_bind ?_
    split
    · exact .pure ⟨rfl, d, hd, hdef⟩
    · refine .resourceAt_bind ht fun r _ => ?_
      split
      · exact .pure ⟨rfl, d, hd, hdef⟩
      · exact .stop ht

theorem realizeChain_keeps {scope : ScopeId} : ∀ {types : List TypeId} {s : State}, Sound s →
    Tagged s → (∀ t rest, types = t :: rest → s.types.Ancestry t rest) →
    (realizeChain scope types).Keeps Sound Tagged s fun _ t => Tagged t ∧ t.types = s.types := by
  intro types
  induction types with
  | nil => exact fun _ ht _ => .pure ⟨ht, rfl⟩
  | cons type ancestors ih =>
    intro s hs ht hanc
    have hchain := hanc type ancestors rfl
    refine .bind hs (realized?_keeps ht) ?_
    rintro found _ - ⟨rfl, hsing⟩
    cases found with
    | some id => exact .pure ⟨ht, rfl⟩
    | none =>
      refine .bind hs (ih hs ht ?_) ?_
      · rintro p rest rfl
        cases hchain with
        | child _ _ _ hrest => exact hrest
      · rintro - u hu ⟨htu, hty⟩
        refine .bind hu (addSingleton_keeps hu htu ?_ (hty ▸ hchain)) ?_
        · simpa only [Singleton, hty] using hsing
        · rintro - v - ⟨htv, hty'⟩
          exact .pure ⟨htv, hty'.trans hty⟩

/-- Entering a class or node after its ancestors keeps the tags exact. -/
theorem ensure_upholds {type : TypeId} {scope : ScopeId} {params : Table Value} :
    (ensure type scope params).Upholds Sound Tagged := by
  intro s hs ht
  refine .bind hs (realized?_keeps ht) ?_
  rintro found _ - ⟨rfl, hsing⟩
  cases found with
  | some id => exact .pure ht
  | none =>
    refine .bind hs (ancestry_keeps hs ht) ?_
    rintro ancestors s₁ hs₁ ⟨ht₁, he, hanc⟩
    refine .bind hs₁ (realizeChain_keeps hs₁ ht₁ ?_) ?_
    · rintro p rest rfl
      cases hanc with
      | child _ _ _ hrest => exact hrest
    · rintro - s₂ hs₂ ⟨ht₂, hty⟩
      have hsing₂ : Singleton s₂ type := by
        simpa only [Singleton, hty] using hsing.of_extends he
      exact (addSingleton_keeps hs₂ ht₂ hsing₂ (hty ▸ hanc)).imp (fun _ h => h) fun _ _ h => h.1

/-! ## All of a compilation -/

theorem steady_tagged : Steady Sound Tagged where
  blank := by
    intro s hb tag
    rw [hb.tags]
    refine iff_of_false List.not_mem_nil ?_
    rintro ⟨t, id, title, ⟨-, r, hr, -⟩, -⟩
    rw [Catalog.get?, hb.resources] at hr
    cases hr
  scopes := fun _ _ h => h
  log := fun _ _ h => h
  modify := by
    intro s id f hf hs ht
    exact ht.of_alike hs (.modify s id fun r => by rw [hf r]; exact ⟨rfl, rfl⟩)
  lists := fun _ _ _ h => h
  ancestry := fun type scope s hs ht =>
    (ancestry_keeps hs ht).imp (fun _ h => h) fun _ _ h => h.1
  ensure := fun _ _ _ => ensure_upholds
  declare := by
    intro type title scope params s hs ht
    refine (addResource_keeps hs ht).imp (fun _ h => h) ?_
    rintro - t rfl
    refine ht.add_other ?_
    rintro _ ⟨⟩
  instantiate := by
    intro type d title scope params s hs ht hd hk
    refine (addResource_keeps hs ht).imp (fun _ h => h) ?_
    rintro - t rfl
    refine ht.add_other ?_
    rintro _ ⟨⟩ ⟨d', hd', hk'⟩
    rw [hd] at hd'
    cases hd'
    exact hk' hk

/-- Whenever a call of a compilation begins or ends, every class or node that has been entered has
one resource, which is found by its tag and title and stands behind those of its ancestors, and the
catalog is tagged with the titles of these resources and with the names of the ancestors. -/
theorem entered_consistent (rounds : ℕ) {types : Registry} (host : Host) (settings : Settings)
    (hclosed : types.Closed) {v : Visit} (hv : v ∈ history rounds types host settings)
    (hevent : v.event ≠ .change) : Consistent v.state := by
  have hsound := fun s hs => sound_of_mem_states rounds host settings hclosed (s := s) hs
  have hs := hsound v.state (List.mem_cons_of_mem _ (List.mem_map_of_mem hv))
  exact hs.consistent (steady_tagged.of_mem_history hsound hv hevent)

/-- A class whose parents are declared after it and whose body fails. -/
def lineage : Registry where
  environment := "production"
  types := [
    { Descriptor.ofName .hostclass "" with body := some (.code (.includes ["c"])) },
    { Descriptor.ofName .hostclass "c" with
      parent := some "b"
      body := some (.code (.includes ["missing"])) },
    { Descriptor.ofName .hostclass "b" with parent := some "a" },
    Descriptor.ofName .hostclass "a"]

/-- The inclusion of `c` fails, and leaves its resource behind those of its parents. -/
theorem entered_consistent_lineage :
    ∃ v ∈ history 1 lineage ⟨"web01", [], []⟩ {}, (∃ c before, v.event = .leave c before) ∧
      v.state.catalog.resources.map (·.title) = ["main", "a", "b", "c"] ∧
      v.state.catalog.tags = ["main", "a", "b", "c"] ∧ Consistent v.state := by
  have hvisit : (history 1 lineage ⟨"web01", [], []⟩ {}).any (fun v => match v.event with
      | .leave (.includeClass ..) _ =>
        v.state.catalog.resources.map (·.title) = ["main", "a", "b", "c"] &&
          v.state.catalog.tags = ["main", "a", "b", "c"]
      | _ => false) = true := by decide +kernel
  obtain ⟨v, hv, hx⟩ := List.any_eq_true.mp hvisit
  split at hx
  · next scope name params before hleave =>
    simp only [Bool.and_eq_true, decide_eq_true_eq] at hx
    refine ⟨v, hv, ⟨_, before, hleave⟩, hx.1, hx.2, ?_⟩
    refine entered_consistent 1 ⟨"web01", [], []⟩ {}
      (Registry.closed_of_unresolved (r := lineage) (by decide +kernel)) hv ?_
    rw [hleave]
    exact fun h => nomatch h
  · cases hx

end SiteCatalog.Compilation
