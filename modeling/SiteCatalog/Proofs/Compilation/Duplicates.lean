import SiteCatalog.Proofs.CatalogIndex
import SiteCatalog.Proofs.Compilation.Realization
import SiteCatalog.Proofs.Identities

/-!
# Entering namesakes

In a catalog that holds nothing but classes and nodes, entering one more fails exactly if it or one
of its parents has the identity of another class or node that is entered before it or with it.

Results:
* `Entries`: what holds of a catalog of classes and nodes.
* `ancestry_learning`: looking up parents leaves the catalog alone.
* `realizeChain_entering`: a chain of parents is entered unless two of its members clash.
* `duplicate_iff_contested`: when entering a class or node fails because of a duplicate.
-/

namespace SiteCatalog

/-- What a resource is, whatever its parameters are and whether it has been evaluated. -/
def Resource.stamp (r : Resource) : String × String × Option TypeId :=
  (r.tag, r.title, r.source)

/-- Two types have one identity. -/
def Registry.SameEntry (r : Registry) (t u : TypeId) : Prop :=
  ∃ d e, r.get? t = some d ∧ r.get? u = some e ∧ d.entry = e.entry

theorem Registry.SameEntry.symm {r : Registry} {t u : TypeId} (h : r.SameEntry t u) :
    r.SameEntry u t := by
  obtain ⟨d, e, hd, he, heq⟩ := h
  exact ⟨e, d, he, hd, heq.symm⟩

theorem Registry.Extends.sameEntry_iff {r r' : Registry} (h : r.Extends r') {t u : TypeId} :
    r'.SameEntry t u ↔ r.SameEntry t u := by
  constructor
  · rintro ⟨d', e', hd', he', heq⟩
    obtain ⟨d, hd, hd', -⟩ := h.kept_back hd'
    obtain ⟨e, he, he', -⟩ := h.kept_back he'
    rw [hd', he'] at heq
    exact ⟨d, e, hd, he, heq⟩
  · rintro ⟨d, e, hd, he, heq⟩
    obtain ⟨_, hd', -⟩ := h.kept t d hd
    obtain ⟨_, he', -⟩ := h.kept u e he
    exact ⟨_, _, hd', he', heq⟩

namespace Compilation

/-! ## Catalogs of classes and nodes -/

/-- A type has a resource. -/
def HasEntry (s : State) (t : TypeId) : Prop :=
  ∃ r ∈ s.catalog.resources, r.source = some t

/-- The catalog holds classes and nodes only, and with each of them its parents. -/
structure Entries (s : State) : Prop where
  parents : ∀ t d p, s.types.get? t = some d → d.resolved = some p → Singleton s p
  entered : ∀ r ∈ s.catalog.resources, ∃ t d, r.source = some t ∧ s.types.get? t = some d ∧
    d.kind ≠ .define ∧ r.tag = d.resourceTag ∧ r.title = d.resourceTitle
  distinct : (s.catalog.resources.map Resource.identity).Nodup
  parent : ∀ t d, HasEntry s t → s.types.get? t = some d → d.parent.isSome →
    ∃ p, d.resolved = some p ∧ HasEntry s p

/-- Some member of a list of types has the identity of another type that is a member too or has been
entered. -/
def Clash (s : State) (l : List TypeId) : Prop :=
  ∃ t ∈ l, ∃ u, u ≠ t ∧ (u ∈ l ∨ HasEntry s u) ∧ s.types.SameEntry t u

namespace Entries

variable {s s' : State} {t u : TypeId} {l : List TypeId} {d : Descriptor}

/-- Parents become known, and nothing that resources are identified by changes. -/
theorem of_types (h : Entries s) (he : s.types.Extends s'.types)
    (hparents : ∀ t d p, s'.types.get? t = some d → d.resolved = some p → Singleton s' p)
    (hres : s'.catalog.resources = s.catalog.resources) : Entries s' where
  parents := hparents
  entered := by
    rw [hres]
    intro r hr
    obtain ⟨t, d, hsource, hd, hk, htag, htitle⟩ := h.entered r hr
    obtain ⟨_, hd', -⟩ := he.kept t d hd
    exact ⟨t, _, hsource, hd', hk, htag, htitle⟩
  distinct := by rw [hres]; exact h.distinct
  parent := by
    simp only [HasEntry, hres]
    intro t d' ht hd' hpar
    obtain ⟨d, hd, heq, hknown⟩ := he.kept_back hd'
    rw [heq] at hpar
    obtain ⟨p, hp, hentry⟩ := h.parent t d ht hd hpar
    exact ⟨p, hknown p hp, hentry⟩

/-- A resource bears the identity of its class or node. -/
theorem identity (h : Entries s) {r : Resource} (hr : r ∈ s.catalog.resources) :
    ∃ t d, r.source = some t ∧ s.types.get? t = some d ∧ d.kind ≠ .define ∧
      r.identity = d.entry := by
  obtain ⟨t, d, hsource, hd, hk, htag, htitle⟩ := h.entered r hr
  refine ⟨t, d, hsource, hd, hk, ?_⟩
  rw [Resource.identity, htag, htitle, Descriptor.entry]

/-- Classes and nodes with one identity have not both been entered. -/
theorem eq_of_sameEntry (h : Entries s) (ht : HasEntry s t) (hu : HasEntry s u)
    (htu : s.types.SameEntry t u) : t = u := by
  obtain ⟨r, hr, hsource⟩ := ht
  obtain ⟨r', hr', hsource'⟩ := hu
  obtain ⟨d, e, hd, he, heq⟩ := htu
  obtain ⟨t', d', ht', hd', -, hid⟩ := h.identity hr
  obtain ⟨u', e', hu', he', -, hid'⟩ := h.identity hr'
  rw [hsource] at ht'
  rw [hsource'] at hu'
  cases ht'
  cases hu'
  rw [hd] at hd'
  rw [he] at he'
  cases hd'
  cases he'
  have hrr : r = r' := List.inj_on_of_nodup_map h.distinct hr hr' (by rw [hid, hid', heq])
  rw [hrr, hsource'] at hsource
  exact (Option.some.inj hsource).symm

/-- The identity of what has been entered is taken. -/
theorem exists_identity_eq (h : Entries s) (hd : s.types.get? t = some d) (hu : HasEntry s u)
    (htu : s.types.SameEntry t u) : ∃ r ∈ s.catalog.resources, r.identity = d.entry := by
  obtain ⟨r, hr, hsource⟩ := hu
  obtain ⟨d', e, hd', he, heq⟩ := htu
  obtain ⟨u', e', hu', he', -, hid⟩ := h.identity hr
  rw [hsource] at hu'
  cases hu'
  rw [hd] at hd'
  rw [he] at he'
  cases hd'
  cases he'
  exact ⟨r, hr, hid.trans heq.symm⟩

/-- With a class or node its parents have been entered. -/
theorem lineage (h : Entries s) (hl : s.types.Ancestry t l) (ht : HasEntry s t) :
    ∀ x ∈ t :: l, HasEntry s x := by
  induction hl with
  | root =>
    intro x hx
    exact List.mem_singleton.mp hx ▸ ht
  | child hd hpar hp _ ih =>
    obtain ⟨q, hq, hentry⟩ := h.parent _ _ ht hd hpar
    rw [hp] at hq
    cases hq
    intro x hx
    rcases List.mem_cons.mp hx with rfl | hx
    · exact ht
    · exact ih hentry x hx

theorem not_clash (h : Entries s) (hl : ∀ x ∈ l, HasEntry s x) : ¬Clash s l := by
  rintro ⟨t, ht, u, hne, hu, hsame⟩
  exact hne (h.eq_of_sameEntry (hl t ht) (hu.elim (hl u) id) hsame).symm

/-- A known parent is a class or node. -/
theorem singleton_of_ancestry (h : Entries s) {p : TypeId} (hl : s.types.Ancestry t (p :: l)) :
    s.types.Ancestry p l ∧ Singleton s p := by
  cases hl with
  | child hd _ hp hrest => exact ⟨hrest, h.parents _ _ _ hd hp⟩

/-- The parents of a class or node are classes and nodes. -/
theorem singletons (h : Entries s) (hl : s.types.Ancestry t l) (ht : Singleton s t) :
    ∀ x ∈ t :: l, Singleton s x := by
  induction hl with
  | root =>
    intro x hx
    exact List.mem_singleton.mp hx ▸ ht
  | child hd _ hp _ ih =>
    intro x hx
    rcases List.mem_cons.mp hx with rfl | hx
    · exact ht
    · exact ih (h.parents _ _ _ hd hp) x hx

end Entries

/-! ## Looking up parents -/

/-- Since `s` parents have become known at most. -/
structure Learned (s t : State) : Prop where
  entries : Entries t
  types : s.types.Extends t.types
  catalog : t.catalog = s.catalog

/-- What looking up parents has to meet, whether it succeeds or not. -/
def learning (s : State) : Contract where
  ok _ t := Learned s t
  failed _ _ t := Learned s t

variable {s : State} {h : List Visit} {calls : List Call} {scope : ScopeId} {type : TypeId}
  {α β : Type}

theorem Learned.refl (hs : Entries s) : Learned s s :=
  ⟨hs, .refl _, rfl⟩

theorem Learned.trans {t u : State} (h : Learned s t) (h' : Learned t u) : Learned s u :=
  ⟨h'.entries, h.types.trans h'.types, h'.catalog.trans h.catalog⟩

/-- What is learned later is learned since the beginning. -/
theorem Learned.resume {t : State} {p : Run α} {P : α → State → Prop} (hl : Learned s t)
    (hp : p.Meets (learning t) calls h t P) : p.Meets (learning s) calls h t P :=
  hp.imp (fun _ _ _ hok ha => ⟨hl.trans hok, ha⟩) fun _ _ _ hf => hl.trans hf

theorem singleton_of_parentNamed {d : Descriptor} {parent space : String} {p : TypeId}
    (h : parentNamed s.types d parent space = .ok (some p)) : Singleton s p := by
  unfold parentNamed at h
  split at h
  · cases h
  · obtain ⟨e, he, hk⟩ := Registry.get?_of_lookup (Except.ok.inj h)
    exact ⟨e, he, by rw [hk]; decide⟩
  · obtain ⟨e, he, hk⟩ : ∃ e, s.types.get? p = some e ∧ e.kind = .hostclass := by
      rcases Option.or_eq_some_iff.mp (Except.ok.inj h) with h | ⟨-, h⟩
      · exact Registry.get?_of_find h
      · exact Registry.get?_of_find h
    exact ⟨e, he, by rw [hk]; decide⟩

/-- A class or node may be remembered as a parent. -/
theorem Entries.cacheParent {p : TypeId} (hs : Entries s) (hp : Singleton s p) :
    Learned s { s with types := s.types.modify type fun d =>
      { d with resolved := d.resolved.or (some p) } } := by
  have he := s.types.extends_cache type p
  refine ⟨hs.of_types he (fun t d q hd hq => ?_) rfl, he, rfl⟩
  rw [Registry.get?_modify] at hd
  split at hd
  · obtain ⟨d', hd', rfl⟩ := Option.map_eq_some_iff.mp hd
    rcases Option.or_eq_some_iff.mp hq with hq | ⟨-, hq⟩
    · exact (hs.parents t d' q hd' hq).of_extends he
    · cases hq
      exact hp.of_extends he
  · exact (hs.parents t d q hd hq).of_extends he

theorem resolveParent_learning (hs : Entries s) (place : Option ScopeId) :
    (resolveParent type place).Meets (learning s) calls h s fun p t => ParentIs t.types type p := by
  have hl : Learned s s := .refl hs
  refine .existing_bind hl fun d hd => ?_
  split
  · next hp => exact .pure hl ⟨d, hd, hp⟩
  · next hp hk => exact .pure hl ⟨d, hd, by rw [hp]; rfl, hk⟩
  · next parent hp hk =>
    split
    · exact .stop hl
    · refine .existing_bind hl fun c _ => ?_
      refine .get_bind (.ofExcept_bind (fun found hfound => ?_) fun e _ => hl)
      cases found with
      | none => exact .stop hl
      | some p =>
        refine .bind (.update (hs.cacheParent (singleton_of_parentNamed hfound))) ?_
        rintro - h' t hok rfl
        refine .pure hok ⟨{ d with resolved := some p }, ?_, by rw [hp]; rfl, rfl⟩
        show Registry.get? (s.types.modify _ _) type = _
        rw [Registry.get?_modify, if_pos rfl, hd, Option.map_some, hk]
        rfl

theorem namesOf_learning (hs : Entries s) : ∀ {types : List TypeId} {h : List Visit},
    (namesOf types).Meets (learning s) calls h s fun _ t => t = s := by
  intro types
  induction types with
  | nil => exact .pure (.refl hs) rfl
  | cons type rest ih =>
    refine .existing_bind (.refl hs) fun d _ => .bind ih ?_
    rintro names h' t hok rfl
    exact .pure hok rfl

theorem climb_learning {kind : Kind} {place : Option ScopeId} : ∀ (fuel : ℕ) {chain : List TypeId}
    {last : TypeId} {h : List Visit} {s : State}, Entries s →
    (climb place kind fuel chain last).Meets (learning s) calls h s fun found t =>
      ∃ l, found = chain ++ l ∧ t.types.Ancestry last l := by
  intro fuel
  induction fuel with
  | zero => exact fun hs => .stop (.refl hs)
  | succ fuel ih =>
    intro chain last h s hs
    refine .bind (resolveParent_learning hs place) fun p h' t hok hp => ?_
    cases p with
    | none =>
      obtain ⟨d, hd, hn⟩ := hp
      exact .pure hok ⟨[], by simp, .root hd hn⟩
    | some p =>
      obtain ⟨d, hd, hpar, hknown⟩ := hp
      dsimp only
      split
      · refine .bind (hok.resume (namesOf_learning hok.entries)) ?_
        rintro names h'' t' hok' -
        exact .stop hok'
      · refine (hok.resume ((ih hok.entries).imp ?_ fun _ _ _ hf => hf))
        rintro found h'' t' hok' ⟨l, rfl, hl⟩
        exact ⟨hok', p :: l, by simp, .child_of_extends hok'.types hd hpar hknown hl⟩

/-- The parents of a type become known. -/
theorem ancestry_learning (hs : Entries s) (place : Option ScopeId) :
    (ancestry type place).Meets (learning s) calls h s fun l t => t.types.Ancestry type l := by
  refine .existing_bind (.refl hs) fun d hd => .get_bind (.bind (climb_learning _ hs) ?_)
  rintro found h' t hok ⟨l, rfl, hl⟩
  exact .pure hok hl

/-! ## Entering a chain -/

/-- What entering the members of a list after the state `s` has to meet: all of them are entered, or
some clash and that is the error. -/
def entering (s : State) (l : List TypeId) : Contract where
  ok _ t := Entries t ∧ t.types = s.types ∧ (∀ u, HasEntry t u ↔ HasEntry s u ∨ u ∈ l) ∧ ¬Clash s l
  failed f _ t := Entries t ∧ t.types = s.types ∧
    (∃ reference, f = .error (.duplicateResource reference)) ∧ Clash s l

/-- The resource of a class or node is found, or another one of its identity, or none. -/
theorem realized?_entering {d : Descriptor} (hs : Entries s) (hd : s.types.get? type = some d)
    (hk : d.kind ≠ .define) :
    (realized? type).Meets
      { ok _ t := t = s
        failed f _ t := t = s ∧ (∃ reference, f = .error (.duplicateResource reference)) ∧
          ∃ u, u ≠ type ∧ HasEntry s u ∧ s.types.SameEntry type u } calls h s
      fun found _ => (found = none → ∀ u, HasEntry s u → ¬s.types.SameEntry type u) ∧
        ∀ id, found = some id → HasEntry s type := by
  refine .typeAt_bind hd ?_
  rw [if_neg hk]
  refine .get_bind ?_
  split
  · next hnone =>
    refine .pure rfl ⟨fun _ u hu hsame => ?_, fun _ h => nomatch h⟩
    obtain ⟨q, hq, heq⟩ := hs.exists_identity_eq hd hu hsame
    exact Catalog.resource?_eq_none hnone q hq heq
  · next id hid =>
    obtain ⟨r, hr, hidentity⟩ := Catalog.resource?_eq_some hid
    have hmem : r ∈ s.catalog.resources := List.mem_of_getElem? hr
    refine .resourceAt_bind hr ?_
    split
    · next hsource => exact .pure rfl ⟨fun h => (nomatch h), fun _ _ => ⟨r, hmem, hsource⟩⟩
    · next hother =>
      obtain ⟨u, e, hu, he, -, heq⟩ := hs.identity hmem
      refine .stop ⟨rfl, ⟨_, rfl⟩, u, ?_, ⟨r, hmem, hu⟩, d, e, hd, he, hidentity.symm.trans heq⟩
      rintro rfl
      exact hother hu

theorem hasEntry_append {r : Resource} {u : TypeId} :
    HasEntry { s with catalog := s.catalog.append r } u ↔ HasEntry s u ∨ r.source = some u := by
  simp only [HasEntry, Catalog.append, List.mem_append, List.mem_singleton, or_and_right,
    exists_or, exists_eq_left]

/-- A class or node of a new identity may be added after its parent. -/
theorem Entries.append {d : Descriptor} {r : Resource} (hs : Entries s)
    (hd : s.types.get? type = some d) (hk : d.kind ≠ .define) (hsource : r.source = some type)
    (htag : r.tag = d.resourceTag) (htitle : r.title = d.resourceTitle)
    (hnew : ∀ q ∈ s.catalog.resources, q.identity ≠ r.identity)
    (hparent : d.parent.isSome → ∃ p, d.resolved = some p ∧ HasEntry s p) :
    Entries { s with catalog := s.catalog.append r } where
  parents := hs.parents
  entered := by
    intro q hq
    rcases List.mem_append.mp hq with hq | hq
    · exact hs.entered q hq
    · rw [List.mem_singleton.mp hq]
      exact ⟨type, d, hsource, hd, hk, htag, htitle⟩
  distinct := by
    rw [Catalog.append, List.map_append, List.nodup_append]
    refine ⟨hs.distinct, List.nodup_singleton _, ?_⟩
    rintro _ hq _ hr rfl
    obtain ⟨q, hq, heq⟩ := List.mem_map.mp hq
    exact hnew q hq (heq.trans (List.mem_singleton.mp hr))
  parent := by
    intro t e ht he hpar
    have hknown : ∃ p, e.resolved = some p ∧ HasEntry s p := by
      rcases hasEntry_append.mp ht with ht | ht
      · exact hs.parent t e ht he hpar
      · rw [hsource] at ht
        cases ht
        rw [hd] at he
        cases he
        exact hparent hpar
    obtain ⟨p, hp, hentry⟩ := hknown
    exact ⟨p, hp, hasEntry_append.mpr (.inl hentry)⟩

/-- A class or node is entered after its parents, unless its identity is taken. -/
theorem addSingleton_entering {d : Descriptor} {ancestors : List TypeId} {params : Table Value}
    (hs : Entries s) (hd : s.types.get? type = some d) (hk : d.kind ≠ .define)
    (hl : s.types.Ancestry type ancestors) (hentered : ∀ x ∈ ancestors, HasEntry s x) :
    (addSingleton scope type ancestors params).Meets
      { ok _ t := Entries t ∧ t.types = s.types ∧ (∀ u, HasEntry t u ↔ HasEntry s u ∨ u = type) ∧
          ∀ u, HasEntry s u → ¬s.types.SameEntry type u
        failed f _ t := t = s ∧ (∃ reference, f = .error (.duplicateResource reference)) ∧
          ∃ u, HasEntry s u ∧ s.types.SameEntry type u } calls h s fun _ _ => True := by
  let r : Resource := .ofType d.resourceTag d.resourceTitle scope (some type) params
  have hr : r.identity = d.entry := Descriptor.identity_ofType hk scope (some type) params
  have hparent : d.parent.isSome → ∃ p, d.resolved = some p ∧ HasEntry s p := by
    intro hpar
    cases hl with
    | root hd' hn =>
      rw [hd] at hd'
      cases hd'
      rw [hn] at hpar
      cases hpar
    | child hd' _ hp _ =>
      rw [hd] at hd'
      cases hd'
      exact ⟨_, hp, hentered _ List.mem_cons_self⟩
  refine .typeAt_bind hd (.bind (.addResource (fun hnew => ?_) fun e he => ?_) ?_)
  · have hfree : ∀ q ∈ s.catalog.resources, q.identity ≠ r.identity := by
      intro q hq
      obtain ⟨id, hid⟩ := List.mem_iff_getElem?.mp hq
      exact hnew id q hid
    refine ⟨hs.append hd hk rfl (Descriptor.tag_resourceTag hk) rfl hfree hparent, rfl, ?_, ?_⟩
    · intro u
      rw [hasEntry_append, eq_comm (a := u)]
      exact or_congr_right Option.some_inj
    · intro u hu hsame
      obtain ⟨q, hq, heq⟩ := hs.exists_identity_eq hd hu hsame
      exact hfree q hq (heq.trans hr.symm)
  · obtain ⟨rfl, q, hq, hsame⟩ := Catalog.add_eq_error he
    obtain ⟨u, e, hu, he, -, hid⟩ := hs.identity hq
    exact ⟨rfl, ⟨_, rfl⟩, u, ⟨q, hq, hu⟩, d, e, hd, he, by rw [← hid, hsame, hr]⟩
  · rintro id h' t hok ⟨rfl, rfl⟩
    refine .bind (namesOf_meets (fun x hx => hl.lt_length x (List.mem_cons_of_mem _ hx)) hok) ?_
    rintro names h'' t hok' rfl
    obtain ⟨hentries, hrest⟩ := hok'
    refine .bind (.update ⟨hentries.of_types (.refl _) hentries.parents rfl, hrest⟩) ?_
    rintro - h₃ t hok'' rfl
    exact .pure hok'' trivial

namespace Clash

variable {l : List TypeId} {t u : TypeId}

theorem of_tail (h : Clash s l) : Clash s (t :: l) := by
  obtain ⟨x, hx, u, hne, hu, hsame⟩ := h
  exact ⟨x, List.mem_cons_of_mem _ hx, u, hne, hu.imp_left (List.mem_cons_of_mem _), hsame⟩

/-- The first member of a list clashes with another one or with what has been entered, or the rest
clashes. -/
theorem cases_head (h : Clash s (t :: l)) :
    Clash s l ∨ ∃ u, (HasEntry s u ∨ u ∈ l) ∧ s.types.SameEntry t u := by
  obtain ⟨x, hx, u, hne, hu, hsame⟩ := h
  rcases List.mem_cons.mp hx with rfl | hx
  · refine .inr ⟨u, ?_, hsame⟩
    exact hu.symm.imp_right fun hmem => (List.mem_cons.mp hmem).resolve_left hne
  · rcases hu with hmem | hentry
    · rcases List.mem_cons.mp hmem with heq | hmem
      · exact .inr ⟨x, .inr hx, heq ▸ hsame.symm⟩
      · exact .inl ⟨x, hx, u, hne, .inl hmem, hsame⟩
    · exact .inl ⟨x, hx, u, hne, .inr hentry, hsame⟩

end Clash

/-- A class or node whose identity was free is entered after its parents, unless it clashes with one
of them. -/
theorem enterHead_entering {d : Descriptor} {l : List TypeId} {params : Table Value} {t : State}
    (hfree : ∀ u, HasEntry s u → ¬s.types.SameEntry type u) (hd : s.types.get? type = some d)
    (hk : d.kind ≠ .define) (hl : s.types.Ancestry type l) (hok : (entering s l).ok h t) :
    (addSingleton scope type l params).Meets (entering s (type :: l)) calls h t
      fun _ _ => True := by
  obtain ⟨hs, htypes, hentry, hclash⟩ := hok
  refine (addSingleton_entering hs (htypes ▸ hd) hk (htypes ▸ hl)
    fun x hx => (hentry x).mpr (.inr hx)).imp ?_ ?_
  · rintro id h' t' ⟨hs', htypes', hentry', hnew⟩ -
    refine ⟨⟨hs', htypes'.trans htypes, fun u => ?_, fun h => ?_⟩, trivial⟩
    · rw [hentry', hentry, or_assoc, List.mem_cons, or_comm (a := u ∈ l)]
    · rcases h.cases_head with h | ⟨u, hu, hsame⟩
      · exact hclash h
      · exact hnew u ((hentry u).mpr hu) (htypes ▸ hsame)
  · rintro f h' t' ⟨rfl, hf, u, hu, hsame⟩
    rw [htypes] at hsame
    have hmem : u ∈ l := ((hentry u).mp hu).resolve_left fun hold => hfree u hold hsame
    have hne : u ≠ type := fun heq => (List.nodup_cons.mp hl.nodup).1 (heq ▸ hmem)
    exact ⟨hs, htypes, hf, type, List.mem_cons_self, u, hne, .inl (List.mem_cons_of_mem _ hmem),
      hsame⟩

/-- A chain of parents is entered unless it clashes. -/
theorem realizeChain_entering : ∀ {l : List TypeId} {h : List Visit}, Entries s →
    (∀ t rest, l = t :: rest → s.types.Ancestry t rest ∧ Singleton s t) →
    (realizeChain scope l).Meets (entering s l) calls h s fun _ _ => True := by
  intro l
  induction l with
  | nil =>
    intro h hs _
    refine .pure ⟨hs, rfl, fun u => ?_, ?_⟩ trivial
    · simp
    · rintro ⟨_, hmem, -⟩
      cases hmem
  | cons type rest ih =>
    intro h hs hchain
    obtain ⟨hl, d, hd, hk⟩ := hchain type rest rfl
    refine .bind_of (realized?_entering hs hd hk) ?_ ?_
    · rintro found h' t rfl ⟨hnone, hfound⟩
      cases found with
      | some id =>
        have hentered := hs.lineage hl (hfound id rfl)
        refine .pure ⟨hs, rfl, fun u => ?_, hs.not_clash hentered⟩ trivial
        exact (or_iff_left_of_imp (hentered u)).symm
      | none =>
        refine .bind_of (ih hs ?_) ?_ ?_
        · rintro p rest rfl
          exact hs.singleton_of_ancestry hl
        · rintro - h'' t' hok -
          refine .bind (enterHead_entering (hnone rfl) hd hk hl hok) ?_
          rintro id h₃ t'' hok' -
          exact .pure hok' trivial
        · rintro f h'' t' ⟨hentries, htypes, hf, hclash⟩
          exact ⟨hentries, htypes, hf, hclash.of_tail⟩
    · rintro f h' t ⟨rfl, hf, u, hne, hentry, hsame⟩
      exact ⟨hs, rfl, hf, type, List.mem_cons_self, u, hne, .inr hentry, hsame⟩

/-! ## Entering a class or node -/

theorem Learned.hasEntry_iff {t : State} (hl : Learned s t) {u : TypeId} :
    HasEntry t u ↔ HasEntry s u := by
  rw [HasEntry, hl.catalog, HasEntry]

theorem Learned.clash_iff {t : State} (hl : Learned s t) {l : List TypeId} :
    Clash t l ↔ Clash s l := by
  simp only [Clash, hl.hasEntry_iff, hl.types.sameEntry_iff]

/-- The parents of a type can be looked up. -/
def Resolves (s : State) (type : TypeId) (scope : ScopeId) (l : List TypeId) : Prop :=
  ∃ t, (ancestry type (some scope)).run s = (.ok l, t)

theorem Resolves.learned {l : List TypeId} (hs : Entries s) (hl : Resolves s type scope l) :
    ∃ t, Learned s t ∧ t.types.Ancestry type l := by
  obtain ⟨t, hrun⟩ := hl
  have hmeets : (ancestry type (some scope)).Meets _ [] [] s _ := ancestry_learning hs (some scope)
  unfold Run.Meets at hmeets
  rw [hrun] at hmeets
  exact ⟨t, hmeets⟩

/-- A class or node whose parents can be looked up is entered unless it or one of them clashes. -/
theorem ensure_entering {d : Descriptor} {params : Table Value} (hs : Entries s)
    (hd : s.types.get? type = some d) (hk : d.kind ≠ .define) :
    (ensure type scope params).Meets
      { ok _ t := Entries t ∧ s.types.Extends t.types ∧
          ∀ l, Resolves s type scope l → ¬Clash s (type :: l)
        failed f _ t := Entries t ∧ s.types.Extends t.types ∧ ∀ l, Resolves s type scope l →
          (∃ reference, f = .error (.duplicateResource reference)) ∧ Clash s (type :: l) }
      calls h s fun _ _ => True := by
  refine .bind_of (realized?_entering hs hd hk) ?_ ?_
  · rintro found h' t rfl ⟨hfree, hfound⟩
    cases found with
    | some id =>
      refine .pure ⟨hs, .refl _, fun l hl => ?_⟩ trivial
      obtain ⟨u, hlearned, hanc⟩ := hl.learned hs
      rw [← hlearned.clash_iff]
      exact hlearned.entries.not_clash
        (hlearned.entries.lineage hanc (hlearned.hasEntry_iff.mpr (hfound id rfl)))
    | none =>
      refine .bind_of (ancestry_learning hs (some scope)).noted ?_ ?_
      · rintro l h₁ u hlearned ⟨hanc, hrun⟩
        have huse : ∀ l', Resolves t type scope l' → l' = l := by
          rintro l' ⟨u', hrun'⟩
          rw [hrun] at hrun'
          cases hrun'
          rfl
        obtain ⟨_, hd', -⟩ := hlearned.types.kept type d hd
        have hfree' : ∀ x, HasEntry u x → ¬u.types.SameEntry type x := by
          intro x hx
          rw [hlearned.types.sameEntry_iff]
          exact hfree rfl x (hlearned.hasEntry_iff.mp hx)
        refine .bind_of (realizeChain_entering hlearned.entries ?_) ?_ ?_
        · rintro p rest rfl
          exact hlearned.entries.singleton_of_ancestry hanc
        · rintro - h₂ v hok -
          refine (enterHead_entering hfree' hd' hk hanc hok).imp ?_ ?_
          · rintro id h₃ w ⟨hentries, htypes, -, hclash⟩ -
            refine ⟨⟨hentries, htypes ▸ hlearned.types, fun l' hl' => ?_⟩, trivial⟩
            rw [huse l' hl', ← hlearned.clash_iff]
            exact hclash
          · rintro f h₃ w ⟨hentries, htypes, hf, hclash⟩
            refine ⟨hentries, htypes ▸ hlearned.types, fun l' hl' => ⟨hf, ?_⟩⟩
            rw [huse l' hl', ← hlearned.clash_iff]
            exact hclash
        · rintro f h₂ v ⟨hentries, htypes, hf, hclash⟩
          refine ⟨hentries, htypes ▸ hlearned.types, fun l' hl' => ⟨hf, ?_⟩⟩
          rw [huse l' hl', ← hlearned.clash_iff]
          exact hclash.of_tail
      · rintro f h₁ u ⟨hlearned, hrun⟩
        refine ⟨hlearned.entries, hlearned.types, fun l hl => ?_⟩
        obtain ⟨u', hrun'⟩ := hl
        rw [hrun] at hrun'
        cases hrun'
  · rintro f h' t ⟨rfl, hf, u, hne, hentry, hsame⟩
    exact ⟨hs, .refl _, fun l _ => ⟨hf, type, List.mem_cons_self, u, hne, .inr hentry, hsame⟩⟩

/-! ## States in which nothing else has been entered -/

/-- States that are reached from an empty catalog by entering classes and nodes, with or without
success, by looking up parents, and by changes that neither touch types nor what resources are. -/
inductive OnlyEntered (types : Registry) : State → Prop
  | blank {s : State} : s.types = types → s.catalog.resources = [] → OnlyEntered types s
  | ensure {s : State} (type : TypeId) (scope : ScopeId) (params : Table Value) :
      OnlyEntered types s → OnlyEntered types ((ensure type scope params).run s).2
  | resolveParent {s : State} (type : TypeId) (place : Option ScopeId) :
      OnlyEntered types s → OnlyEntered types ((resolveParent type place).run s).2
  | ancestry {s : State} (type : TypeId) (place : Option ScopeId) :
      OnlyEntered types s → OnlyEntered types ((ancestry type place).run s).2
  | other {s t : State} : OnlyEntered types s → t.types = s.types →
      t.catalog.resources.map Resource.stamp = s.catalog.resources.map Resource.stamp →
      OnlyEntered types t

/-- Entries do not depend on the parameters of resources and on whether they have been evaluated. -/
theorem Entries.of_stamps {t : State} (hs : Entries s) (htypes : t.types = s.types)
    (hres : t.catalog.resources.map Resource.stamp = s.catalog.resources.map Resource.stamp) :
    Entries t := by
  have hentry : ∀ {s t : State} {u : TypeId}, t.catalog.resources.map Resource.stamp
      = s.catalog.resources.map Resource.stamp → HasEntry t u → HasEntry s u := by
    rintro s t u heq ⟨r, hr, hsource⟩
    have hmem := List.mem_map_of_mem (f := Resource.stamp) hr
    rw [heq] at hmem
    obtain ⟨q, hq, hstamp⟩ := List.mem_map.mp hmem
    simp only [Resource.stamp, Prod.mk.injEq] at hstamp
    exact ⟨q, hq, hstamp.2.2.trans hsource⟩
  constructor
  case parents => simp only [htypes, Singleton]; exact hs.parents
  case entered =>
    intro r hr
    have hmem := List.mem_map_of_mem (f := Resource.stamp) hr
    rw [hres] at hmem
    obtain ⟨q, hq, hstamp⟩ := List.mem_map.mp hmem
    simp only [Resource.stamp, Prod.mk.injEq] at hstamp
    obtain ⟨htag, htitle, hsource⟩ := hstamp
    rw [htypes, ← htag, ← htitle, ← hsource]
    exact hs.entered q hq
  case distinct =>
    have hidentity : Resource.identity = (fun x => Identity.of x.1 x.2.1) ∘ Resource.stamp := rfl
    rw [hidentity, ← List.map_map, hres, List.map_map]
    exact hs.distinct
  case parent =>
    rw [htypes]
    intro u d hu hd hpar
    obtain ⟨p, hp, hknown⟩ := hs.parent u d (hentry hres hu) hd hpar
    exact ⟨p, hp, hentry hres.symm hknown⟩

theorem Learned.of_meets {p : Run α} {P : α → State → Prop}
    (hp : p.Meets (learning s) [] [] s P) : Learned s (p.run s).2 := by
  unfold Run.Meets at hp
  split at hp
  · next hr => exact hr ▸ hp.1
  · next hr => exact hr ▸ hp

/-- Whatever becomes of an attempt to enter a type, the catalog holds classes and nodes. -/
theorem ensure_entries (hs : Entries s) (type : TypeId) (scope : ScopeId) (params : Table Value) :
    Entries ((ensure type scope params).run s).2 ∧
      s.types.Extends ((ensure type scope params).run s).2.types := by
  let C : Contract := ⟨fun _ t => Entries t ∧ s.types.Extends t.types,
    fun _ _ t => Entries t ∧ s.types.Extends t.types⟩
  have hmeets : (ensure type scope params).Meets C [] [] s fun _ _ => True := by
    by_cases hex : ∃ d, s.types.get? type = some d ∧ d.kind ≠ .define
    · obtain ⟨d, hd, hk⟩ := hex
      exact (ensure_entering hs hd hk).imp (fun _ _ _ hok _ => ⟨⟨hok.1, hok.2.1⟩, trivial⟩)
        fun _ _ _ hf => ⟨hf.1, hf.2.1⟩
    · have hfail : (realized? type).Meets C [] [] s fun _ _ => False := by
        refine .existing_bind ⟨hs, .refl _⟩ fun d hd => ?_
        rw [if_pos (by_contra fun hk => hex ⟨d, hd, hk⟩)]
        exact .stop ⟨hs, .refl _⟩
      exact hfail.bind fun _ _ _ _ hfalse => hfalse.elim
  unfold Run.Meets at hmeets
  split at hmeets
  · next hrun => exact hrun ▸ hmeets.1
  · next hrun => exact hrun ▸ hmeets

theorem OnlyEntered.entries {types : Registry} (hr : types.Fresh) (h : OnlyEntered types s) :
    Entries s ∧ types.Extends s.types := by
  induction h with
  | @blank s htypes hres =>
    refine ⟨⟨?_, ?_, ?_, ?_⟩, htypes ▸ .refl _⟩
    · intro t d p hd hp
      rw [htypes] at hd
      rw [hr.unresolved d (List.mem_of_getElem? hd)] at hp
      cases hp
    · simp [hres]
    · simp [hres]
    · rintro t d ⟨r, hmem, -⟩
      rw [hres] at hmem
      cases hmem
  | ensure type scope params _ ih =>
    obtain ⟨hentries, htypes⟩ := ensure_entries ih.1 type scope params
    exact ⟨hentries, ih.2.trans htypes⟩
  | resolveParent type place _ ih =>
    have hl : Learned _ ((Compilation.resolveParent type place).run _).2 :=
      .of_meets (resolveParent_learning ih.1 place)
    exact ⟨hl.entries, ih.2.trans hl.types⟩
  | ancestry type place _ ih =>
    have hl : Learned _ ((Compilation.ancestry type place).run _).2 :=
      .of_meets (ancestry_learning ih.1 place)
    exact ⟨hl.entries, ih.2.trans hl.types⟩
  | other _ htypes hres ih => exact ⟨ih.1.of_stamps htypes hres, htypes ▸ ih.2⟩

/-! ## When entering a class or node fails -/

/-- Some member of a list of types has a namesake that is a member too or has been entered. -/
def Contested (types : Registry) (s : State) (l : List TypeId) : Prop :=
  ∃ t ∈ l, ∃ u, u ≠ t ∧ (u ∈ l ∨ HasEntry s u) ∧
    ∃ d e, types.get? t = some d ∧ types.get? u = some e ∧ d.Namesakes e

variable {types : Registry} {l : List TypeId}

/-- Classes and nodes with one identity are namesakes. -/
theorem contested_iff (hr : types.Built) (hs : Entries s) (he : types.Extends s.types)
    (hl : ∀ x ∈ l, Singleton s x) : Contested types s l ↔ Clash s l := by
  have hkind : ∀ {x d}, Singleton s x → types.get? x = some d → d.kind ≠ .define := by
    rintro x d ⟨d', hd', hk⟩ hd
    obtain ⟨_, hd'', -⟩ := he.kept x d hd
    rw [hd'] at hd''
    cases hd''
    exact hk
  have hentry : ∀ {x}, HasEntry s x → Singleton s x := by
    rintro x ⟨r, hr, hsource⟩
    obtain ⟨y, d, hy, hd, hk, -⟩ := hs.entered r hr
    rw [hsource] at hy
    cases hy
    exact ⟨d, hd, hk⟩
  refine exists_congr fun t => and_congr_right fun ht => exists_congr fun u =>
    and_congr_right fun hne => and_congr_right fun hu => ?_
  rw [he.sameEntry_iff]
  refine exists_congr fun d => exists_congr fun e => and_congr_right fun hd =>
    and_congr_right fun he => ?_
  exact (hr.entry_eq_iff (Ne.symm hne) hd he (hkind (hl t ht) hd)
    (hkind (hu.elim (hl u) hentry) he)).symm

/-- Two classes or nodes have one identity exactly if they are namesakes. Where nothing else has
been entered, a class or node whose parents can be looked up cannot be entered exactly if it or one
of them has a namesake among them or among what has been entered, and then it is a duplicate. -/
theorem duplicate_iff_contested (hr : types.Built) :
    (∀ t u d e, t ≠ u → types.get? t = some d → types.get? u = some e → d.kind ≠ .define →
      e.kind ≠ .define → (d.entry = e.entry ↔ d.Namesakes e)) ∧
    ∀ s, OnlyEntered types s → ∀ type d, types.get? type = some d → d.kind ≠ .define →
      ∀ scope params l, Resolves s type scope l →
        ((∃ reference, ((ensure type scope params).run s).1
          = .error (.error (.duplicateResource reference))) ↔ Contested types s (type :: l)) ∧
        ((∃ id, ((ensure type scope params).run s).1 = .ok id) ↔
          ¬Contested types s (type :: l)) := by
  refine ⟨fun t u d e htu hd he hdk hek => hr.entry_eq_iff htu hd he hdk hek, ?_⟩
  intro s hs type d hd hk scope params l hl
  obtain ⟨hentries, hext⟩ := hs.entries hr.fresh
  obtain ⟨_, hd', -⟩ := hext.kept type d hd
  have hmembers : ∀ x ∈ type :: l, Singleton s x := by
    obtain ⟨t, hlearned, hanc⟩ := hl.learned hentries
    obtain ⟨_, hd'', -⟩ := hlearned.types.kept type _ hd'
    intro x hx
    obtain ⟨e', he', hek⟩ := hlearned.entries.singletons hanc ⟨_, hd'', hk⟩ x hx
    obtain ⟨e, he, heq, -⟩ := hlearned.types.kept_back he'
    rw [heq] at hek
    exact ⟨e, he, hek⟩
  rw [contested_iff hr hentries hext hmembers]
  have hmeets : (ensure type scope params).Meets _ [] [] s _ := ensure_entering hentries hd' hk
  unfold Run.Meets at hmeets
  split at hmeets
  · next id t hrun =>
    have hclash := hmeets.1.2.2 l hl
    rw [hrun]
    exact ⟨iff_of_false (fun ⟨_, h⟩ => nomatch h) hclash, iff_of_true ⟨id, rfl⟩ hclash⟩
  · next f t hrun =>
    obtain ⟨⟨reference, rfl⟩, hclash⟩ := hmeets.2.2 l hl
    rw [hrun]
    exact ⟨iff_of_true ⟨reference, rfl⟩ hclash,
      iff_of_false (fun ⟨_, h⟩ => nomatch h) (not_not.mpr hclash)⟩

/-- The unnamed class and a class of its title, and a node with a pattern below a node that has its
printable name. -/
def namesakes : Registry where
  environment := "production"
  types := [.ofName .hostclass "", .ofName .hostclass "main", .ofName .node "web",
    (Descriptor.ofPattern ((Pattern.ofSource? "^web").get rfl)).withParent "web"]

/-- The state in which nothing has been entered. -/
def blankNamesakes : State :=
  .initial namesakes { given := "web01" }

theorem built_namesakes : namesakes.Built := by
  refine Registry.built_of_distinct ?_ (by decide)
  simp only [List.forall_mem_cons, List.not_mem_nil, false_imp_iff, implies_true, and_true]
  exact ⟨.ofName _ _, .ofName _ _, .ofName _ _, .inr ⟨_, rfl, rfl, rfl⟩, rfl⟩

theorem onlyEntered_blankNamesakes : OnlyEntered namesakes blankNamesakes :=
  .blank rfl rfl

theorem resolves_blankNamesakes : Resolves blankNamesakes 3 0 [2] :=
  ⟨_, Prod.ext (eq_ok_of_toOption (by decide)) rfl⟩

/-- The node with a pattern cannot be entered, for its parent is a namesake. -/
theorem duplicate_iff_contested_namesakes : namesakes.Built ∧
    ∃ reference, ((ensure 3 0 []).run blankNamesakes).1
      = .error (.error (.duplicateResource reference)) := by
  refine ⟨built_namesakes, ?_⟩
  obtain ⟨-, hensure⟩ := duplicate_iff_contested built_namesakes
  obtain ⟨hduplicate, -⟩ := hensure blankNamesakes onlyEntered_blankNamesakes 3 _ rfl (by decide) 0
    [] [2] resolves_blankNamesakes
  refine hduplicate.mpr ⟨3, by simp, 2, by decide, by simp, _, _, rfl, rfl, ?_⟩
  exact .inr (.inr ⟨rfl, rfl, by decide +kernel, .inl rfl⟩)

/-- Different classes and different nodes share an identity, and the node with a pattern cannot be
entered although its parents can be looked up. -/
theorem namesakes_share_identities : namesakes.Built ∧
    ((namesakes.get? 0).map Descriptor.entry = (namesakes.get? 1).map Descriptor.entry ∧
      (namesakes.get? 2).map Descriptor.entry = (namesakes.get? 3).map Descriptor.entry) ∧
    OnlyEntered namesakes blankNamesakes ∧ Resolves blankNamesakes 3 0 [2] ∧
    ((ensure 3 0 []).run blankNamesakes).1
      = .error (.error (.duplicateResource "Node[web]")) := by
  refine ⟨built_namesakes, by decide +kernel, onlyEntered_blankNamesakes,
    resolves_blankNamesakes, ?_⟩
  rfl

end Compilation

end SiteCatalog
