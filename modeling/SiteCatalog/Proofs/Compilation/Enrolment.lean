import SiteCatalog.Proofs.Collection
import SiteCatalog.Proofs.Compilation.Duplicates
import SiteCatalog.Proofs.Compilation.Entering
import SiteCatalog.Proofs.Compilation.Tags

/-!
# What the entering of a class or node adds

A class or node that has been entered is found and nothing changes. Otherwise its parents are looked
up first, all of them, and then resources are added for it and for the parents in front of the first
one that has been entered. So nothing is added if a parent cannot be found, and with parents of
different identities nothing is added either when an identity is taken.

Results:
* `missing`, `IsEntry`, `Enrolled`: which types are entered, with which resources, and what becomes
  of the state.
* `realized?_exact`: when a class or node is found.
* `realizeChain_enrolls`: the parents of a chain that are missing are entered, farthest first.
* `ensure_effect`: what entering a class or node does in any state of a compilation.
-/

namespace SiteCatalog.Compilation

/-! ## What is added -/

instance (s : State) (t : TypeId) : Decidable (HasEntry s t) :=
  inferInstanceAs (Decidable (∃ r ∈ s.catalog.resources, r.source = some t))

/-- The members of a chain of parents in front of the first one that has been entered. -/
def missing (s : State) (chain : List TypeId) : List TypeId :=
  chain.takeWhile fun t => ¬HasEntry s t

/-- The resource of a class or node right after it has been entered in a scope. -/
def IsEntry (types : Registry) (scope : ScopeId) (params : Table Value) (t : TypeId)
    (r : Resource) : Prop :=
  ∃ d, types.get? t = some d ∧ d.kind ≠ .define ∧
    r = .ofType d.resourceTag d.resourceTitle scope (some t) params

/-- Resources have been added at the end. Besides, parents have become known and tags been added. -/
structure Enrolled (s : State) (new : List Resource) (t : State) : Prop where
  types : s.types.Extends t.types
  tags : s.catalog.tags <+: t.catalog.tags
  rest : t = { s with
    types := t.types
    catalog := { s.catalog with
      resources := s.catalog.resources ++ new
      tags := t.catalog.tags } }

variable {s t : State} {scope : ScopeId} {type : TypeId} {chain : List TypeId}
  {new : List Resource} {params : Table Value} {r : Resource} {d : Descriptor}
  {h : List Visit} {calls : List Call}

theorem missing_cons_of_hasEntry (ht : HasEntry s type) : missing s (type :: chain) = [] := by
  simp [missing, ht]

theorem missing_cons (ht : ¬HasEntry s type) :
    missing s (type :: chain) = type :: missing s chain := by
  simp [missing, ht]

theorem mem_of_mem_missing {u : TypeId} (hu : u ∈ missing s chain) : u ∈ chain :=
  List.takeWhile_prefix _ |>.subset hu

namespace IsEntry

theorem identity (hr : IsEntry s.types scope params type r) :
    ∃ d, s.types.get? type = some d ∧ r.identity = d.entry := by
  obtain ⟨d, hd, hk, rfl⟩ := hr
  exact ⟨d, hd, Descriptor.identity_ofType hk scope (some type) params⟩

/-- Resources do not depend on which parents are known. -/
theorem of_extends {known : Registry} (hr : IsEntry known scope params type r)
    (he : s.types.Extends known) : IsEntry s.types scope params type r := by
  obtain ⟨d', hd', hk, rfl⟩ := hr
  obtain ⟨d, hd, heq, -⟩ := he.kept_back hd'
  rw [heq] at hk ⊢
  exact ⟨d, hd, hk, rfl⟩

end IsEntry

namespace Enrolled

theorem refl (s : State) : Enrolled s [] s where
  types := .refl _
  tags := List.prefix_refl _
  rest := by simp

theorem resources (ht : Enrolled s new t) :
    t.catalog.resources = s.catalog.resources ++ new := by
  rw [ht.rest]

/-- One more resource is added together with its tags. -/
theorem add (ht : Enrolled s new t) (r : Resource) (names : List String) :
    Enrolled s (new ++ [r]) { t with catalog := (t.catalog.append r).tag names } where
  types := ht.types
  tags := ht.tags.trans (Catalog.tags_prefix_tag (t.catalog.append r) names)
  rest := by
    conv_lhs => rw [ht.rest]
    simp [Catalog.append, Catalog.tag]

/-- Parents became known before anything was added. -/
theorem of_types {known : Registry} (he : s.types.Extends known)
    (ht : Enrolled { s with types := known } new t) : Enrolled s new t :=
  ⟨he.trans ht.types, ht.tags, ht.rest⟩

end Enrolled

/-! ## Classes and nodes that have been entered -/

/-- The resource of a class or node bears its identity. -/
theorem Sound.identity_eq (hs : Sound s) (hd : s.types.get? type = some d) (hk : d.kind ≠ .define)
    {id : ResourceId} (hr : s.catalog.get? id = some r) (hsrc : r.source = some type) :
    r.identity = d.entry := by
  obtain ⟨htag, htitle⟩ := hs.singleton id r type d hr hsrc hd hk
  rw [Resource.identity, htag, htitle, Descriptor.tag_resourceTag hk, Descriptor.entry]

/-- A class or node that has been entered is found. -/
theorem realized?_found (hs : Sound s) {id : ResourceId} {title : String}
    (he : Entered s type id title) : (realized? type).run s = (.ok (some id), s) := by
  have ⟨⟨d, hd, hk⟩, r, hr, hsrc, _⟩ := he
  have hm : (realized? type).Meets ⟨fun _ t => t = s, fun _ _ _ => False⟩ [] [] s
      fun found _ => found = some id := by
    refine .typeAt_bind hd ?_
    rw [if_neg hk]
    refine .get_bind ?_
    rw [hs.resource?_eq hd he]
    refine .resourceAt_bind hr ?_
    rw [if_pos hsrc]
    exact .pure rfl rfl
  unfold Run.Meets at hm
  split at hm
  · next hrun => rw [hrun, hm.1, hm.2]
  · exact hm.elim

/-- A class or node is found exactly if it has been entered; otherwise its identity is free. -/
theorem realized?_exact {C : Contract} (hs : Sound s) (hd : s.types.get? type = some d)
    (hok : C.ok h s) (hfail : ∀ e, C.failed (.error e) h s) :
    (realized? type).Meets C calls h s fun found t => t = s ∧ d.kind ≠ .define ∧
      (∀ id, found = some id → ∃ r, s.catalog.get? id = some r ∧ r.source = some type) ∧
      (found = none → ¬HasEntry s type ∧ ∀ r ∈ s.catalog.resources, r.identity ≠ d.entry) := by
  refine .typeAt_bind hd ?_
  split
  · exact .stop (hfail _)
  · next hk =>
    refine .get_bind ?_
    split
    · next hnone =>
      have hfree := Catalog.resource?_eq_none hnone
      refine .pure hok ⟨rfl, hk, fun _ heq => (nomatch heq), fun _ => ⟨?_, hfree⟩⟩
      rintro ⟨r, hmem, hsrc⟩
      obtain ⟨id, hr⟩ := List.mem_iff_getElem?.mp hmem
      exact hfree r hmem (hs.identity_eq hd hk hr hsrc)
    · next id hsome =>
      obtain ⟨r, hr, -⟩ := Catalog.resource?_eq_some hsome
      refine .resourceAt_bind hr ?_
      split
      · next hsrc =>
        refine .pure hok ⟨rfl, hk, ?_, fun heq => nomatch heq⟩
        rintro _ ⟨⟩
        exact ⟨r, hr, hsrc⟩
      · exact .stop (hfail _)

/-! ## Entering the missing parents -/

/-- After missing parents a class or node is entered whose identity was free before, unless one of
those parents has taken it. -/
theorem addSingleton_enrolls {parents ancestors : List TypeId} (hd : s.types.get? type = some d)
    (hk : d.kind ≠ .define) (hfree : ∀ r ∈ s.catalog.resources, r.identity ≠ d.entry)
    (hnew : List.Forall₂ (IsEntry s.types scope []) parents new) (ht : Enrolled s new t)
    (htypes : t.types = s.types) (hexist : ∀ p ∈ ancestors, p < s.types.types.length) :
    (addSingleton scope type ancestors params).Meets
      { ok _ u := u.types = s.types ∧
          ∃ r, IsEntry s.types scope params type r ∧ Enrolled s (new ++ [r]) u
        failed f _ _ := (∃ e, f = .error e) ∧ ∃ p ∈ parents, s.types.SameEntry type p }
      calls h t fun id _ => id = (s.catalog.resources ++ new).length := by
  let r : Resource := .ofType d.resourceTag d.resourceTitle scope (some type) params
  have hr : IsEntry s.types scope params type r := ⟨d, hd, hk, rfl⟩
  refine .typeAt_bind (htypes ▸ hd) (.bind_of (C := ⟨fun _ _ => True, _⟩)
    (.addResource (r := r) (fun _ => trivial) fun e he => ?_) ?_ fun _ _ _ hf => hf)
  · -- the identity was free before, so that it is one of the parents that has it
    obtain ⟨-, q, hq, hsame⟩ := Catalog.add_eq_error he
    rw [Descriptor.identity_ofType hk] at hsame
    rw [ht.resources] at hq
    have hq' : q ∈ new := (List.mem_append.mp hq).resolve_left fun hold => hfree q hold hsame
    obtain ⟨p, hp, hentry⟩ := exists_of_forall₂_right hnew hq'
    obtain ⟨d', hd', heq⟩ := hentry.identity
    exact ⟨⟨e, rfl⟩, p, hp, d, d', hd, hd', hsame.symm.trans heq⟩
  · rintro id h' u - ⟨rfl, rfl⟩
    refine .bind_of (C := ⟨fun _ _ => True, fun _ _ _ => False⟩) (namesOf_meets ?_ trivial) ?_
      fun _ _ _ hf => hf.elim
    · exact fun p hp => (congrArg (·.types.length) htypes) ▸ hexist p hp
    · rintro names h'' u - rfl
      refine .update_bind (.pure ⟨htypes, r, hr, ht.add r _⟩ ?_)
      rw [ht.resources]

/-- The missing members of a chain of parents are entered, farthest first. If that fails and their
identities differ, nothing has been entered. -/
theorem realizeChain_enrolls (hs : Sound s) : ∀ {chain : List TypeId} {h : List Visit},
    (∀ p ∈ chain, p < s.types.types.length) →
    (realizeChain scope chain).Meets
      { ok _ t := t.types = s.types ∧ ∃ new,
          List.Forall₂ (IsEntry s.types scope []) (missing s chain).reverse new ∧ Enrolled s new t
        failed f _ t := (∃ e, f = .error e) ∧
          (chain.Pairwise (fun p q => ¬s.types.SameEntry p q) → t = s) }
      calls h s fun _ _ => True := by
  intro chain
  induction chain with
  | nil => exact fun _ => .pure ⟨rfl, [], .nil, .refl s⟩ trivial
  | cons type rest ih =>
    intro h hexist
    have hrest : ∀ p ∈ rest, p < s.types.types.length := fun p hp => hexist p (by simp [hp])
    have hd := List.getElem?_eq_getElem (hexist type (by simp))
    refine .bind_of (C := ⟨fun _ t => t = s, fun f _ t => (∃ e, f = .error e) ∧ t = s⟩)
      (realized?_exact hs hd rfl fun e => ⟨⟨e, rfl⟩, rfl⟩) ?_ fun _ _ _ hf => ⟨hf.1, fun _ => hf.2⟩
    rintro found h' t - ⟨rfl, hk, hfound, hnone⟩
    cases found with
    | some id =>
      obtain ⟨r, hr, hsrc⟩ := hfound id rfl
      refine .pure ⟨rfl, [], ?_, .refl t⟩ trivial
      rw [missing_cons_of_hasEntry ⟨r, List.mem_of_getElem? hr, hsrc⟩]
      exact .nil
    | none =>
      obtain ⟨hmissing, hfree⟩ := hnone rfl
      refine .bind_of (ih hrest) ?_ fun f h'' u hf => ⟨hf.1, fun hp => hf.2 hp.tail⟩
      rintro - h'' u ⟨htypes, new, hnew, hu⟩ -
      refine .bind_of (addSingleton_enrolls hd hk hfree hnew hu htypes hrest) ?_ ?_
      · rintro id h₃ v ⟨htypes', r, hr, hv⟩ -
        refine .pure ⟨htypes', new ++ [r], ?_, hv⟩ trivial
        rw [missing_cons hmissing, List.reverse_cons]
        exact List.rel_append hnew (.cons hr .nil)
      · rintro f h₃ v ⟨hf, p, hp, hsame⟩
        refine ⟨hf, fun hdistinct => absurd hsame ?_⟩
        exact List.rel_of_pairwise_cons hdistinct (mem_of_mem_missing (List.mem_reverse.mp hp))

/-! ## Entering a class or node -/

/-- A class or node whose identity is free is entered after its missing parents. If that fails and
their identities differ from each other and from its own, nothing has been entered. -/
theorem realize_enrolls (hs : Sound s) {l : List TypeId} (hd : s.types.get? type = some d)
    (hk : d.kind ≠ .define) (hfree : ∀ r ∈ s.catalog.resources, r.identity ≠ d.entry)
    (hexist : ∀ p ∈ l, p < s.types.types.length) :
    (do
      realizeChain scope l
      addSingleton scope type l params : Run ResourceId).Meets
      { ok _ t := t.types = s.types ∧ ∃ new r,
          List.Forall₂ (IsEntry s.types scope []) (missing s l).reverse new ∧
          IsEntry s.types scope params type r ∧ Enrolled s (new ++ [r]) t
        failed f _ t := (∃ e, f = .error e) ∧
          ((type :: l).Pairwise (fun p q => ¬s.types.SameEntry p q) → t = s) }
      calls h s fun id t => id + 1 = t.catalog.resources.length := by
  refine .bind_of (realizeChain_enrolls hs hexist) ?_ fun f h' t hf => ⟨hf.1, fun hp => hf.2 hp.tail⟩
  rintro - h' t ⟨htypes, new, hnew, ht⟩ -
  refine (addSingleton_enrolls hd hk hfree hnew ht htypes hexist).imp ?_ ?_
  · rintro id h'' u ⟨htypes', r, hr, hu⟩ rfl
    refine ⟨⟨htypes', new, r, hnew, hr, hu⟩, ?_⟩
    rw [hu.resources]
    simp only [List.length_append, List.length_singleton, Nat.add_assoc]
  · rintro f h'' u ⟨hf, p, hp, hsame⟩
    refine ⟨hf, fun hdistinct => absurd hsame ?_⟩
    exact List.rel_of_pairwise_cons hdistinct (mem_of_mem_missing (List.mem_reverse.mp hp))

/-- The parents are looked up before anything is entered. -/
theorem ancestry_alone (hs : Sound s) (hd : s.types.get? type = some d)
    (hscope : scope < s.scopes.arena.length) :
    (ancestry type (some scope)).Meets
      { ok _ t := Sound t ∧ ∃ known, s.types.Extends known ∧ t = { s with types := known }
        failed f _ t := (∃ e, f = .error e) ∧
          ∃ known, s.types.Extends known ∧ t = { s with types := known } }
      [] h s fun l t => Resolves s type scope l ∧ ∀ p ∈ l, p < t.types.types.length := by
  have hquiet : (ancestry type (some scope)).Meets (quietly scope s) [] [] s _ :=
    ancestry_meets hs (Registry.lt_length_of_get? hd) hscope
  have halone := (LookingUp.since s).ancestry type (some scope) [] [] s ⟨s.types, .refl _, rfl⟩
    fun _ hv => nomatch hv
  refine (hquiet.and halone).noted.rebase ?_ ?_
  · rintro l h' t ⟨hok, hsince, -⟩ ⟨⟨hl, -⟩, hrun⟩
    exact ⟨⟨hok.sound, hsince⟩, ⟨t, hrun⟩, fun p hp => hl.lt_length p (List.mem_cons_of_mem _ hp)⟩
  · rintro f h' t ⟨⟨⟨hf, -⟩, hsince, -⟩, -⟩
    exact ⟨hf, hsince⟩

/-- A class or node that has not been entered is entered after its missing parents. If that fails,
nothing has been entered, unless its parents can be looked up and identities of them are equal. -/
theorem ensure_enrolls (hs : Sound s) (hd : s.types.get? type = some d)
    (hscope : scope < s.scopes.arena.length) (hmissing : ¬HasEntry s type) :
    (ensure type scope params).Meets
      { ok _ t := ∃ l, Resolves s type scope l ∧ ∃ new r,
          List.Forall₂ (IsEntry s.types scope []) (missing s l).reverse new ∧
          IsEntry s.types scope params type r ∧ Enrolled s (new ++ [r]) t
        failed f _ t := (∃ e, f = .error e) ∧ ((∀ l, Resolves s type scope l →
            (type :: l).Pairwise fun p q => ¬s.types.SameEntry p q) →
          ∃ known, s.types.Extends known ∧ t = { s with types := known }) }
      [] [] s fun id t => id + 1 = t.catalog.resources.length := by
  refine .bind_of (C := ⟨fun _ t => t = s, fun f _ t => (∃ e, f = .error e) ∧ t = s⟩)
    (realized?_exact hs hd rfl fun e => ⟨⟨e, rfl⟩, rfl⟩) ?_
    fun _ _ _ hf => ⟨hf.1, fun _ => ⟨_, .refl _, hf.2⟩⟩
  rintro found h' t - ⟨rfl, hk, hfound, hnone⟩
  cases found with
  | some id =>
    obtain ⟨r, hr, hsrc⟩ := hfound id rfl
    exact absurd ⟨r, List.mem_of_getElem? hr, hsrc⟩ hmissing
  | none =>
    obtain ⟨-, hfree⟩ := hnone rfl
    refine .bind_of (ancestry_alone hs hd hscope) ?_ fun _ _ _ hf => ⟨hf.1, fun _ => hf.2⟩
    rintro l h₁ u ⟨hu, known, he, rfl⟩ ⟨hresolves, hexist⟩
    obtain ⟨_, hd', -⟩ := he.kept type d hd
    -- what is known of parents does not matter to what is entered
    refine (realize_enrolls hu hd' hk hfree hexist).imp ?_ ?_
    · rintro id h₂ v ⟨-, new, r, hnew, hr, hv⟩ hid
      exact ⟨⟨l, hresolves, new, r, hnew.imp fun _ _ hx => hx.of_extends he, hr.of_extends he,
        hv.of_types he⟩, hid⟩
    · rintro f h₂ v ⟨hf, hback⟩
      refine ⟨hf, fun hdistinct => ⟨known, he, hback ?_⟩⟩
      exact (hdistinct l hresolves).imp fun hne => he.sameEntry_iff.not.mpr hne

/-- In every state of a compilation, a class or node that has been entered is found at its place
and nothing changes. One that has not is entered last, with its parameters, after the missing
members of its parents, which are entered in the same scope, farthest first and without parameters.
If it cannot be entered, parents have become known at most, unless its parents can be looked up and
two of it and them have one identity. -/
theorem ensure_effect (rounds : ℕ) {types : Registry} (host : Host) (settings : Settings)
    (hclosed : types.Closed) {s : State} (hs : s ∈ states rounds types host settings)
    {type : TypeId} {d : Descriptor} (hd : s.types.get? type = some d) (hk : d.kind ≠ .define)
    {scope : ScopeId} (hscope : scope < s.scopes.arena.length) (params : Table Value) :
    (∀ id r, s.catalog.get? id = some r → r.source = some type →
      (ensure type scope params).run s = (.ok id, s)) ∧
    (¬HasEntry s type →
      (∀ id t, (ensure type scope params).run s = (.ok id, t) →
        id + 1 = t.catalog.resources.length ∧
        ∃ l, Resolves s type scope l ∧ ∃ new r,
          List.Forall₂ (IsEntry s.types scope []) (missing s l).reverse new ∧
          IsEntry s.types scope params type r ∧ Enrolled s (new ++ [r]) t) ∧
      ∀ f t, (ensure type scope params).run s = (.error f, t) →
        (∃ e, f = .error e) ∧
        ((∀ l, Resolves s type scope l →
            (type :: l).Pairwise fun p q => ¬s.types.SameEntry p q) →
          ∃ known, s.types.Extends known ∧ t = { s with types := known })) := by
  have hsound := sound_of_mem_states rounds host settings hclosed hs
  refine ⟨fun id r hr hsrc => ?_, fun hmissing => ?_⟩
  · rw [ensure, Run.run_bind, realized?_found hsound ⟨⟨d, hd, hk⟩, r, hr, hsrc, rfl⟩]
    rfl
  · have hm : (ensure type scope params).Meets _ [] [] s _ :=
      ensure_enrolls hsound hd hscope hmissing
    unfold Run.Meets at hm
    constructor
    · intro id t hrun
      rw [hrun] at hm
      exact ⟨hm.2, hm.1⟩
    · intro f t hrun
      rw [hrun] at hm
      exact hm

/-- The farthest parent of `c` is included, and `c` is not. -/
def halfway : Registry where
  environment := "production"
  types := [
    { Descriptor.ofName .hostclass "" with body := some (.code (.includes ["a"])) },
    { Descriptor.ofName .hostclass "c" with parent := some "b" },
    { Descriptor.ofName .hostclass "b" with parent := some "a" },
    Descriptor.ofName .hostclass "a"]

/-- Where only `a` has been included, `c` is entered with its parameters after `b`. -/
theorem ensure_effect_halfway :
    ∃ s ∈ states 1 halfway ⟨"web01", [], []⟩ {}, ¬HasEntry s 1 ∧ ∃ t,
      (ensure 1 0 [("port", .int 80)]).run s = (.ok 3, t) ∧
      t.catalog.resources.map (fun r => (r.title, r.params.keys)) =
        [("main", []), ("a", []), ("b", []), ("c", ["port"])] ∧
      ∃ l, Resolves s 1 0 l ∧ ∃ new r,
        List.Forall₂ (IsEntry s.types 0 []) (missing s l).reverse new ∧
        IsEntry s.types 0 [("port", .int 80)] 1 r ∧ Enrolled s (new ++ [r]) t := by
  have hstate : (states 1 halfway ⟨"web01", [], []⟩ {}).any (fun s =>
      s.catalog.resources.map (·.source) = [some 0, some 3] &&
        (s.types.get? 1).any (fun d => d.kind ≠ .define) && 0 < s.scopes.arena.length &&
        ((ensure 1 0 [("port", .int 80)]).run s).1.toOption = some 3 &&
        ((ensure 1 0 [("port", .int 80)]).run s).2.catalog.resources.map
          (fun r => (r.title, r.params.keys)) =
            [("main", []), ("a", []), ("b", []), ("c", ["port"])]) = true := by decide +kernel
  obtain ⟨s, hs, hx⟩ := List.any_eq_true.mp hstate
  simp only [Bool.and_eq_true, decide_eq_true_eq, Option.any_eq_true] at hx
  obtain ⟨⟨⟨⟨hsources, d, hd, hk⟩, hscope⟩, hid⟩, hresources⟩ := hx
  have hmissing : ¬HasEntry s 1 := by
    rintro ⟨r, hr, hsrc⟩
    have hmem : some 1 ∈ s.catalog.resources.map (·.source) := List.mem_map.mpr ⟨r, hr, hsrc⟩
    rw [hsources] at hmem
    simp at hmem
  obtain ⟨-, heffect⟩ := ensure_effect 1 ⟨"web01", [], []⟩ {}
    (Registry.closed_of_unresolved (r := halfway) (by decide +kernel)) hs hd hk hscope
    [("port", .int 80)]
  obtain ⟨hok, -⟩ := heffect hmissing
  rcases hrun : (ensure 1 0 [("port", .int 80)]).run s with ⟨_ | id, t⟩
  · rw [hrun] at hid
    cases hid
  · rw [hrun] at hid hresources
    cases hid
    exact ⟨s, hs, hmissing, t, hrun, hresources, (hok 3 t hrun).2⟩

end SiteCatalog.Compilation
