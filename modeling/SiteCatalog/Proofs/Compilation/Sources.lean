import SiteCatalog.Proofs.Compilation.Entering
import SiteCatalog.Proofs.Compilation.Walk
import SiteCatalog.Proofs.Identities
import SiteCatalog.Proofs.TypeNames

/-!
# What stands behind the tags of classes and nodes

A resource with the tag of classes or of nodes is one of a class or a node, or else the instance of
a defined type that has the reserved name `class` or `node`. The names are refused where resources
are declared, but only in the form in which they are written: with a leading separator they are let
through, and a defined type of that name is found.

Results:
* `Tallied.run_declareResource`: what declaring a resource does to a state.
* `Tallied.walk`: evaluation keeps account of where resources come from.
* `tag_iff_source`: what the two tags mean at every moment of a compilation.
-/

namespace SiteCatalog

namespace Compilation

open Run (Holds)

/-! ## Notions -/

/-- The tag of the resources of a kind of types, and the name that stands for the kind where
resources are declared. -/
inductive Reserved : Kind → String → String → Prop
  | hostclass : Reserved .hostclass "Class" "class"
  | node : Reserved .node "Node" "node"

/-- A resource is that of a class or node of a kind, and bears its title. -/
def Genuine (s : State) (kind : Kind) (r : Resource) : Prop :=
  ∃ t d, r.source = some t ∧ s.types.get? t = some d ∧ d.kind = kind ∧ r.title = d.resourceTitle

/-- A resource is an instance of the defined type with a name. -/
def InstanceOf (s : State) (name : String) (r : Resource) : Prop :=
  ∃ t d, r.source = some t ∧ s.types.get? t = some d ∧ d.kind = .define ∧ d.name = name

/-- Only classes have the tag of classes, and only nodes that of nodes. -/
def Unforged (s : State) : Prop :=
  ∀ r ∈ s.catalog.resources, ∀ kind tag word, Reserved kind tag word →
    r.tag = tag → Genuine s kind r

/-- A resource without a type has neither tag; any other one has the tag of its type, and the title
of a class or node. -/
def Accounted (types : Registry) (r : Resource) : Prop :=
  match r.source with
  | none => ∀ kind tag word, Reserved kind tag word → r.tag ≠ tag
  | some t => ∃ d, types.get? t = some d ∧ r.tag = Name.tag d.resourceTag ∧
      (d.kind ≠ .define → r.title = d.resourceTitle)

/-- Names of types are in small letters, and every resource is accounted for. No defined types have
come to the `known` ones. -/
structure Tallied (known : Registry) (s : State) : Prop where
  small : ∀ d ∈ s.types.types, Name.lowercase d.name = d.name
  defines : ∀ d ∈ s.types.types, d.kind = .define →
    ∃ e ∈ known.types, e.kind = .define ∧ e.name = d.name
  accounted : ∀ r ∈ s.catalog.resources, Accounted s.types r

variable {known types types' : Registry} {s : State} {r : Resource} {d : Descriptor} {t : TypeId}
  {kind : Kind} {tag word : String}

/-! ## Tags of types -/

namespace Reserved

theorem mem_reserved (h : Reserved kind tag word) : word ∈ Name.reserved := by
  cases h <;> simp [Name.reserved]

theorem map_asciiLower (h : Reserved kind tag word) :
    tag.toList.map Text.asciiLower = word.toList := by
  cases h <;> decide

/-- A type has a reserved tag exactly if it is of the kind, or else a defined type of the name. -/
theorem tag_resourceTag_iff (h : Reserved kind tag word) (hd : Name.lowercase d.name = d.name) :
    Name.tag d.resourceTag = tag ↔ d.kind = kind ∨ d.kind = .define ∧ d.name = word := by
  by_cases hk : d.kind = .define
  · have hne : Kind.define ≠ kind := by cases h <;> decide
    rw [Descriptor.resourceTag, hk]
    simp only [hne, false_or, true_and]
    constructor
    · intro htag
      refine Name.eq_of_tag_capitalize h.mem_reserved hd ?_
      rw [htag, h.map_asciiLower]
    · intro hname
      rw [hname]
      cases h <;> decide
  · rw [Descriptor.tag_resourceTag hk, Descriptor.resourceTag]
    cases h <;> cases hd : d.kind <;> simp_all

/-- What is declared under a name that is not refused has no reserved tag. -/
theorem tag_ne (h : Reserved kind tag word) {type : String}
    (htype : ∀ w ∈ Name.reserved, Name.sameIgnoringCase type w = false) : Name.tag type ≠ tag := by
  intro htag
  have hsame : Name.sameIgnoringCase type word = true :=
    Name.sameIgnoringCase_of_tag h.mem_reserved (by rw [htag, h.map_asciiLower])
  rw [htype word h.mem_reserved] at hsame
  cases hsame

end Reserved

/-! ## What resources account for -/

namespace Accounted

theorem of_persists (h : types.Persists types') (hr : Accounted types r) : Accounted types' r := by
  unfold Accounted at hr ⊢
  split at hr
  · exact hr
  · obtain ⟨d, hd, hrest⟩ := hr
    obtain ⟨_, hd'⟩ := h _ d hd
    exact ⟨_, hd', hrest⟩

/-- The parameters of a resource and its evaluation do not matter. -/
theorem congr {r' : Resource} (htag : r'.tag = r.tag) (htitle : r'.title = r.title)
    (hsource : r'.source = r.source) (hr : Accounted types r) : Accounted types r' := by
  unfold Accounted at hr ⊢
  rwa [htag, htitle, hsource]

theorem tag_iff (hr : Accounted s.types r)
    (hs : ∀ d ∈ s.types.types, Name.lowercase d.name = d.name) (h : Reserved kind tag word) :
    r.tag = tag ↔ Genuine s kind r ∨ InstanceOf s word r := by
  unfold Accounted at hr
  split at hr
  · next hnone =>
    refine iff_of_false (hr kind tag word h) ?_
    rintro (⟨t, d, hsource, -⟩ | ⟨t, d, hsource, -⟩) <;> simp [hnone] at hsource
  · next t hsome =>
    obtain ⟨d, hd, htag, htitle⟩ := hr
    rw [htag, h.tag_resourceTag_iff (hs d (List.mem_of_getElem? hd))]
    constructor
    · rintro (hk | hk)
      · have hne : d.kind ≠ .define := by rw [hk]; cases h <;> decide
        exact .inl ⟨t, d, hsome, hd, hk, htitle hne⟩
      · exact .inr ⟨t, d, hsome, hd, hk⟩
    · rintro (⟨t', d', hsource, hd', hk, -⟩ | ⟨t', d', hsource, hd', hk⟩)
      all_goals
        rw [hsome] at hsource
        cases hsource
        rw [hd] at hd'
        cases hd'
      · exact .inl hk
      · exact .inr hk

end Accounted

/-- An instance of a defined type is no class or node. -/
theorem InstanceOf.not_genuine {name : String} (h : InstanceOf s name r) (hk : kind ≠ .define) :
    ¬Genuine s kind r := by
  rintro ⟨t', d', hsource', hd', hkind, -⟩
  obtain ⟨t, d, hsource, hd, hdefine, -⟩ := h
  rw [hsource] at hsource'
  cases hsource'
  rw [hd] at hd'
  cases hd'
  exact hk (hkind.symm.trans hdefine)

/-! ## What a compilation does -/

theorem Run.Holds.composed {I : State → Prop} : Compositional fun _ p => p.Holds I where
  pure := fun _ => .pure
  stop := fun _ => .stop
  bind := .bind
  get_bind := .get_bind
  follow := .follow

namespace Tallied

variable {params : Table Value}

theorem append (h : Tallied known s) (hr : Accounted s.types r) :
    Tallied known { s with catalog := s.catalog.append r } := by
  refine ⟨h.small, h.defines, fun r' hmem => ?_⟩
  rcases List.mem_append.mp hmem with hmem | hmem
  · exact h.accounted r' hmem
  · rwa [List.mem_singleton.mp hmem]

theorem modify (h : Tallied known s) (id : ResourceId) {f : Resource → Resource}
    (hf : ∀ r, f r = { r with params := (f r).params, evaluated := (f r).evaluated }) :
    Tallied known { s with catalog := s.catalog.modify id f } := by
  refine ⟨h.small, h.defines, forall_mem_modify h.accounted fun r hr => ?_⟩
  rw [hf r]
  exact hr.congr rfl rfl rfl

theorem of_extends (h : Tallied known s) (he : s.types.Extends types) :
    Tallied known { s with types } := by
  have hback : ∀ d' ∈ types.types, ∃ d ∈ s.types.types, d'.name = d.name ∧ d'.kind = d.kind := by
    intro d' hmem
    obtain ⟨t, ht⟩ := List.mem_iff_getElem?.mp hmem
    obtain ⟨d, hd, heq, -⟩ := he.kept_back ht
    exact ⟨d, List.mem_of_getElem? hd, by rw [heq], by rw [heq]⟩
  have haccounted := fun r hr => (h.accounted r hr).of_persists he.persists
  refine ⟨fun d' hd' => ?_, fun d' hd' hk => ?_, haccounted⟩
  · obtain ⟨d, hd, hname, -⟩ := hback d' hd'
    rw [hname]
    exact h.small d hd
  · obtain ⟨d, hd, hname, hkind⟩ := hback d' hd'
    rw [hname]
    exact h.defines d hd (hkind.symm.trans hk)

/-- The resource of a class or node is accounted for. -/
theorem entering (known : Registry) (params : Table Value) : Entering params (Tallied known) where
  types := fun _ _ he hs => hs.of_extends he
  add := fun _ _ d _ _ hd _ hs => hs.append ⟨d, hd, rfl, fun _ => rfl⟩
  tag := fun _ _ hs => ⟨hs.small, hs.defines, hs.accounted⟩

/-- A resource that is declared is accounted for, and is none of a class or node. -/
structure Declared (s : State) (r : Resource) : Prop where
  accounted : Accounted s.types r
  other : ∀ kind, kind ≠ .define → ¬Genuine s kind r

theorem declareOther_meets {C : Contract} {calls : List Call} {h : List Visit} {scope : ScopeId}
    {type title : String} {params : Table Value}
    (hclass : Name.sameIgnoringCase type "class" = false)
    (hnode : Name.sameIgnoringCase type "node" = false)
    (hok : ∀ r, Declared s r → C.ok
      (h ++ [⟨.change, calls, { s with catalog := s.catalog.append r }⟩])
      { s with catalog := s.catalog.append r })
    (hfailed : ∀ f, C.failed f h s) :
    (declareOther scope type title params).Meets C calls h s fun _ t =>
      ∃ r, Declared s r ∧ t = { s with catalog := s.catalog.append r } := by
  have hadd : ∀ r, Declared s r → (addResource r).Meets C calls h s fun _ t =>
      ∃ r, Declared s r ∧ t = { s with catalog := s.catalog.append r } := fun r hr =>
    (Run.Meets.addResource (fun _ => hok r hr) fun _ _ => hfailed _).mono
      fun _ _ ht => ⟨r, hr, ht.2⟩
  refine .existing_bind (hfailed _) fun c _ => .get_bind ?_
  split
  · next t hfind =>
    refine .existing_bind (hfailed _) fun d hd => hadd _ ?_
    obtain ⟨d', hd', hk⟩ := Registry.get?_of_find hfind
    rw [hd] at hd'
    cases hd'
    refine ⟨⟨d, hd, rfl, fun hne => absurd hk hne⟩, fun kind hne => ?_⟩
    exact InstanceOf.not_genuine ⟨t, d, rfl, hd, hk, rfl⟩ hne
  · refine hadd _ ⟨fun kind tag word h => h.tag_ne ?_, ?_⟩
    · simp [Name.reserved, hclass, hnode]
    · rintro kind - ⟨t, d, hsource, -⟩
      cases hsource

theorem markEvaluated (known : Registry) (id : ResourceId) :
    (modifyCatalog (·.markEvaluated id)).Holds (Tallied known) :=
  .update fun _ h => h.modify id fun _ => rfl

/-- Evaluation keeps account of where resources come from. -/
theorem walk (known : Registry) : Walk fun _ p => p.Holds (Tallied known) where
  toCompositional := Run.Holds.composed
  modifyScopes := fun _ => .update fun _ h => ⟨h.small, h.defines, h.accounted⟩
  note := fun _ => .update fun _ h => ⟨h.small, h.defines, h.accounted⟩
  setParameter := fun id _ _ => .update fun _ h => h.modify id fun _ => rfl
  addClass := fun _ => .update fun _ h => ⟨h.small, h.defines, h.accounted⟩
  ancestry := (entering known []).ancestry
  request := Run.Holds.composed.request (markEvaluated known)
    fun type scope params => (entering known params).ensure type scope
  declareOther := by
    intro scope type title params hclass hnode calls h s hs hv
    have hmeets : (Compilation.declareOther scope type title params).Meets
        (holding (Tallied known)) calls h s _ :=
      declareOther_meets hclass hnode (fun r hr => ⟨hs.append hr.accounted,
        Run.forall_append_visit hv (hs.append hr.accounted)⟩) fun _ => ⟨hs, hv⟩
    exact hmeets.mono fun _ _ _ => trivial

theorem addMain : (addType (.ofName .hostclass "")).Holds (Tallied known) := by
  intro calls h s hs hv
  refine .get_bind (.ofExcept_bind (fun x hx => ?_) fun _ _ => ⟨hs, hv⟩)
  have hadded : Tallied known { s with types := x.2 } := by
    refine ⟨?_, ?_, fun r hr => (hs.accounted r hr).of_persists (Registry.persists_add hx)⟩
    all_goals rw [Registry.add_eq_ok hx]
    · refine List.forall_mem_append.mpr ⟨hs.small, ?_⟩
      decide
    · refine List.forall_mem_append.mpr ⟨hs.defines, ?_⟩
      rintro d hd hk
      rw [List.mem_singleton.mp hd] at hk
      cases hk
  exact .update_bind (.pure ⟨hadded, Run.forall_append_visit hv hadded⟩ trivial)

theorem phases (rounds : ℕ) (host : Host) (settings : Settings) :
    (phases rounds host settings).Holds (Tallied known) :=
  (walk known).phases (markEvaluated known) addMain
    (.update fun _ h => ⟨h.small, h.defines, h.accounted⟩) rounds host settings

theorem of_mem_states {rounds : ℕ} {host : Host} {settings : Settings} (hr : known.Built)
    (hs : s ∈ states rounds known host settings) : Tallied known s := by
  have hinitial : Tallied known (.initial known host) :=
    ⟨fun d hd => (hr.authored d hd).lowercase_name, fun d hd hk => ⟨d, hd, hk, rfl⟩,
      fun _ hmem => nomatch hmem⟩
  rcases List.mem_cons.mp hs with rfl | hs
  · exact hinitial
  · obtain ⟨v, hv, rfl⟩ := List.mem_map.mp hs
    exact (phases rounds host settings).of_mem_visits hinitial hv

/-- Nothing is forged as long as no resource is an instance of a defined type of a reserved name. -/
theorem unforged_iff (h : Tallied known s) : Unforged s ↔
    ∀ r ∈ s.catalog.resources, ∀ word ∈ Name.reserved, ¬InstanceOf s word r := by
  refine forall₂_congr fun r hr => ?_
  have htag : ∀ kind tag word, Reserved kind tag word →
      ((r.tag = tag → Genuine s kind r) ↔ ¬InstanceOf s word r) := by
    intro kind tag word hreserved
    have hk : kind ≠ .define := by cases hreserved <;> decide
    rw [(h.accounted r hr).tag_iff h.small hreserved]
    constructor
    · exact fun hgenuine hinstance => hinstance.not_genuine hk (hgenuine (.inr hinstance))
    · exact fun hinstance htag => htag.resolve_right hinstance
  constructor
  · intro hgenuine
    simp only [Name.reserved, List.forall_mem_cons, List.not_mem_nil, false_imp_iff, implies_true,
      and_true]
    exact ⟨(htag _ _ _ .hostclass).mp (hgenuine _ _ _ .hostclass),
      (htag _ _ _ .node).mp (hgenuine _ _ _ .node)⟩
  · intro hinstance kind tag word hreserved
    exact (htag kind tag word hreserved).mpr (hinstance word hreserved.mem_reserved)

/-- A site whose defined types have other names is safe. -/
theorem unforged (h : Tallied known s)
    (hnames : ∀ d ∈ known.types, d.kind = .define → d.name ∉ Name.reserved) : Unforged s := by
  rw [h.unforged_iff]
  rintro r hr word hword ⟨t, d, -, hd, hk, rfl⟩
  obtain ⟨e, he, hek, hname⟩ := h.defines d (List.mem_of_getElem? hd) hk
  rw [← hname] at hword
  exact hnames e he hek hword

/-- Declaring a resource includes a class, or adds a resource, or changes nothing. -/
theorem run_declareResource (h : Tallied known s) (code : Code) (scope : ScopeId)
    (type title : String) (params : Table Value) :
    if Name.sameIgnoringCase type "class" then
      (declareResource code scope type title params).run s =
        (includeClass code scope title params).run s
    else match (declareResource code scope type title params).run s with
      | (.ok _, t) => ∃ r, t = { s with catalog := s.catalog.append r } ∧
          ∀ kind tag word, Reserved kind tag word → (r.tag = tag ↔ InstanceOf t word r)
      | (.error _, t) => t = s := by
  rw [declareResource_eq, run_follow]
  by_cases hclass : Name.sameIgnoringCase type "class" = true
  · rw [if_pos hclass, if_pos hclass]
  · rw [if_neg hclass, if_neg hclass]
    by_cases hnode : Name.sameIgnoringCase type "node" = true
    · rw [if_pos hnode]
      rfl
    · rw [if_neg hnode]
      have hmeets : (Compilation.declareOther scope type title params).Meets
          { ok _ _ := True, failed _ _ t := t = s } [] [] s _ :=
        declareOther_meets (Bool.eq_false_of_not_eq_true hclass)
          (Bool.eq_false_of_not_eq_true hnode) (fun _ _ => trivial) fun _ => rfl
      unfold Run.Meets at hmeets
      split at hmeets
      · next hrun =>
        obtain ⟨-, r, hr, rfl⟩ := hmeets
        rw [hrun]
        refine ⟨r, rfl, fun kind tag word hreserved => ?_⟩
        have hk : kind ≠ .define := by cases hreserved <;> decide
        exact (hr.accounted.tag_iff h.small hreserved).trans (or_iff_right (hr.other kind hk))
      · next hrun =>
        rw [hrun]
        exact hmeets

end Tallied

/-- At every moment of a compilation, a resource has the tag of classes or of nodes exactly if it is
that of a class or node, whose title it bears, or an instance of a defined type of the reserved
name. No resource is forged as long as there are no such instances, nor if no defined type has a
reserved name. Declaring a resource includes a class, or adds a resource that has one of the tags
only as such an instance, or changes nothing. -/
theorem tag_iff_source (rounds : ℕ) {types : Registry} (host : Host) (settings : Settings)
    (hr : types.Built) {s : State} (hs : s ∈ states rounds types host settings) :
    (∀ r ∈ s.catalog.resources, ∀ kind tag word, Reserved kind tag word →
      (r.tag = tag ↔ Genuine s kind r ∨ InstanceOf s word r)) ∧
    (Unforged s ↔ ∀ r ∈ s.catalog.resources, ∀ word ∈ Name.reserved, ¬InstanceOf s word r) ∧
    ((∀ d ∈ types.types, d.kind = .define → d.name ∉ Name.reserved) → Unforged s) ∧
    ∀ code scope type title params,
      if Name.sameIgnoringCase type "class" then
        (declareResource code scope type title params).run s =
          (includeClass code scope title params).run s
      else match (declareResource code scope type title params).run s with
        | (.ok _, t) => ∃ r, t = { s with catalog := s.catalog.append r } ∧
            ∀ kind tag word, Reserved kind tag word → (r.tag = tag ↔ InstanceOf t word r)
        | (.error _, t) => t = s := by
  have h := Tallied.of_mem_states hr hs
  exact ⟨fun r hmem _ _ _ hreserved => (h.accounted r hmem).tag_iff h.small hreserved,
    h.unforged_iff, h.unforged, h.run_declareResource⟩

/-- Code at the top that declares a class, a node's namesake and a file. -/
def declarations : Registry where
  environment := "production"
  types := [
    { Descriptor.ofName .hostclass "" with
      body := some (.code (.block [
        .declare "Class" (.literal (.str "a")) [],
        .declare "app::node" (.literal (.str "web01")) []])) },
    .ofName .hostclass "a",
    .ofName .define "app::node",
    .ofName .node "web01"]

/-- A defined type that has the reserved name `node` in a namespace does no harm. -/
theorem tag_iff_source_declarations : declarations.Built ∧
    ∃ s ∈ states 2 declarations { given := "web01" } {},
      s.catalog.resources.map Resource.reference =
        ["Class[main]", "Class[a]", "App::Node[web01]", "Node[web01]"] ∧ Unforged s := by
  have hbuilt : declarations.Built := by
    refine Registry.built_of_distinct ?_ (by decide +kernel)
    simp only [List.forall_mem_cons, List.not_mem_nil, false_imp_iff, implies_true, and_true]
    exact ⟨⟨.inl ⟨_, _, rfl, rfl, rfl⟩, rfl⟩, .ofName _ _, .ofName _ _, .ofName _ _⟩
  have hany : (states 2 declarations { given := "web01" } {}).any (fun s =>
      s.catalog.resources.map Resource.reference =
        ["Class[main]", "Class[a]", "App::Node[web01]", "Node[web01]"]) = true := by
    decide +kernel
  obtain ⟨s, hs, hrefs⟩ := List.any_eq_true.mp hany
  refine ⟨hbuilt, s, hs, of_decide_eq_true hrefs, ?_⟩
  exact (tag_iff_source 2 { given := "web01" } {} hbuilt hs).2.2.1 (by decide +kernel)

/-- A defined type that has the reserved name `node`, and code at the top that declares an instance
of it. -/
def impostors : Registry where
  environment := "production"
  types := [
    .ofName .define "node",
    { Descriptor.ofName .hostclass "" with
      body := some (.code (.declare "::node" (.literal (.str "web01")) [])) }]

/-- The instance has the tag of nodes. -/
theorem not_unforged_impostors : impostors.Built ∧
    ∃ s ∈ states 2 impostors { given := "web01" } {},
      s.catalog.resources.map Resource.reference = ["Class[main]", "Node[web01]"] ∧
      ¬Unforged s := by
  have hbuilt : impostors.Built := by
    refine Registry.built_of_distinct ?_ (by decide +kernel)
    simp only [List.forall_mem_cons, List.not_mem_nil, false_imp_iff, implies_true, and_true]
    exact ⟨.ofName _ _, ⟨.inl ⟨_, _, rfl, rfl, rfl⟩, rfl⟩⟩
  have hany : (states 2 impostors { given := "web01" } {}).any (fun s =>
      s.catalog.resources.map Resource.reference = ["Class[main]", "Node[web01]"] &&
        s.catalog.resources.any fun r => r.tag = "Node" && r.source = some 0 &&
          (s.types.get? 0).any fun d => d.kind = .define) = true := by
    decide +kernel
  obtain ⟨s, hs, hx⟩ := List.any_eq_true.mp hany
  simp only [Bool.and_eq_true, decide_eq_true_eq, List.any_eq_true, Option.any_eq_true] at hx
  obtain ⟨hrefs, r, hr, ⟨htag, hsource⟩, d, hd, hk⟩ := hx
  refine ⟨hbuilt, s, hs, hrefs, fun hunforged => ?_⟩
  have hinstance : InstanceOf s d.name r := ⟨0, d, hsource, hd, hk, rfl⟩
  exact hinstance.not_genuine (by decide) (hunforged r hr _ _ _ .node htag)

end Compilation

end SiteCatalog
