import SiteCatalog.Proofs.Gathering

/-!
# What a site declares

The registry of a site has one type for each kind and key that its manifests declare, in the order in
which these first appear: in every manifest first the classes, then the unnamed class if there are
top-level statements, then the defined types and the nodes.

Results:
* `Manifest.declaredKeys`, `Manifest.declarationsOf`: what a manifest declares, in order.
* `Registry.gathers_ofManifests`: the registry of a site holds what its manifests declare.
* `Registry.class_ofManifests`: a class of a site is joined from its declarations.
* `Registry.types_ofManifests`: the types of a site, and what its classes take from their
  declarations.
-/

namespace SiteCatalog

open Descriptor (kindAndKey)

/-! ## Manifests -/

theorem map_eq_map_of_forall₂ {α β γ : Type} {f : α → γ} {g : β → γ} {as : List α} {bs : List β}
    (h : List.Forall₂ (fun a b => g b = f a) as bs) : bs.map g = as.map f := by
  induction h with
  | nil => rfl
  | cons hab _ ih => rw [List.map_cons, List.map_cons, hab, ih]

/-- What a type takes from its declaration. -/
structure Declaration.Describes (e : Declaration) (d : Descriptor) : Prop where
  parent : d.parent = e.inherits.map Descriptor.parentName
  parameters : Declaration.parameters e.params = .ok d.parameters
  body : Declaration.bodyOf e.body = .ok d.body
  doc : d.doc = e.doc

namespace Declaration

variable {e : Declaration} {es : List Declaration} {ds : List Descriptor}

theorem describes_of_describe {base d : Descriptor} {m : Manifest} (h : e.describe base m = .ok d) :
    e.Describes d := by
  obtain ⟨parameters, body, hparameters, hbody, rfl⟩ := describe_eq_ok h
  exact ⟨rfl, hparameters, hbody, rfl⟩

theorem docs_of_describes (h : List.Forall₂ Describes es ds) : ds.map (·.doc) = es.map (·.doc) :=
  map_eq_map_of_forall₂ (h.imp fun _ _ h => h.doc)

theorem parent_of_describes (h : List.Forall₂ Describes es ds) :
    ds.findSome? (·.parent) = (es.findSome? (·.inherits)).map Descriptor.parentName := by
  rw [List.map_findSome?]
  induction h with
  | nil => rfl
  | cons hd _ ih => rw [List.findSome?_cons, List.findSome?_cons, hd.parent, ih]; rfl

/-- The bodies of declarations are the blocks of those statements that are not empty. -/
theorem blocks_of_describes (h : List.Forall₂ Describes es ds) : ∃ blocks,
    List.Forall₂ (fun e b => Statement.blockOf e.body = .ok b) (es.filter (!·.body.isEmpty)) blocks ∧
      ds.flatMap (Body.flattened ·.body) = blocks.map .code := by
  induction h with
  | nil => exact ⟨[], .nil, rfl⟩
  | @cons e d es ds hd _ ih =>
    obtain ⟨blocks, hblocks, hparts⟩ := ih
    have hbody := hd.body
    unfold bodyOf at hbody
    split at hbody
    · next hempty =>
      refine ⟨blocks, ?_, ?_⟩
      · rwa [List.filter_cons_of_neg (by simp [hempty])]
      · rw [List.flatMap_cons, ← Except.ok.inj hbody, hparts]
        rfl
    · next hne =>
      obtain ⟨b, hb, hbody⟩ := exists_of_bind_eq_ok hbody
      refine ⟨b :: blocks, ?_, ?_⟩
      · rw [List.filter_cons_of_pos (by simpa using hne)]
        exact .cons hb hblocks
      · rw [List.flatMap_cons, ← Except.ok.inj hbody, hparts]
        rfl

end Declaration

namespace Manifest

/-- The key of the node that an entry declares. -/
def nodeKey (name : String) : String :=
  match patternSource? name with
  | some source => "/" ++ source ++ "/"
  | none => Name.normalize name

/-- The kinds and keys that a manifest declares, in order. -/
def declaredKeys (m : Manifest) : List (Kind × String) :=
  m.classes.map (fun e => (.hostclass, Name.normalize e.1))
    ++ (if m.main = [] then [] else [(.hostclass, "")])
    ++ m.defines.map (fun e => (.define, Name.normalize e.1))
    ++ m.nodes.map (fun e => (.node, nodeKey e.1))

/-- The declarations of a class in a manifest, in order. The top-level statements are one of the
unnamed class. -/
def declarationsOf (name : String) (m : Manifest) : List Declaration :=
  (m.classes.filter (Name.normalize ·.1 = name)).map (·.2)
    ++ if name = "" ∧ m.main ≠ [] then [{ body := m.main }] else []

variable {m : Manifest} {name : String} {e : Declaration} {d : Descriptor} {ds : List Descriptor}

/-! ### What is declared -/

theorem kindAndKey_of_classOf (h : m.classOf name e = .ok d) :
    d.kindAndKey = (.hostclass, Name.normalize name) :=
  (Declaration.foundLike_of_describe h).kindAndKey

theorem kindAndKey_of_defineOf (h : m.defineOf name e = .ok d) :
    d.kindAndKey = (.define, Name.normalize name) :=
  (Declaration.foundLike_of_describe h).kindAndKey

theorem source_of_ofSource? {source : String} {p : Pattern} (h : Pattern.ofSource? source = some p) :
    p.source = source := by
  unfold Pattern.ofSource? at h
  split at h <;> cases h
  rfl

theorem kindAndKey_of_nodeOf (h : m.nodeOf name e = .ok d) :
    d.kindAndKey = (.node, nodeKey name) := by
  unfold nodeOf at h
  split at h
  · next source hsource =>
    have hkey : nodeKey name = "/" ++ source ++ "/" := by simp only [nodeKey, hsource]
    obtain ⟨base, hbase, h⟩ := exists_of_bind_eq_ok h
    rw [hkey, (Declaration.foundLike_of_describe h).kindAndKey]
    unfold Descriptor.ofPatternSource at hbase
    split at hbase <;> cases hbase
    next p hp =>
      rw [← source_of_ofSource? hp]
      rfl
  · next hsource =>
    have hkey : nodeKey name = Name.normalize name := by simp only [nodeKey, hsource]
    rw [hkey]
    exact (Declaration.foundLike_of_describe h).kindAndKey

/-- The unnamed class is declared by the top-level statements, if there are any. -/
theorem mainOf?_cases {main : Option Descriptor} (h : m.mainOf? = .ok main) :
    m.main = [] ∧ main = none ∨ m.main ≠ [] ∧ ∃ d, main = some d ∧
      d.kindAndKey = (.hostclass, "") ∧ Declaration.Describes { body := m.main } d := by
  obtain ⟨body, hbody, h⟩ := exists_of_bind_eq_ok h
  cases body with
  | none =>
    cases h
    exact .inl ⟨Declaration.eq_nil_of_bodyOf hbody, rfl⟩
  | some body =>
    cases h
    refine .inr ⟨?_, _, rfl, rfl, rfl, rfl, hbody, rfl⟩
    intro hmain
    rw [hmain] at hbody
    cases hbody

namespace DeclaresAll

theorem keys (h : m.DeclaresAll ds) : ds.map Descriptor.kindAndKey = m.declaredKeys := by
  cases h with
  | @intro classes defines nodes main hclasses hmain hdefines hnodes =>
    have hmainKeys : main.toList.map Descriptor.kindAndKey =
        if m.main = [] then [] else [(.hostclass, "")] := by
      rcases mainOf?_cases hmain with ⟨hnil, rfl⟩ | ⟨hne, d, rfl, hkey, -⟩
      · rw [if_pos hnil]
        rfl
      · rw [if_neg hne]
        exact congrArg (fun k => [k]) hkey
    rw [List.map_append, List.map_append, List.map_append, hmainKeys,
      map_eq_map_of_forall₂ (hclasses.imp fun _ _ h => kindAndKey_of_classOf h),
      map_eq_map_of_forall₂ (hdefines.imp fun _ _ h => kindAndKey_of_defineOf h),
      map_eq_map_of_forall₂ (hnodes.imp fun _ _ h => kindAndKey_of_nodeOf h)]
    rfl

/-- The sections of a manifest declare types of different kinds. -/
theorem filter_kind {classes defines nodes : List Descriptor} {main : Option Descriptor}
    (hclasses : List.Forall₂ (fun e d => m.classOf e.1 e.2 = .ok d) m.classes classes)
    (hmain : m.mainOf? = .ok main)
    (hdefines : List.Forall₂ (fun e d => m.defineOf e.1 e.2 = .ok d) m.defines defines)
    (hnodes : List.Forall₂ (fun e d => m.nodeOf e.1 e.2 = .ok d) m.nodes nodes) (k : Kind) :
    (classes ++ main.toList ++ defines ++ nodes).filter (·.kind = k) =
      match k with
      | .hostclass => classes ++ main.toList
      | .define => defines
      | .node => nodes := by
  have hclass : ∀ d ∈ classes ++ main.toList, d.kind = .hostclass := by
    intro d hd
    rcases List.mem_append.mp hd with hd | hd
    · obtain ⟨e, -, hd⟩ := exists_of_forall₂_right hclasses hd
      exact kind_of_classOf hd
    · rcases mainOf?_cases hmain with ⟨-, rfl⟩ | ⟨-, main, rfl, hkey, -⟩
      · cases hd
      · rw [List.mem_singleton.mp hd]
        exact congrArg Prod.fst hkey
  have hdefine : ∀ d ∈ defines, d.kind = .define := by
    intro d hd
    obtain ⟨e, -, hd⟩ := exists_of_forall₂_right hdefines hd
    exact kind_of_defineOf hd
  have hnode : ∀ d ∈ nodes, d.kind = .node := by
    intro d hd
    obtain ⟨e, -, hd⟩ := exists_of_forall₂_right hnodes hd
    exact kind_of_nodeOf hd
  have hfilter : ∀ {ds : List Descriptor} {k' : Kind}, (∀ d ∈ ds, d.kind = k') →
      ds.filter (·.kind = k) = if k' = k then ds else [] := by
    intro ds k' hds
    split
    · next hk => exact List.filter_eq_self.mpr fun d hd => decide_eq_true ((hds d hd).trans hk)
    · next hk => exact List.filter_eq_nil_iff.mpr fun d hd => by simpa [hds d hd] using hk
  rw [List.filter_append, List.filter_append, hfilter hclass, hfilter hdefine, hfilter hnode]
  cases k <;> simp

theorem defines (h : m.DeclaresAll ds) :
    List.Forall₂ (fun e d => m.defineOf e.1 e.2 = .ok d) m.defines
      (ds.filter (·.kind = .define)) := by
  cases h with
  | intro hclasses hmain hdefines hnodes => rwa [filter_kind hclasses hmain hdefines hnodes]

theorem nodes (h : m.DeclaresAll ds) :
    List.Forall₂ (fun e d => m.nodeOf e.1 e.2 = .ok d) m.nodes (ds.filter (·.kind = .node)) := by
  cases h with
  | intro hclasses hmain hdefines hnodes => rwa [filter_kind hclasses hmain hdefines hnodes]

/-- The declarations of a class are described in their order. -/
theorem describes (h : m.DeclaresAll ds) (name : String) :
    List.Forall₂ Declaration.Describes (m.declarationsOf name)
      (Descriptor.withKey ds (.hostclass, name)) := by
  cases h with
  | @intro classes defines nodes main hclasses hmain hdefines hnodes =>
    have hclassesOf : List.Forall₂ Declaration.Describes
        ((m.classes.filter (Name.normalize ·.1 = name)).map (·.2))
        (Descriptor.withKey classes (.hostclass, name)) := by
      refine List.forall₂_map_left_iff.mpr (List.Forall₂.imp (fun _ _ h =>
        Declaration.describes_of_describe h) (List.rel_filter (fun e d h => ?_) hclasses))
      change decide _ = true ↔ decide _ = true
      rw [decide_eq_true_iff, decide_eq_true_iff, kindAndKey_of_classOf h, Prod.mk.injEq]
      exact (and_iff_right rfl).symm
    have hmainOf : List.Forall₂ Declaration.Describes
        (if name = "" ∧ m.main ≠ [] then [{ body := m.main }] else [])
        (Descriptor.withKey main.toList (.hostclass, name)) := by
      rcases mainOf?_cases hmain with ⟨hnil, rfl⟩ | ⟨hne, d, rfl, hkey, hd⟩
      · rw [if_neg fun h => h.2 hnil]
        exact .nil
      · by_cases hname : name = ""
        · rw [if_pos ⟨hname, hne⟩, hname, ← hkey, Option.toList,
            Descriptor.withKey_singleton_of_eq rfl]
          exact .cons hd .nil
        · rw [if_neg fun h => hname h.1, Option.toList, Descriptor.withKey_eq_nil]
          · exact .nil
          · intro e he heq
            rw [List.mem_singleton.mp he, hkey] at heq
            exact hname (Prod.mk.inj heq).2.symm
    rw [← Descriptor.withKey_filter_kind, filter_kind hclasses hmain hdefines hnodes,
      Descriptor.withKey_append]
    exact List.rel_append hclassesOf hmainOf

end DeclaresAll

end Manifest

/-! ## The types of a site -/

/-- What manifests declare, part by part. -/
theorem Manifest.forall₂_flatMap {α β : Type} {R : α → β → Prop} {manifests : List Manifest}
    {parts : List (List Descriptor)} {f : Manifest → List α} {g : List Descriptor → List β}
    (hparts : List.Forall₂ DeclaresAll manifests parts)
    (h : ∀ m ds, m.DeclaresAll ds → List.Forall₂ R (f m) (g ds)) :
    List.Forall₂ R (manifests.flatMap f) (parts.flatMap g) :=
  List.rel_flatten (List.rel_map h hparts)

namespace Registry

variable {manifests : List Manifest} {settings : Settings} {r : Registry}

/-- The registry of a site holds what its manifests declare. -/
theorem gathers_ofManifests (h : ofManifests manifests settings = .ok r) :
    ∃ parts, List.Forall₂ Manifest.DeclaresAll manifests parts ∧ r.Gathers parts.flatten := by
  obtain ⟨parts, hparts, hr⟩ := Manifest.collectAll_iff.mp h
  refine ⟨parts, hparts, (Gathers.empty settings.environment).putAll (fun d hd => ?_) hr⟩
  obtain ⟨ds, hds, hd⟩ := List.mem_flatten.mp hd
  obtain ⟨m, -, hds⟩ := exists_of_forall₂_right hparts hds
  exact (hds.declares hd).authored

theorem keys_ofManifests (h : ofManifests manifests settings = .ok r) :
    r.types.map kindAndKey = (manifests.flatMap Manifest.declaredKeys).eraseDups := by
  obtain ⟨parts, hparts, hr⟩ := gathers_ofManifests h
  have hkeys : parts.map (·.map kindAndKey) = manifests.map Manifest.declaredKeys :=
    map_eq_map_of_forall₂ (hparts.imp fun _ _ h => h.keys)
  rw [hr.keys, List.map_flatten, hkeys, List.flatMap_def]

/-- A class of a site is joined from its declarations, and the parents that these name agree. -/
theorem class_ofManifests (h : ofManifests manifests settings = .ok r) {c : Descriptor}
    (hc : c ∈ r.types) (hkind : c.kind = .hostclass) : ∃ ds,
      List.Forall₂ Declaration.Describes (manifests.flatMap (·.declarationsOf c.name)) ds ∧
      c.JoinedFrom ds ∧ ∀ e ∈ ds, ∀ p, e.parent = some p →
        ∃ q, c.parent = some q ∧ Name.normalize q = Name.normalize p := by
  have hkey : c.kindAndKey = (.hostclass, c.name) :=
    Prod.ext hkind (((built_ofManifests h).authored c hc).key_eq_name (by simp [hkind]))
  obtain ⟨parts, hparts, hr⟩ := gathers_ofManifests h
  refine ⟨Descriptor.withKey parts.flatten c.kindAndKey, ?_,
    Descriptor.joinedFrom_of_joinAll (hr.classes c hc hkind), fun e he p hp => ?_⟩
  · rw [hkey, Descriptor.withKey, List.filter_flatten]
    exact Manifest.forall₂_flatMap hparts fun _ _ h => h.describes c.name
  · obtain ⟨he, heq⟩ := List.mem_filter.mp he
    exact hr.parents c hc e he (of_decide_eq_true heq) p hp

/-- The class that an entry declares is there under its name, and the entry is among the declarations
that it is joined from. -/
theorem exists_class_ofManifests (h : ofManifests manifests settings = .ok r) {m : Manifest}
    {name : String} {e : Declaration} (hm : m ∈ manifests) (he : (name, e) ∈ m.classes) :
    ∃ t c, r.lookup .hostclass (Name.normalize name) = some t ∧ r.get? t = some c ∧
      c ∈ r.types ∧ c.kind = .hostclass ∧ c.name = Name.normalize name ∧
      e ∈ manifests.flatMap (·.declarationsOf (Name.normalize name)) := by
  have hkey : (.hostclass, Name.normalize name) ∈ r.types.map kindAndKey := by
    rw [keys_ofManifests h, List.mem_eraseDups, List.mem_flatMap]
    refine ⟨m, hm, ?_⟩
    simp only [Manifest.declaredKeys, List.mem_append]
    exact .inl (.inl (.inl (List.mem_map.mpr ⟨_, he, rfl⟩)))
  obtain ⟨c, hc, hkey⟩ := List.mem_map.mp hkey
  obtain ⟨hkind, hkey⟩ := Prod.mk.inj hkey
  obtain ⟨t, ht⟩ := List.mem_iff_getElem?.mp hc
  have hname := ((built_ofManifests h).authored c hc).key_eq_name (by simp [hkind])
  refine ⟨t, c, ?_, ht, hc, hkind, hname.symm.trans hkey, List.mem_flatMap.mpr ⟨m, hm, ?_⟩⟩
  · rw [lookup, lookupKey_normalize]
    exact (built_ofManifests h).fresh.ofKey?_eq_some.mpr ⟨c, ht, hkind, hkey⟩
  · refine List.mem_append_left _ (List.mem_map.mpr ⟨(name, e), ?_, rfl⟩)
    exact List.mem_filter.mpr ⟨he, decide_eq_true rfl⟩

/-- The registry of a site has one type for each kind and key, in the order in which they are first
declared. Each defined type and each node has one declaration. A class has the documentation and the
statements of its declarations after each other and the first parent that one of them names. -/
theorem types_ofManifests (h : ofManifests manifests settings = .ok r) :
    r.types.map kindAndKey = (manifests.flatMap Manifest.declaredKeys).eraseDups ∧
      List.Forall₂ (fun e d => e.1.defineOf e.2.1 e.2.2 = .ok d)
        (manifests.flatMap fun m => m.defines.map (m, ·)) (r.types.filter (·.kind = .define)) ∧
      List.Forall₂ (fun e d => e.1.nodeOf e.2.1 e.2.2 = .ok d)
        (manifests.flatMap fun m => m.nodes.map (m, ·)) (r.types.filter (·.kind = .node)) ∧
      ∀ c ∈ r.types, c.kind = .hostclass →
        let declarations := manifests.flatMap (·.declarationsOf c.name)
        c.key = c.name ∧
          c.doc = String.join (declarations.map (·.doc)) ∧
          c.parent = (declarations.findSome? (·.inherits)).map Descriptor.parentName ∧
          ∃ blocks,
            List.Forall₂ (fun e b => Statement.blockOf e.body = .ok b)
              (declarations.filter (!·.body.isEmpty)) blocks ∧
            Body.flattened c.body = blocks.map .code := by
  refine ⟨keys_ofManifests h, ?_, ?_, fun c hc hkind => ?_⟩
  · obtain ⟨parts, hparts, hr⟩ := gathers_ofManifests h
    rw [hr.filter_kind (by simp), List.filter_flatten]
    exact Manifest.forall₂_flatMap hparts fun _ _ h => List.forall₂_map_left_iff.mpr h.defines
  · obtain ⟨parts, hparts, hr⟩ := gathers_ofManifests h
    rw [hr.filter_kind (by simp), List.filter_flatten]
    exact Manifest.forall₂_flatMap hparts fun _ _ h => List.forall₂_map_left_iff.mpr h.nodes
  · obtain ⟨ds, hds, hjoined, -⟩ := class_ofManifests h hc hkind
    obtain ⟨blocks, hblocks, hparts⟩ := Declaration.blocks_of_describes hds
    refine ⟨((built_ofManifests h).authored c hc).key_eq_name (by simp [hkind]), ?_, ?_, blocks,
      hblocks, ?_⟩
    · rw [hjoined.doc, Declaration.docs_of_describes hds]
    · rw [hjoined.parent, Declaration.parent_of_describes hds]
    · rw [hjoined.body, hparts]

/-- Two manifests that declare one class under different spellings of its name, and the unnamed class
by top-level statements and by an entry. -/
def spreadSite : List Manifest :=
  [{ classes := [("Web", { inherits := some "Base", doc := "a", body := [.includes ["base"]] }),
      ("base", {})]
     main := [.includes ["web"]]
     defines := [("vhost", {})]
     nodes := [("/db/", {})] },
   { classes := [("::web", { doc := "b", body := [.set [("x", .null)]] }), ("", { doc := "c" })]
     main := [.includes ["base"]]
     nodes := [("web01", {})] }]

theorem types_ofManifests_spreadSite : ∃ r, ofManifests spreadSite {} = .ok r ∧
    r.types.map kindAndKey = [(.hostclass, "web"), (.hostclass, "base"), (.hostclass, ""),
      (.define, "vhost"), (.node, "/db/"), (.node, "web01")] ∧
    (r.types.filter (·.kind = .node)).length = 2 ∧
    ∀ c ∈ r.types, c.kindAndKey = (.hostclass, "web") → c.doc = "ab" ∧ c.parent = some "base" ∧
      Body.flattened c.body =
        [.code (.block [.includes ["base"]]),
          .code (.block [.block [.assign "x" (.literal .undefined)]])] := by
  have hsite : (ofManifests spreadSite {}).toOption.isSome = true := by decide +kernel
  obtain ⟨r, hr⟩ := Option.isSome_iff_exists.mp hsite
  have hr := eq_ok_of_toOption hr
  obtain ⟨hkeys, -, hnodes, hclasses⟩ := types_ofManifests hr
  refine ⟨r, hr, hkeys.trans (by decide +kernel), hnodes.length_eq.symm, fun c hc hkey => ?_⟩
  obtain ⟨hname, hdoc, hparent, blocks, hblocks, hbody⟩ :=
    hclasses c hc (congrArg Prod.fst hkey)
  have hweb : c.name = "web" := hname.symm.trans (congrArg Prod.snd hkey)
  have hdeclarations : spreadSite.flatMap (·.declarationsOf "web") =
      [{ inherits := some "Base", doc := "a", body := [.includes ["base"]] },
        { doc := "b", body := [.set [("x", .null)]] }] := by rfl
  rw [hweb, hdeclarations] at hdoc hparent hblocks
  refine ⟨hdoc, hparent.trans (by decide +kernel), hbody.trans ?_⟩
  cases hblocks with
  | cons h hblocks =>
    cases hblocks with
    | cons h' hblocks =>
      cases hblocks
      cases h
      cases h'
      rfl

end Registry

end SiteCatalog
