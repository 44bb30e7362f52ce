import Mathlib.Data.List.Forall2
import SiteCatalog.Manifest.Collection
import SiteCatalog.Proofs.Registry

/-!
# Collecting manifests

Collecting manifests puts the types that they declare into a registry one by one: classes are joined
with it, other types are added to it. What each of these steps carries over from one registry to
another, the collection of whole manifests carries over.

Results:
* `Manifest.DeclaresAll`: the types that a manifest declares, in order.
* `Manifest.collect_iff`, `Manifest.collectAll_iff`: collecting manifests is putting what they declare
  into a registry.
* `Registry.Carries`, `Registry.Carries.collectAll`: a relation between registries that goes on to
  hold when the same manifests are collected.
* `Registry.fresh_collectAll`: the types of a site are found by different kinds and keys, and no
  manifest can name the parent of a type by its place.
* `Registry.closed_ofManifests`: the registry of a site is closed.
-/

namespace SiteCatalog

section

variable {α β : Type} {R : α → β → Prop} {as : List α} {bs : List β}

theorem exists_of_forall₂_left (h : List.Forall₂ R as bs) {a : α} (ha : a ∈ as) :
    ∃ b ∈ bs, R a b := by
  induction h with
  | nil => cases ha
  | cons hab _ ih =>
    rcases List.mem_cons.mp ha with rfl | ha
    · exact ⟨_, List.mem_cons_self, hab⟩
    · obtain ⟨b, hb, hab⟩ := ih ha
      exact ⟨b, List.mem_cons_of_mem _ hb, hab⟩

theorem exists_of_forall₂_right (h : List.Forall₂ R as bs) {b : β} (hb : b ∈ bs) :
    ∃ a ∈ as, R a b :=
  exists_of_forall₂_left (R := flip R) h.flip hb

end

theorem Declaration.describe_eq_ok {base d : Descriptor} {e : Declaration} {m : Manifest}
    (h : e.describe base m = .ok d) : ∃ parameters body,
      Declaration.parameters e.params = .ok parameters ∧ Declaration.bodyOf e.body = .ok body ∧
      d = { base with
        parent := e.inherits.map Descriptor.parentName
        parameters, body, moduleName := m.moduleName, doc := e.doc, file := m.file } := by
  obtain ⟨parameters, hparameters, h⟩ := exists_of_bind_eq_ok h
  obtain ⟨body, hbody, h⟩ := exists_of_bind_eq_ok h
  cases h
  exact ⟨parameters, body, hparameters, hbody, rfl⟩

theorem Declaration.describe_of_eq_ok (base : Descriptor) {e : Declaration} (m : Manifest)
    {parameters : Table (Option Expr)} {body : Option Body}
    (hparameters : Declaration.parameters e.params = .ok parameters)
    (hbody : Declaration.bodyOf e.body = .ok body) : e.describe base m = .ok { base with
      parent := e.inherits.map Descriptor.parentName
      parameters, body, moduleName := m.moduleName, doc := e.doc, file := m.file } :=
  (bind_of_eq_ok hparameters).trans (bind_of_eq_ok hbody)

theorem Declaration.foundLike_of_describe {base d : Descriptor} {e : Declaration} {m : Manifest}
    (h : e.describe base m = .ok d) : d.FoundLike base := by
  obtain ⟨_, _, -, -, rfl⟩ := describe_eq_ok h
  exact ⟨rfl, rfl, rfl⟩

theorem Declaration.eq_nil_of_bodyOf {statements : List Statement}
    (h : bodyOf statements = .ok none) : statements = [] := by
  unfold bodyOf at h
  split at h
  · next hempty => exact List.isEmpty_iff.mp hempty
  · obtain ⟨e, -, h⟩ := exists_of_bind_eq_ok h
    cases h

namespace Manifest

variable {m : Manifest} {name : String} {e : Declaration} {d : Descriptor}

/-! ## What a manifest declares -/

/-- A manifest declares a type. -/
inductive Declares (m : Manifest) : Descriptor → Prop
  | hostclass {name : String} {e : Declaration} {d : Descriptor} :
      (name, e) ∈ m.classes → m.classOf name e = .ok d → Declares m d
  | main {d : Descriptor} : m.mainOf? = .ok (some d) → Declares m d
  | define {name : String} {e : Declaration} {d : Descriptor} :
      (name, e) ∈ m.defines → m.defineOf name e = .ok d → Declares m d
  | node {name : String} {e : Declaration} {d : Descriptor} :
      (name, e) ∈ m.nodes → m.nodeOf name e = .ok d → Declares m d

theorem describe_of_nodeOf (h : m.nodeOf name e = .ok d) : ∃ base : Descriptor,
    base.kind = .node ∧ base.resolved = none ∧ e.describe base m = .ok d := by
  unfold nodeOf at h
  split at h
  · obtain ⟨base, hbase, h⟩ := exists_of_bind_eq_ok h
    unfold Descriptor.ofPatternSource at hbase
    split at hbase <;> cases hbase
    exact ⟨_, rfl, rfl, h⟩
  · exact ⟨_, rfl, rfl, h⟩

theorem mainOf?_eq_ok (h : m.mainOf? = .ok (some d)) : ∃ body,
    Declaration.bodyOf m.main = .ok (some body) ∧
      d = { Descriptor.ofName .hostclass "" with body := some body, file := m.file } := by
  obtain ⟨body, hbody, h⟩ := exists_of_bind_eq_ok h
  cases body with
  | none => cases h
  | some body =>
    cases h
    exact ⟨body, hbody, rfl⟩

/-- No manifest can name the parent of a type by its place. -/
theorem Declares.resolved (h : m.Declares d) : d.resolved = none := by
  cases h with
  | hostclass _ h =>
    obtain ⟨_, _, -, -, rfl⟩ := Declaration.describe_eq_ok h
    rfl
  | main h =>
    obtain ⟨_, -, rfl⟩ := mainOf?_eq_ok h
    rfl
  | define _ h =>
    obtain ⟨_, _, -, -, rfl⟩ := Declaration.describe_eq_ok h
    rfl
  | node _ h =>
    obtain ⟨_, -, hbase, h⟩ := describe_of_nodeOf h
    obtain ⟨_, _, -, -, rfl⟩ := Declaration.describe_eq_ok h
    exact hbase

/-- The types that a manifest declares, in order. -/
inductive DeclaresAll (m : Manifest) : List Descriptor → Prop
  | intro {classes defines nodes : List Descriptor} {main : Option Descriptor} :
      List.Forall₂ (fun e d => m.classOf e.1 e.2 = .ok d) m.classes classes →
      m.mainOf? = .ok main →
      List.Forall₂ (fun e d => m.defineOf e.1 e.2 = .ok d) m.defines defines →
      List.Forall₂ (fun e d => m.nodeOf e.1 e.2 = .ok d) m.nodes nodes →
      DeclaresAll m (classes ++ main.toList ++ defines ++ nodes)

theorem DeclaresAll.declares {ds : List Descriptor} (h : m.DeclaresAll ds) (hd : d ∈ ds) :
    m.Declares d := by
  cases h with
  | intro hclasses hmain hdefines hnodes =>
    simp only [List.mem_append] at hd
    rcases hd with ((hd | hd) | hd) | hd
    · obtain ⟨e, he, hd⟩ := exists_of_forall₂_right hclasses hd
      exact .hostclass he hd
    · cases Option.mem_toList.mp hd
      exact .main hmain
    · obtain ⟨e, he, hd⟩ := exists_of_forall₂_right hdefines hd
      exact .define he hd
    · obtain ⟨e, he, hd⟩ := exists_of_forall₂_right hnodes hd
      exact .node he hd

theorem kind_of_classOf (h : m.classOf name e = .ok d) : d.kind = .hostclass :=
  (Declaration.foundLike_of_describe h).kind

theorem kind_of_defineOf (h : m.defineOf name e = .ok d) : d.kind = .define :=
  (Declaration.foundLike_of_describe h).kind

theorem kind_of_nodeOf (h : m.nodeOf name e = .ok d) : d.kind = .node := by
  obtain ⟨base, hbase, -, h⟩ := describe_of_nodeOf h
  exact (Declaration.foundLike_of_describe h).kind.trans hbase

end Manifest

/-! ## Putting types into a registry -/

namespace Registry

variable {freeze : Bool} {d : Descriptor}

/-- Puts a type into a registry: a class is joined with it, another type is added to it. -/
def put (r : Registry) (freeze : Bool) (d : Descriptor) : Except CompileError (TypeId × Registry) :=
  if d.kind = .hostclass then r.mergeClass d freeze else r.add d

/-- Puts types into a registry one after the other. -/
def putAll (r : Registry) (freeze : Bool) : List Descriptor → Except CompileError Registry
  | [] => .ok r
  | d :: ds => do
    let (_, r) ← r.put freeze d
    putAll r freeze ds

theorem put_of_class (h : d.kind = .hostclass) (r : Registry) :
    r.put freeze d = r.mergeClass d freeze :=
  if_pos h

theorem put_of_ne (h : d.kind ≠ .hostclass) (r : Registry) : r.put freeze d = r.add d :=
  if_neg h

theorem putAll_append (r : Registry) (ds es : List Descriptor) :
    r.putAll freeze (ds ++ es) = r.putAll freeze ds >>= (·.putAll freeze es) := by
  induction ds generalizing r with
  | nil => rfl
  | cons d ds ih =>
    rw [List.cons_append, putAll, putAll, bind_assoc]
    exact bind_congr fun x => ih x.2

theorem putAll_append_iff {r s : Registry} {ds es : List Descriptor} :
    r.putAll freeze (ds ++ es) = .ok s ↔
      ∃ r', r.putAll freeze ds = .ok r' ∧ r'.putAll freeze es = .ok s := by
  rw [putAll_append]
  exact ⟨exists_of_bind_eq_ok, fun ⟨_, hr, hs⟩ => (bind_of_eq_ok hr).trans hs⟩

end Registry

namespace Manifest

open Registry (putAll putAll_append_iff)

variable {m : Manifest} {freeze : Bool} {r s : Registry} {entries : Table Declaration}

/-- Entries are collected by putting the types that they declare into a registry. -/
theorem entries_iff {typeOf : String → Declaration → Except CompileError Descriptor}
    {put : Registry → Descriptor → Except CompileError (TypeId × Registry)}
    {collect : Table Declaration → Registry → Except CompileError Registry}
    (hput : ∀ {name e d}, typeOf name e = .ok d → ∀ r, r.put freeze d = put r d)
    (hnil : ∀ r, collect [] r = .ok r)
    (hcons : ∀ e rest r, collect (e :: rest) r =
      typeOf e.1 e.2 >>= fun d => put r d >>= fun x => collect rest x.2) :
    collect entries r = .ok s ↔
      ∃ ds, List.Forall₂ (fun e d => typeOf e.1 e.2 = .ok d) entries ds ∧
        r.putAll freeze ds = .ok s := by
  induction entries generalizing r with
  | nil => simp [hnil, putAll]
  | cons e rest ih =>
    rw [hcons]
    constructor
    · intro h
      obtain ⟨d, hd, h⟩ := exists_of_bind_eq_ok h
      obtain ⟨x, hx, h⟩ := exists_of_bind_eq_ok h
      obtain ⟨ds, hds, hs⟩ := ih.mp h
      exact ⟨d :: ds, .cons hd hds, (bind_of_eq_ok ((hput hd r).trans hx)).trans hs⟩
    · rintro ⟨_, hds, hs⟩
      cases hds with
      | cons hd hds =>
        obtain ⟨x, hx, hs⟩ := exists_of_bind_eq_ok hs
        rw [hput hd] at hx
        exact (bind_of_eq_ok hd).trans ((bind_of_eq_ok hx).trans (ih.mpr ⟨_, hds, hs⟩))

theorem collectClasses_iff : m.collectClasses freeze entries r = .ok s ↔
    ∃ ds, List.Forall₂ (fun e d => m.classOf e.1 e.2 = .ok d) entries ds ∧
      r.putAll freeze ds = .ok s :=
  entries_iff (fun h => Registry.put_of_class (kind_of_classOf h)) (fun _ => rfl) fun _ _ _ => rfl

theorem collectDefines_iff : collectSection m.defineOf entries r = .ok s ↔
    ∃ ds, List.Forall₂ (fun e d => m.defineOf e.1 e.2 = .ok d) entries ds ∧
      r.putAll freeze ds = .ok s :=
  entries_iff (fun h => Registry.put_of_ne (by simp [kind_of_defineOf h])) (fun _ => rfl)
    fun _ _ _ => rfl

theorem collectNodes_iff : collectSection m.nodeOf entries r = .ok s ↔
    ∃ ds, List.Forall₂ (fun e d => m.nodeOf e.1 e.2 = .ok d) entries ds ∧
      r.putAll freeze ds = .ok s :=
  entries_iff (fun h => Registry.put_of_ne (by simp [kind_of_nodeOf h])) (fun _ => rfl)
    fun _ _ _ => rfl

theorem collectMain_iff : m.collectMain freeze r = .ok s ↔
    ∃ main, m.mainOf? = .ok main ∧ r.putAll freeze main.toList = .ok s := by
  constructor
  · intro h
    obtain ⟨main, hmain, h⟩ := exists_of_bind_eq_ok h
    refine ⟨main, hmain, ?_⟩
    cases main with
    | none => exact h
    | some d =>
      obtain ⟨_, -, rfl⟩ := mainOf?_eq_ok hmain
      exact h
  · rintro ⟨main, hmain, h⟩
    refine (bind_of_eq_ok hmain).trans ?_
    cases main with
    | none => exact h
    | some d =>
      obtain ⟨_, -, rfl⟩ := mainOf?_eq_ok hmain
      exact h

/-- Collecting a manifest is putting what it declares into a registry. -/
theorem collect_iff : m.collect freeze r = .ok s ↔
    ∃ ds, m.DeclaresAll ds ∧ r.putAll freeze ds = .ok s := by
  constructor
  · intro h
    obtain ⟨r₁, h₁, h⟩ := exists_of_bind_eq_ok h
    obtain ⟨r₂, h₂, h⟩ := exists_of_bind_eq_ok h
    obtain ⟨r₃, h₃, h⟩ := exists_of_bind_eq_ok h
    obtain ⟨_, hclasses, h₁⟩ := collectClasses_iff.mp h₁
    obtain ⟨_, hmain, h₂⟩ := collectMain_iff.mp h₂
    obtain ⟨_, hdefines, h₃⟩ := collectDefines_iff.mp h₃
    obtain ⟨_, hnodes, h⟩ := collectNodes_iff.mp h
    exact ⟨_, .intro hclasses hmain hdefines hnodes, putAll_append_iff.mpr
      ⟨r₃, putAll_append_iff.mpr ⟨r₂, putAll_append_iff.mpr ⟨r₁, h₁, h₂⟩, h₃⟩, h⟩⟩
  · rintro ⟨_, ⟨hclasses, hmain, hdefines, hnodes⟩, h⟩
    obtain ⟨r₃, h, h₄⟩ := putAll_append_iff.mp h
    obtain ⟨r₂, h, h₃⟩ := putAll_append_iff.mp h
    obtain ⟨r₁, h₁, h₂⟩ := putAll_append_iff.mp h
    refine (bind_of_eq_ok (collectClasses_iff.mpr ⟨_, hclasses, h₁⟩)).trans ?_
    refine (bind_of_eq_ok (collectMain_iff.mpr ⟨_, hmain, h₂⟩)).trans ?_
    refine (bind_of_eq_ok (collectDefines_iff.mpr ⟨_, hdefines, h₃⟩)).trans ?_
    exact collectNodes_iff.mpr ⟨_, hnodes, h₄⟩

/-- Collecting manifests is putting what they declare into a registry. -/
theorem collectAll_iff {manifests : List Manifest} : collectAll freeze manifests r = .ok s ↔
    ∃ parts, List.Forall₂ DeclaresAll manifests parts ∧ r.putAll freeze parts.flatten = .ok s := by
  induction manifests generalizing r with
  | nil => simp [collectAll, putAll]
  | cons m rest ih =>
    constructor
    · intro h
      obtain ⟨r', hr', h⟩ := exists_of_bind_eq_ok h
      obtain ⟨ds, hds, hr'⟩ := collect_iff.mp hr'
      obtain ⟨parts, hparts, h⟩ := ih.mp h
      exact ⟨ds :: parts, .cons hds hparts, putAll_append_iff.mpr ⟨r', hr', h⟩⟩
    · rintro ⟨_, hparts, h⟩
      cases hparts with
      | cons hds hparts =>
        obtain ⟨r', hr', h⟩ := putAll_append_iff.mp h
        exact (bind_of_eq_ok (collect_iff.mpr ⟨_, hds, hr'⟩)).trans (ih.mpr ⟨_, hparts, h⟩)

end Manifest

/-! ## Relations that are carried over -/

/-- A relation between registries goes on to hold when a type with a property is added to both or
joined with both, and what the first one accepts the second one accepts. -/
structure Registry.Carries (A : Descriptor → Prop) (freeze freeze' : Bool)
    (Q : Registry → Registry → Prop) : Prop where
  add : ∀ {d r r' x}, A d → Q r r' → r.add d = .ok x → ∃ x', r'.add d = .ok x' ∧ Q x.2 x'.2
  mergeClass : ∀ {d r r' x}, A d → Q r r' → r.mergeClass d freeze = .ok x →
    ∃ x', r'.mergeClass d freeze' = .ok x' ∧ Q x.2 x'.2

namespace Registry.Carries

variable {A : Descriptor → Prop} {freeze freeze' : Bool} {Q : Registry → Registry → Prop}
  {m : Manifest} {r r' s : Registry}

theorem of_invariant {P : Registry → Prop}
    (hadd : ∀ {d r x}, A d → P r → r.add d = .ok x → P x.2)
    (hmerge : ∀ {d r x}, A d → P r → r.mergeClass d freeze = .ok x → P x.2) :
    Carries A freeze freeze fun r r' => r' = r ∧ P r where
  add := by
    rintro d r _ x hd ⟨rfl, hr⟩ hx
    exact ⟨x, hx, rfl, hadd hd hr hx⟩
  mergeClass := by
    rintro d r _ x hd ⟨rfl, hr⟩ hx
    exact ⟨x, hx, rfl, hmerge hd hr hx⟩

theorem putAll (h : Carries A freeze freeze' Q) {ds : List Descriptor} (hA : ∀ d ∈ ds, A d)
    (hr : Q r r') (hs : r.putAll freeze ds = .ok s) :
    ∃ s', r'.putAll freeze' ds = .ok s' ∧ Q s s' := by
  induction ds generalizing r r' with
  | nil =>
    cases hs
    exact ⟨r', rfl, hr⟩
  | cons d ds ih =>
    obtain ⟨x, hx, hs⟩ := exists_of_bind_eq_ok hs
    have hd := hA d List.mem_cons_self
    have hput : ∃ x', r'.put freeze' d = .ok x' ∧ Q x.2 x'.2 := by
      by_cases hkind : d.kind = .hostclass
      · rw [put_of_class hkind] at hx ⊢
        exact h.mergeClass hd hr hx
      · rw [put_of_ne hkind] at hx ⊢
        exact h.add hd hr hx
    obtain ⟨x', hx', hr'⟩ := hput
    obtain ⟨s', hs', hq⟩ := ih (fun d hd => hA d (List.mem_cons_of_mem _ hd)) hr' hs
    exact ⟨s', (bind_of_eq_ok hx').trans hs', hq⟩

theorem collect (h : Carries A freeze freeze' Q) (hA : ∀ d, m.Declares d → A d) (hr : Q r r')
    (hs : m.collect freeze r = .ok s) : ∃ s', m.collect freeze' r' = .ok s' ∧ Q s s' := by
  obtain ⟨ds, hds, hs⟩ := Manifest.collect_iff.mp hs
  obtain ⟨s', hs', hq⟩ := h.putAll (fun d hd => hA d (hds.declares hd)) hr hs
  exact ⟨s', Manifest.collect_iff.mpr ⟨ds, hds, hs'⟩, hq⟩

theorem collectAll (h : Carries A freeze freeze' Q) {manifests : List Manifest}
    (hA : ∀ m ∈ manifests, ∀ d, m.Declares d → A d) (hr : Q r r')
    (hs : Manifest.collectAll freeze manifests r = .ok s) :
    ∃ s', Manifest.collectAll freeze' manifests r' = .ok s' ∧ Q s s' := by
  obtain ⟨parts, hparts, hs⟩ := Manifest.collectAll_iff.mp hs
  have hdeclared : ∀ d ∈ parts.flatten, A d := by
    intro d hd
    obtain ⟨ds, hds, hd⟩ := List.mem_flatten.mp hd
    obtain ⟨m, hm, hds⟩ := exists_of_forall₂_right hparts hds
    exact hA m hm d (hds.declares hd)
  obtain ⟨s', hs', hq⟩ := h.putAll hdeclared hr hs
  exact ⟨s', Manifest.collectAll_iff.mpr ⟨parts, hparts, hs'⟩, hq⟩

end Registry.Carries

/-! ## The registry of a site -/

namespace Registry

/-- A registry as it is before a compilation: its types are found by different kinds and keys, and
nobody has looked up their parents. -/
structure Fresh (r : Registry) : Prop where
  distinct : (r.types.map Descriptor.kindAndKey).Nodup
  unresolved : ∀ d ∈ r.types, d.resolved = none

namespace Fresh

variable {r : Registry} {t u : TypeId} {d e : Descriptor} {x : TypeId × Registry} {freeze : Bool}

/-- A type is found by its kind and key alone. -/
theorem eq_of_kindAndKey_eq (hr : r.Fresh) (hd : r.get? t = some d) (he : r.get? u = some e)
    (h : d.kindAndKey = e.kindAndKey) : t = u := by
  have hlt : t < (r.types.map Descriptor.kindAndKey).length := by
    rw [List.length_map]
    exact lt_length_of_get? hd
  refine (List.getElem?_inj hlt hr.distinct).mp ?_
  rw [List.getElem?_map, List.getElem?_map, ← get?, ← get?, hd, he]
  exact congrArg some h

theorem ofKey?_eq_some (hr : r.Fresh) {kind : Kind} {key : String} :
    r.ofKey? kind key = some t ↔ ∃ d, r.get? t = some d ∧ d.kind = kind ∧ d.key = key := by
  refine ⟨get?_of_ofKey?, fun ⟨d, hd, hkind, hkey⟩ => ?_⟩
  cases hfound : r.ofKey? kind key with
  | none =>
    exact absurd (Prod.ext hkind hkey) (ofKey?_eq_none.mp hfound d (List.mem_of_getElem? hd))
  | some u =>
    obtain ⟨e, he, hkind', hkey'⟩ := get?_of_ofKey? hfound
    rw [hr.eq_of_kindAndKey_eq he hd
      (Prod.ext (hkind'.trans hkind.symm) (hkey'.trans hkey.symm))]

theorem add (hr : r.Fresh) (hd : d.resolved = none) (h : r.add d = .ok x) : x.2.Fresh := by
  have hnew := ofKey?_of_add h
  rw [add_eq_ok h]
  refine ⟨?_, fun e he => ?_⟩
  · rw [List.map_append, List.nodup_append]
    refine ⟨hr.distinct, List.nodup_singleton _, ?_⟩
    rintro _ he _ hd' rfl
    obtain ⟨e, he, heq⟩ := List.mem_map.mp he
    exact ofKey?_eq_none.mp hnew e he (heq.trans (List.mem_singleton.mp hd'))
  · rcases List.mem_append.mp he with he | he
    · exact hr.unresolved e he
    · rw [List.mem_singleton.mp he]
      exact hd

theorem mergeClass (hr : r.Fresh) (hd : d.resolved = none) (h : r.mergeClass d freeze = .ok x) :
    x.2.Fresh := by
  obtain ⟨-, -, h⟩ | ⟨t, target, -, -, -, rfl⟩ := mergeClass_eq_ok h
  · exact hr.add hd h
  · refine ⟨?_, forall_mem_modify hr.unresolved fun e he => he⟩
    rw [map_types_modify fun e => (e.foundLike_joined d).kindAndKey]
    exact hr.distinct

theorem carries (freeze : Bool) :
    Carries (·.resolved = none) freeze freeze fun r r' => r' = r ∧ r.Fresh :=
  .of_invariant (fun hd hr h => hr.add hd h) (fun hd hr h => hr.mergeClass hd h)

theorem empty (environment : String) : (Registry.empty environment).Fresh :=
  ⟨List.nodup_nil, fun _ h => nomatch h⟩

end Fresh

theorem fresh_collectAll {manifests : List Manifest} {r s : Registry} {freeze : Bool} (hr : r.Fresh)
    (h : Manifest.collectAll freeze manifests r = .ok s) : s.Fresh := by
  obtain ⟨_, -, -, hs⟩ := (Fresh.carries freeze).collectAll
    (fun _ _ _ hd => hd.resolved) ⟨rfl, hr⟩ h
  exact hs

/-- The registry of a site names only types that exist. -/
theorem closed_ofManifests {manifests : List Manifest} {settings : Settings} {r : Registry}
    (h : Registry.ofManifests manifests settings = .ok r) : r.Closed :=
  closed_of_unresolved (fresh_collectAll (.empty settings.environment) h).unresolved

end Registry

end SiteCatalog
