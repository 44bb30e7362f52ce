import Mathlib.Logic.Equiv.Defs
import SiteCatalog.CatalogDocument
import SiteCatalog.Compilation.Phases
import SiteCatalog.Proofs.Compilation.Bodies
import SiteCatalog.Proofs.Scopes

/-!
# Types in other places

Two registries may hold the same types in different places. A permutation `σ` of the places takes
the states of a compilation over the one to states of a compilation over the other: it renames the
types that scopes and resources come from, and changes nothing else.

Results:
* `Registry.nodeFor_eq`: the node for a host, by the first type that has a property.
* `Registry.Corresponds`: two registries hold the same types, up to `σ` and to what their bodies
  look like.
* `Registry.Corresponds.cache`, `Registry.Corresponds.append`: what a compilation does to its types.
* `Scopes.rename`, `Catalog.rename`: the same scopes and the same catalog, up to `σ`.
-/

namespace SiteCatalog

/-! ## The first type with a property -/

namespace Registry

variable {r : Registry}

/-- Whether a type is a node with a pattern that fits one of several names. -/
def IsFitting (names : List String) (d : Descriptor) : Bool :=
  d.kind = .node && d.pattern.isSome && names.any d.fits

theorem isFitting_of_foundLike {names : List String} {d e : Descriptor} (h : d.FoundLike e) :
    IsFitting names d = IsFitting names e := by
  rw [IsFitting, IsFitting, h.kind, h.pattern, h.fits]

theorem find?_idsOf (r : Registry) (names : List String) :
    (r.idsOf .node).find? (r.patternFits names) = r.types.findIdx? (IsFitting names) := by
  have hfit : ∀ (t : ℕ) (ht : t < r.types.length),
      decide ((r.get? t).any (·.kind = .node) ∧ r.patternFits names t) =
        IsFitting names r.types[t] := by
    intro t ht
    rw [patternFits, get?, List.getElem?_eq_getElem ht, Option.any_some, Option.any_some, IsFitting,
      Bool.eq_iff_iff, decide_eq_true_eq, Bool.and_assoc, Bool.and_eq_true]
    exact ⟨fun h => h.2, fun h => ⟨h.1, h⟩⟩
  ext t
  rw [idsOf, List.find?_filter, List.find?_range_eq_some, List.findIdx?_eq_some_iff_getElem,
    List.mem_range]
  constructor
  · rintro ⟨ht, hlt, hbefore⟩
    refine ⟨hlt, by rw [← hfit t hlt]; exact ht, fun j hj => ?_⟩
    rw [← hfit j (hj.trans hlt), Bool.not_eq_true]
    exact (Bool.not_eq_true' _).mp (hbefore j hj)
  · rintro ⟨hlt, ht, hbefore⟩
    refine ⟨by rw [hfit t hlt]; exact ht, hlt, fun j hj => ?_⟩
    rw [hfit j (hj.trans hlt), Bool.not_eq_true', ← Bool.not_eq_true]
    exact hbefore j hj

theorem nodeFor_eq (r : Registry) (names : List String) :
    r.nodeFor names = match names.findSome? (r.lookup .node) with
      | some id => some id
      | none =>
        match r.types.findIdx? (IsFitting names) with
        | some id => some id
        | none => r.lookup .node "default" := by
  rw [nodeFor, find?_idsOf]
  rfl

end Registry

/-! ## Corresponding types -/

open Compilation (SameBody)

/-- The same type, with its parent where `σ` sends it and perhaps with another body that does the
same. -/
def Descriptor.Corresponds (σ : Equiv.Perm ℕ) (d d' : Descriptor) : Prop :=
  ∃ body file, SameBody d.body body ∧ d' = { d with body, file, resolved := d.resolved.map σ }

theorem Descriptor.Corresponds.self {σ : Equiv.Perm ℕ} {d : Descriptor}
    (h : d.resolved.map σ = d.resolved) : d.Corresponds σ d :=
  ⟨d.body, d.file, .refl _, by rw [h]⟩

/-- The parent of the type is not known. -/
theorem Descriptor.Corresponds.of_unresolved {σ : Equiv.Perm ℕ} {d : Descriptor}
    (h : d.resolved = none) : d.Corresponds σ d :=
  .self (by rw [h]; rfl)

theorem Descriptor.Corresponds.foundLike {σ : Equiv.Perm ℕ} {d d' : Descriptor}
    (h : d.Corresponds σ d') : d'.FoundLike d := by
  obtain ⟨body, file, -, rfl⟩ := h
  exact ⟨rfl, rfl, rfl⟩

theorem Descriptor.Corresponds.trans {σ τ : Equiv.Perm ℕ} {d d' d'' : Descriptor}
    (h : d.Corresponds σ d') (h' : d'.Corresponds τ d'') : d.Corresponds (σ.trans τ) d'' := by
  obtain ⟨body, file, hbody, rfl⟩ := h
  obtain ⟨body', file', hbody', rfl⟩ := h'
  exact ⟨body', file', hbody.trans hbody', by rw [Option.map_map]; rfl⟩

namespace Registry

variable {σ : Equiv.Perm ℕ} {r r' : Registry} {kind : Kind}

/-- The types of one registry are those of another, at the places to which `σ` sends them, and they
are found in the same way. -/
structure Corresponds (σ : Equiv.Perm ℕ) (r r' : Registry) : Prop where
  length : r'.types.length = r.types.length
  fixed : ∀ t, r.types.length ≤ t → σ t = t
  entry : ∀ t, Option.Rel (Descriptor.Corresponds σ) (r.get? t) (r'.get? (σ t))
  ofKey? : ∀ kind key, r'.ofKey? kind key = (r.ofKey? kind key).map σ
  fitting : ∀ names, r'.types.findIdx? (IsFitting names) =
    (r.types.findIdx? (IsFitting names)).map σ

namespace Corresponds

theorem refl (r : Registry) : r.Corresponds (.refl ℕ) r where
  length := rfl
  fixed := fun _ _ => rfl
  entry := by
    intro t
    show Option.Rel _ (r.get? t) (r.get? t)
    cases r.get? t with
    | none => exact .none
    | some d => exact .some (.self (by simp))
  ofKey? := by simp
  fitting := by simp

theorem trans {τ : Equiv.Perm ℕ} {r'' : Registry} (h : r.Corresponds σ r')
    (h' : r'.Corresponds τ r'') : r.Corresponds (σ.trans τ) r'' where
  length := h'.length.trans h.length
  fixed := fun t ht => by
    rw [Equiv.trans_apply, h.fixed t ht, h'.fixed t (h.length ▸ ht)]
  entry := by
    intro t
    have hfirst := h.entry t
    have hsecond := h'.entry (σ t)
    rw [Equiv.trans_apply]
    generalize r.get? t = o, r'.get? (σ t) = o', r''.get? (τ (σ t)) = o'' at hfirst hsecond
    cases hfirst with
    | none =>
      cases hsecond with
      | none => exact .none
    | some hd =>
      cases hsecond with
      | some hd' => exact .some (hd.trans hd')
  ofKey? := fun kind key => by
    rw [h'.ofKey?, h.ofKey?, Option.map_map]
    rfl
  fitting := fun names => by
    rw [h'.fitting, h.fitting, Option.map_map]
    rfl

theorem lookup (h : r.Corresponds σ r') (name : String) :
    r'.lookup kind name = (r.lookup kind name).map σ :=
  h.ofKey? kind _

theorem find (h : r.Corresponds σ r') (space name : String) :
    r'.find kind space name = (r.find kind space name).map σ := by
  have houter : (fun outer => r'.lookup kind (outer ++ "::" ++ name)) =
      Option.map σ ∘ fun outer => r.lookup kind (outer ++ "::" ++ name) :=
    funext fun outer => h.lookup _
  unfold Registry.find
  split
  · exact h.lookup name
  · dsimp only
    rw [houter, ← List.map_findSome?]
    cases List.findSome? _ _ with
    | none => exact h.lookup name
    | some id => rfl

theorem nodeFor (h : r.Corresponds σ r') (names : List String) :
    r'.nodeFor names = (r.nodeFor names).map σ := by
  have hliteral : r'.lookup .node = Option.map σ ∘ r.lookup .node :=
    funext fun name => h.lookup name
  rw [nodeFor_eq, nodeFor_eq, hliteral, ← List.map_findSome?, h.fitting]
  cases names.findSome? (r.lookup .node) with
  | some id => rfl
  | none =>
    cases r.types.findIdx? (IsFitting names) with
    | some id => rfl
    | none => rfl

theorem isEmpty_idsOf (h : r.Corresponds σ r') (kind : Kind) :
    (r'.idsOf kind).isEmpty = (r.idsOf kind).isEmpty := by
  have hnone : ∀ r : Registry, (r.idsOf kind).isEmpty ↔
      ∀ t, ¬(r.get? t).any (·.kind = kind) := by
    intro r
    rw [List.isEmpty_iff, idsOf, List.filter_eq_nil_iff]
    refine forall_congr' fun t => ⟨fun ht hany => ?_, fun ht _ => ht⟩
    obtain ⟨d, hd, -⟩ := Option.any_eq_true .. |>.mp hany
    exact ht (List.mem_range.mpr (lt_length_of_get? hd)) hany
  have hany : ∀ t, (r'.get? (σ t)).any (·.kind = kind) = (r.get? t).any (·.kind = kind) := by
    intro t
    have hrel := h.entry t
    generalize r.get? t = o, r'.get? (σ t) = o' at hrel
    cases hrel with
    | none => rfl
    | some hd =>
      obtain ⟨body, file, -, rfl⟩ := hd
      rfl
  rw [Bool.eq_iff_iff, hnone, hnone]
  refine ⟨fun ht t => ?_, fun ht t => ?_⟩
  · rw [← hany]
    exact ht (σ t)
  · have := hany (σ.symm t)
    rw [Equiv.apply_symm_apply] at this
    rw [this]
    exact ht _

/-- Corresponding types are changed in corresponding ways, but not in what they are found by. -/
theorem modify (h : r.Corresponds σ r') {t : TypeId} {f f' : Descriptor → Descriptor}
    (hf : ∀ d, (f d).FoundLike d) (hf' : ∀ d, (f' d).FoundLike d)
    (hrel : ∀ d d', r.get? t = some d → r'.get? (σ t) = some d' → d.Corresponds σ d' →
      (f d).Corresponds σ (f' d')) :
    (r.modify t f).Corresponds σ (r'.modify (σ t) f') where
  length := by rw [length_modify, length_modify, h.length]
  fixed := by
    rw [length_modify]
    exact h.fixed
  entry := by
    intro x
    rw [get?_modify, get?_modify]
    have hentry := h.entry x
    by_cases hx : x = t
    · rw [if_pos hx, if_pos (congrArg σ hx)]
      rw [← hx] at hrel
      generalize r.get? x = o, r'.get? (σ x) = o' at hentry hrel
      cases hentry with
      | none => exact .none
      | some hd => exact .some (hrel _ _ rfl rfl hd)
    · rw [if_neg hx, if_neg fun heq => hx (σ.injective heq)]
      exact hentry
  ofKey? := fun kind key => by
    rw [ofKey?_modify hf', ofKey?_modify hf]
    exact h.ofKey? kind key
  fitting := fun names => by
    rw [findIdx?_modify r' _ fun d => isFitting_of_foundLike (hf' d),
      findIdx?_modify r _ fun d => isFitting_of_foundLike (hf d)]
    exact h.fitting names

/-- The parent of a type becomes known. -/
theorem cache (h : r.Corresponds σ r') (t p : TypeId) :
    (r.modify t fun d => { d with resolved := d.resolved.or (some p) }).Corresponds σ
      (r'.modify (σ t) fun d => { d with resolved := d.resolved.or (some (σ p)) }) := by
  refine h.modify (fun _ => ⟨rfl, rfl, rfl⟩) (fun _ => ⟨rfl, rfl, rfl⟩) ?_
  rintro d _ - - ⟨body, file, hbody, rfl⟩
  exact ⟨body, file, hbody, by simp⟩

theorem findIdx?_append (h : r.Corresponds σ r') {p : Descriptor → Bool} {d d' : Descriptor}
    (hd : p d' = p d) (hp : r'.types.findIdx? p = (r.types.findIdx? p).map σ) :
    (r'.types ++ [d']).findIdx? p = ((r.types ++ [d]).findIdx? p).map σ := by
  have hlast : σ r.types.length = r.types.length := h.fixed _ le_rfl
  rw [List.findIdx?_append, List.findIdx?_append, hp, Option.map_or, h.length]
  congr 1
  cases hpd : p d <;> simp [hd, hpd, hlast]

/-- Corresponding types are added at the end. -/
theorem append (h : r.Corresponds σ r') {d d' : Descriptor} (hd : d.Corresponds σ d') :
    Corresponds σ { r with types := r.types ++ [d] } { r' with types := r'.types ++ [d'] } where
  length := by simp [h.length]
  fixed := by
    intro t ht
    rw [List.length_append] at ht
    exact h.fixed t (by omega)
  entry := by
    intro t
    have hlast : σ r.types.length = r.types.length := h.fixed _ le_rfl
    rw [get?_append, get?_append, h.length]
    by_cases ht : t = r.types.length
    · rw [if_pos ht, if_pos (by rw [ht, hlast])]
      exact .some hd
    · rw [if_neg ht, if_neg fun heq => ht (σ.injective (heq.trans hlast.symm))]
      exact h.entry t
  ofKey? := fun kind key =>
    h.findIdx?_append (by rw [hd.foundLike.kind, hd.foundLike.key]) (h.ofKey? kind key)
  fitting := fun names =>
    h.findIdx?_append (isFitting_of_foundLike hd.foundLike) (h.fitting names)

end Corresponds

end Registry

/-! ## Renamed scopes -/

variable {σ : Equiv.Perm ℕ}

/-- A scope, with the type that it comes from where `σ` sends it. -/
def Scope.rename (σ : Equiv.Perm ℕ) (c : Scope) : Scope :=
  { c with source := c.source.map σ }

@[simp] theorem Scope.space_rename (c : Scope) : (c.rename σ).space = c.space :=
  rfl

namespace Scopes

/-- The same scopes, with their types where `σ` sends them. -/
def rename (σ : Equiv.Perm ℕ) (s : Scopes) : Scopes :=
  ⟨s.arena.map (Scope.rename σ), s.ofTypes.map fun entry => (σ entry.1, entry.2)⟩

variable (s : Scopes)

@[simp] theorem get?_rename (k : ScopeId) : (s.rename σ).get? k = (s.get? k).map (Scope.rename σ) :=
  List.getElem?_map

@[simp] theorem length_rename : (s.rename σ).arena.length = s.arena.length :=
  List.length_map _

theorem ofType?_rename (t : TypeId) : (s.rename σ).ofType? (σ t) = s.ofType? t := by
  rw [ofType?, ofType?, rename]
  induction s.ofTypes with
  | nil => rfl
  | cons e rest ih =>
    obtain ⟨u, k⟩ := e
    by_cases hu : t = u
    · simp [hu]
    · have hne : (t == u) = false := beq_eq_false_iff_ne.mpr hu
      have hne' : (σ t == σ u) = false := beq_eq_false_iff_ne.mpr fun heq => hu (σ.injective heq)
      rw [List.map_cons, List.lookup_cons, List.lookup_cons, hne, hne', ih]

theorem modify_rename (k : ScopeId) {f : Scope → Scope}
    (hf : ∀ c, (f c).rename σ = f (c.rename σ)) :
    (s.modify k f).rename σ = (s.rename σ).modify k f := by
  rw [rename, modify, map_modify _ _ hf]
  rfl

theorem bind_rename (k : ScopeId) (name : String) (value : Value) :
    (s.bind k name value).rename σ = (s.rename σ).bind k name value :=
  s.modify_rename k fun _ => rfl

theorem setParent_rename (k parent : ScopeId) :
    (s.setParent k parent).rename σ = (s.rename σ).setParent k parent :=
  s.modify_rename k fun _ => rfl

theorem setOfType_rename (t : TypeId) (k : ScopeId) :
    (s.setOfType t k).rename σ = (s.rename σ).setOfType (σ t) k := by
  have hfilter : ∀ l : List (TypeId × ScopeId),
      (l.filter fun entry => entry.1 != t).map (fun entry => (σ entry.1, entry.2)) =
        (l.map fun entry => (σ entry.1, entry.2)).filter fun entry => entry.1 != σ t := by
    intro l
    rw [List.filter_map]
    congr 2
    funext e
    simp [bne]
  rw [setOfType, rename, List.map_cons, hfilter]
  rfl

theorem lookupLocal_rename (k : ScopeId) (name : String) :
    (s.rename σ).lookupLocal k name = s.lookupLocal k name := by
  rw [lookupLocal, lookupLocal, get?_rename]
  cases s.get? k <;> rfl

theorem parent?_rename : (s.rename σ).parent? = s.parent? := by
  funext k
  rw [parent?, get?_rename, parent?]
  cases s.get? k <;> rfl

theorem lookup_rename (k : ScopeId) (name : String) :
    (s.rename σ).lookup k name = s.lookup k name := by
  have hlocal : ∀ i, Option.Rel Eq (s.lookupLocal i name) ((s.rename σ).lookupLocal i name) := by
    intro i
    rw [lookupLocal_rename]
    cases s.lookupLocal i name with
    | none => exact .none
    | some v => exact .some rfl
  have hrel : Option.Rel (Option.Rel Eq) (s.lookup k name) ((s.rename σ).lookup k name) :=
    lookup_rel (P := fun _ => True) s.length_rename s.parent?_rename (fun _ _ _ _ => trivial)
      (fun i _ => hlocal i) trivial
  generalize s.lookup k name = o, (s.rename σ).lookup k name = o' at hrel
  cases hrel with
  | none => rfl
  | some hfound =>
    cases hfound with
    | none => rfl
    | some hv => rw [hv]

theorem moduleName_rename (k : ScopeId) : (s.rename σ).moduleName k = s.moduleName k := by
  refine congrFun (moduleName_congr s.length_rename s.parent?_rename fun i => ?_) k
  rw [get?_rename]
  cases s.get? i <;> rfl

theorem push_rename (c : Scope) :
    (s.push c).2.rename σ = ((s.rename σ).push (c.rename σ)).2 := by
  rw [push, rename, List.map_append]
  rfl

end Scopes

/-! ## Renamed catalogs -/

/-- A resource, with its source where `σ` sends it. -/
def Resource.rename (σ : Equiv.Perm ℕ) (r : Resource) : Resource :=
  { r with source := r.source.map σ }

@[simp] theorem Resource.source_rename (r : Resource) :
    (r.rename σ).source = r.source.map σ :=
  rfl

namespace Catalog

/-- The same catalog, with the sources of its resources where `σ` sends them. -/
def rename (σ : Equiv.Perm ℕ) (c : Catalog) : Catalog :=
  { c with resources := c.resources.map (Resource.rename σ) }

variable (c : Catalog)

@[simp] theorem get?_rename (id : ResourceId) :
    (c.rename σ).get? id = (c.get? id).map (Resource.rename σ) :=
  List.getElem?_map

@[simp] theorem length_rename : (c.rename σ).resources.length = c.resources.length :=
  List.length_map _

theorem modify_rename (id : ResourceId) {f : Resource → Resource}
    (hf : ∀ r, (f r).rename σ = f (r.rename σ)) :
    (c.modify id f).rename σ = (c.rename σ).modify id f := by
  rw [rename, modify, map_modify _ _ hf]
  rfl

theorem any_rename {p : Resource → Bool} (hp : ∀ r, p (r.rename σ) = p r) :
    (c.rename σ).resources.any p = c.resources.any p := by
  rw [rename, List.any_map]
  exact congrArg _ (funext hp)

theorem resource?_rename (type title : String) :
    (c.rename σ).resource? type title = c.resource? type title := by
  have hidentity : ∀ r : Resource, (r.rename σ).identity = r.identity := fun _ => rfl
  rw [resource?, resource?, rename, List.findIdx?_map]
  simp only [Function.comp_def, hidentity]

theorem add_rename (r : Resource) : (c.rename σ).add (r.rename σ) =
    (c.add r).map fun x => (x.1, x.2.rename σ) := by
  have hidentity : ∀ r : Resource, (r.rename σ).identity = r.identity := fun _ => rfl
  unfold add
  rw [hidentity, any_rename c fun s => by rw [hidentity]]
  split
  · rfl
  · have happend : (c.append r).rename σ = (c.rename σ).append (r.rename σ) := by
      simp [append, rename]
    rw [length_rename, ← happend]
    rfl

theorem unevaluated_rename : (c.rename σ).unevaluated = c.unevaluated := by
  rw [unevaluated, unevaluated, length_rename]
  refine List.filter_congr fun id _ => ?_
  rw [get?_rename]
  cases c.get? id with
  | none => rfl
  | some r => simp [Resource.rename]

theorem finalize_rename : c.finalize.rename σ = (c.rename σ).finalize := by
  have hlisting : (c.rename σ).listing = c.listing := by
    rw [listing, listing, rename, List.flatMap_map]
    rfl
  rw [finalize, finalize, digest, digest, hlisting]
  rfl

theorem document_rename :
    CatalogDocument.ofCatalog (c.rename σ) = CatalogDocument.ofCatalog c := by
  rw [CatalogDocument.ofCatalog, CatalogDocument.ofCatalog, rename, List.map_map]
  rfl

end Catalog

end SiteCatalog
