import SiteCatalog.Proofs.Identities

/-!
# Gathering declarations

A registry that types are added to and classes are joined with one after the other has one type for
each kind and key that was declared. A class is joined from its declarations: it has everything that
these say in their documentation and bodies, the first parent that one of them names, and is
otherwise as in the first one.

Results:
* `Descriptor.JoinedFrom`, `Descriptor.joinedFrom_of_joinAll`: what is kept of the declarations of a
  class.
* `Registry.Gathers`: a registry holds what has been declared so far; `Registry.Gathers.add` and
  `Registry.Gathers.mergeClass` are the steps, and `Registry.Gathers.putAll` is a run of them.
-/

namespace SiteCatalog

open Descriptor (kindAndKey)

/-! ## Declarations after each other -/

/-- The bodies that an optional body consists of. -/
def Body.flattened : Option Body → List Body
  | some b => b.parts
  | none => []

theorem Body.flattened_joinBodies (b c : Option Body) :
    flattened (Descriptor.joinBodies b c) = flattened b ++ flattened c := by
  cases b with
  | none => rfl
  | some b =>
    cases c with
    | none => exact (List.append_nil _).symm
    | some c => rfl

namespace Descriptor

variable {d e : Descriptor} {ds : List Descriptor}

/-- The first declaration of a type with all others joined to it. -/
def joinAll : List Descriptor → Option Descriptor
  | [] => none
  | first :: rest => some (rest.foldl joined first)

theorem joinAll_concat (h : joinAll ds = some d) (e : Descriptor) :
    joinAll (ds ++ [e]) = some (d.joined e) := by
  cases ds with
  | nil => cases h
  | cons first rest =>
    cases h
    exact congrArg some (List.foldl_append ..)

/-- What is kept of the declarations that are joined: all documentation and bodies, the first parent,
and everything else of the first declaration. -/
structure JoinedFrom (d : Descriptor) (ds : List Descriptor) : Prop where
  first : ∃ e, ds.head? = some e ∧ d = { e with parent := d.parent, doc := d.doc, body := d.body }
  doc : d.doc = String.join (ds.map (·.doc))
  parent : d.parent = ds.findSome? (·.parent)
  body : Body.flattened d.body = ds.flatMap fun e => Body.flattened e.body

theorem JoinedFrom.concat (h : d.JoinedFrom ds) (e : Descriptor) :
    (d.joined e).JoinedFrom (ds ++ [e]) where
  first := by
    obtain ⟨f, hf, hd⟩ := h.first
    refine ⟨f, by rw [List.head?_append, hf]; rfl, ?_⟩
    rw [joined, hd]
  doc := by
    rw [List.map_append, String.join, List.foldl_append]
    exact congrArg (· ++ e.doc) h.doc
  parent := by
    rw [List.findSome?_append, ← h.parent, List.findSome?_singleton]
    rfl
  body := by
    rw [List.flatMap_append, ← h.body, List.flatMap_singleton]
    exact Body.flattened_joinBodies ..

theorem joinedFrom_of_joinAll (h : joinAll ds = some d) : d.JoinedFrom ds := by
  induction ds using List.reverseRecOn generalizing d with
  | nil => cases h
  | append_singleton ds e ih =>
    cases ds with
    | nil =>
      cases h
      exact ⟨⟨_, rfl, rfl⟩, by simp, by simp, by simp⟩
    | cons first rest =>
      rw [joinAll_concat (d := rest.foldl joined first) rfl] at h
      cases h
      exact (ih rfl).concat e

end Descriptor

/-! ## Gathering declarations -/

namespace Descriptor.Authored

variable {d : Descriptor}

theorem key_eq_name (h : d.Authored) (hk : d.kind ≠ .node) : d.key = d.name := by
  rw [key, h.pattern_eq_none hk]

theorem exists_name (h : d.Authored) (hk : d.kind ≠ .node) : ∃ name, d.name = Name.normalize name := by
  rcases h.found with ⟨kind, name, hlike⟩ | ⟨p, hlike⟩
  · exact ⟨name, hlike.name⟩
  · exact absurd hlike.kind hk

/-- A class is found under its own name. -/
theorem lookupKey_name (h : d.Authored) (hk : d.kind = .hostclass) :
    Registry.lookupKey d.name = d.key := by
  have hnode : d.kind ≠ .node := fun hnode => nomatch hk.symm.trans hnode
  obtain ⟨name, hname⟩ := h.exists_name hnode
  rw [h.key_eq_name hnode, hname, Registry.lookupKey_normalize]

end Descriptor.Authored

section

variable {α : Type} {l : List α} {a : α}

theorem eraseDups_concat_of_not_mem [BEq α] [LawfulBEq α] (h : a ∉ l) :
    (l ++ [a]).eraseDups = l.eraseDups ++ [a] := by
  rw [List.eraseDups_append, List.removeAll, List.filter_cons_of_pos (by simpa using h)]
  rfl

theorem eraseDups_concat_of_mem [BEq α] [LawfulBEq α] (h : a ∈ l) :
    (l ++ [a]).eraseDups = l.eraseDups := by
  rw [List.eraseDups_append, List.removeAll, List.filter_cons_of_neg (by simpa using h)]
  exact List.append_nil _

/-- A change of one entry to another is not seen by a test that neither of them passes. -/
theorem filter_modify_of_neg {p : α → Bool} {i : ℕ} {f : α → α} (ha : l[i]? = some a)
    (hp : p a = false) (hf : p (f a) = false) : (l.modify i f).filter p = l.filter p := by
  obtain ⟨hi, rfl⟩ := List.getElem?_eq_some_iff.mp ha
  conv_rhs => rw [← List.take_append_drop i l, List.drop_eq_getElem_cons hi]
  rw [List.modify_eq_take_cons_drop hi, List.filter_append, List.filter_append,
    List.filter_cons_of_neg (by simp [hf]), List.filter_cons_of_neg (by simp [hp])]

end

/-- The types among others that have a kind and a key. -/
def Descriptor.withKey (ds : List Descriptor) (k : Kind × String) : List Descriptor :=
  ds.filter (·.kindAndKey = k)

namespace Descriptor

variable {d : Descriptor} {ds : List Descriptor} {k : Kind × String}

theorem withKey_append (ds es : List Descriptor) (k : Kind × String) :
    withKey (ds ++ es) k = withKey ds k ++ withKey es k :=
  List.filter_append ..

theorem withKey_singleton_of_eq (h : d.kindAndKey = k) : withKey [d] k = [d] :=
  List.filter_cons_of_pos (decide_eq_true h)

theorem withKey_eq_nil (h : ∀ d ∈ ds, d.kindAndKey ≠ k) : withKey ds k = [] :=
  List.filter_eq_nil_iff.mpr fun d hd => by simpa using h d hd

theorem withKey_filter_kind (ds : List Descriptor) (k : Kind × String) :
    withKey (ds.filter (·.kind = k.1)) k = withKey ds k := by
  rw [withKey, List.filter_filter]
  refine List.filter_congr fun d _ => (Bool.eq_self_and.mpr fun h => ?_).symm
  exact decide_eq_true (congrArg Prod.fst (of_decide_eq_true h))

theorem withKey_concat_of_eq (h : d.kindAndKey = k) :
    withKey (ds ++ [d]) k = withKey ds k ++ [d] := by
  rw [withKey_append, withKey_singleton_of_eq h]

theorem withKey_concat_of_ne (h : d.kindAndKey ≠ k) : withKey (ds ++ [d]) k = withKey ds k := by
  have hnone : withKey [d] k = [] := withKey_eq_nil fun e he => List.mem_singleton.mp he ▸ h
  rw [withKey_append, hnone, List.append_nil]

end Descriptor

namespace Registry

variable {r : Registry} {d : Descriptor} {all : List Descriptor} {x : TypeId × Registry}
  {freeze : Bool}

/-- After a change to one type, the others have other kinds and keys. -/
theorem Fresh.mem_modify (hr : r.Fresh) {t : TypeId} {c target : Descriptor}
    {f : Descriptor → Descriptor} (htarget : r.get? t = some target)
    (hc : c ∈ (r.modify t f).types) :
    c = f target ∨ c ∈ r.types ∧ c.kindAndKey ≠ target.kindAndKey := by
  obtain ⟨i, hi⟩ := List.mem_iff_getElem?.mp hc
  change (r.modify t f).get? i = some c at hi
  rw [get?_modify] at hi
  split at hi
  · next hit =>
    rw [hit, htarget] at hi
    exact .inl (Option.some.inj hi).symm
  · next hit =>
    exact .inr ⟨List.mem_of_getElem? hi, fun heq => hit (hr.eq_of_kindAndKey_eq hi htarget heq)⟩

/-- A registry holds what has been declared so far. -/
structure Gathers (r : Registry) (all : List Descriptor) : Prop extends r.Fresh where
  /-- There is one type for each kind and key, where these were first declared. -/
  keys : r.types.map kindAndKey = (all.map kindAndKey).eraseDups
  /-- A class is joined from its declarations. -/
  classes : ∀ c ∈ r.types, c.kind = .hostclass →
    Descriptor.joinAll (Descriptor.withKey all c.kindAndKey) = some c
  /-- The declarations of a class name one parent at most. -/
  parents : ∀ c ∈ r.types, ∀ e ∈ all, e.kindAndKey = c.kindAndKey → ∀ p, e.parent = some p →
    ∃ q, c.parent = some q ∧ Name.normalize q = Name.normalize p
  /-- Other types are declared once. -/
  others : r.types.filter (·.kind ≠ .hostclass) = all.filter (·.kind ≠ .hostclass)

namespace Gathers

theorem empty (environment : String) : (Registry.empty environment).Gathers [] where
  toFresh := .empty environment
  keys := rfl
  classes := fun _ h => nomatch h
  parents := fun _ h => nomatch h
  others := rfl

theorem not_mem_of_ofKey? (h : r.Gathers all) (hnew : r.ofKey? d.kind d.key = none) :
    ∀ e ∈ all, e.kindAndKey ≠ d.kindAndKey := by
  intro e he heq
  have hmem : d.kindAndKey ∈ (all.map kindAndKey).eraseDups :=
    List.mem_eraseDups.mpr (heq ▸ List.mem_map_of_mem he)
  rw [← h.keys] at hmem
  obtain ⟨f, hf, hkey⟩ := List.mem_map.mp hmem
  exact ofKey?_eq_none.mp hnew f hf hkey

/-- Types that are not classes are declared once each. -/
theorem filter_kind (h : r.Gathers all) {k : Kind} (hk : k ≠ .hostclass) :
    r.types.filter (·.kind = k) = all.filter (·.kind = k) := by
  have hothers : ∀ ds : List Descriptor,
      (ds.filter (·.kind ≠ .hostclass)).filter (·.kind = k) = ds.filter (·.kind = k) := by
    intro ds
    rw [List.filter_filter]
    refine List.filter_congr fun d _ => (Bool.eq_self_and.mpr fun hd => ?_).symm
    exact decide_eq_true (of_decide_eq_true hd ▸ hk)
  rw [← hothers, h.others, hothers]

/-- A type is declared for the first time. -/
theorem add (h : r.Gathers all) (hd : d.Authored) (hx : r.add d = .ok x) :
    x.2.Gathers (all ++ [d]) := by
  have hnew := h.not_mem_of_ofKey? (ofKey?_of_add hx)
  have hold : ∀ c ∈ r.types, d.kindAndKey ≠ c.kindAndKey :=
    fun c hc heq => ofKey?_eq_none.mp (ofKey?_of_add hx) c hc heq.symm
  have hfresh := h.toFresh.add hd.resolved hx
  rw [add_eq_ok hx] at hfresh ⊢
  refine ⟨hfresh, ?_, fun c hc hkind => ?_, fun c hc e he heq p hp => ?_, ?_⟩
  · have hkey : d.kindAndKey ∉ all.map kindAndKey := by
      rw [List.mem_map]
      rintro ⟨e, he, heq⟩
      exact hnew e he heq
    rw [List.map_append, List.map_append, h.keys]
    exact (eraseDups_concat_of_not_mem hkey).symm
  · rcases List.mem_append.mp hc with hc | hc
    · rw [Descriptor.withKey_concat_of_ne (hold c hc)]
      exact h.classes c hc hkind
    · cases List.mem_singleton.mp hc
      rw [Descriptor.withKey_concat_of_eq rfl, Descriptor.withKey_eq_nil hnew]
      rfl
  · rcases List.mem_append.mp hc with hc | hc <;> rcases List.mem_append.mp he with he | he
    · exact h.parents c hc e he heq p hp
    · cases List.mem_singleton.mp he
      exact absurd heq (hold c hc)
    · cases List.mem_singleton.mp hc
      exact absurd heq (hnew e he)
    · cases List.mem_singleton.mp he
      cases List.mem_singleton.mp hc
      exact ⟨p, hp, rfl⟩
  · rw [List.filter_append, List.filter_append, h.others]

/-- The parent of a class is named by its declarations, and a further one agrees with it. -/
theorem parents_joined (h : r.Gathers all) {c e : Descriptor} {p : String} (hc : c ∈ r.types)
    (hconflict : c.conflict? d freeze = none) (he : e ∈ all ++ [d])
    (heq : e.kindAndKey = c.kindAndKey) (hp : e.parent = some p) :
    ∃ q, (c.joined d).parent = some q ∧ Name.normalize q = Name.normalize p := by
  obtain ⟨-, -, -, hagree⟩ := Descriptor.conflict?_eq_none.mp hconflict
  rcases List.mem_append.mp he with he | he
  · obtain ⟨q, hq, hnormal⟩ := h.parents c hc e he heq p hp
    exact ⟨q, by rw [Descriptor.joined, hq]; rfl, hnormal⟩
  · cases List.mem_singleton.mp he
    cases hq : c.parent with
    | none => exact ⟨p, by rw [Descriptor.joined, hq, hp]; rfl, rfl⟩
    | some q => exact ⟨q, by rw [Descriptor.joined, hq]; rfl, hagree q p hq hp⟩

/-- A class is declared, perhaps again. -/
theorem mergeClass (h : r.Gathers all) (hd : d.Authored) (hx : r.mergeClass d freeze = .ok x) :
    x.2.Gathers (all ++ [d]) := by
  obtain ⟨-, -, hx⟩ | ⟨t, target, hlookup, htarget, hconflict, rfl⟩ := mergeClass_eq_ok hx
  · exact h.add hd hx
  have hfresh := h.toFresh.mergeClass hd.resolved hx
  obtain ⟨htk, hdk, -, -⟩ := Descriptor.conflict?_eq_none.mp hconflict
  have hmem : target ∈ r.types := List.mem_of_getElem? htarget
  have hsame : d.kindAndKey = target.kindAndKey := by
    obtain ⟨target', htarget', hk, hk'⟩ := get?_of_ofKey? hlookup
    cases htarget.symm.trans htarget'
    exact Prod.ext (hdk.trans hk.symm) ((hd.lookupKey_name hdk).symm.trans hk'.symm)
  have hjoined : (target.joined d).kindAndKey = target.kindAndKey :=
    (target.foundLike_joined d).kindAndKey
  refine ⟨hfresh, ?_, fun c hc hkind => ?_, fun c hc e he heq p hp => ?_, ?_⟩
  · have hold : d.kindAndKey ∈ all.map kindAndKey := by
      rw [← List.mem_eraseDups, ← h.keys, hsame]
      exact List.mem_map_of_mem hmem
    rw [map_types_modify fun e => (e.foundLike_joined d).kindAndKey, h.keys, List.map_append]
    exact (eraseDups_concat_of_mem hold).symm
  · rcases h.toFresh.mem_modify htarget hc with rfl | ⟨hc, hne⟩
    · rw [hjoined, Descriptor.withKey_concat_of_eq hsame]
      exact Descriptor.joinAll_concat (h.classes target hmem htk) d
    · rw [Descriptor.withKey_concat_of_ne fun heq => hne (heq.symm.trans hsame)]
      exact h.classes c hc hkind
  · rcases h.toFresh.mem_modify htarget hc with rfl | ⟨hc, hne⟩
    · exact h.parents_joined hmem hconflict he (heq.trans hjoined) hp
    · rcases List.mem_append.mp he with he | he
      · exact h.parents c hc e he heq p hp
      · cases List.mem_singleton.mp he
        exact absurd (heq.symm.trans hsame) hne
  · rw [List.filter_append, ← h.others, List.filter_cons_of_neg (by simp [hdk]), List.filter_nil,
      List.append_nil]
    exact filter_modify_of_neg htarget (by simp [htk]) (by simp [Descriptor.joined, htk])

theorem put (h : r.Gathers all) (hd : d.Authored) (hx : r.put freeze d = .ok x) :
    x.2.Gathers (all ++ [d]) := by
  by_cases hkind : d.kind = .hostclass
  · exact h.mergeClass hd ((put_of_class hkind r).symm.trans hx)
  · exact h.add hd ((put_of_ne hkind r).symm.trans hx)

/-- Types are declared one after the other. -/
theorem putAll (h : r.Gathers all) {ds : List Descriptor} (hds : ∀ d ∈ ds, d.Authored)
    {s : Registry} (hs : r.putAll freeze ds = .ok s) : s.Gathers (all ++ ds) := by
  induction ds generalizing r all with
  | nil =>
    cases hs
    rwa [List.append_nil]
  | cons d ds ih =>
    obtain ⟨x, hx, hs⟩ := exists_of_bind_eq_ok hs
    rw [List.append_cons]
    exact ih (h.put (hds d List.mem_cons_self) hx) (fun d hd => hds d (List.mem_cons_of_mem _ hd)) hs

end Gathers

end Registry

end SiteCatalog
