import SiteCatalog.Proofs.Collection
import SiteCatalog.Proofs.Merging
import SiteCatalog.Proofs.Reordering

/-!
# Classes that are declared again

A further declaration of a class adds its body to the class. While the rest of a site is collected,
a class may therefore lack a part of its body, or be missing, as long as a later declaration brings
what it lacks.

Results:
* `Registry.Corresponds.carries`: corresponding registries remain so.
* `Registry.Lacks.carries`, `Registry.Lacks.supply`: a class lacks the last part of its body until
  it is declared again.
* `Registry.Misses.carries`, `Registry.Misses.supply`: a class is missing until it is declared.
-/

namespace SiteCatalog

open Compilation (SameBody)
open Descriptor (joinBodies)

/-- A type with another body. -/
def Descriptor.withBody (d : Descriptor) (body : Option Body) : Descriptor :=
  { d with body }

theorem Descriptor.foundLike_withBody (body : Option Body) (d : Descriptor) :
    (d.withBody body).FoundLike d :=
  ⟨rfl, rfl, rfl⟩

theorem Descriptor.joinBodies_none (body : Option Body) : joinBodies body none = body := by
  cases body <;> rfl

/-- A declaration with neither parent nor documentation adds only its body. -/
theorem Descriptor.joined_eq_withBody (target : Descriptor) {d : Descriptor}
    (hparent : d.parent = none) (hdoc : d.doc = "") :
    target.joined d = target.withBody (joinBodies target.body d.body) := by
  rw [joined, hparent, hdoc, Option.or_none, String.append_empty]
  rfl

namespace Registry

variable {r r' : Registry} {d : Descriptor} {x : TypeId × Registry} {freeze : Bool} {key : String}
  {part : Option Body}

/-! ## Corresponding registries -/

namespace Corresponds

variable {σ : Equiv.Perm ℕ}

theorem add (h : r.Corresponds σ r') (hd : d.resolved = none) (hx : r.add d = .ok x) :
    ∃ x', r'.add d = .ok x' ∧ x.2.Corresponds σ x'.2 := by
  have hnew : r'.ofKey? d.kind d.key = none := by
    rw [h.ofKey?, ofKey?_of_add hx]
    rfl
  refine ⟨_, add_of_ofKey?_eq_none hnew, ?_⟩
  rw [add_eq_ok hx]
  exact h.append (.of_unresolved hd)

theorem mergeClass (h : r.Corresponds σ r') (hd : d.resolved = none)
    (hx : r.mergeClass d freeze = .ok x) :
    ∃ x', r'.mergeClass d freeze = .ok x' ∧ x.2.Corresponds σ x'.2 := by
  obtain ⟨hnone, hkind, hx⟩ | ⟨t, target, hlookup, htarget, hconflict, rfl⟩ := mergeClass_eq_ok hx
  · rw [mergeClass_of_lookup_none (by rw [h.lookup, hnone]; rfl) hkind]
    exact h.add hd hx
  · have hlookup' : r'.lookup .hostclass d.name = some (σ t) := by
      rw [h.lookup, hlookup]
      rfl
    obtain ⟨target', htarget', -⟩ := get?_of_lookup hlookup'
    have hrel := h.entry t
    rw [htarget, htarget'] at hrel
    cases hrel with
    | some hrel =>
      obtain ⟨body, file, hbody, rfl⟩ := hrel
      refine ⟨_, mergeClass_of_get? hlookup' htarget' hconflict, ?_⟩
      refine h.modify (fun e => e.foundLike_joined d) (fun e => e.foundLike_joined d) ?_
      rintro e _ - - ⟨body, file, hbody, rfl⟩
      exact ⟨_, file, hbody.join_left d.body, rfl⟩

/-- Registries that correspond do so after the same manifests have been collected. -/
theorem carries (σ : Equiv.Perm ℕ) (freeze : Bool) :
    Carries (·.resolved = none) freeze freeze (Registry.Corresponds σ) where
  add hd h hx := h.add hd hx
  mergeClass hd h hx := h.mergeClass hd hx

end Corresponds

/-- A declaration that says nothing changes nothing. -/
theorem mergeClass_bare {t : TypeId} (hlookup : r.lookup .hostclass d.name = some t)
    (hparent : d.parent = none) (hdoc : d.doc = "") (hbody : d.body = none)
    (hx : r.mergeClass d freeze = .ok x) : x.2 = r := by
  obtain ⟨hnone, -⟩ | ⟨u, target, -, htarget, -, rfl⟩ := mergeClass_eq_ok hx
  · cases hlookup.symm.trans hnone
  · have hjoined : target.joined d = id target := by
      rw [Descriptor.joined_eq_withBody _ hparent hdoc, hbody, Descriptor.joinBodies_none]
      rfl
    exact (modify_congr htarget hjoined).trans (modify_id r u)

theorem corresponds_modify {t : TypeId} {f : Descriptor → Descriptor}
    (hf : ∀ d, (f d).FoundLike d)
    (hrel : ∀ d, r.get? t = some d → d.Corresponds (.refl ℕ) (f d)) :
    r.Corresponds (.refl ℕ) (r.modify t f) := by
  have h : Registry.Corresponds (.refl ℕ) (r.modify t id) (r.modify t f) := by
    refine (Corresponds.refl r).modify (fun _ => ⟨rfl, rfl, rfl⟩) hf fun d d' hd hd' _ => ?_
    cases hd.symm.trans hd'
    exact hrel d hd
  rwa [modify_id] at h

/-! ## A class without the last part of its body -/

/-- In the first registry the body of the class with a key ends with a part, which the class lacks
in the second registry. More can be added to the class. -/
def Lacks (freeze : Bool) (key : String) (part : Option Body) (r r' : Registry) : Prop :=
  ∃ t d rest, r.ofKey? .hostclass key = some t ∧ r.get? t = some d ∧ ¬(freeze ∧ d.name = "") ∧
    SameBody d.body (joinBodies rest part) ∧ r' = r.modify t (·.withBody rest)

namespace Lacks

theorem ofKey?_eq (h : Lacks freeze key part r r') (kind : Kind) (k : String) :
    r'.ofKey? kind k = r.ofKey? kind k := by
  obtain ⟨t, d, rest, -, -, -, -, rfl⟩ := h
  exact ofKey?_modify (Descriptor.foundLike_withBody rest)

theorem add (h : Lacks freeze key part r r') (hx : r.add d = .ok x) :
    ∃ x', r'.add d = .ok x' ∧ Lacks freeze key part x.2 x'.2 := by
  refine ⟨_, add_of_ofKey?_eq_none ((h.ofKey?_eq ..).trans (ofKey?_of_add hx)), ?_⟩
  obtain ⟨t, c, rest, hkey, hc, hopen, hbody, rfl⟩ := h
  have hlt := lt_length_of_get? hc
  rw [add_eq_ok hx]
  refine ⟨t, c, rest, ?_, ?_, hopen, hbody, ?_⟩
  · rw [ofKey?, List.findIdx?_append, show r.types.findIdx? _ = some t from hkey]
    rfl
  · rw [get?_append, if_neg hlt.ne, hc]
  · exact (modify_append hlt ..).symm

theorem mergeClass (h : Lacks freeze key part r r') (hne : lookupKey d.name ≠ key)
    (hx : r.mergeClass d freeze = .ok x) :
    ∃ x', r'.mergeClass d freeze = .ok x' ∧ Lacks freeze key part x.2 x'.2 := by
  obtain ⟨hnone, hkind, hx⟩ | ⟨u, target, hlookup, htarget, hconflict, rfl⟩ := mergeClass_eq_ok hx
  · rw [mergeClass_of_lookup_none ((h.ofKey?_eq ..).trans hnone) hkind]
    exact h.add hx
  · have hlookup' : r'.lookup .hostclass d.name = some u := (h.ofKey?_eq ..).trans hlookup
    obtain ⟨t, c, rest, hkey, hc, hopen, hbody, rfl⟩ := h
    -- the joined class is another one, for it has another key
    have hut : u ≠ t := by
      rintro rfl
      obtain ⟨e, he, -, hek⟩ := get?_of_ofKey? hkey
      obtain ⟨e', he', -, hek'⟩ := get?_of_ofKey? hlookup
      cases he.symm.trans he'
      exact hne (hek'.symm.trans hek)
    have htarget' : (r.modify t (·.withBody rest)).get? u = some target := by
      rw [get?_modify, if_neg hut, htarget]
    refine ⟨_, mergeClass_of_get? hlookup' htarget' hconflict, t, c, rest, ?_, ?_, hopen, hbody, ?_⟩
    · rw [ofKey?_modify fun e => e.foundLike_joined d, hkey]
    · rw [get?_modify, if_neg hut.symm, hc]
    · exact modify_comm _ hut.symm ..

/-- The class goes on to lack the part while others are declared. -/
theorem carries (freeze : Bool) (key : String) (part : Option Body) :
    Carries (fun d => d.kind = .hostclass → lookupKey d.name ≠ key) freeze freeze
      (Lacks freeze key part) where
  add _ h hx := h.add hx
  mergeClass hne h hx := h.mergeClass (hne (kind_of_mergeClass hx)) hx

/-- A class is declared without the last part of its body. -/
theorem of_mergeClass {first : Option Body} (hkey : lookupKey d.name = d.key)
    (hopen : ¬(freeze ∧ d.name = "")) (hbody : SameBody d.body (joinBodies first part))
    (hx : r.mergeClass d freeze = .ok x) : ∃ x', r.mergeClass (d.withBody first) freeze = .ok x' ∧
      Lacks freeze d.key part x.2 x'.2 := by
  obtain ⟨hnone, hkind, hx⟩ | ⟨t, target, hlookup, htarget, hconflict, rfl⟩ := mergeClass_eq_ok hx
  · -- the class is new in both registries
    have hnew := ofKey?_of_add hx
    rw [mergeClass_of_lookup_none (d := d.withBody first) hnone hkind]
    refine ⟨_, add_of_ofKey?_eq_none hnew, r.types.length, d, first, ?_, ?_, hopen, hbody, ?_⟩
    · rw [add_eq_ok hx, ofKey?, List.findIdx?_append,
        show r.types.findIdx? _ = none from hkind ▸ hnew, List.findIdx?_singleton, if_pos ?_]
      · simp
      · simp [hkind]
    · rw [add_eq_ok hx, get?_append, if_pos rfl]
    · rw [add_eq_ok hx]
      exact (modify_append_last r (·.withBody first) d).symm
  · -- the body follows that of an earlier declaration
    refine ⟨_, mergeClass_of_get? (d := d.withBody first) hlookup htarget hconflict,
      t, target.joined d, joinBodies target.body first, ?_, ?_,
      (Descriptor.conflict?_eq_none.mp hconflict).2.2.1,
      by rw [Descriptor.joinBodies_assoc]; exact hbody.join_right _, ?_⟩
    · rw [ofKey?_modify fun e => e.foundLike_joined d, ← hkey]
      exact hlookup
    · rw [get?_modify, if_pos rfl, htarget]
      rfl
    · rw [modify_modify]
      exact modify_congr htarget rfl

/-- The class is declared again, and the declaration brings what it lacks. -/
theorem supply (h : Lacks freeze (lookupKey d.name) d.body r r') (hkind : d.kind = .hostclass)
    (hparent : d.parent = none) (hdoc : d.doc = "") :
    ∃ x, r'.mergeClass d freeze = .ok x ∧ r.Corresponds (.refl ℕ) x.2 := by
  have hlookup' := h.ofKey?_eq .hostclass (lookupKey d.name)
  obtain ⟨t, c, rest, hkey, hc, hopen, hbody, rfl⟩ := h
  obtain ⟨_, hc', hckind, -⟩ := get?_of_ofKey? hkey
  cases hc.symm.trans hc'
  have htarget : (r.modify t (·.withBody rest)).get? t = some (c.withBody rest) := by
    rw [get?_modify, if_pos rfl, hc]
    rfl
  refine ⟨_, mergeClass_of_get? (hlookup'.trans hkey) htarget (Descriptor.conflict?_eq_none.mpr
    ⟨hckind, hkind, hopen, fun _ _ _ h => by rw [hparent] at h; cases h⟩), ?_⟩
  rw [modify_modify]
  refine corresponds_modify (fun e => ⟨rfl, rfl, rfl⟩) fun e he => ?_
  cases hc.symm.trans he
  refine ⟨joinBodies rest d.body, c.file, hbody, ?_⟩
  rw [Function.comp_apply, Descriptor.joined_eq_withBody _ hparent hdoc, Equiv.coe_refl,
    Option.map_id]
  rfl

end Lacks

/-! ## A class that is missing -/

/-- The second registry misses a type of the first one. -/
def Misses (d : Descriptor) (r r' : Registry) : Prop :=
  ∃ l₁ l₂, r.types = l₁ ++ d :: l₂ ∧ r' = { r with types := l₁ ++ l₂ }

namespace Misses

variable {main : Descriptor}

theorem add (h : Misses main r r') (hx : r.add d = .ok x) :
    ∃ x', r'.add d = .ok x' ∧ Misses main x.2 x'.2 := by
  obtain ⟨l₁, l₂, hr, rfl⟩ := h
  have hnew := ofKey?_eq_none.mp (ofKey?_of_add hx)
  refine ⟨_, add_of_ofKey?_eq_none (ofKey?_eq_none.mpr fun e he => hnew e ?_), ?_⟩
  · rw [hr]
    exact List.mem_append.mpr ((List.mem_append.mp he).imp_right (List.mem_cons_of_mem _))
  · rw [add_eq_ok hx]
    exact ⟨l₁, l₂ ++ [d], by simp [hr], by simp⟩

theorem carries (main : Descriptor) (freeze : Bool) :
    Carries (·.kind ≠ .hostclass) freeze freeze (Misses main) where
  add _ h hx := h.add hx
  mergeClass hne _ hx := absurd (kind_of_mergeClass hx) hne

/-- A class is declared that was not there. -/
theorem of_mergeClass (hnone : r.lookup .hostclass d.name = none)
    (hx : r.mergeClass d freeze = .ok x) : Misses d x.2 r := by
  obtain ⟨-, -, hx⟩ | ⟨t, _, hlookup, -⟩ := mergeClass_eq_ok hx
  · rw [add_eq_ok hx]
    exact ⟨r.types, [], rfl, by rw [List.append_nil]⟩
  · cases hnone.symm.trans hlookup

/-- The class is declared at last, perhaps in another file. -/
theorem supply (h : Misses main r r') (hr : r.Fresh) (hrel : main.Corresponds (.refl ℕ) d)
    (hkind : d.kind = .hostclass) (hkey : lookupKey d.name = d.key) :
    ∃ x σ, r'.mergeClass d freeze = .ok x ∧ r.Corresponds σ x.2 := by
  obtain ⟨l₁, l₂, htypes, rfl⟩ := h
  obtain ⟨hdistinct, hunresolved⟩ := hr
  rw [htypes] at hdistinct hunresolved
  have hnew : ofKey? { r with types := l₁ ++ l₂ } .hostclass d.key = none := by
    rw [List.map_append, List.map_cons, List.nodup_middle, ← List.map_append, List.nodup_cons,
      ← hrel.foundLike.kindAndKey] at hdistinct
    refine ofKey?_eq_none.mpr fun e he heq => hdistinct.1 (List.mem_map.mpr ⟨e, he, heq.trans ?_⟩)
    rw [Descriptor.kindAndKey, hkind]
  -- with the class at the end the registry differs in its order only
  obtain ⟨σ, hσ⟩ : ∃ σ, r.Corresponds σ { r with types := l₁ ++ l₂ ++ [main] } := by
    refine corresponds_of_perm ?_ (htypes ▸ hdistinct) (htypes ▸ hunresolved) ?_
    · rw [htypes]
      exact List.perm_middle.trans (List.perm_append_singleton _ _).symm
    · have hmain : main.kind = .hostclass := hrel.foundLike.kind ▸ hkind
      rw [htypes]
      simp [List.filter_append, Descriptor.IsPatternNode, hmain]
  have hadd := add_of_ofKey?_eq_none (hkind ▸ hnew)
  rw [← mergeClass_of_lookup_none (by rw [lookup, hkey]; exact hnew) hkind] at hadd
  exact ⟨_, _, hadd, hσ.trans (Corresponds.append (.refl { r with types := l₁ ++ l₂ }) hrel)⟩

end Misses

end Registry

end SiteCatalog
