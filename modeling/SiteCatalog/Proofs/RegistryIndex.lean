import SiteCatalog.Proofs.Merging

/-!
# The index of a registry

A registry finds a type by searching its types for a kind and a key. An index from kinds and keys to
places, changed step by step along with the types, gives the same answers, and a change that fails
has not changed either of them.

Results:
* `IndexedRegistry.run_join_eq_absorb`: a class of a registry takes over a declaration as it does by
  itself.
* `IndexedRegistry.Faithful`: an index that has one entry for each type.
* `IndexedRegistry.Faithful.add`, `IndexedRegistry.Faithful.mergeClass`: with it, a change does what
  it does without an index, or fails and changes nothing.
-/

namespace SiteCatalog

open Descriptor (kindAndKey)

theorem Registry.mergeClass_of_conflict {r : Registry} {d target : Descriptor} {t : TypeId}
    {freeze : Bool} {conflict : MergeConflict} (h : r.lookup .hostclass d.name = some t)
    (htarget : r.get? t = some target) (hconflict : target.conflict? d freeze = some conflict) :
    r.mergeClass d freeze =
      .error (.mergeIncompatible (target.kind, target.name) (d.kind, d.name) conflict) := by
  rw [mergeClass, h]
  dsimp only
  rw [htarget]
  dsimp only
  rw [Descriptor.merge, hconflict]
  rfl

instance : Hashable Kind :=
  ⟨fun kind => hash kind.text⟩

/-- A registry with an index of its types by their kinds and keys. -/
structure IndexedRegistry where
  registry : Registry
  index : Std.HashMap (Kind × String) TypeId

namespace IndexedRegistry

/-- What changes a registry and its index step by step. A failure keeps the steps before it. -/
abbrev Change (α : Type) :=
  EStateM CompileError IndexedRegistry α

/-- A registry without types. -/
def empty (environment : String) : IndexedRegistry :=
  ⟨.empty environment, ∅⟩

/-- The type with a kind and a name, as the index has it. -/
def lookup (x : IndexedRegistry) (kind : Kind) (name : String) : Option TypeId :=
  x.index[(kind, Registry.lookupKey name)]?

/-- Adds a type whose kind and key are not in the index, and enters them there. -/
def add (d : Descriptor) : Change TypeId := do
  let x ← get
  if x.index.contains d.kindAndKey then throw (.duplicateType d.kind d.key)
  let id : TypeId := x.registry.types.length
  modify fun x => { x with registry := { x.registry with types := x.registry.types ++ [d] } }
  modify fun x => { x with index := x.index.insert d.kindAndKey id }
  return id

/-- Changes the type at a place. -/
def update (id : TypeId) (f : Descriptor → Descriptor) : Change Unit :=
  modify fun x => { x with registry := x.registry.modify id f }

/-- Joins a further declaration with the class at a place, one field after the other. -/
def join (id : TypeId) (source : Descriptor) (freezeMain : Bool) : Change Unit := do
  let x ← get
  if let some target := x.registry.get? id then
    if let some conflict := target.conflict? source freezeMain then
      throw (.mergeIncompatible (target.kind, target.name) (source.kind, source.name) conflict)
    update id fun d => { d with parent := d.parent.or source.parent }
    update id fun d => { d with doc := d.doc ++ source.doc }
    update id fun d => { d with body := Descriptor.joinBodies d.body source.body }

/-- Joins a declaration of a class with the class of its name, or adds it. -/
def mergeClass (d : Descriptor) (freezeMain : Bool) : Change TypeId := do
  let x ← get
  match x.lookup .hostclass d.name with
  | some id =>
    join id d freezeMain
    return id
  | none =>
    if d.kind = .hostclass then add d
    else throw (.mergeIncompatible (.hostclass, d.name) (d.kind, d.name) .onlyClasses)

/-- The entries of the index are the types, each under its kind and key. -/
def Faithful (x : IndexedRegistry) : Prop :=
  ∀ key id, x.index[key]? = some id ↔ ∃ d, x.registry.get? id = some d ∧ d.kindAndKey = key

/-- A change has the outcome of an operation on the registry alone: both fail, and nothing is
changed, or both succeed, and the index is faithful. -/
inductive Matches (x : IndexedRegistry) : Except CompileError (TypeId × Registry) →
    EStateM.Result CompileError IndexedRegistry TypeId → Prop
  | failed (e : CompileError) : Matches x (.error e) (.error e x)
  | succeeded (id : TypeId) {y : IndexedRegistry} : y.Faithful →
      Matches x (.ok (id, y.registry)) (.ok id y)

theorem Matches.eq_of_error {x y : IndexedRegistry} {e : CompileError}
    {r : Except CompileError (TypeId × Registry)} (h : x.Matches r (.error e y)) : y = x := by
  cases h
  rfl

theorem faithful_empty (environment : String) : (empty environment).Faithful := by
  intro key id
  simp [empty, Registry.empty, Registry.get?]

theorem run_add (d : Descriptor) (x : IndexedRegistry) : add d x =
    if x.index.contains d.kindAndKey then .error (.duplicateType d.kind d.key) x
    else .ok x.registry.types.length
      ⟨{ x.registry with types := x.registry.types ++ [d] },
        x.index.insert d.kindAndKey x.registry.types.length⟩ := by
  rw [add, change_get_bind]
  split <;> rfl

/-- Joining stops at a conflict; without one, the fields are joined as in one step. -/
theorem run_join {x : IndexedRegistry} {id : TypeId} {target : Descriptor}
    (h : x.registry.get? id = some target) (source : Descriptor) (freezeMain : Bool) :
    join id source freezeMain x = match target.conflict? source freezeMain with
      | some conflict => .error
          (.mergeIncompatible (target.kind, target.name) (source.kind, source.name) conflict) x
      | none => .ok () ⟨x.registry.modify id (·.joined source), x.index⟩ := by
  rw [join, change_get_bind, h]
  dsimp only
  cases target.conflict? source freezeMain with
  | some conflict => rfl
  | none =>
    have hjoined : x.registry.modify id (·.joined source) =
        ((x.registry.modify id fun d => { d with parent := d.parent.or source.parent }).modify id
          fun d => { d with doc := d.doc ++ source.doc }).modify id
            fun d => { d with body := Descriptor.joinBodies d.body source.body } := by
      rw [Registry.modify_modify, Registry.modify_modify]
      rfl
    rw [hjoined]
    rfl

/-- The class at a place takes over a declaration as it does by itself. -/
theorem run_join_eq_absorb {x : IndexedRegistry} {id : TypeId} {target : Descriptor}
    (h : x.registry.get? id = some target) (source : Descriptor) (freezeMain : Bool) :
    join id source freezeMain x = match Descriptor.absorb source freezeMain target with
      | .ok _ merged => .ok () ⟨x.registry.modify id fun _ => merged, x.index⟩
      | .error e _ => .error e x := by
  rw [run_join h, Descriptor.run_absorb, Descriptor.merge]
  cases target.conflict? source freezeMain with
  | some conflict => rfl
  | none =>
    have hmodify : x.registry.modify id (·.joined source) =
        x.registry.modify id fun _ => target.joined source := Registry.modify_congr h rfl
    rw [hmodify]
    rfl

namespace Faithful

variable {x : IndexedRegistry} {d : Descriptor}

/-- An index has one entry for a kind and key, so there is one type with them. -/
theorem distinct (h : x.Faithful) : (x.registry.types.map kindAndKey).Nodup := by
  refine List.pairwise_iff_getElem.mpr fun i j hi hj hlt heq => Nat.ne_of_lt hlt ?_
  rw [List.length_map] at hi hj
  rw [List.getElem_map, List.getElem_map] at heq
  have hfirst := (h _ i).mpr ⟨_, List.getElem?_eq_getElem hi, rfl⟩
  have hsecond := (h _ j).mpr ⟨_, List.getElem?_eq_getElem hj, heq.symm⟩
  exact Option.some.inj (hfirst.symm.trans hsecond)

theorem getElem?_eq (h : x.Faithful) (kind : Kind) (key : String) :
    x.index[(kind, key)]? = x.registry.ofKey? kind key := by
  cases hfound : x.registry.ofKey? kind key with
  | none =>
    refine Option.eq_none_iff_forall_ne_some.mpr fun id hid => ?_
    obtain ⟨d, hd, hkey⟩ := (h _ _).mp hid
    exact Registry.ofKey?_eq_none.mp hfound d (List.mem_of_getElem? hd) hkey
  | some id =>
    obtain ⟨d, hd, hkind, hkey⟩ := Registry.get?_of_ofKey? hfound
    exact (h _ _).mpr ⟨d, hd, Prod.ext hkind hkey⟩

theorem lookup_eq (h : x.Faithful) (kind : Kind) (name : String) :
    x.lookup kind name = x.registry.lookup kind name :=
  h.getElem?_eq kind _

/-- A new kind and key go into the index, with the place of their type. -/
theorem append (h : x.Faithful) (hnew : x.registry.ofKey? d.kind d.key = none) :
    Faithful ⟨{ x.registry with types := x.registry.types ++ [d] },
      x.index.insert d.kindAndKey x.registry.types.length⟩ := by
  intro key id
  rw [Std.HashMap.getElem?_insert, Registry.get?_append]
  by_cases hkey : d.kindAndKey = key
  · subst hkey
    rw [if_pos (beq_self_eq_true _), Option.some.injEq]
    constructor
    · rintro rfl
      exact ⟨d, if_pos rfl, rfl⟩
    · rintro ⟨e, he, hkey⟩
      split at he
      · next hlast => exact hlast.symm
      · exact absurd hkey (Registry.ofKey?_eq_none.mp hnew e (List.mem_of_getElem? he))
  · rw [if_neg (fun hbeq => hkey (eq_of_beq hbeq)), h]
    refine exists_congr fun e => and_congr_left fun he => ?_
    split
    · next hlast =>
      have hnone : x.registry.get? id = none := List.getElem?_eq_none (Nat.le_of_eq hlast.symm)
      rw [hnone]
      exact ⟨(nomatch ·), fun h' => absurd (Option.some.inj h' ▸ he) hkey⟩
    · rfl

/-- A change of types that are still found in the same way leaves the index as it is. -/
theorem modify (h : x.Faithful) (id : TypeId) {f : Descriptor → Descriptor}
    (hf : ∀ d, (f d).FoundLike d) : Faithful ⟨x.registry.modify id f, x.index⟩ := by
  intro key t
  rw [h, Registry.get?_modify]
  split
  · simp only [Option.map_eq_some_iff, exists_exists_and_eq_and, (hf _).kindAndKey]
  · rfl

theorem add (h : x.Faithful) (d : Descriptor) :
    x.Matches (x.registry.add d) (IndexedRegistry.add d x) := by
  have hcontains : x.index.contains d.kindAndKey = (x.registry.ofKey? d.kind d.key).isSome := by
    rw [Std.HashMap.contains_eq_isSome_getElem?, ← h.getElem?_eq]
    rfl
  rw [run_add, hcontains, Registry.add]
  cases hkey : x.registry.ofKey? d.kind d.key with
  | some id => exact .failed _
  | none => exact .succeeded _ (h.append hkey)

theorem mergeClass (h : x.Faithful) (d : Descriptor) (freezeMain : Bool) :
    x.Matches (x.registry.mergeClass d freezeMain) (IndexedRegistry.mergeClass d freezeMain x) := by
  rw [IndexedRegistry.mergeClass, change_get_bind, h.lookup_eq]
  cases hlookup : x.registry.lookup .hostclass d.name with
  | none =>
    rw [Registry.mergeClass, hlookup]
    dsimp only
    split
    · exact h.add d
    · exact .failed _
  | some id =>
    obtain ⟨target, htarget, -⟩ := Registry.get?_of_lookup hlookup
    have hjoin := run_join htarget d freezeMain
    dsimp only
    cases hconflict : target.conflict? d freezeMain with
    | none =>
      rw [hconflict] at hjoin
      rw [Registry.mergeClass_of_get? hlookup htarget hconflict, change_bind, hjoin]
      exact .succeeded id (h.modify id fun e => e.foundLike_joined d)
    | some conflict =>
      rw [hconflict] at hjoin
      rw [Registry.mergeClass_of_conflict hlookup htarget hconflict, change_bind, hjoin]
      exact .failed _

end Faithful

end IndexedRegistry

end SiteCatalog
