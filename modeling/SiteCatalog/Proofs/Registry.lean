import SiteCatalog.Registry
import SiteCatalog.Proofs.Leads

/-!
# Registries

A registry is built by adding types and joining classes. A compilation then finds types by name and
remembers parents, and nothing else of a registry changes.

Results:
* `Descriptor.conflict?_eq_none`: when two declarations of a class can be joined.
* `get?_of_lookup`, `get?_of_find`: a type that is found exists and has the kind that was asked for.
* `isMain_of_lookup`: the class found under the empty name is the unnamed one.
* `Extends`: one registry is another with more known parents; a preorder.
* `Ancestry`: the known parents of a type, up to one that names none.
* `Closed.add`: a registry goes on to name only types that exist.
* `mergeClass_eq_ok`: a class is new, or it is joined with the one of its name.
-/

namespace SiteCatalog

/-- What runs one after the other and succeeds succeeds in both parts. -/
theorem exists_of_bind_eq_ok {ε α β : Type} {x : Except ε α} {f : α → Except ε β} {b : β}
    (h : x >>= f = .ok b) : ∃ a, x = .ok a ∧ f a = .ok b := by
  rcases x with e | a
  · exact nomatch h
  · exact ⟨a, rfl, h⟩

/-- What follows a success goes on with its result. -/
theorem bind_of_eq_ok {ε α β : Type} {x : Except ε α} {f : α → Except ε β} {a : α}
    (h : x = .ok a) : x >>= f = f a := by
  rw [h]
  rfl

theorem eq_ok_of_toOption {ε α : Type} {x : Except ε α} {a : α} (h : x.toOption = some a) :
    x = .ok a := by
  rcases x with _ | b
  · cases h
  · exact congrArg _ (Option.some.inj h)

/-- Changing one entry of a list before or after all of them are mapped. -/
theorem map_modify {α β : Type} (l : List α) (i : ℕ) {f : α → α} {f' : β → β} {g : α → β}
    (h : ∀ a, g (f a) = f' (g a)) : (l.modify i f).map g = (l.map g).modify i f' := by
  refine List.ext_getElem? fun j => ?_
  rw [List.getElem?_map, List.getElem?_modify, List.getElem?_modify, List.getElem?_map]
  split
  · cases l[j]? with
    | none => rfl
    | some a => exact congrArg some (h a)
  · cases l[j]? <;> rfl

/-- What holds of all entries still does after one of them has been changed. -/
theorem forall_mem_modify {α : Type} {P : α → Prop} {l : List α} {i : ℕ} {f : α → α}
    (h : ∀ a ∈ l, P a) (hf : ∀ a, P a → P (f a)) : ∀ a ∈ l.modify i f, P a := by
  intro a ha
  obtain ⟨j, hj⟩ := List.mem_iff_getElem?.mp ha
  rw [List.getElem?_modify] at hj
  obtain ⟨b, hb, rfl⟩ := Option.map_eq_some_iff.mp hj
  split
  · exact hf b (h b (List.mem_of_getElem? hb))
  · exact h b (List.mem_of_getElem? hb)

/-- The unnamed class, which holds the top-level code. -/
def Descriptor.IsMain (d : Descriptor) : Prop :=
  d.kind = .hostclass ∧ d.name = ""

instance (d : Descriptor) : Decidable d.IsMain :=
  inferInstanceAs (Decidable (_ ∧ _))

theorem Descriptor.resourceTitle_of_isMain {d : Descriptor} (h : d.IsMain) :
    d.resourceTitle = mainTitle :=
  if_pos h

/-- The unnamed class or another that bears the same title. -/
def Descriptor.TitledMain (d : Descriptor) : Prop :=
  d.kind = .hostclass ∧ (d.name = "" ∨ d.name = mainTitle)

instance (d : Descriptor) : Decidable d.TitledMain :=
  inferInstanceAs (Decidable (_ ∧ _))

theorem Descriptor.titledMain_iff {d : Descriptor} :
    d.TitledMain ↔ d.kind = .hostclass ∧ d.resourceTitle = mainTitle := by
  rw [TitledMain, resourceTitle]
  split
  · next h => exact ⟨fun _ => ⟨h.1, rfl⟩, fun _ => ⟨h.1, .inl h.2⟩⟩
  · next h => exact and_congr_right fun hk => or_iff_right fun hn => h ⟨hk, hn⟩

theorem Descriptor.IsMain.titledMain {d : Descriptor} (h : d.IsMain) : d.TitledMain :=
  ⟨h.1, .inl h.2⟩

/-! ## What types are found by -/

/-- What a type is found by. -/
def Descriptor.kindAndKey (d : Descriptor) : Kind × String :=
  (d.kind, d.key)

/-- Two types are found in the same way. -/
structure Descriptor.FoundLike (d e : Descriptor) : Prop where
  kind : d.kind = e.kind
  name : d.name = e.name
  pattern : d.pattern = e.pattern

namespace Descriptor.FoundLike

variable {d e : Descriptor}

theorem key (h : d.FoundLike e) : d.key = e.key := by
  rw [Descriptor.key, Descriptor.key, h.name, h.pattern]

theorem kindAndKey (h : d.FoundLike e) : d.kindAndKey = e.kindAndKey :=
  Prod.ext h.kind h.key

theorem fits (h : d.FoundLike e) : d.fits = e.fits :=
  funext fun name => by rw [Descriptor.fits, Descriptor.fits, h.name, h.pattern]

end Descriptor.FoundLike

/-! ## Joining declarations -/

namespace Descriptor

variable {d source : Descriptor} {freeze : Bool}

/-- A class with what a further declaration of it adds. -/
def joined (d source : Descriptor) : Descriptor :=
  { d with
    parent := d.parent.or source.parent
    doc := d.doc ++ source.doc
    body := joinBodies d.body source.body }

theorem foundLike_joined (d source : Descriptor) : (d.joined source).FoundLike d :=
  ⟨rfl, rfl, rfl⟩

theorem merge_eq_ok {merged : Descriptor} : d.merge source freeze = .ok merged ↔
    d.conflict? source freeze = none ∧ merged = d.joined source := by
  unfold merge
  split
  · next hconflict =>
    rw [hconflict]
    exact ⟨(nomatch ·), fun h => nomatch h.1⟩
  · next hnone =>
    exact ⟨fun h => ⟨hnone, (Except.ok.inj h).symm⟩, fun h => congrArg _ h.2.symm⟩

/-- Two classes are joined if they name the same parent or at most one of them does, but nothing is
joined with top-level code that is frozen. -/
theorem conflict?_eq_none : d.conflict? source freeze = none ↔
    d.kind = .hostclass ∧ source.kind = .hostclass ∧ ¬(freeze ∧ d.name = "") ∧
      ∀ mine theirs, d.parent = some mine → source.parent = some theirs →
        Name.normalize mine = Name.normalize theirs := by
  unfold conflict?
  by_cases hd : d.kind = .hostclass
  · by_cases hsource : source.kind = .hostclass
    · by_cases hmain : freeze ∧ d.name = ""
      · rw [if_neg (not_not.mpr hd), if_neg (not_not.mpr hsource), if_pos hmain]
        exact ⟨(nomatch ·), fun h => absurd hmain h.2.2.1⟩
      · rw [if_neg (not_not.mpr hd), if_neg (not_not.mpr hsource), if_neg hmain]
        cases d.parent <;> cases source.parent <;> simp [hd, hsource, hmain]
    · rw [if_neg (not_not.mpr hd), if_pos hsource]
      exact ⟨(nomatch ·), fun h => absurd h.2.1 hsource⟩
  · rw [if_pos hd]
    exact ⟨(nomatch ·), fun h => absurd h.1 hd⟩

end Descriptor

namespace Registry

variable {r r' r'' : Registry} {kind : Kind} {t p : ℕ} {d : Descriptor}

/-! ## Finding types -/

theorem get?_of_ofKey? {key : String} (h : r.ofKey? kind key = some t) :
    ∃ d, r.get? t = some d ∧ d.kind = kind ∧ d.key = key := by
  rw [ofKey?, List.findIdx?_eq_some_iff_getElem] at h
  obtain ⟨hlt, hd, -⟩ := h
  simp only [Bool.and_eq_true, decide_eq_true_eq] at hd
  exact ⟨_, List.getElem?_eq_getElem hlt, hd.1, hd.2⟩

theorem ofKey?_eq_none {key : String} :
    r.ofKey? kind key = none ↔ ∀ d ∈ r.types, d.kindAndKey ≠ (kind, key) := by
  rw [ofKey?, List.findIdx?_eq_none_iff]
  refine forall₂_congr fun d _ => ?_
  rw [← Bool.not_eq_true, Bool.and_eq_true, decide_eq_true_eq, decide_eq_true_eq,
    Descriptor.kindAndKey, Ne, Prod.mk.injEq]

theorem get?_of_lookup {name : String} (h : r.lookup kind name = some t) :
    ∃ d, r.get? t = some d ∧ d.kind = kind := by
  obtain ⟨d, hd, hk, -⟩ := get?_of_ofKey? h
  exact ⟨d, hd, hk⟩

theorem get?_of_find {space name : String} (h : r.find kind space name = some t) :
    ∃ d, r.get? t = some d ∧ d.kind = kind := by
  unfold find at h
  split at h
  · exact get?_of_lookup h
  · dsimp only at h
    split at h
    · next id hf =>
      cases h
      obtain ⟨outer, -, ho⟩ := List.exists_of_findSome?_eq_some hf
      exact get?_of_lookup ho
    · exact get?_of_lookup h

theorem get?_of_nodeFor {names : List String} (h : r.nodeFor names = some t) :
    ∃ d, r.get? t = some d ∧ d.kind = .node := by
  unfold nodeFor at h
  split at h
  · next id hf =>
    cases h
    obtain ⟨name, -, hn⟩ := List.exists_of_findSome?_eq_some hf
    exact get?_of_lookup hn
  · split at h
    · next id hf =>
      cases h
      have hfits := List.find?_some hf
      rw [patternFits, Option.any_eq_true] at hfits
      obtain ⟨d, hd, hk⟩ := hfits
      simp only [Bool.and_eq_true, decide_eq_true_eq] at hk
      exact ⟨d, hd, hk.1.1⟩
    · exact get?_of_lookup h

theorem map_types_modify {β : Type} {f : Descriptor → Descriptor} {g : Descriptor → β}
    (h : ∀ d, g (f d) = g d) : (r.modify t f).types.map g = r.types.map g :=
  (map_modify _ _ fun d => (h d : g (f d) = id (g d))).trans (List.modify_id _ _)

theorem findIdx?_modify (r : Registry) (t : ℕ) {f : Descriptor → Descriptor} {p : Descriptor → Bool}
    (hp : ∀ d, p (f d) = p d) : (r.modify t f).types.findIdx? p = r.types.findIdx? p := by
  have hid : ∀ l : List Descriptor, l.findIdx? p = (l.map p).findIdx? id := fun l => by
    rw [List.findIdx?_map]
    rfl
  rw [hid, hid, map_types_modify hp]

theorem ofKey?_modify {f : Descriptor → Descriptor} (hf : ∀ d, (f d).FoundLike d) {key : String} :
    (r.modify t f).ofKey? kind key = r.ofKey? kind key :=
  findIdx?_modify r t fun d => by rw [(hf d).kind, (hf d).key]

theorem lookupKey_empty : lookupKey "" = "" := by
  decide

/-- A key that is empty is a name, for the key of a pattern has two slashes. -/
theorem isMain_of_lookup (h : r.lookup .hostclass "" = some t) :
    ∃ d, r.get? t = some d ∧ d.IsMain := by
  rw [lookup, lookupKey_empty] at h
  obtain ⟨d, hd, hk, hkey⟩ := get?_of_ofKey? h
  refine ⟨d, hd, hk, ?_⟩
  rw [Descriptor.key] at hkey
  split at hkey
  · have := congrArg String.length hkey
    simp at this
  · exact hkey

/-! ## Remembering parents -/

/-- The registry with more known parents. -/
structure Extends (r r' : Registry) : Prop where
  environment : r'.environment = r.environment
  length : r'.types.length = r.types.length
  /-- A type stays as it is except that its parent may become known. -/
  kept : ∀ t d, r.get? t = some d → ∃ resolved, r'.get? t = some { d with resolved } ∧
    ∀ p, d.resolved = some p → resolved = some p

namespace Extends

@[refl] theorem refl (r : Registry) : r.Extends r where
  environment := rfl
  length := rfl
  kept := fun _ d hd => ⟨d.resolved, hd, fun _ h => h⟩

theorem trans (h : r.Extends r') (h' : r'.Extends r'') : r.Extends r'' where
  environment := h'.environment.trans h.environment
  length := h'.length.trans h.length
  kept := by
    intro t d hd
    obtain ⟨known, hd', hk⟩ := h.kept t d hd
    obtain ⟨known', hd'', hk'⟩ := h'.kept t _ hd'
    exact ⟨known', hd'', fun p hp => hk' p (hk p hp)⟩

/-- A type of the later registry was there before. -/
theorem kept_back (h : r.Extends r') {d' : Descriptor} (hd' : r'.get? t = some d') :
    ∃ d, r.get? t = some d ∧ d' = { d with resolved := d'.resolved } ∧
      ∀ p, d.resolved = some p → d'.resolved = some p := by
  have hlt : t < r.types.length := h.length ▸ lt_length_of_get? hd'
  obtain ⟨known, hk, hp⟩ := h.kept t _ (List.getElem?_eq_getElem hlt)
  rw [hd'] at hk
  cases hk
  exact ⟨_, List.getElem?_eq_getElem hlt, rfl, hp⟩

end Extends

theorem extends_cache (r : Registry) (t p : TypeId) :
    r.Extends (r.modify t fun d => { d with resolved := d.resolved.or (some p) }) where
  environment := rfl
  length := length_modify ..
  kept := by
    intro x d hd
    rw [get?_modify, hd]
    split
    · exact ⟨_, rfl, fun q hq => by rw [hq]; rfl⟩
    · exact ⟨d.resolved, rfl, fun _ h => h⟩

/-- Every type of a registry is there in another one, perhaps with its parent known. -/
def Persists (r r' : Registry) : Prop :=
  ∀ t d, r.get? t = some d → ∃ resolved, r'.get? t = some { d with resolved }

namespace Persists

@[refl] theorem refl (r : Registry) : r.Persists r :=
  fun _ d hd => ⟨d.resolved, hd⟩

theorem trans (h : r.Persists r') (h' : r'.Persists r'') : r.Persists r'' := by
  intro t d hd
  obtain ⟨_, hd'⟩ := h t d hd
  obtain ⟨known, hd''⟩ := h' t _ hd'
  exact ⟨known, hd''⟩

end Persists

theorem Extends.persists (h : r.Extends r') : r.Persists r' := by
  intro t d hd
  obtain ⟨known, hd', -⟩ := h.kept t d hd
  exact ⟨known, hd'⟩

/-- No type of a sort has a parent. -/
def Parentless (r : Registry) (sort : Kind → String → Prop) : Prop :=
  ∀ t d, r.get? t = some d → sort d.kind d.name → d.parent = none

section Parentless

variable {sort : Kind → String → Prop}

theorem Parentless.of_persists (hr : r'.Parentless sort) (h : r.Persists r') :
    r.Parentless sort := by
  intro t d hd hsort
  obtain ⟨resolved, hd'⟩ := h t d hd
  exact hr t { d with resolved } hd' hsort

theorem Parentless.of_extends (hr : r.Parentless sort) (h : r.Extends r') :
    r'.Parentless sort := by
  intro t d' hd' hsort
  obtain ⟨d, hd, heq, -⟩ := h.kept_back hd'
  rw [heq] at hsort ⊢
  exact hr t d hd hsort

end Parentless

/-- The unnamed class has no parent. -/
def Rooted (r : Registry) : Prop :=
  ∀ t d, r.get? t = some d → d.IsMain → d.parent = none

theorem rooted_iff : r.Rooted ↔ r.Parentless fun kind name => kind = .hostclass ∧ name = "" :=
  Iff.rfl

theorem Rooted.of_persists (hr : r'.Rooted) (h : r.Persists r') : r.Rooted :=
  rooted_iff.mpr ((rooted_iff.mp hr).of_persists h)

theorem Rooted.of_extends (hr : r.Rooted) (h : r.Extends r') : r'.Rooted :=
  rooted_iff.mpr ((rooted_iff.mp hr).of_extends h)

theorem rooted_of_forall (h : ∀ d ∈ r.types, d.IsMain → d.parent = none) : r.Rooted :=
  fun _ d hd => h d (List.mem_of_getElem? hd)

/-- Neither the unnamed class nor any other that bears its title has a parent. -/
def StrictlyRooted (r : Registry) : Prop :=
  ∀ t d, r.get? t = some d → d.TitledMain → d.parent = none

theorem strictlyRooted_iff : r.StrictlyRooted ↔
    r.Parentless fun kind name => kind = .hostclass ∧ (name = "" ∨ name = mainTitle) :=
  Iff.rfl

theorem strictlyRooted_of_forall (h : ∀ d ∈ r.types, d.TitledMain → d.parent = none) :
    r.StrictlyRooted :=
  fun _ d hd => h d (List.mem_of_getElem? hd)

/-! ## Ancestry -/

/-- The parents of a type as far as they are known, nearest first, up to a type that names none. -/
inductive Ancestry (r : Registry) : TypeId → List TypeId → Prop
  | root {t : TypeId} {d : Descriptor} : r.get? t = some d → d.parent = none → Ancestry r t []
  | child {t p : TypeId} {d : Descriptor} {l : List TypeId} : r.get? t = some d →
      d.parent.isSome → d.resolved = some p → Ancestry r p l → Ancestry r t (p :: l)

/-- The known parent of a type that names one. -/
def parent? (r : Registry) (t : TypeId) : Option TypeId :=
  (r.get? t).bind fun d => if d.parent.isSome then d.resolved else none

namespace Ancestry

variable {l : List TypeId}

theorem leads (h : r.Ancestry t l) : Leads r.parent? t l := by
  induction h with
  | root hd hn => exact .last (by simp [parent?, hd, hn])
  | child hd hs hp _ ih => exact .link (by simp [parent?, hd, hs, hp]) ih

theorem nodup (h : r.Ancestry t l) : (t :: l).Nodup :=
  h.leads.nodup

/-- A parent that is known goes on to be known when more parents are. -/
theorem child_of_extends (he : r.Extends r') (hd : r.get? t = some d) (hs : d.parent.isSome)
    {p : TypeId} (hp : d.resolved = some p) (h : r'.Ancestry p l) : r'.Ancestry t (p :: l) := by
  obtain ⟨_, hd', hk⟩ := he.kept t d hd
  exact .child hd' hs (hk p hp) h

theorem mono (h : r.Ancestry t l) (he : r.Extends r') : r'.Ancestry t l := by
  induction h with
  | root hd hn =>
    obtain ⟨_, hd', -⟩ := he.kept _ _ hd
    exact .root hd' hn
  | child hd hs hp _ ih => exact child_of_extends he hd hs hp ih

theorem lt_length (h : r.Ancestry t l) : ∀ x ∈ t :: l, x < r.types.length := by
  induction h with
  | root hd _ =>
    intro x hx
    rw [List.mem_singleton] at hx
    exact hx ▸ lt_length_of_get? hd
  | child hd _ _ _ ih =>
    intro x hx
    rcases List.mem_cons.mp hx with rfl | hx
    · exact lt_length_of_get? hd
    · exact ih x hx

end Ancestry

/-! ## Adding types -/

/-- Every parent that is known is a type of the registry. -/
def Closed (r : Registry) : Prop :=
  ∀ t d (p : ℕ), r.get? t = some d → d.resolved = some p → p < r.types.length

/-- No parent is known in a site that has just been read. -/
theorem closed_of_unresolved (h : ∀ d ∈ r.types, d.resolved = none) : r.Closed := by
  intro t d p hd hp
  rw [h d (List.mem_of_getElem? hd)] at hp
  cases hp

theorem get?_append (r : Registry) (d : Descriptor) (t : ℕ) :
    get? { r with types := r.types ++ [d] } t =
      if t = r.types.length then some d else r.get? t :=
  getElem?_snoc ..

theorem get?_append_of_get? {t : TypeId} {d : Descriptor} (h : r.get? t = some d)
    (new : Descriptor) : get? { r with types := r.types ++ [new] } t = some d := by
  rw [get?_append, if_neg (Nat.ne_of_lt (lt_length_of_get? h)), h]

theorem add_eq_ok {d : Descriptor} {x : TypeId × Registry} (h : r.add d = .ok x) :
    x = (r.types.length, { r with types := r.types ++ [d] }) := by
  unfold add at h
  split at h
  · cases h
  · cases h; rfl

theorem ofKey?_of_add {x : TypeId × Registry} (h : r.add d = .ok x) :
    r.ofKey? d.kind d.key = none := by
  unfold add at h
  split at h
  · cases h
  · assumption

theorem add_of_ofKey?_eq_none (h : r.ofKey? d.kind d.key = none) :
    r.add d = .ok (r.types.length, { r with types := r.types ++ [d] }) := by
  rw [add, h]

theorem persists_add {x : TypeId × Registry} (h : r.add d = .ok x) : r.Persists x.2 := by
  rw [add_eq_ok h]
  intro t d' hd'
  exact ⟨d'.resolved, get?_append_of_get? hd' d⟩

theorem Parentless.add {sort : Kind → String → Prop} {x : TypeId × Registry}
    (hr : r.Parentless sort) (hd : d.parent = none) (h : r.add d = .ok x) :
    x.2.Parentless sort := by
  rw [add_eq_ok h]
  intro t d' hd' hsort
  rw [get?_append] at hd'
  split at hd'
  · cases hd'; exact hd
  · exact hr t d' hd' hsort

/-- A type whose parent nobody has looked up can be added. -/
theorem Closed.add {x : TypeId × Registry} (hr : r.Closed) (hd : d.resolved = none)
    (h : r.add d = .ok x) : x.2.Closed := by
  rw [add_eq_ok h]
  intro t d' p hd' hp
  rw [get?_append] at hd'
  split at hd'
  · cases hd'; rw [hd] at hp; cases hp
  · have := hr t d' p hd' hp
    simp; omega

/-! ## Changing types -/

theorem modify_congr {f g : Descriptor → Descriptor} (h : r.get? t = some d) (hfg : f d = g d) :
    r.modify t f = r.modify t g := by
  refine congrArg (Registry.mk _) (List.ext_getElem? fun i => ?_)
  rw [List.getElem?_modify, List.getElem?_modify]
  split
  · next hi =>
    rw [← hi, show r.types[t]? = some d from h]
    exact congrArg some hfg
  · rfl

theorem modify_id (r : Registry) (t : TypeId) : r.modify t id = r :=
  congrArg (Registry.mk _) (List.modify_id ..)

theorem modify_modify (r : Registry) (t : TypeId) (f g : Descriptor → Descriptor) :
    (r.modify t f).modify t g = r.modify t (g ∘ f) :=
  congrArg (Registry.mk _) (List.modify_modify_eq ..)

theorem modify_comm (r : Registry) {t u : TypeId} (h : t ≠ u) (f g : Descriptor → Descriptor) :
    (r.modify t f).modify u g = (r.modify u g).modify t f :=
  congrArg (Registry.mk _) (List.modify_modify_ne _ _ _ h)

theorem modify_append (h : t < r.types.length) (f : Descriptor → Descriptor) (d : Descriptor) :
    modify { r with types := r.types ++ [d] } t f =
      { r with types := (r.modify t f).types ++ [d] } := by
  have hlist : ∀ (l : List Descriptor) (i : ℕ), i < l.length →
      (l ++ [d]).modify i f = l.modify i f ++ [d] := by
    intro l
    induction l with
    | nil => exact fun _ hi => absurd hi (Nat.not_lt_zero _)
    | cons a l ih =>
      rintro (_ | i) hi
      · rfl
      · exact congrArg (a :: ·) (ih i (Nat.lt_of_succ_lt_succ hi))
  exact congrArg (Registry.mk _) (hlist _ t h)

theorem modify_append_last (r : Registry) (f : Descriptor → Descriptor) (d : Descriptor) :
    modify { r with types := r.types ++ [d] } r.types.length f =
      { r with types := r.types ++ [f d] } := by
  have hlist : ∀ l : List Descriptor, (l ++ [d]).modify l.length f = l ++ [f d] := by
    intro l
    induction l with
    | nil => rfl
    | cons a l ih => exact congrArg (a :: ·) ih
  exact congrArg (Registry.mk _) (hlist _)

/-! ## Joining classes -/

variable {x : TypeId × Registry} {freeze : Bool}

theorem mergeClass_of_lookup_none (h : r.lookup .hostclass d.name = none)
    (hd : d.kind = .hostclass) : r.mergeClass d freeze = r.add d := by
  rw [mergeClass, h]
  exact if_pos hd

theorem mergeClass_of_get? {target : Descriptor} (h : r.lookup .hostclass d.name = some t)
    (htarget : r.get? t = some target) (hnone : target.conflict? d freeze = none) :
    r.mergeClass d freeze = .ok (t, r.modify t (·.joined d)) := by
  have hmodify : r.modify t (·.joined d) = r.modify t fun _ => target.joined d :=
    modify_congr htarget rfl
  rw [mergeClass, h]
  dsimp only
  rw [htarget]
  dsimp only
  rw [Descriptor.merge_eq_ok.mpr ⟨hnone, rfl⟩, hmodify]
  rfl

/-- A class is added, or it is joined with the one of its name. -/
theorem mergeClass_eq_ok (h : r.mergeClass d freeze = .ok x) :
    (r.lookup .hostclass d.name = none ∧ d.kind = .hostclass ∧ r.add d = .ok x) ∨
      ∃ t target, r.lookup .hostclass d.name = some t ∧ r.get? t = some target ∧
        target.conflict? d freeze = none ∧ x = (t, r.modify t (·.joined d)) := by
  unfold mergeClass at h
  split at h
  · next t hlookup =>
    obtain ⟨target, htarget, -⟩ := get?_of_lookup hlookup
    rw [htarget] at h
    obtain ⟨merged, hmerged, h⟩ := exists_of_bind_eq_ok h
    obtain ⟨hnone, rfl⟩ := Descriptor.merge_eq_ok.mp hmerged
    cases h
    exact .inr ⟨t, target, hlookup, htarget, hnone, congrArg _ (modify_congr htarget rfl)⟩
  · next hlookup =>
    split at h
    · next hd => exact .inl ⟨hlookup, hd, h⟩
    · cases h

theorem kind_of_mergeClass (h : r.mergeClass d freeze = .ok x) : d.kind = .hostclass := by
  obtain ⟨-, hd, -⟩ | ⟨_, _, -, -, hnone, -⟩ := mergeClass_eq_ok h
  · exact hd
  · exact (Descriptor.conflict?_eq_none.mp hnone).2.1

end Registry

end SiteCatalog
