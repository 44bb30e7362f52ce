import SiteCatalog.Proofs.Compilation.Duplicates
import SiteCatalog.Proofs.Descent

/-!
# Looking up ancestors

A parent is looked up when it is first needed, and is remembered. What is remembered on the way does
not change what the names of the other parents mean, so that the parents of a type can be followed
in the registry as it was at the beginning.

Results:
* `parentFrom`: the parent that a type has for those who look from a namespace.
* `Looked.climb`: looking up parent after parent follows these links, until one is missing or the
  chain closes.
-/

namespace SiteCatalog.Compilation

/-! ## Parents as seen from a namespace -/

/-- The parent that a type has for those who look from a namespace: the one that is remembered, or
else the one that its name means. -/
def parentFrom (types : Registry) (space : String) (t : TypeId) : Option TypeId :=
  (types.get? t).bind fun d => d.parent.bind fun parent =>
    d.resolved.or (parentNamed types d parent space).toOption.join

/-- A type looks in vain for the parent that it names. -/
structure Lacks (types : Registry) (space : String) (t : TypeId) (d : Descriptor)
    (parent : String) : Prop where
  type : types.get? t = some d
  named : d.parent = some parent
  missing : parentFrom types space t = none

/-- The parents that are known are classes and nodes. -/
def Kindred (types : Registry) : Prop :=
  ∀ t d p, types.get? t = some d → d.resolved = some p →
    ∃ e, types.get? p = some e ∧ e.kind ≠ .define

variable {types types' : Registry} {space : String} {t p : TypeId} {d : Descriptor}
  {parent : String} {l : List TypeId}

theorem parentFrom_of_get? (hd : types.get? t = some d) (hparent : d.parent = some parent) :
    parentFrom types space t = d.resolved.or (parentNamed types d parent space).toOption.join := by
  rw [parentFrom, hd, Option.bind_some, hparent, Option.bind_some]

/-- A name that means nothing, or that nobody can look up, gives no parent. -/
theorem parentNamed_of_parentFrom (hd : types.get? t = some d) (hparent : d.parent = some parent)
    (hp : parentFrom types space t = some p) (hunknown : d.resolved = none) :
    parentNamed types d parent space = .ok (some p) := by
  rw [parentFrom_of_get? hd hparent, hunknown, Option.none_or] at hp
  exact eq_ok_of_toOption (Option.join_eq_some_iff.mp hp)

theorem Kindred.of_parentFrom (h : Kindred types) (hp : parentFrom types space t = some p) :
    ∃ e, types.get? p = some e ∧ e.kind ≠ .define := by
  obtain ⟨d, hd, hrest⟩ := Option.bind_eq_some_iff.mp hp
  obtain ⟨parent, hparent, -⟩ := Option.bind_eq_some_iff.mp hrest
  cases hknown : d.resolved with
  | some q =>
    rw [parentFrom_of_get? hd hparent, hknown, Option.some_or] at hp
    cases hp
    exact h t d p hd hknown
  | none =>
    have hnamed := parentNamed_of_parentFrom hd hparent hp hknown
    exact singleton_of_parentNamed (s := ⟨types, .initial, .empty "", []⟩) hnamed

/-! ## What remembering a parent changes -/

/-- Remembering a parent. -/
abbrev cached (types : Registry) (t p : TypeId) : Registry :=
  types.modify t fun d => { d with resolved := d.resolved.or (some p) }

theorem lookup_cached (types : Registry) (t p : TypeId) :
    (cached types t p).lookup = types.lookup := by
  have hlike : ∀ d : Descriptor,
      Descriptor.FoundLike { d with resolved := d.resolved.or (some p) } d :=
    fun _ => ⟨rfl, rfl, rfl⟩
  exact funext fun _ => funext fun _ => Registry.ofKey?_modify hlike

theorem find_cached (types : Registry) (t p : TypeId) : (cached types t p).find = types.find := by
  funext kind space name
  rw [Registry.find, Registry.find, lookup_cached]

/-- A parent that is remembered is the one that it was before. -/
theorem parentFrom_cached (hp : parentFrom types space t = some p) :
    parentFrom (cached types t p) space = parentFrom types space := by
  funext u
  have hnamed : ∀ (d : Descriptor) known parent,
      parentNamed (cached types t p) { d with resolved := known } parent space =
        parentNamed types d parent space := fun d known parent => by
    unfold parentNamed
    rw [lookup_cached, find_cached]
  by_cases hut : u = t
  · subst hut
    obtain ⟨d, hd, hrest⟩ := Option.bind_eq_some_iff.mp hp
    obtain ⟨parent, hparent, hfrom⟩ := Option.bind_eq_some_iff.mp hrest
    have hd' : (cached types u p).get? u = some { d with resolved := d.resolved.or (some p) } := by
      rw [Registry.get?_modify, if_pos rfl, hd]
      rfl
    rw [parentFrom_of_get? hd' hparent, hp]
    cases hknown : d.resolved with
    | none => rfl
    | some q =>
      rw [hknown] at hfrom
      exact hfrom
  · rw [parentFrom, parentFrom, Registry.get?_modify, if_neg hut]
    cases types.get? u with
    | none => rfl
    | some d =>
      rw [Option.bind_some, Option.bind_some]
      refine congrArg _ (funext fun parent => ?_)
      rw [← hnamed d d.resolved parent]

/-! ## Looking up one parent -/

theorem exists_parentNamed (types : Registry) (parent space : String) (hk : d.kind ≠ .define) :
    ∃ found, parentNamed types d parent space = .ok found := by
  unfold parentNamed
  split
  · next hdefine => exact absurd hdefine hk
  · exact ⟨_, rfl⟩
  · exact ⟨_, rfl⟩

/-- Parents have been looked up from a scope with a namespace, since the types were these. -/
structure Looked (types : Registry) (space : String) (scope : ScopeId) (s : State) : Prop where
  kindred : Kindred types
  since : types.Extends s.types
  parents : parentFrom s.types space = parentFrom types space
  place : ∃ c, s.scopes.get? scope = some c ∧ c.space = space

variable {scope : ScopeId} {s : State}

namespace Looked

/-- The parent that a type has becomes known. -/
theorem remember (h : Looked types space scope s) (hp : parentFrom types space t = some p) :
    Looked types space scope { s with types := cached s.types t p } where
  kindred := h.kindred
  since := h.since.trans (s.types.extends_cache t p)
  parents := (parentFrom_cached (h.parents ▸ hp)).trans h.parents
  place := h.place

/-- The parent of a class or node is found as it was at the beginning, and is known from then on. -/
theorem resolveParent (h : Looked types space scope s) (hd : types.get? t = some d)
    (hk : d.kind ≠ .define) :
    (∃ p u, parentFrom types space t = some p ∧
      (resolveParent t (some scope)).run s = (.ok (some p), u) ∧ Looked types space scope u ∧
      s.types.Extends u.types ∧ ParentIs u.types t (some p)) ∨
    (d.parent = none ∧ (resolveParent t (some scope)).run s = (.ok none, s)) ∨
    ∃ parent, Lacks types space t d parent ∧ (resolveParent t (some scope)).run s =
      (.error (.error (.unresolvableParent d.kind d.name parent)), s) := by
  obtain ⟨e, he, hkind, hname, hnamed⟩ : ∃ e, s.types.get? t = some e ∧ e.kind = d.kind ∧
      e.name = d.name ∧ e.parent = d.parent := by
    obtain ⟨known, hd', -⟩ := h.since.kept t d hd
    exact ⟨_, hd', rfl, rfl, rfl⟩
  rw [← hkind, ← hname, ← hnamed, ← h.parents, Compilation.resolveParent, run_typeAt_bind he]
  cases hparent : e.parent with
  | none => exact .inr (.inl ⟨rfl, rfl⟩)
  | some parent =>
    have hfrom : parentFrom s.types space t = _ := parentFrom_of_get? he hparent
    cases hknown : e.resolved with
    | some p =>
      rw [hknown, Option.some_or] at hfrom
      exact .inl ⟨p, s, hfrom, rfl, h, .refl _, e, he, by rw [hparent]; rfl, hknown⟩
    | none =>
      rw [hknown, Option.none_or] at hfrom
      obtain ⟨c, hc, rfl⟩ := h.place
      obtain ⟨found, hfound⟩ := exists_parentNamed s.types parent c.space (hkind ▸ hk)
      rw [hfound] at hfrom
      dsimp only
      rw [run_scopeAt_bind hc, Run.run_get_bind, hfound]
      cases found with
      | none =>
        refine .inr (.inr ⟨parent, ⟨hd, hnamed ▸ hparent, ?_⟩, rfl⟩)
        rw [← h.parents]
        exact hfrom
      | some p =>
        refine .inl ⟨p, _, hfrom, rfl, h.remember (h.parents ▸ hfrom), s.types.extends_cache t p,
          { e with resolved := some p }, ?_, by rw [hparent]; rfl, rfl⟩
        show (cached s.types t p).get? t = _
        rw [Registry.get?_modify, if_pos rfl, he, Option.map_some, hknown]
        rfl

end Looked

/-! ## Looking up parent after parent -/

/-- A type has a name. -/
def Named (types : Registry) (t : TypeId) (name : String) : Prop :=
  ∃ d, types.get? t = some d ∧ d.name = name

theorem run_namesOf (he : types.Extends s.types) : ∀ {chain : List TypeId},
    (∀ x ∈ chain, ∃ d, types.get? x = some d) →
    ∃ names, (namesOf chain).run s = (.ok names, s) ∧ List.Forall₂ (Named types) chain names
  | [], _ => ⟨[], rfl, .nil⟩
  | x :: rest, hexist => by
    obtain ⟨d, hd⟩ := hexist x List.mem_cons_self
    obtain ⟨known, hd', -⟩ := he.kept x d hd
    obtain ⟨names, hrun, hnames⟩ := run_namesOf he fun y hy => hexist y (List.mem_cons_of_mem _ hy)
    refine ⟨d.name :: names, ?_, .cons ⟨d, hd, rfl⟩ hnames⟩
    rw [namesOf, run_typeAt_bind hd', Run.run_bind, hrun]
    rfl

/-- What keeps the parents of a type from being listed: a chain of them closes, or one of them lacks
the parent that it names. -/
inductive Unlisted (types : Registry) (space : String) (first : TypeId) (kind : Kind) :
    Failure → Prop
  | closes {last p : TypeId} {chain : List TypeId} {names : List String} :
      Way (parentFrom types space) first last chain → parentFrom types space last = some p →
      p ∈ chain → List.Forall₂ (Named types) (chain ++ [p]) names →
      Unlisted types space first kind (.error (.parentCycle kind names))
  | lacks {x : TypeId} {d : Descriptor} {parent : String} :
      Relation.ReflTransGen (Linked (parentFrom types space)) first x →
      Lacks types space x d parent →
      Unlisted types space first kind (.error (.unresolvableParent d.kind d.name parent))

/-- Parent after parent is looked up, until there is none, or one is missing, or one has come
before. The chain has no repetition, so that the types are used up before the bound is reached. -/
theorem Looked.climb {first : TypeId} {kind : Kind} : ∀ (fuel : ℕ) {chain : List TypeId}
    {last : TypeId} {s : State}, Looked types space scope s →
    Way (parentFrom types space) first last chain →
    (∀ x ∈ chain, ∃ d, types.get? x = some d ∧ d.kind ≠ .define) →
    types.types.length + 2 ≤ fuel + chain.length →
    (∃ l u, (climb (some scope) kind fuel chain last).run s = (.ok (chain ++ l), u) ∧
      Looked types space scope u ∧ s.types.Extends u.types ∧ u.types.Ancestry last l) ∨
    ∃ f u, (climb (some scope) kind fuel chain last).run s = (.error f, u) ∧
      Unlisted types space first kind f := by
  intro fuel
  induction fuel with
  | zero =>
    intro chain last s _ hway hexist hfuel
    have hle := length_le_of_nodup hway.nodup fun x hx => by
      obtain ⟨d, hd, -⟩ := hexist x hx
      exact Registry.lt_length_of_get? hd
    omega
  | succ fuel ih =>
    intro chain last s h hway hexist hfuel
    obtain ⟨d, hd, hk⟩ := hexist last hway.last_mem
    rw [Compilation.climb, Run.run_bind]
    obtain ⟨p, u, hp, hrun, hu, hext, e, he, hnamed, hknown⟩ | ⟨hnone, hrun⟩ |
        ⟨parent, hlacks, hrun⟩ :=
      h.resolveParent hd hk
    · have hexist' : ∀ x ∈ chain ++ [p], ∃ d, types.get? x = some d ∧ d.kind ≠ .define := by
        intro x hx
        rcases List.mem_append.mp hx with hx | hx
        · exact hexist x hx
        · rw [List.mem_singleton.mp hx]
          exact h.kindred.of_parentFrom hp
      rw [hrun]
      dsimp only
      split
      · next hmem =>
        have hmem' : p ∈ chain := by simpa using hmem
        obtain ⟨names, hrun', hnames⟩ := run_namesOf hu.since fun x hx =>
          (hexist' x hx).imp fun _ hd => hd.1
        refine .inr ⟨_, u, ?_, .closes hway hp hmem' hnames⟩
        rw [Run.run_bind, hrun']
        rfl
      · next hnew =>
        have hnew' : p ∉ chain := by simpa using hnew
        have hroom : types.types.length + 2 ≤ fuel + (chain ++ [p]).length := by
          rw [List.length_append, List.length_singleton]
          omega
        obtain ⟨l, v, hrun', hv, hext', hl⟩ | hfails := ih hu (hway.snoc hp hnew') hexist' hroom
        · obtain ⟨known, he', hkept⟩ := hext'.kept last e he
          refine .inl ⟨p :: l, v, by rw [hrun', List.append_assoc, List.singleton_append], hv,
            hext.trans hext', .child he' hnamed (hkept p hknown) hl⟩
        · exact .inr hfails
    · rw [hrun]
      obtain ⟨known, hd', -⟩ := h.since.kept last d hd
      exact .inl ⟨[], s, by rw [List.append_nil]; rfl, h, .refl _, .root hd' hnone⟩
    · rw [hrun]
      exact .inr ⟨_, s, rfl, .lacks (hway.reached last hway.last_mem) hlacks⟩

end SiteCatalog.Compilation
