import SiteCatalog.Compilation.Realization
import SiteCatalog.Proofs.Compilation.Contract
import SiteCatalog.Proofs.Registry

/-!
# What the entering of classes leaves alone

A condition on states that a resource may be added to, that does not depend on tags and on which
parents are known, holds at every moment while parents are looked up and classes are entered.

Results:
* `Run.Holds`: a run in which a condition holds at every moment, with a rule for each way of putting
  runs together.
* `LookingUp.ancestry`, `Entering.ensure`: what follows for parents and classes.
-/

namespace SiteCatalog.Compilation

/-- A condition holds at every moment of a history and in the last state. -/
def holding (I : State → Prop) : Contract where
  ok h s := I s ∧ ∀ v ∈ h, I v.state
  failed _ h s := I s ∧ ∀ v ∈ h, I v.state

/-- Two contracts at once. -/
def Contract.and (C D : Contract) : Contract where
  ok h s := C.ok h s ∧ D.ok h s
  failed f h s := C.failed f h s ∧ D.failed f h s

namespace Run

variable {α β : Type} {I : State → Prop} {p : Run α} {k : α → Run β}

theorem Meets.and {C D : Contract} {calls : List Call} {h : List Visit} {s : State}
    {P Q : α → State → Prop} (hp : p.Meets C calls h s P) (hq : p.Meets D calls h s Q) :
    p.Meets (C.and D) calls h s fun a t => P a t ∧ Q a t := by
  unfold Run.Meets at hp hq ⊢
  split at hp
  · next hrun =>
    rw [hrun] at hq
    exact ⟨⟨hp.1, hq.1⟩, hp.2, hq.2⟩
  · next hrun =>
    rw [hrun] at hq
    exact ⟨hp, hq⟩

/-- A condition that holds when a run begins, wherever that is, holds at every moment of it. -/
def Holds (p : Run α) (I : State → Prop) : Prop :=
  ∀ calls h s, I s → (∀ v ∈ h, I v.state) → p.Meets (holding I) calls h s fun _ _ => True

theorem forall_append_visit {h : List Visit} {v : Visit} (hh : ∀ w ∈ h, I w.state)
    (hv : I v.state) : ∀ w ∈ h ++ [v], I w.state := by
  intro w hmem
  rcases List.mem_append.mp hmem with hmem | hmem
  · exact hh w hmem
  · rw [List.mem_singleton.mp hmem]
    exact hv

theorem Meets.addResource_holding {r : Resource} {calls : List Call} {h : List Visit} {s : State}
    (hI : I s) (hv : ∀ v ∈ h, I v.state) (hadd : I { s with catalog := s.catalog.append r }) :
    (Compilation.addResource r).Meets (holding I) calls h s fun _ _ => True :=
  Meets.mono (Meets.addResource (fun _ => ⟨hadd, forall_append_visit hv hadd⟩)
    fun _ _ => ⟨hI, hv⟩) fun _ _ _ => trivial

namespace Holds

theorem pure {a : α} : (Pure.pure a : Run α).Holds I :=
  fun _ _ _ hI hv => Meets.pure ⟨hI, hv⟩ trivial

theorem stop {f : Failure} : (Compilation.stop f : Run α).Holds I :=
  fun _ _ _ hI hv => Meets.stop ⟨hI, hv⟩

theorem bind (hp : p.Holds I) (hk : ∀ a, (k a).Holds I) : (p >>= k).Holds I :=
  fun calls h s hI hv => Meets.bind (hp calls h s hI hv) fun a h' t hok _ =>
    hk a calls h' t hok.1 hok.2

theorem get_bind {k : State → Run β} (hk : ∀ s, (k s).Holds I) : (get >>= k).Holds I :=
  fun calls h s hI hv => Meets.get_bind (hk s calls h s hI hv)

theorem update {f : State → State} (hf : ∀ s, I s → I (f s)) : (Compilation.update f).Holds I :=
  fun _ _ s hI hv => Meets.mono (Meets.update ⟨hf s hI, forall_append_visit hv (hf s hI)⟩)
    fun _ _ _ => trivial

theorem follow {c : Call} (hp : p.Holds I) : (Compilation.follow c p).Holds I := by
  intro calls h s hI hv
  refine Meets.follow ((hp (c :: calls) _ s hI (forall_append_visit hv hI)).imp ?_ ?_)
  · exact fun _ h' t hok htrue => ⟨⟨hok.1, forall_append_visit hok.2 hok.1⟩, htrue⟩
  · exact fun _ h' t hok => ⟨hok.1, forall_append_visit hok.2 hok.1⟩

theorem ofExcept {x : Except CompileError α} : (Compilation.ofExcept x).Holds I := by
  cases x with
  | ok a => exact pure
  | error e => exact stop

theorem existing {o : Option α} : (Compilation.existing o).Holds I := by
  cases o with
  | none => exact stop
  | some a => exact pure

theorem typeAt {t : TypeId} : (Compilation.typeAt t).Holds I :=
  get_bind fun _ => existing

/-- What is done with a type may depend on its being there. -/
theorem typeAt_bind {t : TypeId} {k : Descriptor → Run β}
    (hk : ∀ d calls h s, s.types.get? t = some d → I s → (∀ v ∈ h, I v.state) →
      (k d).Meets (holding I) calls h s fun _ _ => True) :
    (Compilation.typeAt t >>= k).Holds I :=
  fun calls h s hI hv => .existing_bind ⟨hI, hv⟩ fun d hd => hk d calls h s hd hI hv

theorem scopeAt {i : ScopeId} : (Compilation.scopeAt i).Holds I :=
  get_bind fun _ => existing

theorem resourceAt {id : ResourceId} : (Compilation.resourceAt id).Holds I :=
  get_bind fun _ => existing

theorem addResource {r : Resource}
    (hadd : ∀ s, I s → I { s with catalog := s.catalog.append r }) :
    (Compilation.addResource r).Holds I :=
  fun _ _ s hI hv => .addResource_holding hI hv (hadd s hI)

theorem of_mem_visits {calls : List Call} {s : State} {v : Visit} (hp : p.Holds I) (hs : I s)
    (hv : v ∈ p.visits calls s) : I v.state := by
  have hmeets := hp calls [] s hs fun _ hmem => nomatch hmem
  unfold Run.Meets at hmeets
  split at hmeets
  · exact hmeets.1.2 v hv
  · exact hmeets.2 v hv

end Holds

end Run

/-- The changes that happen while parents are looked up. -/
structure LookingUp (I : State → Prop) : Prop where
  types : ∀ s types, s.types.Extends types → I s → I { s with types }

/-- The changes that happen while a class is entered with parameters; its parents have none. -/
structure Entering (params : Table Value) (I : State → Prop) : Prop extends LookingUp I where
  add : ∀ s type d scope supplied, s.types.get? type = some d → supplied = [] ∨ supplied = params →
    I s → I { s with
      catalog := s.catalog.append
        (.ofType d.resourceTag d.resourceTitle scope (some type) supplied) }
  tag : ∀ s names, I s → I { s with catalog := s.catalog.tag names }

namespace LookingUp

open Run (Holds)

variable {I : State → Prop} (h : LookingUp I)

include h

theorem resolveParent (type : TypeId) (scope : Option ScopeId) :
    (resolveParent type scope).Holds I := by
  refine .bind .typeAt fun d => ?_
  split
  · exact .pure
  · exact .pure
  · split
    · exact .stop
    · refine .bind .scopeAt fun c => .get_bind fun s => .bind .ofExcept fun found => ?_
      cases found with
      | none => exact .stop
      | some found =>
        exact .bind (.update fun s hI => h.types s _ (s.types.extends_cache type found) hI)
          fun _ => .pure

omit h in
theorem namesOf : ∀ types : List TypeId, (namesOf types).Holds I
  | [] => .pure
  | _ :: rest => .bind .typeAt fun _ => .bind (namesOf rest) fun _ => .pure

theorem climb (scope : Option ScopeId) (kind : Kind) : ∀ (fuel : Nat) (chain : List TypeId)
    (last : TypeId), (climb scope kind fuel chain last).Holds I := by
  intro fuel
  induction fuel with
  | zero => exact fun _ _ => .stop
  | succ fuel ih =>
    intro chain last
    refine .bind (h.resolveParent last scope) fun parent => ?_
    cases parent with
    | none => exact .pure
    | some parent =>
      dsimp only
      split
      · exact .bind (namesOf _) fun _ => .stop
      · exact ih _ parent

theorem ancestry (type : TypeId) (scope : Option ScopeId) : (ancestry type scope).Holds I :=
  .bind .typeAt fun d => .get_bind fun _ => .bind (h.climb scope d.kind _ _ _) fun _ => .pure

omit h in
/-- Since the state `s` parents have become known at most. -/
theorem since (s : State) :
    LookingUp fun t => ∃ types, s.types.Extends types ∧ t = { s with types } where
  types := by
    rintro _ types he ⟨known, hknown, rfl⟩
    exact ⟨types, hknown.trans he, rfl⟩

end LookingUp

namespace Entering

open Run (Holds)

variable {params : Table Value} {I : State → Prop} (h : Entering params I)

include h

omit h in
theorem realized? (type : TypeId) : (realized? type).Holds I := by
  refine .bind .typeAt fun d => ?_
  split
  · exact .stop
  · refine .get_bind fun s => ?_
    split
    · exact .pure
    · refine .bind .resourceAt fun r => ?_
      split
      · exact .pure
      · exact .stop

theorem addSingleton (scope : ScopeId) (type : TypeId) (ancestors : List TypeId)
    {supplied : Table Value} (hsupplied : supplied = [] ∨ supplied = params) :
    (addSingleton scope type ancestors supplied).Holds I := by
  refine .typeAt_bind fun d calls hist s hd hI hv => ?_
  refine .bind (.addResource_holding hI hv (h.add s type d scope _ hd hsupplied hI)) ?_
  rintro id hist' t ⟨hI', hv'⟩ -
  have hrest := fun names => Run.Holds.update fun s hI => h.tag s (d.resourceTitle :: names) hI
  exact Run.Holds.bind (LookingUp.namesOf ancestors)
    (fun names => .bind (hrest names) fun _ => .pure) calls hist' t hI' hv'

theorem realizeChain (scope : ScopeId) : ∀ types : List TypeId, (realizeChain scope types).Holds I
  | [] => .pure
  | type :: ancestors => by
    refine .bind (realized? type) fun found => ?_
    cases found with
    | some _ => exact .pure
    | none =>
      refine .bind (realizeChain scope ancestors) fun _ => ?_
      exact .bind (h.addSingleton scope type ancestors (.inl rfl)) fun _ => .pure

theorem ensure (type : TypeId) (scope : ScopeId) : (ensure type scope params).Holds I := by
  refine .bind (realized? type) fun found => ?_
  cases found with
  | some _ => exact .pure
  | none =>
    refine .bind (h.ancestry type (some scope)) fun ancestors => ?_
    refine .bind (h.realizeChain scope ancestors) fun _ => ?_
    exact h.addSingleton scope type ancestors (.inr rfl)

end Entering

/-- The scopes are none of its business. -/
theorem entering_scopes (params : Table Value) (scopes : Scopes) :
    Entering params fun s => s.scopes = scopes where
  types := fun _ _ _ hI => hI
  add := fun _ _ _ _ _ _ _ hI => hI
  tag := fun _ _ hI => hI

/-- Classes that are entered without parameters have none. -/
theorem entering_params : Entering [] fun s => ∀ r ∈ s.catalog.resources, r.params = [] where
  types := fun _ _ _ hI => hI
  add := by
    intro s type d scope supplied _ hsupplied hI r hr
    rcases List.mem_append.mp hr with hr | hr
    · exact hI r hr
    · rw [List.mem_singleton.mp hr]
      exact hsupplied.elim id id
  tag := fun _ _ hI => hI

end SiteCatalog.Compilation
