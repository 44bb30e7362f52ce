import SiteCatalog.Proofs.Compilation.Parentage
import SiteCatalog.Proofs.Compilation.Walk

/-!
# What later states remember

A compilation takes back no type and no parent that has become known. The states that it goes
through are compared in pairs, the earlier with the later, and not only with the first.

Results:
* `Onward`: every state of a run is related to all later ones, with a rule for each way of putting
  runs together.
* `Typed.walk`, `Typed.phases`: a property of runs that depends on types alone has to be shown of
  the looking up of one parent.
* `states_keep`: the parents that become known are classes and nodes, and stay known.
-/

namespace SiteCatalog

namespace Registry

variable {r r' r'' : Registry} {t : TypeId} {l : List TypeId}

/-- Every type of a registry is there in another one, with its parent if that was known. -/
def Remembers (r r' : Registry) : Prop :=
  ∀ t d, r.get? t = some d → ∃ resolved, r'.get? t = some { d with resolved } ∧
    ∀ p, d.resolved = some p → resolved = some p

theorem Extends.remembers (h : r.Extends r') : r.Remembers r' :=
  h.kept

namespace Remembers

@[refl] theorem refl (r : Registry) : r.Remembers r :=
  (Extends.refl r).kept

theorem trans (h : r.Remembers r') (h' : r'.Remembers r'') : r.Remembers r'' := by
  intro t d hd
  obtain ⟨known, hd', hk⟩ := h t d hd
  obtain ⟨known', hd'', hk'⟩ := h' t _ hd'
  exact ⟨known', hd'', fun p hp => hk' p (hk p hp)⟩

theorem parent? (h : r.Remembers r') {p : TypeId} (hp : r.parent? t = some p) :
    r'.parent? t = some p := by
  obtain ⟨d, hd, hp⟩ := Option.bind_eq_some_iff.mp hp
  obtain ⟨hparent, hresolved⟩ := Option.ite_none_right_eq_some.mp hp
  obtain ⟨known, hd', hknown⟩ := h t d hd
  rw [Registry.parent?, hd', Option.bind_some, if_pos hparent]
  exact hknown p hresolved

end Remembers

theorem remembers_add {d : Descriptor} {x : TypeId × Registry} (h : r.add d = .ok x) :
    r.Remembers x.2 := by
  rw [add_eq_ok h]
  intro t d' hd'
  exact ⟨d'.resolved, get?_append_of_get? hd' d, fun _ hp => hp⟩

/-- The known parents of a type stay what they are. -/
theorem Ancestry.of_remembers (hl : r.Ancestry t l) (h : r.Remembers r') : r'.Ancestry t l := by
  induction hl with
  | root hd hn =>
    obtain ⟨_, hd', -⟩ := h _ _ hd
    exact .root hd' hn
  | child hd hs hp _ ih =>
    obtain ⟨_, hd', hk⟩ := h _ _ hd
    exact .child hd' hs (hk _ hp) ih

end Registry

namespace Compilation

/-! ## Earlier and later states of a run -/

/-- The states of a run, from the first one on. -/
def Run.trail {α : Type} (p : Run α) (calls : List Call) (s : State) : List State :=
  s :: (p.visits calls s).map (·.state)

/-- Every state of a run is related to all later ones, and to the one that is left behind. -/
structure Run.Onward {α : Type} (R : State → State → Prop) (p : Run α) (s : State) : Prop where
  pairwise : ∀ calls, (p.trail calls s).Pairwise R
  last : ∀ calls, ∀ t ∈ p.trail calls s, R t (p.run s).2

namespace Run.Onward

variable {α β : Type} {R : State → State → Prop} {p : Run α} {k : α → Run β} {s : State}

theorem pure (hrefl : ∀ s, R s s) (a : α) : (Pure.pure a : Run α).Onward R s where
  pairwise := fun _ => List.pairwise_singleton R s
  last := by
    intro calls t ht
    rw [List.mem_singleton.mp ht]
    exact hrefl s

theorem stop (hrefl : ∀ s, R s s) (f : Failure) : (Compilation.stop f : Run α).Onward R s where
  pairwise := fun _ => List.pairwise_singleton R s
  last := by
    intro calls t ht
    rw [List.mem_singleton.mp ht]
    exact hrefl s

theorem bind (htrans : ∀ s t u, R s t → R t u → R s u) (hp : p.Onward R s)
    (hk : ∀ a t, p.run s = (.ok a, t) → (k a).Onward R t) : (p >>= k).Onward R s := by
  have htrail : ∀ calls a t, p.run s = (.ok a, t) →
      (p >>= k).trail calls s = p.trail calls s ++ ((k a).visits calls t).map (·.state) := by
    intro calls a t hrun
    rw [trail, trail, visits_bind_of_ok hrun, List.map_append, List.cons_append]
  have hstopped : ∀ calls f t, p.run s = (.error f, t) →
      (p >>= k).trail calls s = p.trail calls s := by
    intro calls f t hrun
    rw [trail, trail, visits_bind, hrun, List.append_nil]
  rcases hrun : p.run s with ⟨f | a, t⟩
  · constructor
    · intro calls
      rw [hstopped calls f t hrun]
      exact hp.pairwise calls
    · intro calls
      rw [hstopped calls f t hrun, run_bind, hrun]
      have hlast := hp.last calls
      rwa [hrun] at hlast
  · have hnext := hk a t hrun
    have hlast : ∀ calls, ∀ u ∈ p.trail calls s, R u t := fun calls => by
      have := hp.last calls
      rwa [hrun] at this
    constructor
    · intro calls
      obtain ⟨hfirst, hrest⟩ := List.pairwise_cons.mp (hnext.pairwise calls)
      rw [htrail calls a t hrun, List.pairwise_append]
      refine ⟨hp.pairwise calls, hrest, fun u hu v hv => ?_⟩
      exact htrans u t v (hlast calls u hu) (hfirst v hv)
    · intro calls u hu
      rw [run_bind, hrun]
      rw [htrail calls a t hrun] at hu
      rcases List.mem_append.mp hu with hu | hu
      · exact htrans u t _ (hlast calls u hu) (hnext.last calls t List.mem_cons_self)
      · exact hnext.last calls u (List.mem_cons_of_mem _ hu)

theorem get_bind {k : State → Run β} (hk : (k s).Onward R s) : (get >>= k).Onward R s :=
  ⟨hk.pairwise, hk.last⟩

theorem update (hrefl : ∀ s, R s s) {f : State → State} (hf : R s (f s)) :
    (Compilation.update f).Onward R s where
  pairwise := fun _ => List.pairwise_pair.mpr hf
  last := by
    intro calls t ht
    rcases List.mem_pair.mp ht with rfl | rfl
    · exact hf
    · exact hrefl _

/-- The beginning and the end of a call repeat the states between which it stands. -/
theorem follow (hrefl : ∀ s, R s s) {c : Call} (hp : p.Onward R s) :
    (Compilation.follow c p).Onward R s := by
  have htrail : ∀ calls, (Compilation.follow c p).trail calls s =
      s :: (p.trail (c :: calls) s ++ [(p.run s).2]) := by
    intro calls
    simp [trail, visits_follow]
  constructor
  · intro calls
    obtain ⟨hfirst, -⟩ := List.pairwise_cons.mp (hp.pairwise (c :: calls))
    rw [htrail, List.pairwise_cons, List.pairwise_append]
    refine ⟨fun t ht => ?_, hp.pairwise _, List.pairwise_singleton _ _, fun t ht u hu => ?_⟩
    · rcases List.mem_append.mp ht with ht | ht
      · rcases List.mem_cons.mp ht with rfl | ht
        · exact hrefl _
        · exact hfirst t ht
      · rw [List.mem_singleton.mp ht]
        exact hp.last (c :: calls) s List.mem_cons_self
    · rw [List.mem_singleton.mp hu]
      exact hp.last (c :: calls) t ht
  · intro calls t ht
    rw [run_follow]
    rw [htrail] at ht
    rcases List.mem_cons.mp ht with rfl | ht
    · exact hp.last (c :: calls) _ List.mem_cons_self
    · rcases List.mem_append.mp ht with ht | ht
      · exact hp.last (c :: calls) t ht
      · rw [List.mem_singleton.mp ht]
        exact hrefl _

theorem existing_bind (hrefl : ∀ s, R s s) {o : Option α}
    (hk : ∀ a, o = some a → (k a).Onward R s) :
    (Compilation.existing o >>= k).Onward R s := by
  cases o with
  | none => exact stop hrefl _
  | some a => exact hk a rfl

theorem typeAt_bind (hrefl : ∀ s, R s s) {t : TypeId} {k : Descriptor → Run β}
    (hk : ∀ d, s.types.get? t = some d → (k d).Onward R s) :
    (Compilation.typeAt t >>= k).Onward R s := by
  have hexisting : (Compilation.existing (s.types.get? t) >>= k).Onward R s :=
    existing_bind hrefl hk
  exact ⟨hexisting.pairwise, hexisting.last⟩

theorem scopeAt_bind (hrefl : ∀ s, R s s) {i : ScopeId} {k : Scope → Run β}
    (hk : ∀ c, s.scopes.get? i = some c → (k c).Onward R s) :
    (Compilation.scopeAt i >>= k).Onward R s := by
  have hexisting : (Compilation.existing (s.scopes.get? i) >>= k).Onward R s :=
    existing_bind hrefl hk
  exact ⟨hexisting.pairwise, hexisting.last⟩

theorem ofExcept_bind (hrefl : ∀ s, R s s) {x : Except CompileError α}
    (hk : ∀ a, x = .ok a → (k a).Onward R s) : (Compilation.ofExcept x >>= k).Onward R s := by
  cases x with
  | error e => exact stop hrefl _
  | ok a => exact hk a rfl

theorem composed (hrefl : ∀ s, R s s) (htrans : ∀ s t u, R s t → R t u → R s u) :
    Compositional fun _ p => ∀ s, p.Onward R s where
  pure := fun a _ => pure hrefl a
  stop := fun f _ => stop hrefl f
  bind := fun hp hk s => bind htrans (hp s) fun a t _ => hk a t
  get_bind := fun hk s => get_bind (hk s s)
  follow := fun hp s => follow hrefl (hp s)

end Run.Onward

/-! ## Properties of runs that depend on types alone -/

/-- A property `U` of runs that the looking up of a parent has and every change that leaves types
alone, and that is passed on to runs that are put together. -/
structure Typed (U : (α : Type) → Run α → Prop) : Prop extends Compositional U where
  untouched : ∀ f : State → State, (∀ s, (f s).types = s.types) → U Unit (update f)
  resolveParent : ∀ type scope, U (Option TypeId) (resolveParent type scope)

namespace Typed

variable {U : (α : Type) → Run α → Prop} (h : Typed U)

include h

theorem namesOf : ∀ types : List TypeId, U (List String) (namesOf types)
  | [] => h.pure _
  | t :: rest => h.bind (h.typeAt t) fun _ => h.bind (namesOf rest) fun _ => h.pure _

theorem climb (scope : Option ScopeId) (kind : Kind) : ∀ (fuel : ℕ) (chain : List TypeId)
    (last : TypeId), U (List TypeId) (climb scope kind fuel chain last) := by
  intro fuel
  induction fuel with
  | zero => exact fun _ _ => h.stop _
  | succ fuel ih =>
    refine fun chain last => h.bind (h.resolveParent last scope) fun parent => ?_
    cases parent with
    | none => exact h.pure chain
    | some parent =>
      dsimp only
      split
      · exact h.bind (h.namesOf _) fun _ => h.stop _
      · exact ih _ parent

theorem ancestry (type : TypeId) (scope : Option ScopeId) :
    U (List TypeId) (ancestry type scope) :=
  h.bind (h.typeAt type) fun d => h.get_bind fun _ =>
    h.bind (h.climb scope d.kind _ _ _) fun _ => h.pure _

theorem addResource (r : Resource) : U ResourceId (addResource r) :=
  h.get_bind fun _ => h.bind (h.ofExcept _) fun _ =>
    h.bind (h.untouched _ fun _ => rfl) fun _ => h.pure _

theorem addSingleton (scope : ScopeId) (type : TypeId) (ancestors : List TypeId)
    (params : Table Value) : U ResourceId (addSingleton scope type ancestors params) :=
  h.bind (h.typeAt type) fun _ => h.bind (h.addResource _) fun _ =>
    h.bind (h.namesOf ancestors) fun _ => h.bind (h.untouched _ fun _ => rfl) fun _ => h.pure _

theorem realized? (type : TypeId) : U (Option ResourceId) (realized? type) := by
  refine h.bind (h.typeAt type) fun d => ?_
  split
  · exact h.stop _
  · refine h.get_bind fun s => ?_
    split
    · exact h.pure none
    · refine h.bind (h.resourceAt _) fun r => ?_
      split
      · exact h.pure _
      · exact h.stop _

theorem realizeChain (scope : ScopeId) : ∀ types : List TypeId, U Unit (realizeChain scope types)
  | [] => h.pure ()
  | type :: ancestors => by
    refine h.bind (h.realized? type) fun found => ?_
    cases found with
    | some _ => exact h.pure ()
    | none =>
      exact h.bind (realizeChain scope ancestors) fun _ =>
        h.bind (h.addSingleton scope type ancestors []) fun _ => h.pure ()

theorem ensure (type : TypeId) (scope : ScopeId) (params : Table Value) :
    U ResourceId (ensure type scope params) := by
  refine h.bind (h.realized? type) fun found => ?_
  cases found with
  | some id => exact h.pure id
  | none =>
    exact h.bind (h.ancestry type (some scope)) fun ancestors =>
      h.bind (h.realizeChain scope ancestors) fun _ => h.addSingleton scope type ancestors params

theorem declareOther (scope : ScopeId) (type title : String) (params : Table Value) :
    U ResourceId (declareOther scope type title params) := by
  refine h.bind (h.scopeAt scope) fun c => h.get_bind fun s => ?_
  split
  · exact h.bind (h.typeAt _) fun _ => h.addResource _
  · exact h.addResource _

/-- Evaluation has the property. -/
theorem walk : Walk U where
  toCompositional := h.toCompositional
  modifyScopes := fun _ => h.untouched _ fun _ => rfl
  note := fun _ => h.untouched _ fun _ => rfl
  setParameter := fun _ _ _ => h.untouched _ fun _ => rfl
  addClass := fun _ => h.untouched _ fun _ => rfl
  ancestry := h.ancestry
  request := h.request (fun _ => h.untouched _ fun _ => rfl) h.ensure
  declareOther := fun scope type title params _ _ => h.declareOther scope type title params

/-- A whole compilation has the property, if the adding of the unnamed class has it. -/
theorem phases (hmain : U TypeId (addType (.ofName .hostclass ""))) (rounds : ℕ) (host : Host)
    (settings : Settings) : U Unit (phases rounds host settings) :=
  h.walk.phases (fun _ => h.untouched _ fun _ => rfl) hmain (h.untouched _ fun _ => rfl) rounds host
    settings

end Typed

/-! ## What a compilation remembers -/

/-- As long as known parents are classes and nodes, they still are later on, and stay known. -/
def Keeps (s t : State) : Prop :=
  Kindred s.types → Kindred t.types ∧ s.types.Remembers t.types

variable {s t : State}

theorem Keeps.refl (s : State) : Keeps s s :=
  fun h => ⟨h, .refl _⟩

theorem Keeps.trans (s t u : State) (h : Keeps s t) (h' : Keeps t u) : Keeps s u := by
  intro hs
  obtain ⟨ht, hst⟩ := h hs
  obtain ⟨hu, htu⟩ := h' ht
  exact ⟨hu, hst.trans htu⟩

theorem Keeps.of_types (h : t.types = s.types) : Keeps s t := by
  intro hs
  rw [h]
  exact ⟨hs, .refl _⟩

theorem Kindred.cached {types : Registry} {t p : TypeId} (h : Kindred types)
    (hp : ∃ e, types.get? p = some e ∧ e.kind ≠ .define) : Kindred (cached types t p) := by
  have hkept : ∀ x, (∃ e, types.get? x = some e ∧ e.kind ≠ .define) →
      ∃ e, (Compilation.cached types t p).get? x = some e ∧ e.kind ≠ .define := by
    rintro x ⟨e, he, hk⟩
    obtain ⟨known, he', -⟩ := (types.extends_cache t p).kept x e he
    exact ⟨_, he', hk⟩
  intro u d q hd hq
  rw [Registry.get?_modify] at hd
  split at hd
  · obtain ⟨d', hd', rfl⟩ := Option.map_eq_some_iff.mp hd
    rcases Option.or_eq_some_iff.mp hq with hq | ⟨-, hq⟩
    · exact hkept q (h u d' q hd' hq)
    · cases hq
      exact hkept p hp
  · exact hkept q (h u d q hd hq)

theorem resolveParent_onward (type : TypeId) (scope : Option ScopeId) (s : State) :
    (resolveParent type scope).Onward Keeps s := by
  refine .typeAt_bind Keeps.refl fun d _ => ?_
  split
  · exact .pure Keeps.refl _
  · exact .pure Keeps.refl _
  · split
    · exact .stop Keeps.refl _
    · refine .scopeAt_bind Keeps.refl fun c _ => .get_bind (.ofExcept_bind Keeps.refl ?_)
      intro found hfound
      cases found with
      | none => exact .stop Keeps.refl _
      | some p =>
        refine .bind Keeps.trans (.update Keeps.refl fun hs => ?_) fun _ _ _ => .pure Keeps.refl _
        exact ⟨hs.cached (singleton_of_parentNamed hfound),
          (s.types.extends_cache type p).remembers⟩

theorem addMain_onward (s : State) : (addType (.ofName .hostclass "")).Onward Keeps s := by
  refine .get_bind (.ofExcept_bind Keeps.refl fun x hx => ?_)
  have hremembers := Registry.remembers_add hx
  refine .bind Keeps.trans (.update Keeps.refl fun hs => ⟨?_, hremembers⟩)
    fun _ _ _ => .pure Keeps.refl _
  intro t d p hd hp
  have hd' : s.types.get? t = some d := by
    rw [Registry.add_eq_ok hx, Registry.get?_append] at hd
    split at hd
    · cases hd
      cases hp
    · exact hd
  obtain ⟨e, he, hk⟩ := hs t d p hd' hp
  obtain ⟨known, he', -⟩ := hremembers p e he
  exact ⟨_, he', hk⟩

theorem typed_onward : Typed fun _ p => ∀ s, p.Onward Keeps s where
  toCompositional := Run.Onward.composed Keeps.refl Keeps.trans
  untouched := fun _ hf s => .update Keeps.refl (.of_types (hf s))
  resolveParent := resolveParent_onward

variable {rounds : ℕ} {types : Registry} {host : Host} {settings : Settings}

/-- No parent is known in a site that has just been read. -/
theorem kindred_of_unresolved (h : ∀ d ∈ types.types, d.resolved = none) : Kindred types := by
  intro t d p hd hp
  rw [h d (List.mem_of_getElem? hd)] at hp
  cases hp

/-- In every state of a compilation the known parents are classes and nodes, and later states know
them too. -/
theorem states_keep (h : Kindred types) :
    (∀ s ∈ states rounds types host settings, Kindred s.types) ∧
    (states rounds types host settings).Pairwise fun s t => s.types.Remembers t.types := by
  have hpairwise : (states rounds types host settings).Pairwise Keeps :=
    (typed_onward.phases addMain_onward rounds host settings (.initial types host)).pairwise []
  have hall : ∀ s ∈ states rounds types host settings, Kindred s.types := by
    intro s hs
    rcases List.mem_cons.mp hs with rfl | hs
    · exact h
    · exact ((List.pairwise_cons.mp hpairwise).1 s hs h).1
  exact ⟨hall, hpairwise.imp_of_mem fun hs _ hst => (hst (hall _ hs)).2⟩

end Compilation

end SiteCatalog
