import SiteCatalog.Proofs.Compilation.ScopeChanges

/-!
# What a run may do to the state

Between two states of a compilation the types, resources, bindings and lists of the first are still
there in the second. Beyond that a run does not remember scopes for classes that are being evaluated
when it starts, and a scope to which nothing refers stays like that, unless the run happens in it.

Results:
* `Step.refl`, `Step.trans`: runs can be put together.
* `Step.evaluated`, `Step.mainRealized`, `Step.mainStarted`: what has happened has happened.
* `Step.of_lists`, `Step.mark`, `Step.setParameter`, `Step.assign`: the changes that may happen in
  any state.
* `Step.push`, `Step.bindOwn`, `Step.putBelow`, `Step.record`: the changes that the evaluation of a
  resource may make in the scope that it has for its own.
-/

namespace SiteCatalog

/-- A resource as it may become: evaluated, and with more parameters. -/
structure Resource.Grows (r r' : Resource) : Prop where
  tag : r'.tag = r.tag
  title : r'.title = r.title
  scope : r'.scope = r.scope
  source : r'.source = r.source
  evaluated : r.evaluated = true → r'.evaluated = true
  params : ∀ name v, r.params.find? name = some v → r'.params.find? name = some v

namespace Resource.Grows

@[refl] theorem refl (r : Resource) : r.Grows r :=
  ⟨rfl, rfl, rfl, rfl, id, fun _ _ h => h⟩

theorem trans {r r' r'' : Resource} (h : r.Grows r') (h' : r'.Grows r'') : r.Grows r'' where
  tag := h'.tag.trans h.tag
  title := h'.title.trans h.title
  scope := h'.scope.trans h.scope
  source := h'.source.trans h.source
  evaluated := fun he => h'.evaluated (h.evaluated he)
  params := fun name v hv => h'.params name v (h.params name v hv)

end Resource.Grows

/-- Every variable of a scope keeps its value and the scope its parent. -/
structure Scope.Keeps (c c' : Scope) : Prop where
  parent : c'.parent = c.parent
  vars : ∀ name v, c.vars.find? name = some v → c'.vars.find? name = some v

/-- Nothing of a scope changes but its variables and its parent. -/
def Scope.Same (c c' : Scope) : Prop :=
  c' = { c with vars := c'.vars, parent := c'.parent }

theorem Scope.Same.trans {c c' c'' : Scope} (h : c.Same c') (h' : c'.Same c'') : c.Same c'' := by
  rw [Scope.Same] at h h' ⊢
  rw [h', h]

namespace Compilation

/-- What a run that happens in a scope may do to the state. -/
structure Step (scope : ScopeId) (s t : State) (anywhere : Prop := False) : Prop where
  types : s.types.Extends t.types
  resources : ∀ id r, s.catalog.get? id = some r →
    ∃ r', t.catalog.get? id = some r' ∧ r.Grows r'
  tags : s.catalog.tags <+: t.catalog.tags
  classes : s.catalog.classes <+: t.catalog.classes
  /-- The top is only certain to be kept once the unnamed class has been started, and no scope is if
  classes may be evaluated `anywhere`. -/
  scopes : ∀ k c, s.scopes.get? k = some c → ∃ c', t.scopes.get? k = some c' ∧ c.Same c' ∧
    (¬anywhere → (k = Scopes.top → MainStarted s) → c.Keeps c')
  ofType : ∀ ty, Evaluated s ty → t.scopes.ofType? ty = s.scopes.ofType? ty
  hidden : ∀ k, Hidden s k → k ≠ scope → Hidden t k

namespace Step

variable {scope : ScopeId} {o s t s' : State} {anywhere : Prop}

/-! ## What stays true -/

theorem singleton (h : Step scope s t anywhere) {ty : TypeId} (hty : Singleton s ty) :
    Singleton t ty :=
  hty.of_extends h.types

theorem singleton_back (h : Step scope s t anywhere) {ty : TypeId} (hty : Singleton t ty) :
    Singleton s ty := by
  obtain ⟨d', hd', hk⟩ := hty
  obtain ⟨d, hd, heq, -⟩ := h.types.kept_back hd'
  rw [heq] at hk
  exact ⟨d, hd, hk⟩

theorem evaluated (h : Step scope s t anywhere) {ty : TypeId} (hty : Evaluated s ty) :
    Evaluated t ty := by
  obtain ⟨id, r, hr, hs, he⟩ := hty
  obtain ⟨r', hr', hg⟩ := h.resources id r hr
  exact ⟨id, r', hr', hg.source.trans hs, hg.evaluated he⟩

theorem done (h : Step scope s t anywhere) {id : ResourceId} (hid : Done s id) : Done t id := by
  obtain ⟨r, hr, he⟩ := hid
  obtain ⟨r', hr', hg⟩ := h.resources id r hr
  exact ⟨r', hr', hg.evaluated he⟩

theorem mainRealized (h : Step scope s t anywhere) (hm : MainRealized s) : MainRealized t := by
  obtain ⟨id, r, ty, d, hr, hs, hd, hmain⟩ := hm
  obtain ⟨r', hr', hg⟩ := h.resources id r hr
  obtain ⟨_, hd', -⟩ := h.types.kept ty d hd
  exact ⟨id, r', ty, _, hr', hg.source.trans hs, hd', hmain⟩

theorem mainStarted (h : Step scope s t anywhere) (hm : MainStarted s) : MainStarted t := by
  obtain ⟨ty, d, hd, hmain, he⟩ := hm
  obtain ⟨_, hd', -⟩ := h.types.kept ty d hd
  exact ⟨ty, _, hd', hmain, h.evaluated he⟩

theorem length_le (h : Step scope s t anywhere) :
    s.scopes.arena.length ≤ t.scopes.arena.length := by
  by_contra hlt
  have hget : s.scopes.get? t.scopes.arena.length = some s.scopes.arena[t.scopes.arena.length] :=
    List.getElem?_eq_getElem (by omega)
  obtain ⟨c', hc', -⟩ := h.scopes _ _ hget
  exact absurd (Scopes.lt_length_of_get? hc') (Nat.lt_irrefl _)

theorem refl (scope : ScopeId) (s : State) : Step scope s s anywhere where
  types := .refl _
  resources := fun _ r hr => ⟨r, hr, .refl r⟩
  tags := List.prefix_refl _
  classes := List.prefix_refl _
  scopes := fun _ c hc => ⟨c, hc, rfl, fun _ _ => ⟨rfl, fun _ _ h => h⟩⟩
  ofType := fun _ _ => rfl
  hidden := fun _ hk _ => hk

/-- What may happen if calls are made in order may happen anyway. -/
theorem loosen (h : Step scope s t) (anywhere : Prop) : Step scope s t anywhere where
  types := h.types
  resources := h.resources
  tags := h.tags
  classes := h.classes
  scopes := by
    intro k c hc
    obtain ⟨c', hc', hs, hk⟩ := h.scopes k c hc
    exact ⟨c', hc', hs, fun _ => hk not_false⟩
  ofType := h.ofType
  hidden := h.hidden

/-- A run and a run in another scope, to which something referred before both. -/
theorem trans_of_visible {other : ScopeId} (h : Step scope o s anywhere)
    (h' : Step other s t anywhere) (hother : Hidden o other → other = scope) :
    Step scope o t anywhere where
  types := h.types.trans h'.types
  resources := by
    intro id r hr
    obtain ⟨r', hr', hg⟩ := h.resources id r hr
    obtain ⟨r'', hr'', hg'⟩ := h'.resources id r' hr'
    exact ⟨r'', hr'', hg.trans hg'⟩
  tags := h.tags.trans h'.tags
  classes := h.classes.trans h'.classes
  scopes := by
    intro k c hc
    obtain ⟨c', hc', hs, hk⟩ := h.scopes k c hc
    obtain ⟨c'', hc'', hs', hk'⟩ := h'.scopes k c' hc'
    refine ⟨c'', hc'', hs.trans hs', fun horder htop => ?_⟩
    have hkeep := hk horder htop
    have hkeep' := hk' horder fun heq => h.mainStarted (htop heq)
    exact ⟨hkeep'.parent.trans hkeep.parent,
      fun name v hv => hkeep'.vars name v (hkeep.vars name v hv)⟩
  ofType := fun ty hty => (h'.ofType ty (h.evaluated hty)).trans (h.ofType ty hty)
  hidden := by
    intro k hk hne
    refine h'.hidden k (h.hidden k hk hne) ?_
    rintro rfl
    exact hne (hother hk)

theorem trans (h : Step scope o s anywhere) (h' : Step scope s t anywhere) :
    Step scope o t anywhere :=
  h.trans_of_visible h' fun _ => rfl

/-- A resource has been declared in a scope that was in use, or in the one of the run. -/
theorem scope_of_hidden (h : Step scope s t anywhere) {id : ResourceId} {r : Resource}
    (hr : t.catalog.get? id = some r) (hh : Hidden s r.scope) : r.scope = scope := by
  by_contra hne
  exact (h.hidden _ hh hne).resource id r hr rfl

/-! ## Changes in any state -/

/-- Parents become known, and the lists grow. -/
theorem of_lists (hty : s.types.Extends s'.types) (hsc : s'.scopes = s.scopes)
    (hres : s'.catalog.resources = s.catalog.resources)
    (htags : s.catalog.tags <+: s'.catalog.tags)
    (hclasses : s.catalog.classes <+: s'.catalog.classes) : Step scope s s' anywhere := by
  have hget : ∀ id, s'.catalog.get? id = s.catalog.get? id := fun id => by
    rw [Catalog.get?, Catalog.get?, hres]
  constructor
  case types => exact hty
  case resources => exact fun id r hr => ⟨r, (hget id).trans hr, .refl r⟩
  case tags => exact htags
  case classes => exact hclasses
  case scopes => rw [hsc]; exact (refl scope s).scopes
  case ofType => rw [hsc]; exact fun _ _ => rfl
  case hidden =>
    intro k hk _
    exact ⟨by rw [hsc]; exact hk.lt, by rw [hsc]; exact hk.parent,
      fun id r hr => hk.resource id r (hget id ▸ hr), by rw [hsc]; exact hk.ofType⟩

/-- Resources may be changed in place, as long as they grow since `o`. -/
theorem of_resources (h : Step scope o s anywhere) (hty : s'.types = s.types)
    (hsc : s'.scopes = s.scopes) (htags : s'.catalog.tags = s.catalog.tags)
    (hclasses : s'.catalog.classes = s.catalog.classes)
    (hres : ∀ id r, s.catalog.get? id = some r → ∃ r', s'.catalog.get? id = some r' ∧
      ∀ r₀, o.catalog.get? id = some r₀ → r₀.Grows r → r₀.Grows r')
    (hscope : ∀ id r', s'.catalog.get? id = some r' →
      ∃ r, s.catalog.get? id = some r ∧ r'.scope = r.scope) : Step scope o s' anywhere where
  types := by rw [hty]; exact h.types
  resources := by
    intro id r₀ hr₀
    obtain ⟨r, hr, hg⟩ := h.resources id r₀ hr₀
    obtain ⟨r', hr', hg'⟩ := hres id r hr
    exact ⟨r', hr', hg' r₀ hr₀ hg⟩
  tags := by rw [htags]; exact h.tags
  classes := by rw [hclasses]; exact h.classes
  scopes := by rw [hsc]; exact h.scopes
  ofType := by rw [hsc]; exact h.ofType
  hidden := by
    intro k hk hne
    have hk' := h.hidden k hk hne
    refine ⟨by rw [hsc]; exact hk'.lt, by rw [hsc]; exact hk'.parent, ?_,
      by rw [hsc]; exact hk'.ofType⟩
    intro id r' hr'
    obtain ⟨r, hr, heq⟩ := hscope id r' hr'
    rw [heq]
    exact hk'.resource id r hr

theorem mark (scope : ScopeId) (s : State) (id : ResourceId) :
    Step scope s { s with catalog := s.catalog.markEvaluated id } := by
  refine (refl scope s).of_resources rfl rfl rfl rfl ?_ ?_
  · intro i r hr
    rw [Catalog.markEvaluated, Catalog.get?_modify, hr]
    split
    · refine ⟨_, rfl, ?_⟩
      rintro r₀ hr₀ ⟨h₁, h₂, h₃, h₄, -, h₆⟩
      exact ⟨h₁, h₂, h₃, h₄, fun _ => rfl, h₆⟩
    · exact ⟨r, rfl, fun _ _ hg => hg⟩
  · intro i r' hr'
    rw [Catalog.markEvaluated, Catalog.get?_modify] at hr'
    split at hr'
    · obtain ⟨r, hr, rfl⟩ := Option.map_eq_some_iff.mp hr'
      exact ⟨r, hr, rfl⟩
    · exact ⟨r', hr', rfl⟩

/-- A parameter may be entered that was not there in `o`. -/
theorem setParameter (h : Step scope o s anywhere) {id : ResourceId} {param : String} (v : Value)
    (hnew : ∀ r, o.catalog.get? id = some r → r.params.find? param = none) :
    Step scope o { s with catalog := s.catalog.setParameter id param v } anywhere := by
  refine h.of_resources rfl rfl rfl rfl ?_ ?_
  · intro i r hr
    rw [Catalog.setParameter, Catalog.get?_modify, hr]
    split
    · next heq =>
      subst heq
      refine ⟨_, rfl, ?_⟩
      rintro r₀ hr₀ ⟨h₁, h₂, h₃, h₄, h₅, h₆⟩
      refine ⟨h₁, h₂, h₃, h₄, h₅, fun name w hw => ?_⟩
      have hne : param ≠ name := by
        rintro rfl
        rw [hnew r₀ hr₀] at hw; cases hw
      rw [Table.find?_insert_of_ne _ _ hne]
      exact h₆ name w hw
    · exact ⟨r, rfl, fun _ _ hg => hg⟩
  · intro i r' hr'
    rw [Catalog.setParameter, Catalog.get?_modify] at hr'
    split at hr'
    · obtain ⟨r, hr, rfl⟩ := Option.map_eq_some_iff.mp hr'
      exact ⟨r, hr, rfl⟩
    · exact ⟨r', hr', rfl⟩

theorem assign {k : ScopeId} {name : String} (v : Value)
    (hnew : s.scopes.lookupLocal k name = none) :
    Step scope s { s with scopes := s.scopes.bind k name v } anywhere where
  types := .refl _
  resources := fun _ r hr => ⟨r, hr, .refl r⟩
  tags := List.prefix_refl _
  classes := List.prefix_refl _
  scopes := by
    intro z c hc
    rw [Scopes.get?_bind, hc]
    split
    · next heq =>
      subst heq
      refine ⟨_, rfl, rfl, fun _ _ => ⟨rfl, fun other w hw => ?_⟩⟩
      have hne : name ≠ other := by
        rintro rfl
        rw [Scopes.lookupLocal, hc] at hnew
        exact absurd (hnew.symm.trans hw) (by simp)
      rw [Table.find?_insert_of_ne _ _ hne]
      exact hw
    · exact ⟨c, rfl, rfl, fun _ _ => ⟨rfl, fun _ _ h => h⟩⟩
  ofType := fun _ _ => rfl
  hidden := by
    intro z hz _
    refine ⟨?_, fun y => ?_, hz.resource, hz.ofType⟩
    · exact (Scopes.length_modify ..).symm ▸ hz.lt
    · rw [Scopes.parent?_bind]; exact hz.parent y

end Step

/-! ## Changes of a scope of one's own -/

/-- A scope that the evaluation of a resource, begun in the state `o`, may change: one that was not
there, or the top, if the unnamed class had not been started. If classes may be evaluated
`anywhere`, it is one that was not there or that was referred to. -/
def Own (o : State) (k : ℕ) (anywhere : Prop := False) : Prop :=
  o.scopes.arena.length ≤ k ∨ ¬Hidden o k ∧ (¬anywhere → k = Scopes.top ∧ ¬MainStarted o)

section Own

variable {o : State} {k : ℕ} {anywhere : Prop}

theorem Own.not_hidden (h : Own o k anywhere) : ¬Hidden o k := by
  rcases h with h | ⟨h, -⟩
  · exact fun hk => absurd hk.lt (by omega)
  · exact h

theorem Own.not_kept {c : Scope} (h : Own o k anywhere) (hc : o.scopes.get? k = some c)
    (horder : ¬anywhere) : ¬(k = Scopes.top → MainStarted o) := by
  rcases h with h | ⟨-, h⟩
  · have := Scopes.lt_length_of_get? hc
    omega
  · exact fun hstart => (h horder).2 (hstart (h horder).1)

end Own

namespace Step

variable {scope : ScopeId} {o s s' : State} {k : ScopeId} {anywhere : Prop}

/-- Scopes may be changed, as long as the ones that are not one's own are kept. -/
theorem of_scopes (h : Step scope o s anywhere) (hty : s'.types = s.types)
    (hcat : s'.catalog = s.catalog)
    (hsc : ∀ z c, s.scopes.get? z = some c → ∃ c', s'.scopes.get? z = some c' ∧ c.Same c' ∧
      (¬Own o z anywhere → c' = c))
    (hof : ∀ ty, Evaluated o ty → s'.scopes.ofType? ty = s.scopes.ofType? ty)
    (hhid : ∀ z, Hidden o z → Hidden s z → Hidden s' z) : Step scope o s' anywhere where
  types := by rw [hty]; exact h.types
  resources := by rw [hcat]; exact h.resources
  tags := by rw [hcat]; exact h.tags
  classes := by rw [hcat]; exact h.classes
  scopes := by
    intro z c hc
    obtain ⟨c', hc', hs, hk⟩ := h.scopes z c hc
    obtain ⟨c'', hc'', hs', hk'⟩ := hsc z c' hc'
    refine ⟨c'', hc'', hs.trans hs', fun horder htop => ?_⟩
    rw [hk' fun hown => hown.not_kept hc horder htop]
    exact hk horder htop
  ofType := fun ty hty => (hof ty hty).trans (h.ofType ty hty)
  hidden := fun z hz hne => hhid z hz (h.hidden z hz hne)

/-- One's own scope may be changed in place, if it is not put below a hidden one. -/
theorem modifyOwn (h : Step scope o s anywhere) (hk : Own o k anywhere) {f : Scope → Scope}
    (hf : ∀ c : Scope, c.Same (f c))
    (hhid : ∀ z, Hidden s z → ∀ y, (s.scopes.modify k f).parent? y ≠ some z) :
    Step scope o { s with scopes := s.scopes.modify k f } anywhere := by
  refine h.of_scopes rfl rfl ?_ (fun _ _ => rfl) ?_
  · intro z c hc
    refine ⟨_, Scopes.get?_modify_of_get? hc k f, ?_⟩
    split
    · next heq => exact ⟨hf c, fun hz => absurd (heq ▸ hk) hz⟩
    · exact ⟨rfl, fun _ => rfl⟩
  · intro z _ hz
    refine ⟨?_, hhid z hz, hz.resource, hz.ofType⟩
    exact (Scopes.length_modify ..).symm ▸ hz.lt

theorem bindOwn (h : Step scope o s anywhere) (hk : Own o k anywhere) (name : String) (v : Value) :
    Step scope o { s with scopes := s.scopes.bind k name v } anywhere := by
  refine h.modifyOwn hk (fun _ => rfl) fun z hz y => ?_
  rw [← Scopes.bind, Scopes.parent?_bind]
  exact hz.parent y

/-- A scope may be added below one that is not hidden. -/
theorem push (h : Step scope o s anywhere) {c : Scope} {p : ℕ} (hp : c.parent = some p)
    (hvis : ¬Hidden o p) : Step scope o { s with scopes := (s.scopes.push c).2 } anywhere := by
  refine h.of_scopes rfl rfl ?_ (fun _ _ => rfl) ?_
  · intro z c' hc'
    exact ⟨c', Scopes.get?_push_of_get? hc' c, rfl, fun _ => rfl⟩
  · intro z hz hz'
    refine ⟨?_, fun y => ?_, hz'.resource, hz'.ofType⟩
    · have := hz'.lt
      show z < (s.scopes.arena ++ [c]).length
      rw [List.length_append]
      omega
    · rw [Scopes.parent?_push, hp]
      split
      · rintro ⟨⟩; exact hvis hz
      · exact hz'.parent y

/-- One's own scope may be put below the scope of a class. -/
theorem putBelow (h : Step scope o s anywhere) (hk : Own o k anywhere) {ty : TypeId} {p : ScopeId}
    (hp : s.scopes.ofType? ty = some p) {c : Scope} (hc : s.scopes.get? k = some c) :
    Step scope o { s with scopes := s.scopes.setParent k p } anywhere := by
  refine h.modifyOwn hk (fun _ => rfl) fun z hz y => ?_
  rw [← Scopes.setParent, Scopes.parent?_setParent hc]
  split
  · rintro ⟨⟩; exact hz.ofType ty hp
  · exact hz.parent y

/-- One's own scope may be remembered for a class that had not been evaluated. -/
theorem record (h : Step scope o s anywhere) (hk : Own o k anywhere) {ty : TypeId}
    (hty : ¬Evaluated o ty) :
    Step scope o { s with scopes := s.scopes.setOfType ty k } anywhere := by
  refine h.of_scopes rfl rfl (fun z c hc => ⟨c, hc, rfl, fun _ => rfl⟩) ?_ ?_
  · intro other hother
    rw [Scopes.ofType?_setOfType, if_neg]
    rintro rfl
    exact hty hother
  · intro z hz hz'
    refine ⟨hz'.lt, hz'.parent, hz'.resource, fun other => ?_⟩
    rw [Scopes.ofType?_setOfType]
    split
    · rintro ⟨⟩; exact hk.not_hidden hz
    · exact hz'.ofType other

end Step

end Compilation

end SiteCatalog
