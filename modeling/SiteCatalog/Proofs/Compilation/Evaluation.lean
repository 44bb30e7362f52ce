import SiteCatalog.Proofs.Compilation.Operations

/-!
# The evaluation of a resource

The code of a type runs in a scope of its own, which nobody else knows until the type's parent has
been evaluated and the parameters are bound. Then the scope is remembered and the body runs.

Results:
* `evaluateParent_meets`: the scope of a class or node comes to stand below its parent's.
* `bindParameters_meets`: binding the parameters changes nothing but the scope and the resource.
* `enter_meets`, `evaluateCode_runs`, `runCode_runs`: the running of code keeps to the contract, and
  the bound on its depth is never reached.
-/

namespace SiteCatalog.Compilation

variable {calls : List Call} {n : ℕ} {o s s' u : State} {h : List Visit} {id : ResourceId}
  {r : Resource} {t : TypeId} {d : Descriptor} {k : ScopeId} {inPlace anywhere : Prop}

/-! ## The scope of one's own -/

/-- A scope is the one in which a resource is evaluated. If it is evaluated in place, the scope is
the one in which it was declared. -/
structure Evaluates (o : State) (t : TypeId) (inPlace : Prop) (k : ScopeId) (s : State)
    (anywhere : Prop := False) : Prop where
  own : Own o k anywhere
  main : ¬anywhere → inPlace → k = Scopes.top
  notMain : ¬inPlace → k ≠ Scopes.top
  scope : ∃ c, s.scopes.get? k = some c ∧ (¬inPlace → c.source = some t)

/-- Between two states nothing has happened to the parent of a scope and to the scopes of classes.
-/
structure Settled (k : ScopeId) (s u : State) : Prop where
  types : s.types.Extends u.types
  parent : u.scopes.parent? k = s.scopes.parent? k
  evaluated : ∀ ty, Evaluated s ty → Evaluated u ty
  ofType : ∀ ty, Evaluated s ty → u.scopes.ofType? ty = s.scopes.ofType? ty

namespace Settled

@[refl] theorem refl (k : ScopeId) (s : State) : Settled k s s :=
  ⟨.refl _, rfl, fun _ h => h, fun _ _ => rfl⟩

theorem trans (h : Settled k s s') (h' : Settled k s' u) : Settled k s u where
  types := h.types.trans h'.types
  parent := h'.parent.trans h.parent
  evaluated := fun ty he => h'.evaluated ty (h.evaluated ty he)
  ofType := fun ty he => (h'.ofType ty (h.evaluated ty he)).trans (h.ofType ty he)

theorem of_step {scope : ScopeId} (h : Step scope s u) {c : Scope} (hc : s.scopes.get? k = some c)
    (hk : k = Scopes.top → MainStarted s) : Settled k s u where
  types := h.types
  parent := by
    obtain ⟨c', hc', -, hkeep⟩ := h.scopes k c hc
    rw [Scopes.parent?_of_get? hc', Scopes.parent?_of_get? hc, (hkeep not_false hk).parent]
  evaluated := fun _ he => h.evaluated he
  ofType := h.ofType

theorem room (h : Settled k s u) (hroom : remaining s ≤ n) : remaining u ≤ n :=
  (remaining_le h.types h.evaluated).trans hroom

end Settled

namespace Evaluates

variable (he : Evaluates o t inPlace k s anywhere)

include he

theorem of_step {scope : ScopeId} (h : Step scope s u anywhere) :
    Evaluates o t inPlace k u anywhere := by
  obtain ⟨c, hc, hsrc⟩ := he.scope
  obtain ⟨c', hc', hsame, -⟩ := h.scopes k c hc
  refine ⟨he.own, he.main, he.notMain, c', hc', fun hm => ?_⟩
  rw [hsame]
  exact hsrc hm

theorem of_quiet {scope : ScopeId} (hq : Quiet scope s u) : Evaluates o t inPlace k u anywhere :=
  he.of_step (hq.step.loosen anywhere)

theorem bind (name : String) (v : Value) :
    Evaluates o t inPlace k { s with scopes := s.scopes.bind k name v } anywhere := by
  obtain ⟨c, hc, hsrc⟩ := he.scope
  refine ⟨he.own, he.main, he.notMain, { c with vars := c.vars.insert name v }, ?_, hsrc⟩
  rw [Scopes.get?_bind, if_pos rfl, hc]
  rfl

theorem putBelow (p : ScopeId) :
    Evaluates o t inPlace k { s with scopes := s.scopes.setParent k p } anywhere := by
  obtain ⟨c, hc, hsrc⟩ := he.scope
  refine ⟨he.own, he.main, he.notMain, { c with parent := some p }, ?_, hsrc⟩
  rw [Scopes.get?_setParent, if_pos rfl, hc]
  rfl

/-- The scope may be put below that of a type, unless it is the top and the unnamed class has no
parent. -/
theorem sound_putBelow (hs : Sound s anywhere)
    (hmain : inPlace → ¬anywhere ∧
      ∃ t d, s.types.get? t = some d ∧ d.IsMain ∧ d.parent.isSome)
    (hhid : ¬inPlace → Hidden s k) {ty : TypeId} {p : ScopeId}
    (hp : s.scopes.ofType? ty = some p) :
    Sound { s with scopes := s.scopes.setParent k p } anywhere := by
  obtain ⟨c, hc, -⟩ := he.scope
  refine hs.putBelow hc (hs.lt_of_classScope hp) ?_ rfl rfl rfl
  by_cases hm : inPlace
  · exact .inl ⟨he.main (hmain hm).1 hm, (hmain hm).2⟩
  · have hk := hhid hm
    exact .inr ⟨he.notMain hm, fun heq => hk.ofType ty (heq ▸ hp), hk.parent⟩

end Evaluates

/-! ## The beginning -/

namespace Begins

theorem titledMain_iff (hb : Begins o id r t d) (hs : Sound o anywhere) :
    d.kind = .hostclass ∧ r.title = mainTitle ↔ d.TitledMain := by
  rw [Descriptor.titledMain_iff]
  refine and_congr_right fun hk => ?_
  obtain ⟨-, htitle⟩ := hs.singleton id r t d hb.resource hb.source hb.descriptor
    (by rw [hk]; decide)
  rw [htitle]

/-- A resource with the title of that of the unnamed class is that resource. -/
theorem isMain_iff (hb : Begins o id r t d) (hs : Sound o anywhere) (hm : MainRealized o) :
    d.kind = .hostclass ∧ r.title = mainTitle ↔ d.IsMain := by
  constructor
  · rintro ⟨hkind, htitle⟩
    exact hs.isMain_of_title hm hb.resource hb.source hb.descriptor hkind htitle
  · exact fun hd => (hb.titledMain_iff hs).mpr hd.titledMain

theorem scope_eq_top (hb : Begins o id r t d) (hs : Sound o anywhere) (horder : ¬anywhere)
    (hd : d.IsMain) : r.scope = Scopes.top := by
  obtain ⟨hkind, htitle⟩ := (hb.titledMain_iff hs).mpr hd.titledMain
  exact hs.mainPlace horder id r t d hb.resource hb.source hb.descriptor hkind htitle

theorem main_not_started (hb : Begins o id r t d) (hs : Sound o anywhere) (hmain : d.IsMain) :
    ¬MainStarted o := by
  rintro ⟨m, d', hd', hmain', i, r', hr', hsrc', he⟩
  have hkind : d.kind ≠ .define := by rw [hmain.1]; decide
  obtain ⟨-, htitle⟩ := hs.singleton id r t d hb.resource hb.source hb.descriptor hkind
  obtain rfl := hs.eq_of_title hb.resource hb.source hb.descriptor hmain.1
    (htitle.trans (Descriptor.resourceTitle_of_isMain hmain)) hr' hsrc' hd' hmain'
  exact hb.not_evaluated hs hkind ⟨i, r', hr', hsrc', he⟩

/-- What is listed when the evaluation of a resource begins. -/
theorem complete (hb : Begins o id r t d) (hentered : entered h = [(t, id)])
    (hty : s.types = o.types) (hget : ∀ i, s.catalog.get? i = (o.mark id).catalog.get? i)
    (hclasses : s.catalog.classes =
      if d.kind ≠ .define then Catalog.addOnce o.catalog.classes r.title else o.catalog.classes) :
    Complete o h s := by
  have hmem : ∀ e, e ∈ entered h ↔ e = (t, id) := by simp [hentered]
  constructor
  case entered =>
    intro i r' ty hr' hev hsrc hnew
    rw [hget, get?_mark] at hr'
    split at hr'
    · next heq =>
      subst heq
      rw [hb.resource] at hr'
      cases hr'
      rw [hmem, Option.some.inj (hb.source.symm.trans hsrc)]
    · exact absurd ⟨r', hr', hev⟩ hnew
  case listed =>
    intro title htitle
    rw [hclasses] at htitle
    split at htitle
    · next hk =>
      rcases Catalog.mem_addOnce.mp htitle with htitle | rfl
      · exact .inl htitle
      · exact .inr ⟨(t, id), (hmem _).mpr rfl, ⟨d, hty ▸ hb.descriptor, hk⟩, _,
          (hget id).trans hb.marked, rfl⟩
    · exact .inl htitle
  case titles =>
    intro e he hsing r' hr'
    rw [hmem] at he
    subst he
    obtain ⟨d', hd', hk⟩ := hsing
    rw [hty, hb.descriptor] at hd'
    cases hd'
    rw [hget, hb.marked] at hr'
    cases hr'
    rw [hclasses, if_pos hk]
    exact Catalog.mem_addOnce.mpr (.inr rfl)

/-- The history up to the moment at which the evaluation is listed. -/
theorem underway (hb : Begins o id r t d) (hs : Sound s)
    (hvisits : ∀ v ∈ h, Lawful v ∧ v.state.types = o.types)
    (hbodies : ∀ v ∈ h, ∀ c i j, v.event ≠ .enter (.body c i j)) (hentered : entered h = [(t, id)])
    (hty : s.types = o.types) (hsc : s.scopes = o.scopes)
    (hres : s.catalog.resources = (o.mark id).catalog.resources)
    (htags : s.catalog.tags = o.catalog.tags)
    (hclasses : s.catalog.classes =
      if d.kind ≠ .define then Catalog.addOnce o.catalog.classes r.title else o.catalog.classes) :
    Underway r.scope o h s := by
  have hget : ∀ i, s.catalog.get? i = (o.mark id).catalog.get? i := fun i => by
    rw [Catalog.get?, Catalog.get?, hres]
  have hprefix : o.catalog.classes <+: s.catalog.classes := by
    rw [hclasses]
    split
    · exact Catalog.prefix_addOnce _ _
    · exact List.prefix_refl _
  have hone : ∀ e ∈ entered h, e = (t, id) := by simp [hentered]
  refine ⟨?_, hb.complete hentered hty hget hclasses⟩
  constructor
  case toOrderly =>
    refine ⟨hs, fun v hv => (hvisits v hv).1, fun v hv => ?_, by rw [hentered]; simp, ?_⟩
    · rw [(hvisits v hv).2, hty]
    · intro e he
      rw [hone e he, hget]
      exact ⟨_, hb.marked, hb.source, rfl⟩
  case toAnnounced => exact .of_kept (by rw [hsc]) hbodies
  case step =>
    exact (Step.mark r.scope o id).trans
      (.of_lists (by rw [hty]) hsc hres (by rw [htags]; exact List.prefix_refl _) hprefix)
  case fresh =>
    intro e he
    rw [hone e he]
    exact hb.not_done

end Begins

/-! ## Entering the scope -/

/-- Nothing refers to a new scope. -/
theorem hidden_push (hs : Sound s anywhere) {c : Scope} {p : ℕ} (hp : c.parent = some p)
    (hlt : p < s.scopes.arena.length) :
    Hidden { s with scopes := (s.scopes.push c).2 } s.scopes.arena.length where
  lt := by
    show s.scopes.arena.length < (s.scopes.arena ++ [c]).length
    simp
  parent := by
    intro z hz
    rw [Scopes.parent?_push, hp] at hz
    split at hz
    · exact absurd (Option.some.inj hz) (Nat.ne_of_lt hlt)
    · obtain ⟨c', hc', heq⟩ := Option.bind_eq_some_iff.mp hz
      exact absurd (hs.inRange.scopeParent z c' _ hc' heq) (Nat.lt_irrefl _)
  resource := by
    intro i r hr heq
    exact absurd (hs.inRange.resourceScope i r _ hr heq) (Nat.lt_irrefl _)
  ofType := by
    intro ty hty
    exact absurd (hs.lt_of_classScope hty) (Nat.lt_irrefl _)

/-- The middle of an evaluation: the scope is there, and nothing else is in progress. -/
structure Inside (calls : List Call) (o : State) (t : TypeId) (id : ResourceId) (d : Descriptor)
    (k : ScopeId) (due : Option TypeId) (s : State) : Prop where
  ready : Ready (.code t id :: calls) due s
  scope : Evaluates o t d.IsMain k s
  evaluated : Evaluated s t

/-- What is evaluated in place has the scope in which it was declared. If calls are made in order,
that is the unnamed class, and the scope is the top. -/
theorem Begins.evaluates_inPlace (hb : Begins o id r t d) (ho : Sound o anywhere) (hd : inPlace)
    (hmain : ¬anywhere → d.IsMain) (hsc : s.scopes = o.scopes) :
    Evaluates o t inPlace r.scope s anywhere := by
  have htop := fun horder => hb.scope_eq_top ho horder (hmain horder)
  refine ⟨?_, fun horder _ => htop horder, fun hn => absurd hd hn, _,
    List.getElem?_eq_getElem ?_, fun hn => absurd hd hn⟩
  · exact .inr ⟨hb.not_hidden, fun horder =>
      ⟨htop horder, hb.main_not_started ho (hmain horder)⟩⟩
  · rw [hsc]
    exact ho.inRange.resourceScope id r _ hb.resource rfl

/-- The scope in which anything else is evaluated. -/
def newScopeOf (t : TypeId) (d : Descriptor) (id : ResourceId) (r : Resource) : Scope where
  parent := some r.scope
  source := some t
  dynamic := true
  space := d.space
  resource := some id
  moduleName := d.moduleName

theorem Begins.push (hb : Begins o id r t d) (ho : Sound o anywhere) (hd : ¬inPlace)
    (hstep : Step r.scope o s anywhere) (hs : Sound s anywhere) (hsc : s.scopes = o.scopes) :
    Sound { s with scopes := (s.scopes.push (newScopeOf t d id r)).2 } anywhere ∧
      Evaluates o t inPlace s.scopes.arena.length
        { s with scopes := (s.scopes.push (newScopeOf t d id r)).2 } anywhere ∧
      Hidden { s with scopes := (s.scopes.push (newScopeOf t d id r)).2 }
        s.scopes.arena.length := by
  obtain ⟨ctop, hctop, -⟩ := ho.top
  have htop : Scopes.top < s.scopes.arena.length := hsc ▸ Scopes.lt_length_of_get? hctop
  have hid : id < s.catalog.resources.length := by
    obtain ⟨r', hr', -⟩ := hstep.resources id r hb.resource
    exact Catalog.lt_length_of_get? hr'
  have ht : t < s.types.types.length := by
    rw [hstep.types.length]
    exact Registry.lt_length_of_get? hb.descriptor
  have hp : r.scope < s.scopes.arena.length := by
    rw [hsc]
    exact ho.inRange.resourceScope id r _ hb.resource rfl
  refine ⟨hs.push rfl hp rfl ht rfl hid rfl rfl rfl, ⟨.inl (by rw [hsc]), fun _ hn => absurd hn hd,
    fun _ => Nat.ne_of_gt htop, newScopeOf t d id r, ?_, fun _ => rfl⟩, hidden_push hs rfl hp⟩
  rw [Scopes.get?_push, if_pos rfl]

theorem evaluationScope_meets (hb : Begins o id r t d) (ho : Sound o) (hm : MainRealized o)
    (hu : Underway r.scope o h s) (hsc : s.scopes = o.scopes) :
    (evaluationScope t d id { r with evaluated := true }).Meets (lawfully r.scope o) calls h s
      fun k u => Evaluates o t d.IsMain k u ∧ (¬d.IsMain → Hidden u k) ∧ u.types = s.types ∧
        u.catalog = s.catalog ∧ u.scopes.ofTypes = s.scopes.ofTypes := by
  unfold evaluationScope
  split
  · next hmain =>
    have hd := (hb.isMain_iff ho hm).mp hmain
    exact .pure hu ⟨hb.evaluates_inPlace ho hd (fun _ => hd) hsc, fun hn => absurd hd hn, rfl, rfl,
      rfl⟩
  · next hmain =>
    have hd : ¬d.IsMain := fun hd => hmain ((hb.isMain_iff ho hm).mpr hd)
    obtain ⟨hs, he, hhid⟩ := hb.push ho hd hu.course.step hu.course.sound hsc
    refine .mono (.newScope (hu.change hs (hu.course.step.push rfl hb.not_hidden) rfl rfl
      (fun _ => rfl) rfl)) ?_
    rintro k u ⟨rfl, rfl⟩
    exact ⟨he, fun _ => hhid, rfl, rfl, rfl⟩

/-! ## The parent -/

/-- A class or node has a scope below that of its parent, if the parent has one. -/
def Below (s : State) (t : TypeId) (k : ScopeId) : Prop :=
  Singleton s t → ∃ chain, s.types.Ancestry t chain ∧
    ∀ p ∈ chain.head?, ∀ above, s.scopes.ofType? p = some above → s.scopes.parent? k = some above

/-- The resource keeps the scope in which it was declared. -/
theorem Begins.scope_ne (hb : Begins o id r t d) {scope : ScopeId}
    (hstep : Step scope o s anywhere) (hk : Hidden s k) : r.scope ≠ k := by
  obtain ⟨r', hr', hg⟩ := hstep.resources id r hb.resource
  exact hg.scope ▸ hk.resource id r' hr'

theorem putBelow_meets (hu : Underway r.scope o h s) (he : Evaluates o t d.IsMain k s)
    (hmain : d.IsMain → ∃ t d, s.types.get? t = some d ∧ d.IsMain ∧ d.parent.isSome)
    (hhid : ¬d.IsMain → Hidden s k) {ty : TypeId} {p : ScopeId}
    (hp : s.scopes.ofType? ty = some p) :
    (putBelow k p).Meets (lawfully r.scope o) calls h s fun _ u =>
      u = { s with scopes := s.scopes.setParent k p } := by
  obtain ⟨c, hc, -⟩ := he.scope
  exact .scopeAt_bind hc (.update (hu.change
    (he.sound_putBelow hu.course.sound (fun hm => ⟨not_false, hmain hm⟩) hhid hp)
    (hu.course.step.putBelow he.own hp hc) rfl rfl (fun _ => rfl) rfl))

theorem putBelowType_meets (hu : Underway r.scope o h s) (hi : Inside calls o t id d k none s)
    (hhid : ¬d.IsMain → Hidden s k) {p : TypeId} {rest : List TypeId}
    (hanc : s.types.Ancestry t (p :: rest)) {known : Option TypeId}
    (hd : s.types.get? t = some { d with resolved := known }) (hpar : d.parent.isSome) :
    (putBelowType k p).Meets (lawfully r.scope o) (.code t id :: calls) h s fun _ u =>
      Inside calls o t id d k none u ∧ Below u t k ∧ remaining u = remaining s := by
  obtain ⟨hready, he, hev⟩ := hi
  refine .get_bind ?_
  split
  · next above habove =>
    obtain ⟨c, hc, -⟩ := he.scope
    refine .mono (putBelow_meets hu he (fun hm => ⟨t, _, hd, hm, hpar⟩) hhid habove) ?_
    rintro - u rfl
    refine ⟨⟨hready.congr rfl (fun _ => rfl) rfl, he.putBelow above, hev⟩, fun _ =>
      ⟨_, hanc, ?_⟩, rfl⟩
    rintro _ ⟨⟩ other hother
    rw [Scopes.parent?_setParent hc, if_pos rfl, ← habove]
    exact hother
  · next hnone =>
    refine .pure hu ⟨⟨hready, he, hev⟩, fun _ => ⟨_, hanc, ?_⟩, rfl⟩
    rintro _ ⟨⟩ above habove
    rw [hnone] at habove
    cases habove

theorem evaluateParent_meets {code : Code} (hcode : RunsCode code n) (hb : Begins o id r t d)
    (hu : Underway r.scope o h s) (hi : Inside calls o t id d k d.resolved s)
    (hhid : ¬d.IsMain → Hidden s k) (hroom : remaining s ≤ n)
    (hdesc : s.types.get? t = some d) (hk : d.kind ≠ .define) (hpar : d.parent.isSome) :
    (evaluateParent code t r.scope k).Meets (lawfully r.scope o) (.code t id :: calls) h s
      fun _ u => Inside calls o t id d k none u ∧ Below u t k ∧ remaining u ≤ n := by
  obtain ⟨hready, he, hev⟩ := hi
  obtain ⟨c, hc, -⟩ := he.scope
  -- the parent that will be found is the one that is due
  obtain ⟨r₁, hr₁, hg₁⟩ := hu.course.step.resources id r hb.resource
  obtain ⟨p₀, hp₀, -⟩ := hu.course.sound.parent id r₁ t d hr₁ (hg₁.source.trans hb.source) hdesc hk
    hpar
  refine .bind (hu.quietly (fun _ => rfl) (ancestry_meets hu.course.sound
    (Registry.lt_length_of_get? hdesc) (Scopes.lt_length_of_get? hc))) ?_
  rintro l h₁ s₁ hu₁ ⟨hl, hq₁⟩
  obtain ⟨_, hd₁, hknown⟩ := hq₁.types.kept t d hdesc
  cases hl with
  | root hd' hn =>
    rw [hd₁] at hd'
    cases hd'
    exact absurd hpar (by simp [show d.parent = none from hn])
  | @child _ p _ rest hd' hpar' hp hrest =>
    rw [hd₁] at hd'
    cases hd'
    have hpp : p₀ = p := Option.some.inj ((hknown p₀ hp₀).symm.trans hp)
    subst hpp
    have hready₁ := hready.of_quiet hu.course.sound hq₁
    have hscope : r.scope < s₁.scopes.arena.length := by
      obtain ⟨r', hr', hg⟩ := hu₁.course.step.resources id r hb.resource
      exact hu₁.course.sound.inRange.resourceScope id r' _ hr' hg.scope
    refine .bind (hu₁.quietly (fun _ => rfl) (ensure_meets hu₁.course.sound
      ⟨hscope, fun _ => .inl hready₁.main⟩ (hrest.lt_length _ (by simp)))) ?_
    rintro id' h₂ s₂ hu₂ ⟨⟨hsing, r', hr', hsrc'⟩, hq₂⟩
    have hready₂ := hready₁.of_quiet hu₁.course.sound hq₂
    rw [hp₀] at hready₂
    have hq := hq₁.trans hq₂
    have hroom' : r'.evaluated = false → remaining (s₂.mark id') < n := by
      intro hwait
      obtain ⟨d', hd', hk'⟩ := hsing
      have := remaining_mark_lt ⟨hr', hsrc', hd', hwait⟩ hu₂.course.sound hk'
      have := remaining_le_of_step hq.step
      omega
    refine .bind (hu₂.resume (hu₂.course.step.scope_of_hidden hr') (evaluateResource_meets hcode
      hu₂.course.sound hr' hsrc' hready₂ hroom')) ?_
    rintro - h₃ s₃ hu₃ ⟨⟨hready₃, hep⟩, hstep₃⟩
    have he₃ : Evaluates o t d.IsMain k s₃ := (he.of_step hq.step).of_step hstep₃
    have hhid₃ : ¬d.IsMain → Hidden s₃ k := by
      intro hm
      have hk₂ : Hidden s₂ k :=
        hq.step.hidden k (hhid hm) (hb.scope_ne hu.course.step (hhid hm)).symm
      exact hstep₃.hidden k hk₂ fun heq => hk₂.resource id' r' hr' heq.symm
    have hev₃ : Evaluated s₃ t := hstep₃.evaluated (hq.step.evaluated hev)
    have hroom₃ : remaining s₃ ≤ n :=
      ((remaining_le_of_step hstep₃).trans (remaining_le_of_step hq.step)).trans hroom
    have hanc₃ : s₃.types.Ancestry t (p₀ :: rest) :=
      (Registry.Ancestry.child hd₁ hpar' hp hrest).mono (hq₂.types.trans hstep₃.types)
    obtain ⟨_, hd₃, -⟩ := (hq.types.trans hstep₃.types).kept t d hdesc
    refine (putBelowType_meets hu₃ ⟨hready₃, he₃, hev₃⟩ hhid₃ hanc₃ hd₃ hpar).mono ?_
    exact fun _ u hx => ⟨hx.1, hx.2.1, hx.2.2 ▸ hroom₃⟩

/-! ## The parameters -/

namespace Inside

variable {due : Option TypeId}

theorem mainStarted (hi : Inside calls o t id d k due s) (hb : Begins o id r t d)
    (hty : o.types.Extends s.types) (hk : k = Scopes.top) : MainStarted s := by
  have hmain : d.IsMain := by
    by_contra hn
    exact hi.scope.notMain hn hk
  obtain ⟨_, hd, -⟩ := hty.kept t d hb.descriptor
  exact ⟨t, _, hd, hmain, hi.evaluated⟩

theorem of_settled (hi : Inside calls o t id d k due s) (hset : Settled k s u)
    (hty : u.types = s.types) (hst : SameStatus s u)
    (hof : u.scopes.ofTypes = s.scopes.ofTypes)
    (hscope : ∃ c, u.scopes.get? k = some c ∧ (¬d.IsMain → c.source = some t)) :
    Inside calls o t id d k due u :=
  ⟨hi.ready.congr hty hst hof, ⟨hi.scope.own, hi.scope.main, hi.scope.notMain, hscope⟩,
    hset.evaluated t hi.evaluated⟩

/-- An operation in the scope. -/
theorem works {α : Type} {p : Run α} (hi : Inside calls o t id d k none s)
    (hb : Begins o id r t d) (hu : Underway r.scope o h s) (hroom : remaining s ≤ n)
    (hp : Able (.code t id :: calls) n k s → Works (.code t id :: calls) k s p) :
    p.Meets (lawfully r.scope o) (.code t id :: calls) h s fun _ u =>
      Inside calls o t id d k none u ∧ Settled k s u := by
  obtain ⟨c, hc, -⟩ := hi.scope.scope
  have hp' := hp ⟨hu.course.sound, hi.ready, Scopes.lt_length_of_get? hc, hroom⟩
  refine (hu.resume (fun hh => absurd hh hi.scope.own.not_hidden) hp').mono ?_
  rintro a u ⟨hready, hstep⟩
  exact ⟨⟨hready, hi.scope.of_step hstep, hstep.evaluated hi.evaluated⟩,
    .of_step hstep hc (hi.mainStarted hb hu.course.step.types)⟩

/-- Two runs after each other, neither of which unsettles the scope. -/
theorem bind {α β : Type} {p : Run α} {f : α → Run β} {calls' : List Call} {C : Contract}
    (hp : p.Meets C calls' h s fun _ u => Inside calls o t id d k none u ∧ Settled k s u)
    (hf : ∀ a h' s', C.ok h' s' → Inside calls o t id d k none s' → Settled k s s' →
      (f a).Meets C calls' h' s' fun _ u => Inside calls o t id d k none u ∧ Settled k s' u) :
    (p >>= f).Meets C calls' h s fun _ u => Inside calls o t id d k none u ∧ Settled k s u := by
  refine .bind hp fun a h' s' hok ⟨hi, hset⟩ => ?_
  exact (hf a h' s' hok hi hset).mono fun _ u hx => ⟨hx.1, hset.trans hx.2⟩

end Inside

theorem bind_meets {name : String} {v : Value} (hu : Underway r.scope o h s)
    (hi : Inside calls o t id d k none s) :
    (bind k name v).Meets (lawfully r.scope o) (.code t id :: calls) h s fun _ u =>
      Inside calls o t id d k none u ∧ Settled k s u := by
  obtain ⟨c, hc, -⟩ := hi.scope.scope
  refine .scopeAt_bind hc (.mono (.update (hu.change (hu.course.sound.bind rfl rfl rfl)
    (hu.course.step.bindOwn hi.scope.own name v) rfl rfl (fun _ => rfl) rfl)) ?_)
  rintro - u rfl
  have hset : Settled k s { s with scopes := s.scopes.bind k name v } :=
    ⟨.refl _, Scopes.parent?_bind .., fun _ he => he, fun _ _ => rfl⟩
  exact ⟨hi.of_settled hset rfl (fun _ => rfl) rfl (hi.scope.bind name v).scope, hset⟩

theorem bindSupplied_meets {d' : Descriptor} {reference : String} :
    ∀ (params : Table Value) {h : List Visit} {s : State}, Underway r.scope o h s →
      Inside calls o t id d k none s →
      (bindSupplied d' reference k params).Meets (lawfully r.scope o) (.code t id :: calls) h s
        fun _ u => Inside calls o t id d k none u ∧ Settled k s u := by
  intro params
  induction params with
  | nil => exact fun hu hi => .pure hu ⟨hi, .refl k _⟩
  | cons param rest ih =>
    intro h s hu hi
    obtain ⟨name, value⟩ := param
    unfold bindSupplied
    split
    · exact Inside.bind (bind_meets hu hi) fun _ h' s' hu' hi' _ => ih hu' hi'
    · exact hu.fails _

theorem bindBuiltin_meets {supplied : Table Value} :
    ∀ (params : Table Value) {h : List Visit} {s : State}, Underway r.scope o h s →
      Inside calls o t id d k none s →
      (bindBuiltin supplied k params).Meets (lawfully r.scope o) (.code t id :: calls) h s
        fun _ u => Inside calls o t id d k none u ∧ Settled k s u := by
  intro params
  induction params with
  | nil => exact fun hu hi => .pure hu ⟨hi, .refl k _⟩
  | cons param rest ih =>
    intro h s hu hi
    obtain ⟨name, value⟩ := param
    unfold bindBuiltin
    split
    · exact Inside.bind (bind_meets hu hi) fun _ h' s' hu' hi' _ => ih hu' hi'
    · exact ih hu hi

theorem Sound.setParameter (hs : Sound s anywhere) (id : ResourceId) (param : String) (v : Value) :
    Sound { s with catalog := s.catalog.setParameter id param v } anywhere := by
  refine hs.of_resources rfl rfl (Catalog.length_modify ..) ?_ ?_
  · intro i r' hr'
    rw [Catalog.setParameter, Catalog.get?_modify] at hr'
    split at hr'
    · obtain ⟨r, hr, rfl⟩ := Option.map_eq_some_iff.mp hr'
      exact ⟨r, hr, rfl, rfl, rfl, rfl⟩
    · exact ⟨r', hr', rfl, rfl, rfl, rfl⟩
  · intro i r hr
    rw [Catalog.setParameter, Catalog.get?_modify, hr]
    split
    · exact ⟨_, rfl, rfl, fun he => he⟩
    · exact ⟨r, rfl, rfl, fun he => he⟩

theorem SameStatus.setParameter (s : State) (id : ResourceId) (param : String) (v : Value) :
    SameStatus s { s with catalog := s.catalog.setParameter id param v } := by
  intro i
  show Option.map _ (Catalog.get? (s.catalog.modify id _) i) = _
  rw [Catalog.get?_modify]
  split
  · rw [Option.map_map]; rfl
  · rfl

theorem setParameter_meets {param : String} {v : Value} (hb : Begins o id r t d)
    (hu : Underway r.scope o h s) (hi : Inside calls o t id d k none s)
    (hnew : r.params.find? param = none) :
    (setParameter id param v).Meets (lawfully r.scope o) (.code t id :: calls) h s fun _ u =>
      Inside calls o t id d k none u ∧ Settled k s u := by
  obtain ⟨r₁, hr₁, -⟩ := hu.course.step.resources id r hb.resource
  have hst := SameStatus.setParameter s id param v
  have hnew' : ∀ r', o.catalog.get? id = some r' → r'.params.find? param = none := by
    intro r' hr'
    rw [hb.resource] at hr'
    cases hr'
    exact hnew
  refine .resourceAt_bind hr₁ (.mono (.update (hu.change (hu.course.sound.setParameter id param v)
    (hu.course.step.setParameter v hnew') rfl rfl hst rfl)) ?_)
  rintro - u rfl
  have hset : Settled k s { s with catalog := s.catalog.setParameter id param v } :=
    ⟨.refl _, rfl, fun _ he => hst.evaluated he, fun _ _ => rfl⟩
  exact ⟨hi.of_settled hset rfl hst rfl hi.scope.scope, hset⟩

/-- What is not supplied now was not supplied at the beginning. -/
theorem find?_eq_none_of_not_has {params supplied : Table Value} {name : String}
    (hsupplied : ∀ name v, params.find? name = some v → supplied.has name)
    (hnew : supplied.has name = false) : params.find? name = none := by
  by_contra hne
  obtain ⟨v, hv⟩ := Option.ne_none_iff_exists'.mp hne
  rw [hsupplied name v hv] at hnew
  cases hnew

theorem bindDefaults_meets {strict : Bool} {code : Code} (hcode : RunsCode code n)
    (hb : Begins o id r t d) {d' : Descriptor} {reference : String} {supplied : Table Value}
    (hsupplied : ∀ name v, r.params.find? name = some v → supplied.has name) :
    ∀ (params : Table (Option Expr)) {h : List Visit} {s : State}, Underway r.scope o h s →
      Inside calls o t id d k none s → remaining s ≤ n →
      (bindDefaults strict code d' id reference supplied k params).Meets (lawfully r.scope o)
        (.code t id :: calls) h s fun _ u => Inside calls o t id d k none u ∧ Settled k s u := by
  intro params
  induction params with
  | nil => exact fun hu hi _ => .pure hu ⟨hi, .refl k _⟩
  | cons param rest ih =>
    intro h s hu hi hroom
    obtain ⟨name, default⟩ := param
    unfold bindDefaults
    split
    · next hnew =>
      have hnew' := find?_eq_none_of_not_has hsupplied (by simpa using hnew)
      cases default with
      | none => exact hu.fails _
      | some e =>
        refine Inside.bind (hi.works hb hu hroom fun ha =>
          (pieces_works hcode strict).evaluate e ha) ?_
        intro v h₁ s₁ hu₁ hi₁ hset₁
        refine Inside.bind (bind_meets hu₁ hi₁) fun _ h₂ s₂ hu₂ hi₂ hset₂ => ?_
        refine Inside.bind (setParameter_meets hb hu₂ hi₂ hnew') fun _ h₃ s₃ hu₃ hi₃ hset₃ => ?_
        exact ih hu₃ hi₃ (hset₃.room (hset₂.room (hset₁.room hroom)))
    · exact ih hu hi hroom

theorem bindParameters_meets {strict : Bool} {code : Code} (hcode : RunsCode code n)
    (hb : Begins o id r t d) (hu : Underway r.scope o h s) (hi : Inside calls o t id d k none s)
    (hroom : remaining s ≤ n) :
    (bindParameters strict code t id k).Meets (lawfully r.scope o) (.code t id :: calls) h s
      fun _ u => Inside calls o t id d k none u ∧ Settled k s u := by
  obtain ⟨r₁, hr₁, hg⟩ := hu.course.step.resources id r hb.resource
  obtain ⟨_, hd₁, -⟩ := hu.course.step.types.kept t d hb.descriptor
  have hscope := hu.course.sound.inRange.resourceScope id r₁ _ hr₁ rfl
  have hsupplied : ∀ name v, r.params.find? name = some v → r₁.params.has name := by
    intro name v hv
    rw [Table.has, hg.params name v hv]
    rfl
  refine .typeAt_bind hd₁ (.resourceAt_bind hr₁ (.scopeAt_bind (List.getElem?_eq_getElem hscope)
    (.get_bind (.searched_bind (fun hnone => ?_) fun callerModule _ => ?_))))
  · exact ⟨hu.course.sound.fair_of_moduleName hscope hnone, hu.course⟩
  refine Inside.bind (bindSupplied_meets _ hu hi) fun _ h₁ s₁ hu₁ hi₁ hset₁ => ?_
  refine Inside.bind (bindBuiltin_meets _ hu₁ hi₁) fun _ h₂ s₂ hu₂ hi₂ hset₂ => ?_
  exact bindDefaults_meets hcode hb hsupplied _ hu₂ hi₂ (hset₂.room (hset₁.room hroom))

/-! ## The body -/

theorem Below.of_settled (hbelow : Below s t k) (hready : Ready (.code t id :: calls) none s)
    (hs : Sound s) (ht : Evaluated s t) (hset : Settled k s u) : Below u t k := by
  rintro ⟨d', hd', hk⟩
  obtain ⟨d, hd, heq, -⟩ := hset.types.kept_back hd'
  rw [heq] at hk
  have hsing : Singleton s t := ⟨d, hd, hk⟩
  obtain ⟨l, hl, habove⟩ := hbelow hsing
  refine ⟨l, hl.mono hset.types, fun p hp above ha => ?_⟩
  have hep := (hready.evaluated_of_ancestry hs hl hsing ht p (List.mem_of_head? hp)).2
  rw [hset.parent]
  exact habove p hp above ((hset.ofType p hep).symm.trans ha)

theorem body_meets {strict : Bool} {code : Code} (hcode : RunsCode code n) {due : Option TypeId}
    (ho : Ready calls due o)
    (hu : Underway r.scope o (h ++ [⟨.enter (.body t id k), .code t id :: calls, s⟩]) s)
    (hready : Ready (.body t id k :: .code t id :: calls) none s) (he : Evaluates o t d.IsMain k s)
    (hroom : remaining s ≤ n) (body : Option Body) :
    (follow (.body t id k) (match body with
      | some body => runBody strict code t id k body
      | none => return ())).Meets (lawfully r.scope o) (.code t id :: calls) h s
      fun _ u => Ready calls none u ∧ Evaluated u t := by
  obtain ⟨c, hc, -⟩ := he.scope
  have ha : Able (.body t id k :: .code t id :: calls) n k s :=
    ⟨hu.course.sound, hready, Scopes.lt_length_of_get? hc, hroom⟩
  have hworks : Works (.body t id k :: .code t id :: calls) k s (match body with
      | some body => runBody strict code t id k body
      | none => return ()) := by
    cases body with
    | none => exact .pure ha ()
    | some body => exact (pieces_works hcode strict).runBody body ha
  refine .follow_frame (fun hop => hop) (.imp (hu.resume (fun hh => absurd hh he.own.not_hidden)
    hworks) (fun _ h' u hu' hx => ⟨hu', ?_⟩) fun _ _ _ hf => hf)
  exact ⟨hx.1.leave ho hu'.course.step, hx.1.bodies t id k (by simp)⟩

theorem runInScope_meets {strict : Bool} {code : Code} (hcode : RunsCode code n)
    {due : Option TypeId} (hb : Begins o id r t d) (hs : Sound o) (ho : Ready calls due o)
    (hu : Underway r.scope o h s) (hi : Inside calls o t id d k none s) (hbelow : Below s t k)
    (hroom : remaining s ≤ n) :
    (runInScope strict code t d id k).Meets (lawfully r.scope o) (.code t id :: calls) h s
      fun _ u => Ready calls none u ∧ Evaluated u t := by
  refine .bind (bindParameters_meets hcode hb hu hi hroom) ?_
  rintro - h₁ s₁ hu₁ ⟨hi₁, hset⟩
  have hbelow₁ := hbelow.of_settled hi.ready hu.course.sound hi.evaluated hset
  have hroom₁ := hset.room hroom
  obtain ⟨known, hd₁, -⟩ := hu₁.course.step.types.kept t d hb.descriptor
  obtain ⟨c, hc, hsrc⟩ := hi₁.scope.scope
  dsimp only
  by_cases hk : d.kind ≠ .define
  · rw [if_pos hk]
    have hof : ∀ ty, (s₁.scopes.setOfType t k).ofType? ty =
        if ty = t ∧ d.kind ≠ .define then some k else s₁.scopes.ofType? ty := fun ty => by
      simp only [Scopes.ofType?_setOfType, and_iff_left hk]
    have hs₂ : Sound { s₁ with scopes := s₁.scopes.setOfType t k } :=
      hu₁.course.sound.record hi₁.evaluated hd₁ hk hc
        (fun _ => ⟨hi₁.scope.main not_false, hsrc⟩) rfl rfl rfl
    refine .update_bind (body_meets hcode ho (hu₁.record (hu₁.course.step.record hi₁.scope.own
      (hb.not_evaluated hs hk)) rfl rfl (fun ty hne => by rw [hof, if_neg fun hx => hne hx.1])
      (.body hs₂ fun hsing => ?_)) (hi₁.ready.record hi₁.evaluated hd₁ rfl rfl hof)
      ⟨hi₁.scope.own, hi₁.scope.main, hi₁.scope.notMain, c, hc, hsrc⟩ hroom₁ d.body)
    obtain ⟨l, hl, habove⟩ := hbelow₁ hsing
    exact hi₁.ready.placed hu₁.course.sound hi₁.evaluated hl rfl
      (fun ty hne => by rw [hof, if_neg fun hx => hne hx.1]) habove hsing
  · rw [if_neg hk]
    have hdef : d.kind = .define := not_not.mp hk
    refine body_meets hcode ho (hu₁.body (.body hu₁.course.sound ?_))
      (hi₁.ready.record hi₁.evaluated hd₁ rfl rfl fun ty => ?_) hi₁.scope hroom₁ d.body
    · rintro ⟨d', hd', hk'⟩
      rw [hd₁] at hd'
      cases hd'
      exact absurd hdef hk'
    · rw [if_neg fun hx => hx.2 hdef]

/-! ## The running of code -/

/-- The moments before anything is done for a resource. -/
theorem lawful_beginning (hs : Sound o) (id : ResourceId) (t : TypeId) :
    ∀ v ∈ [⟨.change, calls, o.mark id⟩] ++ [⟨.enter (.code t id), calls, o.mark id⟩],
      Lawful v ∧ v.state.types = o.types := by
  intro v hv
  rcases List.mem_append.mp hv with hv | hv
  · exact List.mem_singleton.mp hv ▸ ⟨.change (hs.mark id), rfl⟩
  · rw [List.mem_singleton] at hv
    subst hv
    exact ⟨⟨hs.mark id, fun _ _ h => (nomatch h), fun _ _ _ h => (nomatch h)⟩, rfl⟩

/-- What comes after the evaluation has been listed. -/
theorem enterScope_meets {strict : Bool} {code : Code} (hcode : RunsCode code n)
    (hb : Begins o id r t d) (ho : Sound o) (hready : Ready calls (some t) o)
    (hroom : remaining (o.mark id) ≤ n) (hu : Underway r.scope o h s) (hty : s.types = o.types)
    (hsc : s.scopes = o.scopes) (hst : SameStatus (o.mark id) s) :
    (do
      let scope ← evaluationScope t d id { r with evaluated := true }
      if d.parent.isSome ∧ d.kind ≠ .define then evaluateParent code t r.scope scope
      runInScope strict code t d id scope : Run Unit).Meets (lawfully r.scope o)
      (.code t id :: calls) h s fun _ u => Ready calls none u ∧ Evaluated u t := by
  refine .bind (evaluationScope_meets hb ho hready.main hu hsc) ?_
  rintro k h₁ s₁ hu₁ ⟨he, hhid, hty₁, hcat₁, hof₁⟩
  have hst₁ : SameStatus (o.mark id) s₁ := fun i => by rw [hcat₁]; exact hst i
  have hev₁ : Evaluated s₁ t := hst₁.evaluated (hb.evaluated_mark_iff.mpr (.inr rfl))
  have hroom₁ : remaining s₁ ≤ n := by
    refine (remaining_le ?_ fun ty => hst₁.evaluated).trans hroom
    rw [hty₁, hty]
    exact .refl _
  have hready₁ : ∀ due,
      (∀ p, d.kind ≠ .define → d.parent.isSome → d.resolved = some p → due = some p) →
      Ready (.code t id :: calls) due s₁ := fun due hdue =>
    (hready.enter hb ho hdue).congr (hty₁.trans hty) hst₁ (hof₁.trans (by rw [hsc]; rfl))
  have hd₁ : s₁.types.get? t = some d := by rw [hty₁, hty, hb.descriptor]
  split
  · next hpar =>
    refine .bind (evaluateParent_meets hcode hb hu₁ ⟨hready₁ _ fun p _ _ hp => hp, he, hev₁⟩ hhid
      hroom₁ hd₁ hpar.2 hpar.1) ?_
    rintro - h₂ s₂ hu₂ ⟨hi₂, hbelow, hroom₂⟩
    exact runInScope_meets hcode hb ho hready hu₂ hi₂ hbelow hroom₂
  · next hpar =>
    have hnone := hready₁ none fun p hk hs _ => absurd ⟨hs, hk⟩ hpar
    refine runInScope_meets hcode hb ho hready hu₁ ⟨hnone, he, hev₁⟩ ?_ hroom₁
    rintro ⟨d', hd', hk⟩
    rw [hd₁] at hd'
    cases hd'
    refine ⟨[], .root hd₁ ?_, fun p hp => nomatch hp⟩
    exact Option.not_isSome_iff_eq_none.mp fun hs => hpar ⟨hs, hk⟩

theorem enter_meets {strict : Bool} {code : Code} (hcode : RunsCode code n)
    (hb : Begins o id r t d) (hs : Sound o) (ho : Ready calls (some t) o)
    (hroom : remaining (o.mark id) ≤ n) :
    (enter strict code t id).Meets (lawfully r.scope o) (.code t id :: calls)
      ([⟨.change, calls, o.mark id⟩] ++ [⟨.enter (.code t id), calls, o.mark id⟩]) (o.mark id)
      fun _ u => Ready calls none u ∧ Evaluated u t := by
  refine .typeAt_bind hb.descriptor (.resourceAt_bind hb.marked ?_)
  have hvisits := @lawful_beginning calls o hs id t
  dsimp only
  by_cases hk : d.kind ≠ .define
  · rw [if_pos hk]
    refine .update_bind ?_
    have hs₁ : Sound { o.mark id with catalog := (o.mark id).catalog.addClass r.title } :=
      (hs.mark id).of_types (.refl _) hs.inRange.resolved rfl rfl
    refine enterScope_meets hcode hb hs ho hroom (hb.underway hs₁ ?_ (by simp) rfl rfl rfl rfl rfl
      (by rw [if_pos hk]; rfl)) rfl rfl fun _ => rfl
    intro v hv
    rcases List.mem_append.mp hv with hv | hv
    · exact hvisits v hv
    · exact List.mem_singleton.mp hv ▸ ⟨.change hs₁, rfl⟩
  · rw [if_neg hk]
    exact enterScope_meets hcode hb hs ho hroom (hb.underway (hs.mark id) hvisits (by simp) rfl rfl
      rfl rfl rfl (by rw [if_neg hk]; rfl)) rfl rfl fun _ => rfl

/-- Every run of the code of a class or node leaves one less to evaluate, so that the depth of
nested runs never exceeds their number. -/
theorem evaluateCode_runs (strict : Bool) : ∀ n, RunsCode (evaluateCode strict n) n := by
  intro n
  induction n with
  | zero =>
    intro calls o id r t d _ _ _ hroom
    exact absurd hroom (Nat.not_lt_zero _)
  | succ n ih =>
    intro calls o id r t d hs hb ho hroom
    exact .follow_frame (fun hop => hop) (enter_meets ih hb hs ho (Nat.lt_succ_iff.mp hroom))

theorem runCode_runs (strict : Bool) (n : ℕ) : RunsCode (runCode strict) n := by
  intro calls o id r t d hs hb ho _
  refine .get_bind (evaluateCode_runs strict _ calls o id r t d hs hb ho ?_)
  exact Nat.lt_succ_of_le (remaining_le_length _)

end SiteCatalog.Compilation
