import SiteCatalog.Proofs.Compilation.Nesting

/-!
# After the facts

The facts of the host are bound before anything is evaluated, each by one change. What follows stays
within limits: the unnamed class leaves the constants alone when its own variables are bound, and
every later phase begins with fewer classes and nodes to evaluate.

Results:
* `evaluateMain_safe`: the unnamed class stays within limits if it binds none of the constants.
* `run_bindAtTop`, `drop_states`: how the facts are bound.
* `afterFacts_meets`: what follows stays within limits, and it is only cut short after many rounds.
-/

namespace SiteCatalog

/-- The number of classes and nodes. -/
def Registry.singletons (r : Registry) : ℕ :=
  (r.idsOf .hostclass).length + (r.idsOf .node).length

theorem Registry.mem_idsOf {r : Registry} {t : TypeId} {d : Descriptor} (hd : r.get? t = some d) :
    t ∈ r.idsOf d.kind := by
  rw [idsOf, List.mem_filter, List.mem_range]
  exact ⟨lt_length_of_get? hd, by rw [hd]; simp⟩

/-- The unnamed class, which is evaluated even if the site declares none. -/
def Registry.unnamed (r : Registry) : Descriptor :=
  ((r.lookup .hostclass "").bind r.get?).getD (.ofName .hostclass "")

namespace Compilation

variable {g : Limits} {calls : List Call} {s t : State} {h : List Visit} {scope : ScopeId}

/-! ## The number of classes and nodes -/

section Remaining

open Classical

theorem remaining_le_singletons (s : State) : remaining s ≤ s.types.singletons := by
  have hsubset : ((Finset.range s.types.types.length).filter fun t =>
      Singleton s t ∧ ¬Evaluated s t) ⊆
        (s.types.idsOf .hostclass ++ s.types.idsOf .node).toFinset := by
    intro t ht
    obtain ⟨-, ⟨d, hd, hk⟩, -⟩ := Finset.mem_filter.mp ht
    have hmem := Registry.mem_idsOf hd
    rw [List.mem_toFinset, List.mem_append]
    cases hkind : d.kind with
    | hostclass => exact .inl (hkind ▸ hmem)
    | node => exact .inr (hkind ▸ hmem)
    | define => exact absurd hkind hk
  have hcard := (Finset.card_le_card hsubset).trans (List.toFinset_card_le _)
  rwa [List.length_append] at hcard

/-- A type that is added is one more to evaluate at most. -/
theorem remaining_add_le (s : State) (d : Descriptor) :
    remaining { s with types := { s.types with types := s.types.types ++ [d] } } ≤
      remaining s + 1 := by
  have hsubset : ((Finset.range (s.types.types ++ [d]).length).filter fun t =>
      Singleton { s with types := { s.types with types := s.types.types ++ [d] } } t ∧
        ¬Evaluated { s with types := { s.types with types := s.types.types ++ [d] } } t) ⊆
      insert s.types.types.length ((Finset.range s.types.types.length).filter fun t =>
        Singleton s t ∧ ¬Evaluated s t) := by
    intro t ht
    obtain ⟨-, ⟨d', hd', hk⟩, hev⟩ := Finset.mem_filter.mp ht
    rw [Finset.mem_insert, Finset.mem_filter, Finset.mem_range]
    by_cases hnew : t = s.types.types.length
    · exact .inl hnew
    · rw [Registry.get?_append, if_neg hnew] at hd'
      exact .inr ⟨Registry.lt_length_of_get? hd', ⟨d', hd', hk⟩, hev⟩
  exact (Finset.card_le_card hsubset).trans (Finset.card_insert_le _ _)

end Remaining

/-! ## Once the unnamed class has been started -/

/-- A phase may begin: calls are made in order, and there is room for the evaluation of one more
resource. -/
structure Launched (g : Limits) (s : State) : Prop where
  order : ¬g.anywhere
  sound : Sound s g.anywhere
  kept : g.Kept s
  started : MainStarted s
  depth : remaining s < g.depth

theorem MainStarted.realized (hm : MainStarted s) : MainRealized s := by
  obtain ⟨t, d, hd, hmain, id, r, hr, hsrc, -⟩ := hm
  exact ⟨id, r, t, d, hr, hsrc, hd, hmain⟩

namespace Launched

theorem inOrder (hl : Launched g s) : g.InOrder s where
  main := fun _ => hl.started.realized
  rooted := fun hany => absurd hany hl.order
  free := fun hany => absurd hany hl.order

theorem fit (hl : Launched g s) : Fit [] g (remaining s) Scopes.top s where
  sound := hl.sound
  kept := hl.kept
  inOrder := hl.inOrder
  started := .inr hl.started
  scope := by
    obtain ⟨c, hc, -⟩ := hl.sound.top
    exact Scopes.lt_length_of_get? hc
  depth := by
    have hdepth := hl.depth
    rw [show nesting [] = 0 from rfl]
    omega
  room := le_rfl

theorem of_safe (hl : Launched g s) (hu : Safe g scope s h t) : Launched g t :=
  ⟨hl.order, hu.sound, hu.kept, hu.stride.mainStarted hl.started,
    (remaining_le_of_step hu.stride.toStep).trans_lt hl.depth⟩

end Launched

/-- The number of evaluations of resources that begin in a history. -/
def evaluations (h : List Visit) : ℕ :=
  h.countP fun v => match v.event with
    | .enter (.evaluateResource _) => true
    | _ => false

theorem evaluations_append (h h' : List Visit) :
    evaluations (h ++ h') = evaluations h + evaluations h' :=
  List.countP_append

/-- The contract of the phases: all stays within limits, at least `base` evaluations begin, and if a
bound is reached, it is the one on the number of rounds, after at least `goal` evaluations. -/
def inPhases (g : Limits) (base goal : ℕ) : Contract where
  ok h _ := base ≤ evaluations h ∧ ∀ v ∈ h, g.Respected v
  failed f h s := (Fair s f ∨ f = .exhausted ∧ goal ≤ evaluations h) ∧ ∀ v ∈ h, g.Respected v

variable {base goal : ℕ}

theorem forall_mem_append {P : Visit → Prop} {h h' : List Visit} (hh : ∀ v ∈ h, P v)
    (hh' : ∀ v ∈ h', P v) : ∀ v ∈ h ++ h', P v := by
  intro v hv
  rcases List.mem_append.mp hv with hv | hv
  · exact hh v hv
  · exact hh' v hv

/-- What holds of a run that meets the contract, however it ends. -/
theorem respected_of_meets {α : Type} {p : Run α} {P : α → State → Prop}
    (hp : p.Meets (inPhases g base goal) [] [] s P) :
    (∀ v ∈ p.visits [] s, g.Respected v) ∧
      ((p.run s).1 = .error .exhausted → goal ≤ evaluations (p.visits [] s)) := by
  unfold Run.Meets at hp
  split at hp
  · next hrun =>
    rw [hrun]
    exact ⟨hp.1.2, fun heq => nomatch heq⟩
  · next hrun =>
    rw [hrun]
    refine ⟨hp.2, fun heq => ?_⟩
    cases heq
    exact (hp.1.resolve_left fun hfair => hfair.ne_exhausted rfl).2

/-- A phase that stays within limits. -/
theorem phase_meets {α : Type} {p : Run α} {P : α → State → Prop}
    (hh : ∀ v ∈ h, g.Respected v) (hbase : base ≤ evaluations h + evaluations (p.visits calls s))
    (hp : p.Meets (safely g scope s) calls [] s P) :
    p.Meets (inPhases g base goal) calls h s fun a t =>
      P a t ∧ ∃ h', Safe g scope s h' t := by
  unfold Run.Meets at hp ⊢
  split at hp
  · obtain ⟨hsafe, hP⟩ := hp
    refine ⟨⟨by rw [evaluations_append]; exact hbase, ?_⟩, hP, _, hsafe⟩
    exact forall_mem_append hh fun v hv => (hsafe.visits v hv).1
  · obtain ⟨hfair, hsafe⟩ := hp
    exact ⟨.inl hfair, forall_mem_append hh fun v hv => (hsafe.visits v hv).1⟩

theorem Launched.phase {α : Type} {p : Run α} {P : α → State → Prop} (hl : Launched g s)
    (hh : ∀ v ∈ h, g.Respected v) (hbase : base ≤ evaluations h + evaluations (p.visits calls s))
    (hp : p.Meets (safely g scope s) calls [] s P) :
    p.Meets (inPhases g base goal) calls h s fun _ t => Launched g t :=
  (phase_meets hh hbase hp).mono fun _ _ ⟨_, _, hsafe⟩ => hl.of_safe hsafe

/-! ## The unnamed class -/

/-- The top belongs to no module. -/
def TopFree (s : State) : Prop :=
  ∀ c, s.scopes.get? Scopes.top = some c → c.moduleName = none

/-- The unnamed class is entered and run for the first time. -/
theorem evaluateAtTop_main {strict : Bool} {type : TypeId} {d : Descriptor} (horder : ¬g.anywhere)
    (hs : Sound s g.anywhere) (hk : g.Kept s) (hu : Untouched s) (hspares : g.Spares d)
    (htop : TopFree s) (hdepth : remaining s ≤ g.depth) (hd : s.types.get? type = some d)
    (hmain : d.IsMain) :
    (evaluateAtTop strict type).Meets (safely g Scopes.top s) [] [] s fun _ t => Launched g t := by
  obtain ⟨c, hc, -⟩ := hs.top
  have hensure : (ensure type Scopes.top []).Meets (quietly Scopes.top s g.anywhere) [] [] s
      fun id t => (Singleton t type ∧ ∃ r, t.catalog.get? id = some r ∧ r.source = some type) ∧
        ∀ r ∈ t.catalog.resources, r.params = [] := by
    refine ((ensure_meets hs ⟨Scopes.lt_length_of_get? hc, fun _ => .inr rfl⟩
      (Registry.lt_length_of_get? hd)).and (entering_params.ensure type Scopes.top [] [] s ?_
        fun _ hv => nomatch hv)).imp ?_ fun _ _ _ hf => hf.1
    · intro r hr
      rw [hu.resources] at hr
      cases hr
    · exact fun _ _ _ hok hP => ⟨hok.1, hP.1, hok.2.1⟩
  refine .bind ((Safe.start hs hk).quietly (fun _ => rfl) hensure
    ((entering_scopes [] s.scopes).ensure type Scopes.top)) ?_
  rintro id h₁ t hu₁ ⟨⟨⟨hsing, r, hr, hsrc⟩, hparams⟩, hq⟩
  obtain ⟨_, hd₁, -⟩ := hq.types.kept type d hd
  have hwait : r.evaluated = false := by
    by_contra hev
    exact hu.not_evaluated type (hq.evaluated_back ⟨id, r, hr, hsrc, by simpa using hev⟩)
  have hb : Begins t id r type _ := ⟨hr, hsrc, hd₁, hwait⟩
  have hless : remaining (t.mark id) < g.depth :=
    (remaining_mark_lt hb hu₁.sound (by rw [hmain.1]; decide)).trans_le
      ((remaining_le_of_step hq.step).trans hdepth)
  refine .imp (hu₁.resume (hu₁.stride.scope_of_hidden hr) (evaluateResource_safe
    (runCode_safe strict g (remaining (t.mark id) + 1)) hu₁.sound hu₁.kept
    ?_ hr ?_ ?_)) ?_ fun _ _ _ hf => hf
  · exact ⟨fun _ => ⟨id, r, type, _, hr, hsrc, hd₁, hmain⟩, fun hany => absurd hany horder,
      fun hany => absurd hany horder⟩
  · intro u d' hb'
    obtain rfl : type = u := Option.some.inj (hsrc.symm.trans hb'.source)
    obtain rfl := Option.some.inj (hd₁.symm.trans hb'.descriptor)
    refine .inr (.inr ⟨hmain, hparams r (List.mem_of_getElem? hr), hspares, ?_,
      fun ty hty => hu.not_evaluated ty (hq.evaluated_back hty)⟩)
    rw [hq.scopes]
    exact htop
  · rintro - - -
    rw [show nesting [] = 0 from rfl]
    omega
  · rintro - h₂ u hu₂ ⟨hdone, hstride⟩
    obtain ⟨hev, -⟩ := hdone type hsrc
    obtain ⟨_, hd₂, -⟩ := hstride.types.kept type _ hd₁
    exact ⟨hu₂, horder, hu₂.sound, hu₂.kept, ⟨type, _, hd₂, hmain, hev⟩,
      (hb.remaining_le hstride.toStep hev).trans_lt hless⟩

theorem evaluateMain_safe {strict : Bool} (horder : ¬g.anywhere) (hs : Sound s g.anywhere)
    (hk : g.Kept s) (hu : Untouched s) (hspares : g.Spares s.types.unnamed) (htop : TopFree s)
    (hdepth : remaining s < g.depth) :
    (evaluateMain strict).Meets (inPhases g 0 goal) [] [] s fun _ t => Launched g t := by
  refine .get_bind ?_
  dsimp only
  split
  · next type hfind =>
    obtain ⟨d, hd, hmain⟩ := Registry.isMain_of_lookup hfind
    rw [Registry.unnamed, hfind, Option.bind_some, hd, Option.getD_some] at hspares
    exact (phase_meets (List.forall_mem_nil _) (Nat.zero_le _)
      (evaluateAtTop_main horder hs hk hu hspares htop hdepth.le hd hmain)).mono fun _ _ hx => hx.1
  · next hnone =>
    rw [Registry.unnamed, hnone, Option.bind_none, Option.getD_none] at hspares
    refine .bind (P := fun type t => ∃ d, (Sound t g.anywhere ∧ g.Kept t ∧ Untouched t ∧
      TopFree t) ∧
      g.Spares d ∧ remaining t ≤ g.depth ∧ t.types.get? type = some d ∧ d.IsMain)
      (.get_bind (.ofExcept_bind (fun x hx => ?_) fun e _ => ?_)) ?_
    · have hs' := hu.sound_addType hs rfl hx
      obtain rfl := Registry.add_eq_ok hx
      refine .update_bind (.pure ⟨Nat.zero_le _, ?_⟩ ⟨_, ⟨hs', hk.congr rfl,
        ⟨hu.resources, hu.classes, hu.ofTypes⟩, htop⟩, hspares,
        (remaining_add_le s _).trans hdepth, ?_, isMain_ofName⟩)
      · intro v hv
        rw [List.mem_singleton.mp hv]
        exact .of_not_enter hs' (hk.congr rfl) fun _ he => nomatch he
      · show Registry.get? _ _ = _
        rw [Registry.get?_append, if_pos rfl]
    · exact ⟨.inl (.error e), fun _ hv => nomatch hv⟩
    · rintro type h₁ t ⟨-, hh⟩ ⟨d, ⟨hs', hk', hu', htop'⟩, hspares', hdepth', hd, hmain⟩
      exact (phase_meets hh (Nat.zero_le _) (evaluateAtTop_main horder hs' hk' hu' hspares' htop'
        hdepth' hd hmain)).mono fun _ _ hx => hx.1

/-! ## The later phases -/

theorem evaluateAtTop_safe {strict : Bool} {type : TypeId} (hl : Launched g s)
    (htype : type < s.types.types.length) :
    (evaluateAtTop strict type).Meets (safely g Scopes.top s) [] [] s fun _ _ => True := by
  have ha := hl.fit
  refine .bind (ha.ensure htype []) ?_
  rintro id h₁ t hu ⟨⟨hsing, r, hr, hsrc⟩, hq⟩
  refine .mono (hu.resume (hq.step.scope_of_hidden hr)
    ((ha.of_safe hu).evaluateResource (runCode_safe strict g _) hr hsrc hsing)) ?_
  exact fun _ _ _ => trivial

theorem evaluateNode_safe {strict : Bool} {host : Host} (hl : Launched g s)
    (hh : ∀ v ∈ h, g.Respected v) :
    (evaluateNode strict host).Meets (inPhases g 0 goal) [] h s fun _ t => Launched g t := by
  refine .get_bind ?_
  dsimp only
  split
  · next type hfind =>
    obtain ⟨d, hd, -⟩ := Registry.get?_of_nodeFor hfind
    exact hl.phase hh (Nat.zero_le _) (evaluateAtTop_safe hl (Registry.lt_length_of_get? hd))
  · split
    · exact .pure ⟨Nat.zero_le _, hh⟩ hl
    · exact .stop ⟨.inl (.error _), hh⟩

theorem Launched.evaluateResource {strict : Bool} (hl : Launched g s) {id : ResourceId}
    {r : Resource} (hr : s.catalog.get? id = some r) :
    (evaluateResource (runCode strict) id).Meets (safely g r.scope s) [] [] s fun _ _ => True := by
  refine (evaluateResource_safe (runCode_safe strict g (remaining (s.mark id) + 1)) hl.sound
    hl.kept hl.inOrder hr (fun _ _ _ => .inr (.inl hl.started)) fun _ _ _ => ?_).mono
    fun _ _ _ => trivial
  have hle := remaining_le_of_step (Step.mark r.scope s id)
  have hdepth := hl.depth
  rw [show nesting [] = 0 from rfl, show remaining (s.mark id) = remaining _ from rfl]
  constructor
  · exact (Nat.add_le_add_left hle _).trans (by omega)
  · exact Nat.lt_succ_self _

theorem evaluateResources_safe {strict : Bool} : ∀ (ids : List ResourceId) {s : State},
    Launched g s → (∀ id ∈ ids, id < s.catalog.resources.length) →
    (evaluateResources (runCode strict) ids).Meets (safely g Scopes.top s) [] [] s
      fun _ _ => True := by
  intro ids
  induction ids with
  | nil => exact fun hl _ => .pure (.start hl.sound hl.kept) trivial
  | cons id rest ih =>
    intro s hl hids
    have hr := List.getElem?_eq_getElem (hids id (by simp))
    refine .bind ((Safe.start hl.sound hl.kept).resume
      (fun hh => absurd rfl (hh.resource id _ hr)) (hl.evaluateResource hr)) ?_
    rintro - h' t hu ⟨-, hstride⟩
    refine (hu.resume (fun _ => rfl) (ih (hl.of_safe hu) fun i hi => ?_)).mono fun _ _ _ => trivial
    obtain ⟨r', hr', -⟩ := hstride.resources i _ (List.getElem?_eq_getElem (hids i (by simp [hi])))
    exact Catalog.lt_length_of_get? hr'

theorem evaluations_evaluateResources (code : Code) (id : ResourceId) (rest : List ResourceId)
    (s : State) : 1 ≤ evaluations ((evaluateResources code (id :: rest)).visits calls s) := by
  rw [evaluateResources, Run.visits_bind, evaluateResource, visits_follow, evaluations,
    List.countP_append, List.cons_append, List.countP_cons_of_pos rfl]
  omega

theorem evaluateDefinitions_safe {strict : Bool} : ∀ (rounds : ℕ) {h : List Visit} {s : State},
    Launched g s → (∀ v ∈ h, g.Respected v) → goal ≤ evaluations h + rounds →
    (evaluateDefinitions (runCode strict) rounds).Meets (inPhases g 0 goal) [] h s
      fun _ t => Launched g t := by
  intro rounds
  induction rounds with
  | zero => exact fun _ hh hgoal => .stop ⟨.inr ⟨rfl, hgoal⟩, hh⟩
  | succ rounds ih =>
    intro h s hl hh hgoal
    refine .get_bind ?_
    dsimp only
    split
    · exact .pure ⟨Nat.zero_le _, hh⟩ hl
    · next hpending =>
      cases hids : s.catalog.unevaluated with
      | nil =>
        rw [hids] at hpending
        exact absurd rfl hpending
      | cons id rest =>
        have hlt : ∀ i ∈ id :: rest, i < s.catalog.resources.length := by
          intro i hi
          obtain ⟨r, hr, -⟩ := mem_unevaluated.mp (hids ▸ hi)
          exact Catalog.lt_length_of_get? hr
        -- a round evaluates at least one resource
        refine .bind_of (C := inPhases g (evaluations h + 1) goal) (hl.phase hh
          (Nat.add_le_add_left (evaluations_evaluateResources ..) _)
          (evaluateResources_safe _ hl hlt)) ?_ fun _ _ _ hf => hf
        rintro - h₁ t ⟨hbase, hh₁⟩ hl₁
        refine .bind (ih hl₁ hh₁ (by omega)) ?_
        exact fun later h₂ u hok hl₂ => .pure hok hl₂

/-! ## All that follows the facts -/

/-- What a compilation does once the facts of the host are bound. -/
def afterFacts (rounds : ℕ) (host : Host) (settings : Settings) : Run Unit := do
  evaluateMain settings.strictVariables
  evaluateNode settings.strictVariables host
  includeClasses (runCode settings.strictVariables) Scopes.top host.classes
  let _ ← evaluateDefinitions (runCode settings.strictVariables) rounds
  modifyCatalog (·.finalize)

theorem phases_eq (rounds : ℕ) (host : Host) (settings : Settings) :
    phases rounds host settings =
      bindAtTop host.allFacts >>= fun _ => afterFacts rounds host settings :=
  rfl

/-- What follows the facts stays within limits; only the number of rounds can cut it short. -/
theorem afterFacts_meets (rounds : ℕ) (host : Host) (settings : Settings) (horder : ¬g.anywhere)
    (hs : Sound s g.anywhere) (hk : g.Kept s) (hu : Untouched s)
    (hspares : g.Spares s.types.unnamed) (htop : TopFree s) (hdepth : remaining s < g.depth) :
    (afterFacts rounds host settings).Meets (inPhases g 0 rounds) [] [] s fun _ _ => True := by
  refine .bind (evaluateMain_safe horder hs hk hu hspares htop hdepth) ?_
  rintro - h₁ s₁ ⟨-, hh₁⟩ hl₁
  refine .bind (evaluateNode_safe hl₁ hh₁) ?_
  rintro - h₂ s₂ ⟨-, hh₂⟩ hl₂
  refine .bind (hl₂.phase hh₂ (Nat.zero_le _) ((pieces_safe (runCode_safe
    settings.strictVariables g _) settings.strictVariables).includeClasses host.classes hl₂.fit)) ?_
  rintro - h₃ s₃ ⟨-, hh₃⟩ hl₃
  refine .bind (evaluateDefinitions_safe rounds hl₃ hh₃ (Nat.le_add_left ..)) ?_
  rintro number h₄ s₄ ⟨-, hh₄⟩ hl₄
  refine .mono (.update ⟨Nat.zero_le _, forall_mem_append hh₄ fun v hv => ?_⟩) fun _ _ _ => trivial
  rw [List.mem_singleton.mp hv]
  exact .of_not_enter (hl₄.sound.of_types (.refl _) hl₄.sound.inRange.resolved rfl rfl)
    (hl₄.kept.congr rfl) fun _ he => nomatch he

/-! ## The facts -/

/-- A state in which variables have been bound at the top. -/
def State.withFacts (s : State) (facts : Table Value) : State :=
  { s with scopes := facts.foldl (fun scopes f => scopes.bind Scopes.top f.1 f.2) s.scopes }

section Facts

variable {c : Scope}

theorem run_bind_top (hc : s.scopes.get? Scopes.top = some c) (name : String) (value : Value) :
    (bind Scopes.top name value).run s = (.ok (), s.withFacts [(name, value)]) := by
  show (existing (s.scopes.get? Scopes.top) >>= fun _ =>
    modifyScopes (·.bind Scopes.top name value) : Run Unit).run s = _
  rw [hc]
  rfl

/-- One fact is bound by one change. -/
theorem visits_bind_top (calls : List Call) (hc : s.scopes.get? Scopes.top = some c)
    (name : String) (value : Value) : (bind Scopes.top name value).visits calls s =
      [⟨.change, calls, s.withFacts [(name, value)]⟩] := by
  show (existing (s.scopes.get? Scopes.top) >>= fun _ =>
    modifyScopes (·.bind Scopes.top name value) : Run Unit).visits calls s = _
  rw [hc]
  rfl

theorem get?_withFacts (hc : s.scopes.get? Scopes.top = some c) (name : String) (value : Value) :
    (s.withFacts [(name, value)]).scopes.get? Scopes.top =
      some { c with vars := c.vars.insert name value } := by
  show (s.scopes.bind Scopes.top name value).get? Scopes.top = _
  rw [Scopes.get?_bind, if_pos rfl, hc]
  rfl

theorem run_bindAtTop : ∀ (facts : Table Value) {s : State} {c : Scope},
    s.scopes.get? Scopes.top = some c → (bindAtTop facts).run s = (.ok (), s.withFacts facts) := by
  intro facts
  induction facts with
  | nil => exact fun _ => rfl
  | cons fact rest ih =>
    intro s c hc
    obtain ⟨name, value⟩ := fact
    rw [bindAtTop, Run.run_bind, run_bind_top hc]
    exact ih (get?_withFacts hc name value)

theorem change_of_mem_bindAtTop : ∀ (facts : Table Value) {s : State} {c : Scope},
    s.scopes.get? Scopes.top = some c →
      ∀ v ∈ (bindAtTop facts).visits calls s, v.event = .change := by
  intro facts
  induction facts with
  | nil => exact fun _ _ hv => nomatch hv
  | cons fact rest ih =>
    intro s c hc v hv
    obtain ⟨name, value⟩ := fact
    rw [bindAtTop, Run.visits_bind, visits_bind_top calls hc, run_bind_top hc] at hv
    rcases List.mem_cons.mp hv with rfl | hv
    · rfl
    · exact ih (get?_withFacts hc name value) v hv

/-- After as many moments as there are facts, all of them are bound. -/
theorem drop_bindAtTop (calls : List Call) : ∀ (facts : Table Value) {s : State} {c : Scope},
    s.scopes.get? Scopes.top = some c →
      (s :: ((bindAtTop facts).visits calls s).map (·.state)).drop facts.length =
        [s.withFacts facts] := by
  intro facts
  induction facts with
  | nil => exact fun _ => rfl
  | cons fact rest ih =>
    intro s c hc
    obtain ⟨name, value⟩ := fact
    rw [bindAtTop, Run.visits_bind, visits_bind_top calls hc, run_bind_top hc, List.length_cons,
      List.drop_succ_cons]
    exact ih (get?_withFacts hc name value)

theorem Sound.withFacts {anywhere : Prop} : ∀ (facts : Table Value) {s : State},
    Sound s anywhere → Sound (s.withFacts facts) anywhere := by
  intro facts
  induction facts with
  | nil => exact fun hs => hs
  | cons fact rest ih =>
    intro s hs
    exact ih (s := s.withFacts [fact]) (hs.bind rfl rfl rfl)

theorem ofTypes_withFacts : ∀ (facts : Table Value) (s : State),
    (s.withFacts facts).scopes.ofTypes = s.scopes.ofTypes := by
  intro facts
  induction facts with
  | nil => exact fun _ => rfl
  | cons fact rest ih => exact fun s => ih (s.withFacts [fact])

theorem TopFree.withFacts : ∀ (facts : Table Value) {s : State} {c : Scope},
    s.scopes.get? Scopes.top = some c → TopFree s → TopFree (s.withFacts facts) := by
  intro facts
  induction facts with
  | nil => exact fun _ htop => htop
  | cons fact rest ih =>
    intro s c hc htop
    have hget := get?_withFacts hc fact.1 fact.2
    refine ih (s := s.withFacts [fact]) hget fun c' hc' => ?_
    obtain rfl := Option.some.inj (hget.symm.trans hc')
    exact htop c hc

end Facts

section History

variable (rounds : ℕ) (types : Registry) (host : Host) (settings : Settings)

/-- The state in which the facts of the host are bound and nothing else has happened. -/
def State.informed : State :=
  (State.initial types host).withFacts host.allFacts

theorem history_eq : history rounds types host settings =
    (bindAtTop host.allFacts).visits [] (.initial types host) ++
      (afterFacts rounds host settings).visits [] (.informed types host) := by
  rw [history, phases_eq, Run.visits_bind, run_bindAtTop host.allFacts (c := {}) rfl]
  rfl

theorem compile_eq : compile rounds types host settings =
    (afterFacts rounds host settings).run (.informed types host) := by
  rw [compile, phases_eq, Run.run_bind, run_bindAtTop host.allFacts (c := {}) rfl]
  rfl

/-- The states from the one on in which all facts are bound. -/
theorem drop_states : (states rounds types host settings).drop host.allFacts.length =
    .informed types host ::
      ((afterFacts rounds host settings).visits [] (.informed types host)).map (·.state) := by
  have hdrop := drop_bindAtTop [] host.allFacts (s := .initial types host) (c := {}) rfl
  rw [states, history_eq, List.map_append, ← List.cons_append, List.drop_append_of_le_length, hdrop]
  · rfl
  · have hlen := congrArg List.length hdrop
    rw [List.length_drop, List.length_singleton] at hlen
    omega

variable {types}

/-- What follows the facts, in the compilation of a site. -/
theorem afterFacts_informed (hclosed : types.Closed) (horder : ¬g.anywhere)
    (hk : g.Kept (.informed types host)) (hspares : g.Spares types.unnamed)
    (hdepth : types.singletons < g.depth) :
    (afterFacts rounds host settings).Meets (inPhases g 0 rounds) [] [] (.informed types host)
      fun _ _ => True := by
  refine afterFacts_meets rounds host settings horder
    (.withFacts _ ((sound_initial hclosed host).loosen _)) hk
    ⟨rfl, rfl, ofTypes_withFacts ..⟩ hspares (.withFacts _ (c := {}) rfl ?_) ?_
  · rintro c ⟨⟩
    rfl
  · exact (remaining_le_singletons (.informed types host)).trans_lt hdepth

end History

end Compilation

end SiteCatalog
