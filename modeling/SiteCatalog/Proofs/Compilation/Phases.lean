import SiteCatalog.Compilation.Phases
import SiteCatalog.Proofs.Compilation.Evaluation

/-!
# A whole compilation

The phases one after the other, from the state in which nothing is evaluated.

Results:
* `firstPhases_meets`: the phases before instances of defined types are evaluated.
* `phases_meets`: the history of a compilation is orderly, no place is missing, and after success
  nothing is left to evaluate.
* `history_compiled`, `compile_complete`: what follows for `history` and `compile`.
-/

namespace SiteCatalog.Compilation

/-- An orderly history since the beginning of a compilation. -/
structure Compiled (o : State) (h : List Visit) (s : State) : Prop
    extends Orderly h s, Announced o h s where
  parentless : ∀ sort, o.types.Parentless sort → s.types.Parentless sort

/-- What a compilation that began in the state `o` has to meet. Only the number of rounds is
bounded. -/
def overall (o : State) : Contract where
  ok h s := Compiled o h s ∧ Complete o h s
  failed f h s := (Fair s f ∨ f = .exhausted) ∧ Compiled o h s

variable {o s t : State} {h : List Visit} {calls : List Call} {scope : ScopeId}

namespace Compiled

/-- A part of a compilation that keeps to the contract of operations. -/
theorem resume {α : Type} {p : Run α} {P : α → State → Prop} (ho : Compiled o h s)
    (hc : Complete o h s) (hp : p.Meets (lawfully scope s) calls [] s P) :
    p.Meets (overall o) calls h s P := by
  have happend : ∀ {h' t}, Course scope s h' t → Compiled o (h ++ h') t := fun hcourse =>
    ⟨ho.toOrderly.append hcourse, ho.toAnnounced.append hcourse.toAnnounced,
      fun sort hr => (ho.parentless sort hr).of_extends hcourse.step.types⟩
  refine hp.rebase (fun a h' t hok hP => ⟨⟨happend hok.course, hc.append ho.toOrderly hok⟩, hP⟩) ?_
  rintro f h' t ⟨hfair, hfail⟩
  exact ⟨.inl hfair, happend hfail⟩

/-- A change that evaluates nothing and remembers no scope. -/
theorem change (ho : Compiled o h s) (hs : Sound t) (hty : s.types.Persists t.types)
    (hparentless : ∀ sort, s.types.Parentless sort → t.types.Parentless sort)
    (hst : SameStatus s t) (hof : t.scopes.ofTypes = s.scopes.ofTypes) :
    Compiled o (h ++ [⟨.change, calls, t⟩]) t where
  toOrderly := ho.toOrderly.change hs hty hst
  toAnnounced := ho.toAnnounced.snoc hof fun _ he => nomatch he
  parentless := fun sort hr => hparentless sort (ho.parentless sort hr)

theorem rooted (ho : Compiled o h s) (hr : o.types.Rooted) : s.types.Rooted :=
  Registry.rooted_iff.mpr (ho.parentless _ (Registry.rooted_iff.mp hr))

end Compiled

/-! ## Before anything is evaluated -/

/-- No resource has been declared, nothing listed and no scope of a class remembered. -/
structure Untouched (s : State) : Prop where
  resources : s.catalog.resources = []
  classes : s.catalog.classes = []
  ofTypes : s.scopes.ofTypes = []

namespace Untouched

theorem get? (hu : Untouched s) (id : ResourceId) : s.catalog.get? id = none := by
  rw [Catalog.get?, hu.resources]
  rfl

theorem not_evaluated (hu : Untouched s) (t : TypeId) : ¬Evaluated s t := by
  rintro ⟨id, r, hr, -⟩
  rw [hu.get?] at hr
  cases hr

theorem complete (hu : Untouched s) (ho : Orderly h s) : Complete o h s where
  entered := by
    intro id r t hr
    rw [hu.get?] at hr
    cases hr
  listed := by
    intro title ht
    rw [hu.classes] at ht
    cases ht
  titles := by
    intro e he
    obtain ⟨r, hr, -⟩ := ho.marked e he
    rw [hu.get?] at hr
    cases hr

/-- Once the unnamed class has been entered, operations may begin. -/
theorem ready (hu : Untouched s) (hq : Quiet scope s t) (hm : MainRealized t) :
    Ready [] none t where
  main := hm
  frames := fun ty _ he _ => absurd (hq.evaluated_back he) (hu.not_evaluated ty)
  pending := fun _ hp => nomatch hp.1
  bodies := fun _ _ _ hm => nomatch hm
  parents := fun ty _ _ _ _ _ _ he => absurd (hq.evaluated_back he) (hu.not_evaluated ty)

/-- A type may be added while nothing refers to any. -/
theorem sound_addType {anywhere : Prop} (hu : Untouched s) (hs : Sound s anywhere) {d : Descriptor}
    {x : TypeId × Registry} (hd : d.resolved = none) (hx : s.types.add d = .ok x) :
    Sound { s with types := x.2 } anywhere := by
  have hclosed := hs.inRange.resolved.add hd hx
  obtain rfl := Registry.add_eq_ok hx
  have hold : ∀ t d', s.types.get? t = some d' →
      Registry.get? { s.types with types := s.types.types ++ [d] } t = some d' :=
    fun _ _ hd' => Registry.get?_append_of_get? hd' d
  have hnone : ∀ t, s.scopes.ofType? t = none := fun t => by rw [Scopes.ofType?, hu.ofTypes]; rfl
  constructor
  case inRange =>
    constructor
    case resolved => exact hclosed
    case scopeParent => exact hs.inRange.scopeParent
    case scopeSource =>
      intro k c t hc ht
      have := hs.inRange.scopeSource k c t hc ht
      simp; omega
    case scopeResource => exact hs.inRange.scopeResource
    case resourceScope => exact hs.inRange.resourceScope
    case resourceSource => intro id r t hr; cases (hu.get? id).symm.trans hr
  case top => exact hs.top
  case hasParent => exact hs.hasParent
  case upward => exact hs.upward
  case topParent =>
    intro p hp
    obtain ⟨t, d', hd', hmain⟩ := hs.topParent p hp
    exact ⟨t, d', hold t d' hd', hmain⟩
  case classPlace => intro t k hk; cases (hnone t).symm.trans hk
  case classEvaluated => intro t k hk; cases (hnone t).symm.trans hk
  case identity => exact hs.identity
  case singleton => intro id r t d hr; cases (hu.get? id).symm.trans hr
  case mainPlace => intro _ id r t d hr; cases (hu.get? id).symm.trans hr
  case parent => intro id r t d hr; cases (hu.get? id).symm.trans hr

end Untouched

theorem sound_initial {types : Registry} (hclosed : types.Closed) (host : Host) :
    Sound (.initial types host) := by
  have hget : ∀ (k : ℕ) c, (State.initial types host).scopes.get? k = some c → k = 0 ∧ c = {} := by
    intro k c hc
    obtain rfl : k = 0 := by
      have := Scopes.lt_length_of_get? hc
      simpa [State.initial, Scopes.initial] using this
    exact ⟨rfl, (Option.some.inj hc).symm⟩
  have hnone : ∀ id, (State.initial types host).catalog.get? id = none := fun id => rfl
  constructor
  case inRange =>
    constructor
    case resolved => exact hclosed
    case scopeParent => intro k c p hc hp; rw [(hget k c hc).2] at hp; cases hp
    case scopeSource => intro k c p hc hp; rw [(hget k c hc).2] at hp; cases hp
    case scopeResource => intro k c p hc hp; rw [(hget k c hc).2] at hp; cases hp
    case resourceScope => intro id r k hr; cases (hnone id).symm.trans hr
    case resourceSource => intro id r t hr; cases (hnone id).symm.trans hr
  case top => exact ⟨{}, rfl, rfl⟩
  case hasParent => exact fun k c hc hk => absurd (hget k c hc).1 hk
  case upward =>
    intro _ k c hc
    obtain ⟨rfl, rfl⟩ := hget k c hc
    exact ⟨[], .last rfl⟩
  case topParent => exact fun p hp => nomatch hp
  case classPlace => exact fun t k hk => nomatch hk
  case classEvaluated => exact fun t k hk => nomatch hk
  case identity => intro i j r r' hr; cases (hnone i).symm.trans hr
  case singleton => intro i r t d hr; cases (hnone i).symm.trans hr
  case mainPlace => intro _ i r t d hr; cases (hnone i).symm.trans hr
  case parent => intro i r t d hr; cases (hnone i).symm.trans hr

/-- The facts are bound before anything else happens. -/
theorem bindAtTop_meets : ∀ (facts : Table Value) {h : List Visit} {s : State}, Compiled o h s →
    Untouched s → (bindAtTop facts).Meets (overall o) calls h s fun _ t => Untouched t := by
  intro facts
  induction facts with
  | nil => exact fun ho hu => .pure ⟨ho, hu.complete ho.toOrderly⟩ hu
  | cons fact rest ih =>
    intro h s ho hu
    obtain ⟨name, value⟩ := fact
    obtain ⟨c, hc, -⟩ := ho.sound.top
    have hs' : Sound { s with scopes := s.scopes.bind Scopes.top name value } :=
      ho.sound.bind rfl rfl rfl
    have hu' : Untouched { s with scopes := s.scopes.bind Scopes.top name value } :=
      ⟨hu.resources, hu.classes, hu.ofTypes⟩
    have ho' : Compiled o (h ++ [⟨.change, calls, _⟩]) _ :=
      ho.change hs' (.refl _) (fun _ => id) (fun _ => rfl) rfl
    refine .bind (.scopeAt_bind hc (.update ⟨ho', hu'.complete ho'.toOrderly⟩)) ?_
    rintro - h' t ⟨ho', -⟩ rfl
    exact ih ho' hu'

/-! ## The top-level code and the node -/

theorem evaluateAtTop_meets {strict : Bool} {type : TypeId} (hs : Sound s)
    (htype : type < s.types.types.length)
    (hmain : ∀ t, Quiet Scopes.top s t → Realized t type → MainRealized t)
    (hready : ∀ t, Quiet Scopes.top s t → MainRealized t → Ready [] none t) :
    (evaluateAtTop strict type).Meets (lawfully Scopes.top s) [] [] s fun _ t =>
      Ready [] none t := by
  obtain ⟨c, hc, -⟩ := hs.top
  refine .bind ((Underway.start hs).quietly (fun _ => rfl) (ensure_meets hs
    ⟨Scopes.lt_length_of_get? hc, fun _ => .inr rfl⟩ htype)) ?_
  rintro id h₁ t hu ⟨⟨hsing, r, hr, hsrc⟩, hq⟩
  have hr₁ := (hready t hq (hmain t hq ⟨hsing, id, r, hr, hsrc⟩)).with_due (some type)
  have hroom : r.evaluated = false → remaining (t.mark id) < remaining t + 1 := fun _ =>
    Nat.lt_succ_of_le (remaining_le_of_step (Step.mark r.scope t id))
  refine .mono (hu.resume (hu.course.step.scope_of_hidden hr) (evaluateResource_meets
    (runCode_runs strict _) hu.course.sound hr hsrc hr₁ hroom)) ?_
  exact fun _ u hx => hx.1.1

theorem isMain_ofName : (Descriptor.ofName .hostclass "").IsMain := by
  decide

/-- Between the phases operations may be called at the top. -/
structure Between (o : State) (h : List Visit) (s : State) : Prop where
  compiled : Compiled o h s
  complete : Complete o h s
  ready : Ready [] none s

/-- A phase may follow what has met the contract so far. -/
theorem Between.phase {α : Type} {p : Run α} (hb : Between o h s)
    (hp : p.Meets (lawfully Scopes.top s) [] [] s fun _ t => Ready [] none t) :
    p.Meets (overall o) [] h s fun _ t => Ready [] none t :=
  hb.compiled.resume hb.complete hp

theorem evaluateMain_meets {strict : Bool} (ho : Compiled o h s) (hu : Untouched s) :
    (evaluateMain strict).Meets (overall o) [] h s fun _ t => Ready [] none t := by
  have htop : ∀ {type : ℕ} {d h s}, Compiled o h s → Untouched s → s.types.get? type = some d →
      d.IsMain → (evaluateAtTop strict type).Meets (overall o) [] h s fun _ t =>
        Ready [] none t := by
    intro type d h s ho hu hd hmain
    refine ho.resume (hu.complete ho.toOrderly) (evaluateAtTop_meets ho.sound
      (Registry.lt_length_of_get? hd) ?_ fun t hq hm => hu.ready hq hm)
    rintro t hq ⟨-, id, r, hr, hsrc⟩
    obtain ⟨_, hd', -⟩ := hq.types.kept type d hd
    exact ⟨id, r, type, _, hr, hsrc, hd', hmain⟩
  refine .get_bind ?_
  dsimp only
  split
  · next type hfind =>
    obtain ⟨d, hd, hmain⟩ := Registry.isMain_of_lookup hfind
    exact htop ho hu hd hmain
  · refine .bind (P := fun type t => Untouched t ∧ ∃ d, t.types.get? type = some d ∧ d.IsMain)
      (.get_bind (.ofExcept_bind (fun x hx => ?_) fun e _ => ⟨.inl (.error e), ho⟩)) ?_
    · have hs' := hu.sound_addType ho.sound rfl hx
      obtain rfl := Registry.add_eq_ok hx
      have hu' : Untouched { s with types := { s.types with
          types := s.types.types ++ [Descriptor.ofName .hostclass ""] } } :=
        ⟨hu.resources, hu.classes, hu.ofTypes⟩
      have ho' : Compiled o (h ++ [⟨.change, [], _⟩]) _ :=
        ho.change hs' (Registry.persists_add hx) (fun _ hr => hr.add rfl hx) (fun _ => rfl) rfl
      refine .update_bind (.pure ⟨ho', hu'.complete ho'.toOrderly⟩ ⟨hu', _, ?_, isMain_ofName⟩)
      show Registry.get? _ _ = _
      rw [Registry.get?_append, if_pos rfl]
    · rintro type h' t ⟨ho', -⟩ ⟨hu', d, hd, hmain⟩
      exact htop ho' hu' hd hmain

theorem evaluateNode_meets {strict : Bool} {host : Host} (hb : Between o h s) :
    (evaluateNode strict host).Meets (overall o) [] h s fun _ t => Ready [] none t := by
  refine .get_bind ?_
  dsimp only
  split
  · next type hfind =>
    obtain ⟨d, hd, -⟩ := Registry.get?_of_nodeFor hfind
    have hs := hb.compiled.sound
    refine hb.phase (evaluateAtTop_meets hs (Registry.lt_length_of_get? hd) ?_ ?_)
    · exact fun t hq _ => hq.step.mainRealized hb.ready.main
    · exact fun t hq _ => hb.ready.of_quiet hs hq
  · split
    · exact .pure ⟨hb.compiled, hb.complete⟩ hb.ready
    · exact .stop ⟨.inl (.error _), hb.compiled⟩

/-! ## The instances of defined types -/

theorem mem_unevaluated {c : Catalog} {id : ResourceId} :
    id ∈ c.unevaluated ↔ ∃ r, c.get? id = some r ∧ r.source.isSome ∧ r.evaluated = false := by
  rw [Catalog.unevaluated, List.mem_filter, List.mem_range, Option.any_eq_true]
  constructor
  · rintro ⟨-, r, hr, hx⟩
    exact ⟨r, hr, by simpa using hx⟩
  · rintro ⟨r, hr, hx⟩
    exact ⟨Catalog.lt_length_of_get? hr, r, hr, by simpa using hx⟩

theorem evaluateResources_meets {strict : Bool} : ∀ (ids : List ResourceId) {s : State}, Sound s →
    Ready [] none s → (∀ id ∈ ids, ∃ r, s.catalog.get? id = some r ∧ r.source.isSome) →
    (evaluateResources (runCode strict) ids).Meets (lawfully Scopes.top s) [] [] s fun _ t =>
      Ready [] none t := by
  intro ids
  induction ids with
  | nil => exact fun hs hr _ => .pure (.start hs) hr
  | cons id rest ih =>
    intro s hs hready hids
    obtain ⟨r, hr, hsome⟩ := hids id (by simp)
    obtain ⟨type, hsrc⟩ := Option.isSome_iff_exists.mp hsome
    have hroom : r.evaluated = false → remaining (s.mark id) < remaining s + 1 := fun _ =>
      Nat.lt_succ_of_le (remaining_le_of_step (Step.mark r.scope s id))
    have hvis : Hidden s r.scope → r.scope = Scopes.top := fun hh =>
      absurd rfl (hh.resource id r hr)
    refine .bind ((Underway.start hs).resume hvis (evaluateResource_meets (runCode_runs strict _) hs
      hr hsrc (hready.with_due _) hroom)) ?_
    rintro - h' t hu ⟨⟨hready', -⟩, hstep⟩
    refine (hu.resume (fun _ => rfl) (ih hu.course.sound hready' fun i hi => ?_)).mono
      fun _ _ hx => hx.1
    obtain ⟨r₀, hr₀, hs₀⟩ := hids i (by simp [hi])
    obtain ⟨r', hr', hg⟩ := hstep.resources i r₀ hr₀
    exact ⟨r', hr', hg.source ▸ hs₀⟩

theorem evaluateDefinitions_meets {strict : Bool} : ∀ (rounds : ℕ) {h : List Visit} {s : State},
    Between o h s → (evaluateDefinitions (runCode strict) rounds).Meets (overall o) [] h s
      fun _ t => Ready [] none t ∧ t.catalog.unevaluated = [] := by
  intro rounds
  induction rounds with
  | zero => exact fun hb => .stop ⟨.inr rfl, hb.compiled⟩
  | succ rounds ih =>
    intro h s hb
    refine .get_bind ?_
    dsimp only
    split
    · next hempty =>
      exact .pure ⟨hb.compiled, hb.complete⟩ ⟨hb.ready, by simpa using hempty⟩
    · refine .bind (hb.phase (evaluateResources_meets _ hb.compiled.sound hb.ready ?_)) ?_
      · intro id hid
        obtain ⟨r, hr, hs, -⟩ := mem_unevaluated.mp hid
        exact ⟨r, hr, hs⟩
      · rintro - h₁ t ⟨ho, hc⟩ hready
        refine .bind (ih ⟨ho, hc, hready⟩) ?_
        rintro later h₂ u hok hx
        exact .pure hok hx

/-! ## All phases -/

/-- The phases before instances of defined types are evaluated. -/
def firstPhases (host : Host) (settings : Settings) : Run Unit := do
  bindAtTop host.allFacts
  evaluateMain settings.strictVariables
  evaluateNode settings.strictVariables host
  includeClasses (runCode settings.strictVariables) Scopes.top host.classes

theorem phases_eq_firstPhases (rounds : ℕ) (host : Host) (settings : Settings) :
    phases rounds host settings = (do
      firstPhases host settings
      let _ ← evaluateDefinitions (runCode settings.strictVariables) rounds
      modifyCatalog (·.finalize)) := by
  simp [phases, firstPhases]

theorem compiled_initial {types : Registry} (hclosed : types.Closed) (host : Host) :
    Compiled (.initial types host) [] (.initial types host) :=
  ⟨(Course.start (sound_initial hclosed host) : Course Scopes.top _ [] _).toOrderly, .start _,
    fun _ => id⟩

/-- When the instances of defined types are going to be evaluated, operations may be called. -/
theorem firstPhases_meets {types : Registry} (hclosed : types.Closed) (host : Host)
    (settings : Settings) :
    (firstPhases host settings).Meets (overall (.initial types host)) [] []
      (.initial types host) fun _ t => Ready [] none t := by
  refine .bind (bindAtTop_meets host.allFacts (compiled_initial hclosed host) ⟨rfl, rfl, rfl⟩) ?_
  rintro - h₁ s₁ ⟨ho₁, -⟩ hu₁
  refine .bind (evaluateMain_meets ho₁ hu₁) ?_
  rintro - h₂ s₂ ⟨ho₂, hc₂⟩ hr₂
  refine .bind (evaluateNode_meets ⟨ho₂, hc₂, hr₂⟩) ?_
  rintro - h₃ s₃ ⟨ho₃, hc₃⟩ hr₃
  obtain ⟨c, hc, -⟩ := ho₃.sound.top
  have hable : Able [] (remaining s₃) Scopes.top s₃ :=
    ⟨ho₃.sound, hr₃, Scopes.lt_length_of_get? hc, le_rfl⟩
  exact (Between.mk ho₃ hc₃ hr₃).phase
    ((pieces_works (runCode_runs _ _) settings.strictVariables).includeClasses host.classes hable)

theorem phases_meets (rounds : ℕ) {types : Registry} (hclosed : types.Closed) (host : Host)
    (settings : Settings) :
    (phases rounds host settings).Meets (overall (.initial types host)) [] []
      (.initial types host) fun _ t => t.catalog.unevaluated = [] := by
  rw [phases_eq_firstPhases]
  refine .bind (firstPhases_meets hclosed host settings) ?_
  rintro - h₄ s₄ ⟨ho₄, hc₄⟩ hr₄
  refine .bind (evaluateDefinitions_meets rounds ⟨ho₄, hc₄, hr₄⟩) ?_
  rintro number h₅ s₅ ⟨ho₅, hc₅⟩ ⟨-, hdone⟩
  have hs : Sound { s₅ with catalog := s₅.catalog.finalize } :=
    ho₅.sound.of_types (.refl _) ho₅.sound.inRange.resolved rfl rfl
  refine .mono (.update ⟨ho₅.change hs (.refl _) (fun _ => id) (fun _ => rfl) rfl,
    hc₅.change rfl rfl fun _ => rfl⟩) ?_
  rintro - t rfl
  exact hdone

section Compile

variable (rounds : ℕ) {types : Registry} (host : Host) (settings : Settings)

theorem history_compiled (hclosed : types.Closed) :
    Compiled (.initial types host) (history rounds types host settings)
      (compile rounds types host settings).2 := by
  have hm := phases_meets rounds hclosed host settings
  unfold Run.Meets at hm
  rw [history, compile]
  split at hm
  · next hr => rw [hr]; exact hm.1.1
  · next hr => rw [hr]; exact hm.2

/-- A compilation fails because the site is at fault, because the scopes form a ring, or because it
takes too many rounds. -/
theorem fair_of_compile (hclosed : types.Closed) {f : Failure}
    (h : (compile rounds types host settings).1 = .error f) :
    Fair (compile rounds types host settings).2 f ∨ f = .exhausted := by
  have hm := phases_meets rounds hclosed host settings
  unfold Run.Meets at hm
  rw [compile] at h ⊢
  split at hm
  · next hr => rw [hr] at h; cases h
  · next hr =>
    rw [hr] at h ⊢
    cases h
    exact hm.1

theorem compile_complete (hclosed : types.Closed) {t : State}
    (h : compile rounds types host settings = (.ok (), t)) :
    Complete (.initial types host) (history rounds types host settings) t ∧
      t.catalog.unevaluated = [] := by
  have hm := phases_meets rounds hclosed host settings
  unfold Run.Meets at hm
  rw [compile] at h
  rw [h] at hm
  exact ⟨hm.1.2, hm.2⟩

/-- The invariant holds in every state of a compilation. -/
theorem sound_of_mem_states (hclosed : types.Closed) {s : State}
    (hs : s ∈ states rounds types host settings) : Sound s := by
  rcases List.mem_cons.mp hs with rfl | hs
  · exact sound_initial hclosed host
  · obtain ⟨v, hv, rfl⟩ := List.mem_map.mp hs
    exact ((history_compiled rounds host settings hclosed).visits v hv).sound

end Compile

end SiteCatalog.Compilation
