import SiteCatalog.Proofs.Compilation.Entering
import SiteCatalog.Proofs.Compilation.Pieces
import SiteCatalog.Proofs.Compilation.Operations

/-!
# Limits of nested runs

A run that may begin in any state in which the unnamed class has been entered, also in the middle of
other runs. Little is known about such a state: a class may have been marked as evaluated whose code
has not been entered, or whose parent has not been evaluated. Still no place is missing, no more
runs of code are open at once than there are classes and nodes to evaluate, and variables at the top
keep their values. Before the unnamed class has been entered, a class that bears its title may be
evaluated in its place, in whatever scope it is included. If none that does has a parent, all but
the last still holds.

Results:
* `Limits`: how many runs of code may be open at once, which variables at the top keep their values,
  and whether the unnamed class may be anywhere.
* `Limits.InOrder`: the states in which calls may be made.
* `safely`: the contract of runs within limits; `Safe.resume`, `Safe.quietly`, `follow_safely` are
  its rules.
* `pieces_safe`: the pieces of bodies stay within limits, if the running of code does.
-/

namespace SiteCatalog

/-- A variable is bound when a class is evaluated in the scope that encloses it, without parameters
and as far as the defaults have values. Where the class has a parent, nothing is bound: that scope
comes to stand below the one of the parent, which is below it, and the search for a module never
ends. -/
def Descriptor.BindsInPlace (d : Descriptor) (name : String) : Prop :=
  d.parent = none ∧ (name = "title" ∨ name = "name" ∨
    name = "module_name" ∧ d.moduleName.isSome ∨
    ∃ p ∈ d.parameters.takeWhile (·.2.isSome), p.1 = name)

instance (d : Descriptor) (name : String) : Decidable (d.BindsInPlace name) :=
  inferInstanceAs (Decidable (_ ∧ _))

namespace Compilation

/-! ## Limits -/

/-- The number of runs of code among open calls. -/
def nesting (calls : List Call) : ℕ :=
  (calls.filterMap Call.code?).length

theorem nesting_cons_code (t : TypeId) (id : ResourceId) (calls : List Call) :
    nesting (.code t id :: calls) = nesting calls + 1 :=
  rfl

theorem nesting_cons {c : Call} (hc : c.code? = none) (calls : List Call) :
    nesting (c :: calls) = nesting calls := by
  rw [nesting, nesting, List.filterMap_cons_none hc]

/-- How many runs of code may be open at once, which variables at the top keep their values, and
whether a class that bears the title of the unnamed class may be evaluated `anywhere`. -/
structure Limits where
  depth : ℕ
  constant : String → Option Value
  anywhere : Prop

variable {g : Limits} {scope other : ScopeId} {o s t s' : State} {h h' : List Visit}
  {calls : List Call} {c : Call} {n : ℕ} {k : ScopeId}

/-- The variables at the top have the values that they are to keep. -/
def Limits.Kept (g : Limits) (s : State) : Prop :=
  ∀ name v, g.constant name = some v → s.scopes.lookupLocal Scopes.top name = some v

theorem Limits.Kept.congr (hk : g.Kept s)
    (htop : s'.scopes.lookupLocal Scopes.top = s.scopes.lookupLocal Scopes.top) : g.Kept s' := by
  intro name v hv
  rw [htop]
  exact hk name v hv

/-- A variable may be bound that is not at the top or not to be kept. -/
theorem Limits.Kept.bind (hk : g.Kept s) {name : String} (v : Value)
    (hname : k = Scopes.top → g.constant name = none) :
    g.Kept { s with scopes := s.scopes.bind k name v } := by
  intro other w hw
  have hold := hk other w hw
  rw [Scopes.lookupLocal, Scopes.get?_bind]
  split
  · next heq =>
    obtain ⟨c, hc, hv⟩ := Option.bind_eq_some_iff.mp hold
    have hne : name ≠ other := by
      rintro rfl
      rw [hname heq.symm] at hw
      cases hw
    rw [hc, Option.map_some, Option.bind_some, Table.find?_insert_of_ne _ _ hne, hv]
  · exact hold

/-- A call may be made: the unnamed class has been entered, unless classes may be evaluated
`anywhere`. In this case no class that bears its title has a parent, and nothing has to keep its
value. -/
structure Limits.InOrder (g : Limits) (s : State) : Prop where
  main : ¬g.anywhere → MainRealized s
  rooted : g.anywhere → s.types.StrictlyRooted
  free : g.anywhere → g.constant = fun _ => none

/-- A moment within limits. -/
structure Limits.Respected (g : Limits) (v : Visit) : Prop where
  sound : Sound v.state g.anywhere
  kept : g.Kept v.state
  inOrder : ∀ c, v.event = .enter c → g.InOrder v.state
  depth : ∀ t id, v.event = .enter (.code t id) → nesting v.inside < g.depth

theorem Limits.Respected.of_not_enter {e : Event} (hs : Sound s g.anywhere) (hk : g.Kept s)
    (he : ∀ c, e ≠ .enter c) : g.Respected ⟨e, calls, s⟩ :=
  ⟨hs, hk, fun c hc => absurd hc (he c), fun _ _ hc => absurd hc (he _)⟩

/-! ## Between two states -/

/-- What a run may do to the state, and the parameters of evaluated resources stay as they are. -/
structure Stride (scope : ScopeId) (s t : State) (anywhere : Prop) : Prop
    extends Step scope s t anywhere where
  params : ∀ id r, s.catalog.get? id = some r → r.evaluated = true →
    ∃ r', t.catalog.get? id = some r' ∧ r'.params = r.params

namespace Stride

variable {anywhere : Prop}

theorem refl (scope : ScopeId) (s : State) (anywhere : Prop) : Stride scope s s anywhere :=
  ⟨.refl scope s, fun _ r hr _ => ⟨r, hr, rfl⟩⟩

theorem trans_of_visible (hd : Stride scope o s anywhere) (hd' : Stride other s t anywhere)
    (hother : Hidden o other → other = scope) : Stride scope o t anywhere where
  toStep := hd.toStep.trans_of_visible hd'.toStep hother
  params := by
    intro id r hr hev
    obtain ⟨r₁, hr₁, hg⟩ := hd.resources id r hr
    obtain ⟨r', hr', hp⟩ := hd.params id r hr hev
    obtain ⟨r'', hr'', hp'⟩ := hd'.params id r₁ hr₁ (hg.evaluated hev)
    obtain rfl : r₁ = r' := Option.some.inj (hr₁.symm.trans hr')
    exact ⟨r'', hr'', hp'.trans hp⟩

theorem of_quiet (hq : Quiet scope s t) : Stride scope s t anywhere :=
  ⟨hq.step.loosen anywhere, fun _ r hr _ => ⟨r, hq.kept hr, rfl⟩⟩

/-- A step after which the resources that had been evaluated at the beginning have the same
parameters. -/
theorem change (hd : Stride scope o s anywhere) (hstep : Step scope o s' anywhere)
    (hp : ∀ id r, Done o id → s.catalog.get? id = some r →
      ∃ r', s'.catalog.get? id = some r' ∧ r'.params = r.params) : Stride scope o s' anywhere where
  toStep := hstep
  params := by
    intro id r hr hev
    obtain ⟨r₁, hr₁, hp₁⟩ := hd.params id r hr hev
    obtain ⟨r', hr', hp'⟩ := hp id r₁ ⟨r, hr, hev⟩ hr₁
    exact ⟨r', hr', hp'.trans hp₁⟩

end Stride

theorem Limits.InOrder.of_step (ho : g.InOrder s) (h : Step scope s t g.anywhere) :
    g.InOrder t where
  main := fun horder => h.mainRealized (ho.main horder)
  rooted := fun hany => Registry.strictlyRooted_iff.mpr
    ((Registry.strictlyRooted_iff.mp (ho.rooted hany)).of_extends h.types)
  free := ho.free

theorem params_mark {id i : ResourceId} {r : Resource} (hr : s.catalog.get? i = some r) :
    ∃ r', (s.mark id).catalog.get? i = some r' ∧ r'.params = r.params := by
  rw [get?_mark, hr]
  split
  · exact ⟨_, rfl, rfl⟩
  · exact ⟨r, rfl, rfl⟩

/-! ## The contract -/

/-- A history within limits since the state `o`. -/
structure Safe (g : Limits) (scope : ScopeId) (o : State) (h : List Visit) (s : State) : Prop where
  sound : Sound s g.anywhere
  kept : g.Kept s
  stride : Stride scope o s g.anywhere
  visits : ∀ v ∈ h, g.Respected v ∧ v.state.types.Persists s.types

/-- Runs within limits, in which only the site is at fault. -/
def safely (g : Limits) (scope : ScopeId) (o : State) : Contract where
  ok h s := Safe g scope o h s
  failed f h s := Fair s f ∧ Safe g scope o h s

namespace Safe

theorem start (hs : Sound s g.anywhere) (hk : g.Kept s) : Safe g scope s [] s :=
  ⟨hs, hk, .refl scope s _, fun _ hv => nomatch hv⟩

theorem append (hu : Safe g scope o h s) (hu' : Safe g other s h' t)
    (hother : Hidden o other → other = scope) : Safe g scope o (h ++ h') t where
  sound := hu'.sound
  kept := hu'.kept
  stride := hu.stride.trans_of_visible hu'.stride hother
  visits := by
    intro v hv
    rcases List.mem_append.mp hv with hv | hv
    · obtain ⟨hrespected, hkept⟩ := hu.visits v hv
      exact ⟨hrespected, hkept.trans hu'.stride.types.persists⟩
    · exact hu'.visits v hv

/-- A moment may be added. -/
theorem snoc {v : Visit} (hu : Safe g scope o h s) (hv : g.Respected v)
    (hstride : Stride scope o v.state g.anywhere) (hty : s.types.Persists v.state.types) :
    Safe g scope o (h ++ [v]) v.state where
  sound := hv.sound
  kept := hv.kept
  stride := hstride
  visits := by
    intro w hw
    rcases List.mem_append.mp hw with hw | hw
    · obtain ⟨hrespected, hkept⟩ := hu.visits w hw
      exact ⟨hrespected, hkept.trans hty⟩
    · rw [List.mem_singleton.mp hw]
      exact ⟨hv, .refl _⟩

/-- A change that leaves types and parameters alone. -/
theorem change (hu : Safe g scope o h s) (hs : Sound s' g.anywhere) (hk : g.Kept s')
    (hstep : Step scope o s' g.anywhere) (hty : s'.types = s.types)
    (hp : ∀ id r, Done o id → s.catalog.get? id = some r →
      ∃ r', s'.catalog.get? id = some r' ∧ r'.params = r.params) :
    Safe g scope o (h ++ [⟨.change, calls, s'⟩]) s' :=
  hu.snoc (.of_not_enter hs hk fun _ he => nomatch he) (hu.stride.change hstep hp)
    (by rw [hty])

/-- A change of scopes. -/
theorem change_scopes {scopes : Scopes} (hu : Safe g scope o h s)
    (hs : Sound { s with scopes } g.anywhere) (hk : g.Kept { s with scopes })
    (hstep : Step scope o { s with scopes } g.anywhere) :
    Safe g scope o (h ++ [⟨.change, calls, { s with scopes }⟩]) { s with scopes } :=
  hu.change hs hk hstep rfl fun _ r _ hr => ⟨r, hr, rfl⟩

theorem enter (hu : Safe g scope o h s) (hm : g.InOrder s)
    (hdepth : ∀ t id, c = .code t id → nesting calls < g.depth) :
    Safe g scope o (h ++ [⟨.enter c, calls, s⟩]) s := by
  refine hu.snoc ⟨hu.sound, hu.kept, fun _ _ => hm, ?_⟩ hu.stride (.refl _)
  rintro t id ⟨⟩
  exact hdepth t id rfl

theorem leave (hu : Safe g scope o h s) (c : Call) (before : State) :
    Safe g scope o (h ++ [⟨.leave c before, calls, s⟩]) s :=
  hu.snoc (.of_not_enter hu.sound hu.kept fun _ he => nomatch he) hu.stride (.refl _)

theorem fails {α : Type} {P : α → State → Prop} (hu : Safe g scope o h s) (e : CompileError) :
    (fail e : Run α).Meets (safely g scope o) calls h s P :=
  .stop ⟨.error e, hu⟩

/-- What a run does from a state on, it does in the middle of a history. -/
theorem resume {α : Type} {p : Run α} {P : α → State → Prop} (hu : Safe g scope o h s)
    (hother : Hidden o other → other = scope) (hp : p.Meets (safely g other s) calls [] s P) :
    p.Meets (safely g scope o) calls h s fun a t => P a t ∧ Stride other s t g.anywhere := by
  refine hp.rebase (fun a h' t hok hP => ⟨hu.append hok hother, hP, hok.stride⟩) ?_
  rintro f h' t ⟨he, hfail⟩
  exact ⟨he, hu.append hfail hother⟩

theorem of_realizing (hk : g.Kept s) (hr : Realizing scope s h t g.anywhere)
    (hscopes : ∀ v ∈ h, v.state.scopes = s.scopes) : Safe g scope s h t where
  sound := hr.sound
  kept := hk.congr (by rw [hr.quiet.scopes])
  stride := .of_quiet hr.quiet
  visits := by
    rintro ⟨event, inside, state⟩ hv
    obtain ⟨hevent, hs, hkept⟩ := hr.visits _ hv
    dsimp only at hevent
    subst hevent
    exact ⟨.of_not_enter hs (hk.congr (by rw [hscopes _ hv])) (fun _ he => nomatch he), hkept⟩

/-- Looking up parents and entering classes stays within limits. -/
theorem quietly {α : Type} {p : Run α} {P : α → State → Prop} (hu : Safe g scope o h s)
    (hother : Hidden o other → other = scope)
    (hp : p.Meets (Compilation.quietly other s g.anywhere) calls [] s P)
    (hscopes : p.Holds fun u => u.scopes = s.scopes) :
    p.Meets (safely g scope o) calls h s fun a t => P a t ∧ Quiet other s t := by
  refine (hp.and (hscopes calls [] s rfl fun _ hv => nomatch hv)).rebase ?_ ?_
  · rintro a h' t ⟨hr, -, hsame⟩ ⟨hP, -⟩
    exact ⟨hu.append (.of_realizing hu.kept hr hsame) hother, hP, hr.quiet⟩
  · rintro f h' t ⟨⟨he, hr⟩, -, hsame⟩
    exact ⟨.of_error he, hu.append (.of_realizing hu.kept hr hsame) hother⟩

end Safe

/-- A call, in the middle of a history. -/
theorem follow_safely {α : Type} {p : Run α} {P : α → State → Prop}
    (hp : p.Meets (safely g scope o) (c :: calls) (h ++ [⟨.enter c, calls, s⟩]) s P) :
    (follow c p).Meets (safely g scope o) calls h s P :=
  .follow (hp.imp (fun _ _ _ hok hP => ⟨hok.leave c s, hP⟩)
    fun _ _ _ hf => ⟨hf.1, hf.2.leave c s⟩)

/-- A call that is no run of code, from the state in which it is called. -/
theorem follow_from {α : Type} {p : Run α} {P : α → State → Prop} (hs : Sound s g.anywhere)
    (hk : g.Kept s) (hm : g.InOrder s) (hc : c.code? = none)
    (hp : p.Meets (safely g scope s) (c :: calls) [] s P) :
    (follow c p).Meets (safely g scope s) calls [] s P := by
  have henter : Safe g scope s ([] ++ [⟨.enter c, calls, s⟩]) s := by
    refine (Safe.start hs hk).enter hm fun t id heq => ?_
    rw [heq] at hc
    cases hc
  exact follow_safely ((henter.resume (fun _ => rfl) hp).mono fun _ _ hx => hx.1)

/-! ## Operations -/

/-- Operations may be called in a scope, with `n` nested runs of code at most. Variables at the top
can only be kept once the unnamed class has been started. -/
structure Fit (calls : List Call) (g : Limits) (n : ℕ) (scope : ScopeId) (s : State) : Prop where
  sound : Sound s g.anywhere
  kept : g.Kept s
  inOrder : g.InOrder s
  started : g.constant = (fun _ => none) ∨ MainStarted s
  scope : scope < s.scopes.arena.length
  depth : nesting calls + remaining s ≤ g.depth
  room : remaining s ≤ n

namespace Fit

theorem of_safe (ha : Fit calls g n scope s) (hu : Safe g scope s h t) :
    Fit calls g n scope t where
  sound := hu.sound
  kept := hu.kept
  inOrder := ha.inOrder.of_step hu.stride.toStep
  started := ha.started.imp_right hu.stride.mainStarted
  scope := ha.scope.trans_le hu.stride.length_le
  depth := (Nat.add_le_add_left (remaining_le_of_step hu.stride.toStep) _).trans ha.depth
  room := (remaining_le_of_step hu.stride.toStep).trans ha.room

theorem cons (ha : Fit calls g n scope s) (hc : c.code? = none) : Fit (c :: calls) g n scope s :=
  ⟨ha.sound, ha.kept, ha.inOrder, ha.started, ha.scope, by rw [nesting_cons hc]; exact ha.depth,
    ha.room⟩

theorem follow {α : Type} {p : Run α} {P : α → State → Prop} (ha : Fit calls g n scope s)
    (hc : c.code? = none) (hp : Fit (c :: calls) g n scope s →
      p.Meets (safely g scope s) (c :: calls) [] s P) :
    (Compilation.follow c p).Meets (safely g scope s) calls [] s P :=
  follow_from ha.sound ha.kept ha.inOrder hc (hp (ha.cons hc))

/-- A class or node may be entered wherever operations may be called. -/
theorem ensure (ha : Fit calls g n scope s) {type : TypeId} (htype : type < s.types.types.length)
    (params : Table Value) :
    (Compilation.ensure type scope params).Meets (safely g scope s) calls [] s fun id t =>
      (Singleton t type ∧ ∃ r, t.catalog.get? id = some r ∧ r.source = some type) ∧
        Quiet scope s t :=
  (Safe.start ha.sound ha.kept).quietly (fun _ => rfl)
    (ensure_meets ha.sound ⟨ha.scope, fun horder => .inl (ha.inOrder.main horder)⟩ htype)
    ((entering_scopes params s.scopes).ensure type scope)

end Fit

/-- A run in a scope that stays within limits. -/
def IsSafe (g : Limits) (scope : ScopeId) (α : Type) (calls : List Call) (s : State) (p : Run α) :
    Prop :=
  p.Meets (safely g scope s) calls [] s fun _ _ => True

namespace IsSafe

variable {α β : Type} {p : Run α} {f : α → Run β}

theorem pure (ha : Fit calls g n scope s) (a : α) :
    IsSafe g scope α calls s (Pure.pure a) :=
  Run.Meets.pure (.start ha.sound ha.kept) trivial

theorem fail (ha : Fit calls g n scope s) (e : CompileError) :
    IsSafe g scope α calls s (Compilation.fail e) :=
  (Safe.start ha.sound ha.kept).fails e

theorem bind (ha : Fit calls g n scope s) (hp : IsSafe g scope α calls s p)
    (hk : ∀ a t, Fit calls g n scope t → IsSafe g scope β calls t (f a)) :
    IsSafe g scope β calls s (p >>= f) := by
  refine Run.Meets.bind hp fun a h' t hok _ => ?_
  exact (hok.resume (fun _ => rfl) (hk a t (ha.of_safe hok))).mono fun _ _ _ => trivial

end IsSafe

/-! ## What is expected of the running of code -/

/-- The evaluation of a class binds none of the constants. -/
def Limits.Spares (g : Limits) (d : Descriptor) : Prop :=
  ∀ name, d.BindsInPlace name → g.constant name = none

/-- The evaluation of the unnamed class leaves the constants alone. -/
structure Harmless (g : Limits) (s : State) (r : Resource) (d : Descriptor) : Prop where
  supplied : r.params = []
  spared : g.Spares d
  /-- The top belongs to no module. -/
  caller : ∀ c, s.scopes.get? Scopes.top = some c → c.moduleName = none
  first : ∀ t, ¬Evaluated s t

/-- A resource of a type may be evaluated although variables at the top are to be kept. -/
def Limits.Allows (g : Limits) (s : State) (r : Resource) (d : Descriptor) : Prop :=
  g.constant = (fun _ => none) ∨ MainStarted s ∨ d.IsMain ∧ Harmless g s r d

/-- The code of a type is about to be entered for a resource that has just been marked. -/
structure Entry (calls : List Call) (g : Limits) (o : State) (id : ResourceId) (r : Resource)
    (t : TypeId) (d : Descriptor) : Prop where
  begins : Begins o id r t d
  sound : Sound o g.anywhere
  kept : g.Kept o
  inOrder : g.InOrder o
  allows : g.Allows o r d
  depth : nesting calls + 1 + remaining (o.mark id) ≤ g.depth

/-- A type has been evaluated, and it has a scope if it is a class or node. -/
structure Finished (s : State) (t : TypeId) : Prop where
  evaluated : Evaluated s t
  scope : Singleton s t → (s.scopes.ofType? t).isSome

/-- What is expected of the running of code, nested `n` deep at most. -/
def CodeIsSafe (code : Code) (g : Limits) (n : ℕ) : Prop :=
  ∀ calls o id r t d, Entry calls g o id r t d → remaining (o.mark id) < n →
    (code t id).Meets (safely g r.scope o) calls [⟨.change, calls, o.mark id⟩] (o.mark id)
      fun _ s => Finished s t

section Code

variable {code : Code} (hcode : CodeIsSafe code g n)

include hcode

/-- A resource is evaluated, unless it has been. If it has been, its type may have no scope yet. -/
theorem evaluateResource_safe {id : ResourceId} {r : Resource} (hs : Sound s g.anywhere)
    (hk : g.Kept s) (hm : g.InOrder s) (hr : s.catalog.get? id = some r)
    (hallows : ∀ t d, Begins s id r t d → g.Allows s r d)
    (hroom : ∀ t d, Begins s id r t d → nesting calls + 1 + remaining (s.mark id) ≤ g.depth ∧
      remaining (s.mark id) < n) :
    (evaluateResource code id).Meets (safely g r.scope s) calls [] s
      fun _ u => ∀ t, r.source = some t →
        Evaluated u t ∧ (r.evaluated = false → Finished u t) := by
  refine follow_from hs hk hm rfl (.resourceAt_bind hr ?_)
  split
  · next hev =>
    refine .pure (.start hs hk) fun t hsrc => ⟨⟨id, r, hr, hsrc, hev⟩, fun hwait => ?_⟩
    rw [hwait] at hev
    cases hev
  · next hwait =>
    have hwait' : r.evaluated = false := by simpa using hwait
    refine .update_bind ?_
    split
    · next t hsrc =>
      obtain ⟨d, hd⟩ : ∃ d, s.types.get? t = some d :=
        ⟨_, List.getElem?_eq_getElem (hs.inRange.resourceSource id r t hr hsrc)⟩
      have hb : Begins s id r t d := ⟨hr, hsrc, hd, hwait'⟩
      obtain ⟨hdepth, hn⟩ := hroom t d hb
      have hentry : Entry (.evaluateResource id :: calls) g s id r t d :=
        ⟨hb, hs, hk, hm, hallows t d hb, by rw [nesting_cons rfl]; exact hdepth⟩
      refine (hcode _ s id r t d hentry hn).mono fun _ u hu t' hsrc' => ?_
      rw [hsrc] at hsrc'
      cases hsrc'
      exact ⟨hu.evaluated, fun _ => hu⟩
    · next hsrc =>
      refine .pure ((Safe.start hs hk).change (hs.mark id) (hk.congr rfl)
        (.loosen (.mark r.scope s id) _) rfl
        ?_) fun t hsrc' => ?_
      · exact fun i r' _ hr' => params_mark hr'
      · rw [hsrc] at hsrc'
        cases hsrc'

/-- When operations may be called, a class or node may be evaluated. -/
theorem Fit.evaluateResource {id : ResourceId} {r : Resource} {ty : TypeId}
    (ha : Fit calls g n scope s) (hr : s.catalog.get? id = some r) (hsrc : r.source = some ty)
    (hsing : Singleton s ty) : (evaluateResource code id).Meets (safely g r.scope s) calls [] s
      fun _ u => ∀ t, r.source = some t →
        Evaluated u t ∧ (r.evaluated = false → Finished u t) := by
  refine evaluateResource_safe hcode ha.sound ha.kept ha.inOrder hr
    (fun _ _ _ => ha.started.elim .inl fun hstart => .inr (.inl hstart)) fun t d hb => ?_
  obtain rfl : ty = t := Option.some.inj (hsrc.symm.trans hb.source)
  obtain ⟨d', hd', hk⟩ := hsing
  have hless := remaining_mark_lt ⟨hr, hsrc, hd', hb.waiting⟩ ha.sound hk
  have hdepth := ha.depth
  have hroom := ha.room
  omega

theorem includeClass_safe {name : String} {params : Table Value} (ha : Fit calls g n scope s) :
    IsSafe g scope ResourceId calls s (includeClass code scope name params) := by
  refine ha.follow rfl fun ha => ?_
  refine .scopeAt_bind (List.getElem?_eq_getElem ha.scope) (.get_bind ?_)
  split
  · exact IsSafe.fail ha _
  · next ty hfind =>
    obtain ⟨d, hd, -⟩ := Registry.get?_of_find hfind
    refine .bind (ha.ensure (Registry.lt_length_of_get? hd) params) ?_
    rintro id h₁ t hu ⟨⟨hsing, r, hr, hsrc⟩, hq⟩
    refine .bind (hu.resume (hq.step.scope_of_hidden hr)
      ((ha.of_safe hu).evaluateResource hcode hr hsrc hsing)) ?_
    rintro - h₂ u hu' -
    exact .pure hu' trivial

theorem declareResource_safe {type title : String} {params : Table Value}
    (ha : Fit calls g n scope s) :
    IsSafe g scope ResourceId calls s (declareResource code scope type title params) := by
  refine ha.follow rfl fun ha => ?_
  have hadd : ∀ r : Resource, r.scope = scope → r.evaluated = false →
      (∀ t, r.source = some t → ∃ d, s.types.get? t = some d ∧ d.kind = .define) →
      IsSafe g scope ResourceId (.declareResource scope type title params :: calls) s
        (addResource r) := by
    intro r hr hwait hsource
    refine ((Safe.start ha.sound ha.kept).quietly (fun _ => rfl)
      (addResource_meets ha.sound ha.scope hr hwait hsource) ?_).mono fun _ _ _ => trivial
    exact .addResource fun _ hsame => hsame
  split
  · exact includeClass_safe hcode ha
  · split
    · exact IsSafe.fail ha _
    · refine .scopeAt_bind (List.getElem?_eq_getElem ha.scope) (.get_bind ?_)
      split
      · next ty hfind =>
        obtain ⟨d, hd, hk⟩ := Registry.get?_of_find hfind
        refine .typeAt_bind hd (hadd _ rfl rfl ?_)
        rintro _ ⟨⟩
        exact ⟨d, hd, hk⟩
      · exact hadd _ rfl rfl fun _ h => nomatch h

omit hcode in
theorem lookupVariable_safe {strict : Bool} {name : String} (ha : Fit calls g n scope s) :
    IsSafe g scope Value calls s (lookupVariable strict scope name) := by
  have hfound : ∀ found t, Fit calls g n scope t →
      IsSafe g scope Value calls t (valueFound strict name found) := by
    intro found t ht
    unfold valueFound
    split
    · exact .pure ht _
    · split
      · exact .fail ht _
      · exact .pure ht _
  refine Run.Meets.get_bind ?_
  dsimp only
  rcases hplace : variablePlace? s scope name with _ | ⟨place, var⟩
  · exact IsSafe.bind ha (.pure ha none) hfound
  · have hlt := place_lt ha.sound ha.scope hplace
    refine Run.Meets.scopeAt_bind (List.getElem?_eq_getElem hlt) (.get_bind ?_)
    exact .searched_bind
      (fun hnone => ⟨ha.sound.fair_of_lookup hlt hnone, .start ha.sound ha.kept⟩)
      fun found _ => hfound found _ ha

omit hcode in
theorem assign_safe {name : String} {value : Value} (ha : Fit calls g n scope s) :
    IsSafe g scope Unit calls s (assign scope name value) := by
  refine Run.Meets.scopeAt_bind (List.getElem?_eq_getElem ha.scope) (.get_bind ?_)
  refine .ofExcept_bind (fun scopes hscopes => ?_) fun e _ => ⟨.error e, .start ha.sound ha.kept⟩
  unfold Scopes.assign at hscopes
  split at hscopes
  · cases hscopes
  · next hnew =>
    cases hscopes
    have hunbound : s.scopes.lookupLocal scope name = none := by simpa using hnew
    refine Run.Meets.mono (.update ((Safe.start ha.sound ha.kept).change_scopes
      (ha.sound.bind rfl rfl rfl) (ha.kept.bind value ?_) (.assign value hunbound)))
      fun _ _ _ => trivial
    -- what is to be kept is bound already
    rintro rfl
    by_contra hne
    obtain ⟨v, hv⟩ := Option.ne_none_iff_exists'.mp hne
    rw [ha.kept name v hv] at hunbound
    cases hunbound

omit hcode in
theorem note_safe {text : String} (ha : Fit calls g n scope s) :
    IsSafe g scope Unit calls s (note text) := by
  refine Run.Meets.mono (.update ((Safe.start ha.sound ha.kept).change
    (ha.sound.of_types (.refl _) ha.sound.inRange.resolved rfl rfl) (ha.kept.congr rfl)
    (.of_lists (.refl _) rfl rfl (List.prefix_refl _) (List.prefix_refl _)) rfl ?_))
    fun _ _ _ => trivial
  exact fun _ r _ hr => ⟨r, hr, rfl⟩

/-- Bodies stay within limits, if the running of code does. -/
theorem pieces_safe (strict : Bool) :
    Pieces strict code scope (fun calls s => Fit calls g n scope s) (IsSafe g scope) where
  pure := fun a ha => .pure ha a
  fail := fun e ha => .fail ha e
  bind := fun ha hp hk => .bind ha hp hk
  follow := fun _ _ ha hp => ha.follow rfl hp
  lookupVariable := fun _ ha => lookupVariable_safe ha
  assign := fun _ _ ha => assign_safe ha
  includeClass := fun _ _ ha => includeClass_safe hcode ha
  declareResource := fun _ _ _ ha => declareResource_safe hcode ha
  note := fun _ ha => note_safe ha

end Code

end Compilation

end SiteCatalog
