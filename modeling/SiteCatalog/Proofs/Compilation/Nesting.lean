import SiteCatalog.Proofs.Compilation.Bodies
import SiteCatalog.Proofs.Compilation.Limits
import SiteCatalog.Proofs.Compilation.Parameters
import SiteCatalog.Proofs.Compilation.Places

/-!
# Nested runs of code

The evaluation of a resource stays within limits: its scope is its own, or the one in which it was
declared, where nothing is bound that has to keep its value, and every run of the code of a class or
node leaves one less to evaluate.

Results:
* `evaluateParent_safe`, `bindParameters_safe`, `runInScope_safe`: the parts of an evaluation.
* `evaluateCode_safe`, `runCode_safe`: the running of code stays within limits, and the bound on its
  depth is never reached.
-/

namespace SiteCatalog.Compilation

variable {g : Limits} {calls calls' : List Call} {n : ℕ} {o s u : State} {h : List Visit}
  {id : ResourceId} {r : Resource} {t : TypeId} {d : Descriptor} {k : ScopeId}

/-! ## The middle of an evaluation -/

/-- Nothing has happened to a resource but that it has been marked as evaluated. -/
def Intact (id : ResourceId) (r : Resource) (s : State) : Prop :=
  ∃ r', s.catalog.get? id = some r' ∧ r'.source = r.source ∧ r'.evaluated = true ∧
    r'.params = r.params

theorem Intact.evaluated (hi : Intact id r s) (hsrc : r.source = some t) : Evaluated s t := by
  obtain ⟨r', hr', hsrc', hev, -⟩ := hi
  exact ⟨id, r', hr', hsrc'.trans hsrc, hev⟩

theorem Intact.of_stride {scope : ScopeId} {anywhere : Prop} (hi : Intact id r s)
    (hstride : Stride scope s u anywhere) : Intact id r u := by
  obtain ⟨r₁, hr₁, hsrc, hev, hp⟩ := hi
  obtain ⟨r₂, hr₂, hg⟩ := hstride.resources id r₁ hr₁
  obtain ⟨r₃, hr₃, hp'⟩ := hstride.params id r₁ hr₁ hev
  obtain rfl : r₂ = r₃ := Option.some.inj (hr₂.symm.trans hr₃)
  exact ⟨r₂, hr₂, hg.source.trans hsrc, hg.evaluated hev, hp'.trans hp⟩

theorem Intact.of_quiet {scope : ScopeId} (hi : Intact id r s) (hq : Quiet scope s u) :
    Intact id r u :=
  hi.of_stride (Stride.of_quiet hq : Stride scope s u False)

/-- The parameters of a resource of a type are being bound in a scope. -/
structure Within (g : Limits) (o : State) (t : TypeId) (d : Descriptor) (k : ScopeId)
    (s : State) : Prop where
  scope : Evaluates o t d.TitledMain k s g.anywhere
  evaluated : Evaluated s t

theorem Within.of_step {scope : ScopeId} (hw : Within g o t d k s)
    (hstep : Step scope s u g.anywhere) : Within g o t d k u :=
  ⟨hw.scope.of_step hstep, hstep.evaluated hw.evaluated⟩

theorem Begins.remaining_le {scope : ScopeId} {anywhere : Prop} (hb : Begins o id r t d)
    (hstep : Step scope o s anywhere) (he : Evaluated s t) : remaining s ≤ remaining (o.mark id) :=
  Compilation.remaining_le (s := o.mark id) hstep.types fun _ hu =>
    (hb.evaluated_mark_iff.mp hu).elim hstep.evaluated fun heq => heq ▸ he

namespace Entry

variable (e : Entry calls g o id r t d)

include e

/-- Once the unnamed class has been entered, no other class bears its title. -/
theorem titledMain_iff (horder : ¬g.anywhere) : d.TitledMain ↔ d.IsMain := by
  rw [← e.begins.titledMain_iff e.sound]
  exact e.begins.isMain_iff e.sound (e.inOrder.main horder)

/-- A class is evaluated in a scope that is not its own only if it has no parent, except for the
unnamed class when calls are made in order. -/
theorem inOrder_of_parent (hpar : d.parent.isSome) (htitled : d.TitledMain) :
    ¬g.anywhere ∧ d.IsMain := by
  have horder : ¬g.anywhere := by
    intro hany
    rw [e.inOrder.rooted hany t d e.begins.descriptor htitled] at hpar
    cases hpar
  exact ⟨horder, (e.titledMain_iff horder).mp htitled⟩

/-- Operations may be called in the middle of an evaluation. -/
theorem fit (hroom : remaining (o.mark id) ≤ n) (hu : Safe g r.scope o h s) (he : Evaluated s t)
    {z : ScopeId} (hz : z < s.scopes.arena.length) : Fit (.code t id :: calls) g n z s where
  sound := hu.sound
  kept := hu.kept
  inOrder := e.inOrder.of_step hu.stride.toStep
  started := by
    rcases e.allows with hnone | hstart | ⟨hmain, -⟩
    · exact .inl hnone
    · exact .inr (hu.stride.mainStarted hstart)
    · obtain ⟨_, hd, -⟩ := hu.stride.types.kept t d e.begins.descriptor
      exact .inr ⟨t, _, hd, hmain, he⟩
  scope := hz
  depth := by
    have hle := e.begins.remaining_le hu.stride.toStep he
    have hdepth := e.depth
    rw [nesting_cons_code]
    omega
  room := (e.begins.remaining_le hu.stride.toStep he).trans hroom

/-- Only the unnamed class binds variables at the top, and none of the constants. -/
theorem free (he : Evaluates o t d.TitledMain k s g.anywhere) {name : String}
    (hbinds : ¬g.anywhere → d.IsMain → Harmless g o r d → d.BindsInPlace name) :
    k = Scopes.top → g.constant name = none := by
  intro hk
  by_cases horder : g.anywhere
  · rw [e.inOrder.free horder]
  rcases e.allows with hnone | hstart | ⟨hmain, hharm⟩
  · rw [hnone]
  · have htitled : d.TitledMain := by
      by_contra hn
      exact he.notMain hn hk
    exact absurd hstart (e.begins.main_not_started e.sound ((e.titledMain_iff horder).mp htitled))
  · exact hharm.spared name (hbinds horder hmain hharm)

end Entry

/-! ## Entering the scope -/

theorem evaluationScope_safe (e : Entry calls g o id r t d) (hu : Safe g r.scope o h s)
    (hsc : s.scopes = o.scopes) :
    (evaluationScope t d id { r with evaluated := true }).Meets (safely g r.scope o) calls' h s
      fun k u => Evaluates o t d.TitledMain k u g.anywhere ∧ (¬d.TitledMain → Hidden u k) ∧
        u.types = s.types ∧ u.catalog = s.catalog := by
  have hb := e.begins
  unfold evaluationScope
  split
  · next hmain =>
    have hd := (hb.titledMain_iff e.sound).mp hmain
    exact .pure hu ⟨hb.evaluates_inPlace e.sound hd (fun horder => (e.titledMain_iff horder).mp hd)
      hsc, fun hn => absurd hd hn, rfl, rfl⟩
  · next hmain =>
    have hd : ¬d.TitledMain := fun hd => hmain ((hb.titledMain_iff e.sound).mpr hd)
    obtain ⟨hs, he, hhid⟩ := hb.push e.sound hd hu.stride.toStep hu.sound hsc
    obtain ⟨c, hc, -⟩ := hu.sound.top
    have htop : Scopes.top ≠ s.scopes.arena.length := Nat.ne_of_lt (Scopes.lt_length_of_get? hc)
    refine .mono (.newScope (hu.change_scopes hs (hu.kept.congr (funext fun name => ?_))
      (hu.stride.push rfl hb.not_hidden))) ?_
    · rw [Scopes.lookupLocal, Scopes.get?_push, if_neg htop]
      rfl
    · rintro k u ⟨rfl, rfl⟩
      exact ⟨he, fun _ => hhid, rfl, rfl⟩

/-! ## The parent -/

theorem putBelowType_safe (hu : Safe g r.scope o h s)
    (he : Evaluates o t d.TitledMain k s g.anywhere)
    (hhid : ¬d.TitledMain → Hidden s k)
    (hmain : d.TitledMain → ¬g.anywhere ∧
      ∃ t d, s.types.get? t = some d ∧ d.IsMain ∧ d.parent.isSome) (p : TypeId) :
    (putBelowType k p).Meets (safely g r.scope o) calls' h s fun _ u =>
      Evaluates o t d.TitledMain k u g.anywhere ∧ u.catalog = s.catalog ∧
        ((s.scopes.ofType? p).isSome → (u.scopes.parent? k).isSome) := by
  refine .get_bind ?_
  split
  · next above habove =>
    obtain ⟨c, hc, -⟩ := he.scope
    have hkept : g.Kept { s with scopes := s.scopes.setParent k above } := by
      refine hu.kept.congr (funext fun name => ?_)
      rw [Scopes.lookupLocal, Scopes.lookupLocal, Scopes.get?_setParent]
      split
      · cases s.scopes.get? Scopes.top <;> rfl
      · rfl
    refine .scopeAt_bind hc (.mono (.update (hu.change_scopes
      (he.sound_putBelow hu.sound hmain hhid habove) hkept
      (hu.stride.putBelow he.own habove hc))) ?_)
    rintro - u rfl
    refine ⟨he.putBelow above, rfl, fun _ => ?_⟩
    rw [Scopes.parent?_setParent hc, if_pos rfl]
    rfl
  · next hnone =>
    refine .pure hu ⟨he, rfl, fun hsome => ?_⟩
    rw [hnone] at hsome
    cases hsome

/-- If the unnamed class has a parent and is the first to be evaluated, the top has been put below
another scope before the parameters are bound. -/
def Raised (g : Limits) (o : State) (r : Resource) (d : Descriptor) (s : State) : Prop :=
  ¬g.anywhere → d.IsMain → Harmless g o r d → d.parent.isSome →
    (s.scopes.parent? Scopes.top).isSome

/-- The parent of the class that is the first to be evaluated has not been evaluated. -/
theorem Begins.parent_waiting (hb : Begins o id r t d) (hfirst : ∀ ty, ¬Evaluated o ty)
    (hback : ∀ ty, Evaluated s ty → Evaluated (o.mark id) ty) {p : TypeId} {rest : List TypeId}
    (hanc : s.types.Ancestry t (p :: rest)) {id' : ResourceId} {r' : Resource}
    (hr' : s.catalog.get? id' = some r') (hsrc' : r'.source = some p) : r'.evaluated = false := by
  by_contra hev
  rcases hb.evaluated_mark_iff.mp (hback p ⟨id', r', hr', hsrc', by simpa using hev⟩) with hp | rfl
  · exact hfirst p hp
  · exact (List.nodup_cons.mp hanc.nodup).1 (List.mem_cons_self ..)

theorem evaluateParent_safe {code : Code} (hcode : CodeIsSafe code g n)
    (e : Entry calls g o id r t d) (hroom : remaining (o.mark id) ≤ n)
    (hu : Safe g r.scope o h s) (he : Evaluates o t d.TitledMain k s g.anywhere)
    (hi : Intact id r s) (hhid : ¬d.TitledMain → Hidden s k) (hpar : d.parent.isSome)
    (hback : ∀ ty, Evaluated s ty → Evaluated (o.mark id) ty) :
    (evaluateParent code t r.scope k).Meets (safely g r.scope o) (.code t id :: calls) h s
      fun _ u => Evaluates o t d.TitledMain k u g.anywhere ∧ Intact id r u ∧ Raised g o r d u := by
  have hb := e.begins
  obtain ⟨_, hd, -⟩ := hu.stride.types.kept t d hb.descriptor
  obtain ⟨c, hc, -⟩ := he.scope
  refine .bind (hu.quietly (fun _ => rfl) (ancestry_meets hu.sound (Registry.lt_length_of_get? hd)
    (Scopes.lt_length_of_get? hc)) ((entering_scopes [] s.scopes).ancestry t (some k))) ?_
  rintro l h₁ s₁ hu₁ ⟨hl, hq₁⟩
  cases l with
  | nil =>
    refine .pure hu₁ ⟨he.of_quiet hq₁, hi.of_quiet hq₁, fun _ _ _ _ => ?_⟩
    obtain ⟨_, hd₁, -⟩ := hu₁.stride.types.kept t d hb.descriptor
    cases hl with
    | root hd' hnone =>
      cases hd₁.symm.trans hd'
      rw [hnone] at hpar
      cases hpar
  | cons p rest =>
    have hscope : r.scope < s₁.scopes.arena.length := by
      obtain ⟨r', hr', hg⟩ := hu₁.stride.resources id r hb.resource
      exact hu₁.sound.inRange.resourceScope id r' _ hr' hg.scope
    have hfit : Fit (.code t id :: calls) g n r.scope s₁ :=
      e.fit hroom hu₁ ((hi.of_quiet hq₁).evaluated hb.source) hscope
    refine .bind (hu₁.resume (fun _ => rfl) (hfit.ensure (hl.lt_length p (by simp)) [])) ?_
    rintro id' h₂ s₂ hu₂ ⟨⟨⟨hsing, r', hr', hsrc'⟩, hq₂⟩, -⟩
    have hq := hq₁.trans hq₂
    have hi₂ := hi.of_quiet hq
    have hfit₂ : Fit (.code t id :: calls) g n r.scope s₂ :=
      e.fit hroom hu₂ (hi₂.evaluated hb.source) (by rw [hq₂.scopes]; exact hscope)
    refine .bind (hu₂.resume (hu₂.stride.scope_of_hidden hr')
      (hfit₂.evaluateResource hcode hr' hsrc' hsing)) ?_
    rintro - h₃ s₃ hu₃ ⟨hdone, hstride⟩
    have hhid₃ : ¬d.TitledMain → Hidden s₃ k := by
      intro hm
      have hk₂ : Hidden s₂ k :=
        hq.step.hidden k (hhid hm) (hb.scope_ne hu.stride.toStep (hhid hm)).symm
      exact hstride.hidden k hk₂ fun heq => hk₂.resource id' r' hr' heq.symm
    obtain ⟨_, hd₃, -⟩ := hu₃.stride.types.kept t d hb.descriptor
    refine (putBelowType_safe hu₃ ((he.of_quiet hq).of_step hstride.toStep) hhid₃
      (fun htitled => ?_) p).mono ?_
    · obtain ⟨horder, hm⟩ := e.inOrder_of_parent hpar htitled
      exact ⟨horder, t, _, hd₃, hm, hpar⟩
    rintro - u ⟨he', hcat, hbelow⟩
    have hi₃ := hi₂.of_stride hstride
    refine ⟨he', by simpa only [Intact, hcat] using hi₃, fun horder hm hharm _ => ?_⟩
    have hwait := hb.parent_waiting hharm.first (fun ty hty => hback ty (hq.evaluated_back hty))
      (hl.mono hq₂.types) hr' hsrc'
    rw [← he.main horder hm.titledMain]
    exact hbelow (((hdone p hsrc').2 hwait).scope (hstride.singleton hsing))

/-! ## The parameters -/

theorem bind_safe {name : String} {v : Value} (hu : Safe g r.scope o h s)
    (hw : Within g o t d k s) (hfree : k = Scopes.top → g.constant name = none) :
    (bind k name v).Meets (safely g r.scope o) calls' h s fun _ u => Within g o t d k u := by
  obtain ⟨c, hc, -⟩ := hw.scope.scope
  refine .scopeAt_bind hc (.mono (.update (hu.change_scopes (hu.sound.bind rfl rfl rfl)
    (hu.kept.bind v hfree) (hu.stride.bindOwn hw.scope.own name v))) ?_)
  rintro - u rfl
  exact ⟨hw.scope.bind name v, hw.evaluated⟩

theorem bindSupplied_safe {d' : Descriptor} {reference : String} :
    ∀ (params : Table Value) {h : List Visit} {s : State}, Safe g r.scope o h s →
      Within g o t d k s → (∀ p ∈ params, k = Scopes.top → g.constant p.1 = none) →
      (bindSupplied d' reference k params).Meets (safely g r.scope o) calls' h s
        fun _ u => Within g o t d k u := by
  intro params
  induction params with
  | nil => exact fun hu hw _ => .pure hu hw
  | cons param rest ih =>
    intro h s hu hw hfree
    obtain ⟨name, value⟩ := param
    unfold bindSupplied
    split
    · refine .bind (bind_safe hu hw (hfree (name, value) (by simp))) fun _ h' s' hu' hw' => ?_
      exact ih hu' hw' fun p hp => hfree p (List.mem_cons_of_mem _ hp)
    · exact hu.fails _

theorem bindBuiltin_safe {supplied : Table Value} :
    ∀ (params : Table Value) {h : List Visit} {s : State}, Safe g r.scope o h s →
      Within g o t d k s → (∀ p ∈ params, k = Scopes.top → g.constant p.1 = none) →
      (bindBuiltin supplied k params).Meets (safely g r.scope o) calls' h s
        fun _ u => Within g o t d k u := by
  intro params
  induction params with
  | nil => exact fun hu hw _ => .pure hu hw
  | cons param rest ih =>
    intro h s hu hw hfree
    obtain ⟨name, value⟩ := param
    have hrest := fun p hp => hfree p (List.mem_cons_of_mem _ hp)
    unfold bindBuiltin
    split
    · refine .bind (bind_safe hu hw (hfree (name, value) (by simp))) fun _ h' s' hu' hw' => ?_
      exact ih hu' hw' hrest
    · exact ih hu hw hrest

theorem setParameter_safe {param : String} {v : Value} (e : Entry calls g o id r t d)
    (hu : Safe g r.scope o h s) (hw : Within g o t d k s) (hnew : r.params.find? param = none) :
    (setParameter id param v).Meets (safely g r.scope o) calls' h s fun _ u =>
      Within g o t d k u := by
  have hb := e.begins
  obtain ⟨r₁, hr₁, -⟩ := hu.stride.resources id r hb.resource
  have hstep :
      Step r.scope o { s with catalog := s.catalog.setParameter id param v } g.anywhere := by
    refine hu.stride.setParameter v fun r' hr' => ?_
    rw [hb.resource] at hr'
    cases hr'
    exact hnew
  refine .resourceAt_bind hr₁ (.mono (.update (hu.change (hu.sound.setParameter id param v)
    (hu.kept.congr rfl) hstep rfl ?_)) ?_)
  · intro i r' hdone hr'
    refine ⟨r', ?_, rfl⟩
    show Catalog.get? (s.catalog.modify id _) i = _
    rw [Catalog.get?_modify, if_neg, hr']
    rintro rfl
    exact hb.not_done hdone
  · rintro - u rfl
    exact ⟨⟨hw.scope.own, hw.scope.main, hw.scope.notMain, hw.scope.scope⟩,
      (SameStatus.setParameter s id param v).evaluated hw.evaluated⟩

theorem bindDefaults_safe {strict : Bool} {code : Code} (hcode : CodeIsSafe code g n)
    (e : Entry calls g o id r t d) (hroom : remaining (o.mark id) ≤ n) {d' : Descriptor}
    {reference : String} {supplied : Table Value}
    (hsupplied : ∀ name v, r.params.find? name = some v → supplied.has name) :
    ∀ (params : Table (Option Expr)) {h : List Visit} {s : State}, Safe g r.scope o h s →
      Within g o t d k s →
      (∀ p ∈ (params.without supplied).takeWhile (·.2.isSome),
        k = Scopes.top → g.constant p.1 = none) →
      (bindDefaults strict code d' id reference supplied k params).Meets (safely g r.scope o)
        (.code t id :: calls) h s fun _ u => Within g o t d k u := by
  intro params
  induction params with
  | nil => exact fun hu hw _ => .pure hu hw
  | cons param rest ih =>
    intro h s hu hw hfree
    obtain ⟨name, default⟩ := param
    cases hhas : supplied.has name with
    | true =>
      rw [bindDefaults_cons_of_has hhas]
      rw [Table.without_cons_of_has (e := (name, default)) hhas] at hfree
      exact ih hu hw hfree
    | false =>
      have hnew' := find?_eq_none_of_not_has hsupplied hhas
      cases default with
      | none =>
        rw [bindDefaults_cons_none hhas]
        exact hu.fails _
      | some expr =>
        rw [Table.without_cons_of_not_has (e := (name, some expr)) hhas,
          List.takeWhile_cons_of_pos rfl] at hfree
        obtain ⟨hname, hrest⟩ := List.forall_mem_cons.mp hfree
        rw [bindDefaults_cons_some hhas]
        obtain ⟨c, hc, -⟩ := hw.scope.scope
        have hfit := e.fit hroom hu hw.evaluated (Scopes.lt_length_of_get? hc)
        refine .bind (hu.resume (fun hh => absurd hh hw.scope.own.not_hidden)
          ((pieces_safe hcode strict).evaluate expr hfit)) ?_
        rintro v h₁ s₁ hu₁ ⟨-, hstride⟩
        refine .bind (bind_safe hu₁ (hw.of_step hstride.toStep) hname) fun _ h₂ s₂ hu₂ hw₂ => ?_
        exact .bind (setParameter_safe e hu₂ hw₂ hnew') fun _ h₃ s₃ hu₃ hw₃ => ih hu₃ hw₃ hrest

/-- If the top has a parent, the search for its module never ends. -/
theorem Sound.parent?_top {anywhere : Prop} (hs : Sound s anywhere) {found : Option String}
    (hfound : s.scopes.moduleName Scopes.top = some found) :
    s.scopes.parent? Scopes.top = none := by
  obtain ⟨c, hc, -⟩ := hs.top
  obtain ⟨way, hway, -⟩ := Option.map_eq_some_iff.mp hfound
  obtain ⟨l, -, hl⟩ := Scopes.path_eq_some_iff.mp hway
  exact (hs.top_parent_of_leads (Scopes.lt_length_of_get? hc) hl).2

/-- The top has no module from above. -/
theorem Sound.moduleName_top {anywhere : Prop} (hs : Sound s anywhere)
    (hmodule : ∀ c, s.scopes.get? Scopes.top = some c → c.moduleName = none)
    {found : Option String} (hfound : s.scopes.moduleName Scopes.top = some found) :
    found = none := by
  obtain ⟨c, hc, -⟩ := hs.top
  have htop := hs.parent?_top hfound
  obtain ⟨way, hway, rfl⟩ := Option.map_eq_some_iff.mp hfound
  obtain rfl : way = [Scopes.top] := Option.some.inj (hway.symm.trans (Scopes.path_eq (.last htop)))
  simp [hc, hmodule c hc]

/-- Where the search for a module ends, the unnamed class has no parent. -/
theorem Entry.parent_eq_none (e : Entry calls g o id r t d) (hu : Safe g r.scope o h s)
    (hraised : Raised g o r d s) {found : Option String}
    (hfound : s.scopes.moduleName r.scope = some found) (horder : ¬g.anywhere) (hmain : d.IsMain)
    (hharm : Harmless g o r d) : d.parent = none := by
  by_contra hpar
  have htop := hraised horder hmain hharm (Option.isSome_iff_ne_none.mpr hpar)
  rw [e.begins.scope_eq_top e.sound horder hmain] at hfound
  rw [hu.sound.parent?_top hfound] at htop
  cases htop

/-- What is bound besides the parameters has no value to keep. -/
theorem Entry.free_builtin (e : Entry calls g o id r t d) (hu : Safe g r.scope o h s)
    (he : Evaluates o t d.TitledMain k s g.anywhere) (hraised : Raised g o r d s) {r₁ : Resource}
    {known : Option TypeId} {callerModule : Option String}
    (hmodule : s.scopes.moduleName r.scope = some callerModule) :
    ∀ p ∈ builtinVariables { d with resolved := known } r₁ callerModule,
      k = Scopes.top → g.constant p.1 = none := by
  intro p hp
  refine e.free he fun horder hmain hharm =>
    ⟨e.parent_eq_none hu hraised hmodule horder hmain hharm, ?_⟩
  unfold builtinVariables at hp
  simp only [List.mem_append, List.mem_cons, List.not_mem_nil, or_false, Option.mem_toList,
    Option.map_eq_some_iff] at hp
  rcases hp with ((rfl | rfl) | ⟨m, hm, rfl⟩) | ⟨m, hm, rfl⟩
  · exact .inl rfl
  · exact .inr (.inl rfl)
  · exact .inr (.inr (.inl ⟨rfl, by rw [hm]; rfl⟩))
  · rw [e.begins.scope_eq_top e.sound horder hmain] at hmodule
    have hfree : ∀ c, s.scopes.get? Scopes.top = some c → c.moduleName = none := by
      intro c hc
      obtain ⟨c₀, hc₀, -⟩ := e.sound.top
      obtain ⟨c', hc', hsame, -⟩ := hu.stride.scopes _ c₀ hc₀
      obtain rfl : c = c' := Option.some.inj (hc.symm.trans hc')
      rw [hsame]
      exact hharm.caller c₀ hc₀
    cases (hu.sound.moduleName_top hfree hmodule).symm.trans hm

theorem bindParameters_safe {strict : Bool} {code : Code} (hcode : CodeIsSafe code g n)
    (e : Entry calls g o id r t d) (hroom : remaining (o.mark id) ≤ n)
    (hu : Safe g r.scope o h s) (he : Evaluates o t d.TitledMain k s g.anywhere)
    (hi : Intact id r s) (hraised : Raised g o r d s) :
    (bindParameters strict code t id k).Meets (safely g r.scope o) (.code t id :: calls) h s
      fun _ u => Within g o t d k u := by
  have hb := e.begins
  have hev := hi.evaluated hb.source
  obtain ⟨r₁, hr₁, -, -, hparams⟩ := hi
  obtain ⟨r₂, hr₂, hg⟩ := hu.stride.resources id r hb.resource
  obtain rfl : r₁ = r₂ := Option.some.inj (hr₁.symm.trans hr₂)
  obtain ⟨_, hd₁, -⟩ := hu.stride.types.kept t d hb.descriptor
  have hscope := hu.sound.inRange.resourceScope id r₁ _ hr₁ rfl
  refine .typeAt_bind hd₁ (.resourceAt_bind hr₁ (.scopeAt_bind (List.getElem?_eq_getElem hscope)
    (.get_bind (.searched_bind (fun hnone => ?_) fun callerModule hmodule => ?_))))
  · exact ⟨hu.sound.fair_of_moduleName hscope hnone, hu⟩
  rw [hg.scope] at hmodule
  refine .bind (bindSupplied_safe _ hu ⟨he, hev⟩ ?_) ?_
  · intro p hp
    refine e.free he fun _ _ hharm => ?_
    rw [hparams, hharm.supplied] at hp
    cases hp
  rintro - h₁ s₁ hu₁ hw₁
  refine .bind (bindBuiltin_safe _ hu₁ hw₁ ?_) fun _ h₂ s₂ hu₂ hw₂ => ?_
  · exact e.free_builtin hu he hraised hmodule
  · refine bindDefaults_safe hcode e hroom ?_ _ hu₂ hw₂ fun p hp => ?_
    · intro name v hv
      rw [Table.has, hg.params name v hv]
      rfl
    · refine e.free he fun horder hmain hharm =>
        ⟨e.parent_eq_none hu hraised hmodule horder hmain hharm, .inr (.inr (.inr ⟨p, ?_, rfl⟩))⟩
      rwa [hparams, hharm.supplied, Table.without_nil] at hp

/-! ## The body -/

theorem runInScope_safe {strict : Bool} {code : Code} (hcode : CodeIsSafe code g n)
    (e : Entry calls g o id r t d) (hroom : remaining (o.mark id) ≤ n)
    (hu : Safe g r.scope o h s) (he : Evaluates o t d.TitledMain k s g.anywhere)
    (hi : Intact id r s) (hraised : Raised g o r d s) :
    (runInScope strict code t d id k).Meets (safely g r.scope o) (.code t id :: calls) h s
      fun _ u => Finished u t := by
  have hb := e.begins
  have hbody : ∀ {h s}, Safe g r.scope o h s → Within g o t d k s →
      (Singleton s t → (s.scopes.ofType? t).isSome) →
      (follow (.body t id k) (runOptional strict code t id k d.body)).Meets
        (safely g r.scope o) (.code t id :: calls) h s fun _ u => Finished u t := by
    intro h s hu hw hscope
    obtain ⟨c, hc, -⟩ := hw.scope.scope
    have hfit := e.fit hroom hu hw.evaluated (Scopes.lt_length_of_get? hc)
    refine (hu.resume (fun hh => absurd hh hw.scope.own.not_hidden)
      (hfit.follow (P := fun _ _ => True) rfl fun ha => ?_)).mono ?_
    · cases d.body with
      | none => exact IsSafe.pure ha ()
      | some body => exact (pieces_safe hcode strict).runBody body ha
    · rintro - u ⟨-, hstride⟩
      refine ⟨hstride.evaluated hw.evaluated, fun hsing => ?_⟩
      rw [hstride.ofType t hw.evaluated]
      exact hscope (hstride.singleton_back hsing)
  refine .bind (bindParameters_safe hcode e hroom hu he hi hraised) fun _ h₁ s₁ hu₁ hw₁ => ?_
  obtain ⟨_, hd₁, -⟩ := hu₁.stride.types.kept t d hb.descriptor
  dsimp only
  split
  · next hk =>
    obtain ⟨c, hc, hsrc⟩ := hw₁.scope.scope
    have hplace : ¬g.anywhere → (d.IsMain → k = Scopes.top) ∧ (¬d.IsMain → c.source = some t) :=
      fun horder => ⟨fun hm => hw₁.scope.main horder hm.titledMain,
        fun hn => hsrc fun htitled => hn ((e.titledMain_iff horder).mp htitled)⟩
    refine .update_bind (hbody (hu₁.change_scopes
      (hu₁.sound.record hw₁.evaluated hd₁ hk hc hplace rfl rfl rfl)
      (hu₁.kept.congr rfl) (hu₁.stride.record hw₁.scope.own (hb.not_evaluated e.sound hk)))
      ⟨⟨hw₁.scope.own, hw₁.scope.main, hw₁.scope.notMain, c, hc, hsrc⟩, hw₁.evaluated⟩
      fun _ => ?_)
    rw [Scopes.ofType?_setOfType, if_pos rfl]
    rfl
  · next hdef =>
    refine hbody hu₁ hw₁ ?_
    rintro ⟨d', hd', hk⟩
    cases hd₁.symm.trans hd'
    exact absurd hk hdef

/-! ## The running of code -/

/-- What comes after the evaluation has been listed. -/
theorem enterScope_safe {strict : Bool} {code : Code} (hcode : CodeIsSafe code g n)
    (e : Entry calls g o id r t d) (hroom : remaining (o.mark id) ≤ n)
    (hu : Safe g r.scope o h s) (hsc : s.scopes = o.scopes) (hi : Intact id r s)
    (hback : ∀ ty, Evaluated s ty → Evaluated (o.mark id) ty) :
    (do
      let scope ← evaluationScope t d id { r with evaluated := true }
      if d.parent.isSome ∧ d.kind ≠ .define then evaluateParent code t r.scope scope
      runInScope strict code t d id scope : Run Unit).Meets (safely g r.scope o)
      (.code t id :: calls) h s fun _ u => Finished u t := by
  refine .bind (evaluationScope_safe e hu hsc) ?_
  rintro k h₁ s₁ hu₁ ⟨he, hhid, -, hcat⟩
  have hi₁ : Intact id r s₁ := by simpa only [Intact, hcat] using hi
  split
  · next hpar =>
    refine .bind (evaluateParent_safe hcode e hroom hu₁ he hi₁ hhid hpar.1 fun ty hty => ?_) ?_
    · exact hback ty (by simpa only [Evaluated, hcat] using hty)
    · rintro - h₂ s₂ hu₂ ⟨he₂, hi₂, hraised⟩
      exact runInScope_safe hcode e hroom hu₂ he₂ hi₂ hraised
  · next hpar =>
    refine runInScope_safe hcode e hroom hu₁ he hi₁ fun _ hmain _ hsome => ?_
    exact absurd ⟨hsome, by rw [hmain.1]; decide⟩ hpar

theorem enter_safe {strict : Bool} {code : Code} (hcode : CodeIsSafe code g n)
    (e : Entry calls g o id r t d) (hroom : remaining (o.mark id) ≤ n)
    (hu : Safe g r.scope o h (o.mark id)) :
    (enter strict code t id).Meets (safely g r.scope o) (.code t id :: calls) h (o.mark id)
      fun _ u => Finished u t := by
  have hb := e.begins
  have hi : Intact id r (o.mark id) := ⟨_, hb.marked, rfl, rfl, rfl⟩
  refine .typeAt_bind hb.descriptor (.resourceAt_bind hb.marked ?_)
  dsimp only
  split
  · refine .update_bind (enterScope_safe hcode e hroom (hu.change
      (hu.sound.of_types (.refl _) hu.sound.inRange.resolved rfl rfl) (hu.kept.congr rfl)
      (hu.stride.toStep.trans (.of_lists (.refl _) rfl rfl (List.prefix_refl _)
        (Catalog.prefix_addOnce _ _))) rfl fun _ r' _ hr' => ⟨r', hr', rfl⟩) rfl hi
      fun _ hty => hty)
  · exact enterScope_safe hcode e hroom hu rfl hi fun _ hty => hty

/-- Every run of the code of a class or node leaves one less to evaluate, so that the depth of
nested runs never exceeds their number. -/
theorem evaluateCode_safe (strict : Bool) (g : Limits) :
    ∀ n, CodeIsSafe (evaluateCode strict n) g n := by
  intro n
  induction n with
  | zero =>
    intro calls o id r t d _ hroom
    exact absurd hroom (Nat.not_lt_zero _)
  | succ n ih =>
    intro calls o id r t d e hroom
    have hmark : Safe g r.scope o ([] ++ [⟨.change, calls, o.mark id⟩]) (o.mark id) :=
      (Safe.start e.sound e.kept).change (e.sound.mark id) (e.kept.congr rfl)
        (.loosen (.mark r.scope o id) _) rfl fun _ _ _ hr => params_mark hr
    refine follow_safely (enter_safe ih e (Nat.lt_succ_iff.mp hroom) (hmark.enter ?_ ?_))
    · exact e.inOrder.of_step (.loosen (.mark r.scope o id) _)
    · rintro - - -
      have hdepth := e.depth
      omega

theorem runCode_safe (strict : Bool) (g : Limits) (n : ℕ) : CodeIsSafe (runCode strict) g n := by
  intro calls o id r t d e _
  refine .get_bind (evaluateCode_safe strict g _ calls o id r t d e ?_)
  exact Nat.lt_succ_of_le (remaining_le_length _)

end SiteCatalog.Compilation
