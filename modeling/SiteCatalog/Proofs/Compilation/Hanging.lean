import SiteCatalog.Proofs.Compilation.Ancestry
import SiteCatalog.Proofs.Compilation.Keeping
import SiteCatalog.Proofs.Compilation.Phases
import SiteCatalog.Proofs.Compilation.Walk

/-!
# Where scopes hang

The code of a type runs in a scope that is made below the one in which its resource was declared,
or in the top. Before the body begins, the scope is put below that of the type's parent, if the
parent has one by then. Scopes hang nowhere else, and what they hang below does not change after
that.

Results:
* `Run.Stays`, `Run.Abides`: runs through lawful moments at all of which a condition holds, with a
  rule for each way of putting runs together.
* `Hung`: where scopes hang.
* `Abiding.passage`: what bodies do leaves scopes where they hang.
* `hangs_evaluateCode`: so does the entering of code.
* `hung_of_mem_states`: scopes hang like that in every state of a compilation.
-/

namespace SiteCatalog

/-! ## What lasts -/

/-- A resource stays what it was declared as, and evaluated once it is. -/
structure Resource.StaysDeclared (r r' : Resource) : Prop where
  title : r'.title = r.title
  scope : r'.scope = r.scope
  source : r'.source = r.source
  evaluated : r.evaluated = true → r'.evaluated = true

@[refl] theorem Resource.StaysDeclared.refl (r : Resource) : r.StaysDeclared r :=
  ⟨rfl, rfl, rfl, fun he => he⟩

theorem Resource.Grows.staysDeclared {r r' : Resource} (h : r.Grows r') : r.StaysDeclared r' :=
  ⟨h.title, h.scope, h.source, h.evaluated⟩

namespace Compilation

variable {s u : State} {t : TypeId} {id : ResourceId} {k p home : ScopeId} {strict : Bool}
  {code : Code}

/-- Parents stay known, resources stay where they were declared, and scopes with their types. -/
structure Survives (s u : State) : Prop where
  types : s.types.Remembers u.types
  resources : ∀ id r, s.catalog.get? id = some r →
    ∃ r', u.catalog.get? id = some r' ∧ r.StaysDeclared r'
  scopes : ∀ k c, s.scopes.get? k = some c →
    ∃ c', u.scopes.get? k = some c' ∧ c'.source = c.source

/-- Besides, the scope of a type does not change any more once it has been evaluated. -/
structure Lasts (s u : State) : Prop extends Survives s u where
  ofType : ∀ t, Evaluated s t → u.scopes.ofType? t = s.scopes.ofType? t

/-- Besides, no scope is put below another one, and none is remembered. -/
structure Still (s u : State) : Prop extends Lasts s u where
  parent : ∀ k, u.scopes.parent? k = s.scopes.parent? k
  recorded : ∀ t, u.scopes.ofType? t = s.scopes.ofType? t

theorem Survives.of_scopes {scopes : Scopes} (h : ∀ k c, s.scopes.get? k = some c →
    ∃ c', scopes.get? k = some c' ∧ c'.source = c.source) : Survives s { s with scopes } where
  types := .refl _
  resources := fun _ r hr => ⟨r, hr, .refl r⟩
  scopes := h

theorem Survives.modify (s : State) (k : ScopeId) {f : Scope → Scope}
    (hf : ∀ c, (f c).source = c.source) :
    Survives s { s with scopes := s.scopes.modify k f } := by
  refine .of_scopes fun z c hc => ⟨_, Scopes.get?_modify_of_get? hc k f, ?_⟩
  split
  · exact hf c
  · rfl

theorem Lasts.of_step {scope : ScopeId} (h : Step scope s u) : Lasts s u where
  types := h.types.remembers
  resources := by
    intro id r hr
    obtain ⟨r', hr', hgrows⟩ := h.resources id r hr
    exact ⟨r', hr', hgrows.staysDeclared⟩
  scopes := by
    intro k c hc
    obtain ⟨c', hc', hsame, -⟩ := h.scopes k c hc
    exact ⟨c', hc', by rw [hsame]⟩
  ofType := h.ofType

namespace Still

/-- Scopes and resources stay, and types are added or more is known of them. -/
theorem of_scopes_eq (hsc : u.scopes = s.scopes) (htypes : s.types.Remembers u.types)
    (hresources : ∀ id r, s.catalog.get? id = some r →
      ∃ r', u.catalog.get? id = some r' ∧ r.StaysDeclared r') : Still s u where
  types := htypes
  resources := hresources
  scopes := fun _ c hc => ⟨c, by rw [hsc]; exact hc, rfl⟩
  ofType := fun _ _ => by rw [hsc]
  parent := fun _ => by rw [hsc]
  recorded := fun _ => by rw [hsc]

theorem lists (hsc : u.scopes = s.scopes) (hty : u.types = s.types)
    (hres : u.catalog.resources = s.catalog.resources) : Still s u := by
  refine .of_scopes_eq hsc (by rw [hty]) fun id r hr => ⟨r, ?_, .refl r⟩
  rw [Catalog.get?, hres]
  exact hr

theorem learn {types : Registry} (h : s.types.Remembers types) : Still s { s with types } :=
  .of_scopes_eq rfl h fun _ r hr => ⟨r, hr, .refl r⟩

theorem append (s : State) (r : Resource) :
    Still s { s with catalog := s.catalog.append r } :=
  .of_scopes_eq rfl (.refl _) fun _ r' hr' => ⟨r', Catalog.get?_append_of_get? hr' r, .refl r'⟩

theorem modify (s : State) (id : ResourceId) {f : Resource → Resource}
    (hf : ∀ r : Resource, r.StaysDeclared (f r)) :
    Still s { s with catalog := s.catalog.modify id f } := by
  refine .of_scopes_eq rfl (.refl _) fun i r hr => ?_
  show ∃ r', (s.catalog.modify id f).get? i = some r' ∧ _
  rw [Catalog.get?_modify, hr]
  split
  · exact ⟨f r, rfl, hf r⟩
  · exact ⟨r, rfl, .refl r⟩

theorem bind (s : State) (k : ScopeId) (name : String) (v : Value) :
    Still s { s with scopes := s.scopes.bind k name v } where
  toSurvives := .modify s k fun _ => rfl
  ofType := fun _ _ => rfl
  parent := fun z => Scopes.parent?_bind s.scopes k z name v
  recorded := fun _ => rfl

end Still

/-- A condition lasts: once it holds, no operation ends it. -/
def Lasting (Q : State → Prop) : Prop :=
  ∀ s u, Lasts s u → Q s → Q u

/-! ## Where scopes hang -/

/-- A type whose resource was declared in the scope `home` is evaluated in the scope `k`. -/
structure Houses (s : State) (k : ScopeId) (t : TypeId) (home : ScopeId) : Prop where
  evaluates : ∃ id r, s.catalog.get? id = some r ∧ r.source = some t ∧ r.scope = home ∧
    ((∃ c, s.scopes.get? k = some c ∧ c.source = some t) ∨
      k = Scopes.top ∧ r.title = mainTitle ∧ ∃ d, s.types.get? t = some d ∧ d.kind = .hostclass)

/-- The scope of the parent of a type. -/
def IsAbove (s : State) (t : TypeId) (p : ScopeId) : Prop :=
  ∃ q, s.types.parent? t = some q ∧ s.scopes.ofType? q = some p

/-- A scope hangs below the one in which the resource was declared whose type is evaluated in it, or
below the scope of the type's parent. -/
def Hung (s : State) : Prop :=
  ∀ k p, s.scopes.parent? k = some p → ∃ t home, Houses s k t home ∧ (p = home ∨ IsAbove s t p)

theorem Houses.survives (h : Houses s k t home) (hs : Survives s u) : Houses u k t home := by
  obtain ⟨id, r, hr, hsrc, hhome, hplace⟩ := h.evaluates
  obtain ⟨r', hr', hsame⟩ := hs.resources id r hr
  refine ⟨id, r', hr', hsame.source.trans hsrc, hsame.scope.trans hhome, ?_⟩
  rcases hplace with ⟨c, hc, hcsrc⟩ | ⟨htop, hmain, d, hd, hkind⟩
  · obtain ⟨c', hc', hcsource⟩ := hs.scopes k c hc
    exact .inl ⟨c', hc', hcsource.trans hcsrc⟩
  · obtain ⟨known, hd', -⟩ := hs.types t d hd
    exact .inr ⟨htop, hsame.title.trans hmain, _, hd', hkind⟩

theorem lasting_houses (k : ScopeId) (t : TypeId) (home : ScopeId) :
    Lasting fun s => Houses s k t home :=
  fun _ _ hl h => h.survives hl.toSurvives

theorem IsAbove.survives (h : IsAbove s t p) (hs : Survives s u)
    (hof : ∀ q, s.scopes.ofType? q = some p → u.scopes.ofType? q = some p) : IsAbove u t p := by
  obtain ⟨q, hq, hp⟩ := h
  exact ⟨q, hs.types.parent? hq, hof q hp⟩

namespace Hung

/-- Scopes of types stay remembered, and every scope hangs where it did or in a proper place. -/
theorem change (h : Hung s) (hs : Survives s u)
    (hof : ∀ q p, s.scopes.ofType? q = some p → u.scopes.ofType? q = some p)
    (hparent : ∀ k p, u.scopes.parent? k = some p → s.scopes.parent? k = some p ∨
      ∃ t home, Houses u k t home ∧ (p = home ∨ IsAbove u t p)) : Hung u := by
  intro k p hp
  rcases hparent k p hp with hp | hnew
  · obtain ⟨t, home, hk, hplace⟩ := h k p hp
    exact ⟨t, home, hk.survives hs, hplace.imp_right fun ha => ha.survives hs fun q => hof q p⟩
  · exact hnew

theorem still (h : Hung s) (hs : Still s u) : Hung u :=
  h.change hs.toSurvives (fun q _ hp => (hs.recorded q).trans hp)
    fun k _ hp => .inl ((hs.parent k).symm.trans hp)

theorem initial (types : Registry) (host : Host) : Hung (.initial types host) := by
  intro k p hp
  obtain ⟨c, hc, hparent⟩ := Option.bind_eq_some_iff.mp hp
  obtain rfl : c = {} := by
    have hmem : c ∈ [({} : Scope)] := List.mem_of_getElem? hc
    exact List.mem_singleton.mp hmem
  cases hparent

end Hung

/-! ## Runs -/

namespace Run

variable {α β : Type} {I : State → Prop} {p : Run α} {f : α → Run β} {P P' : α → State → Prop}
  {Q : β → State → Prop}

/-- If all moments of a run are lawful, a condition `I` holds at all of them, and `P` holds of the
result and the last state. -/
def Stays (p : Run α) (I : State → Prop) (s : State) (P : α → State → Prop) : Prop :=
  ∀ calls, (∀ v ∈ p.visits calls s, Lawful v) →
    (∀ v ∈ p.visits calls s, I v.state) ∧ ∀ a u, p.run s = (.ok a, u) → P a u

namespace Stays

theorem pure {a : α} (hP : P a s) : (Pure.pure a : Run α).Stays I s P := by
  refine fun calls _ => ⟨fun _ hv => (nomatch hv), ?_⟩
  rintro _ _ ⟨⟩
  exact hP

theorem stop {e : Failure} : (Compilation.stop e : Run α).Stays I s P :=
  fun _ _ => ⟨fun _ hv => (nomatch hv), fun _ _ h => (nomatch h)⟩

theorem bind (hp : p.Stays I s P)
    (hf : ∀ a u, p.run s = (.ok a, u) → P a u → (f a).Stays I u Q) :
    (p >>= f).Stays I s Q := by
  intro calls hv
  rw [visits_bind] at hv ⊢
  rw [run_bind]
  obtain ⟨hvisits, hresult⟩ := hp calls fun v hmem => hv v (List.mem_append_left _ hmem)
  rcases hrun : p.run s with ⟨_ | a, u⟩
  · exact ⟨by simpa using hvisits, fun _ _ h => nomatch h⟩
  · rw [hrun] at hv
    obtain ⟨hvisits', hresult'⟩ := hf a u hrun (hresult a u hrun) calls
      fun v hmem => hv v (List.mem_append_right _ hmem)
    refine ⟨fun v hmem => ?_, hresult'⟩
    exact (List.mem_append.mp hmem).elim (hvisits v) (hvisits' v)

theorem get_bind {f : State → Run β} (hf : (f s).Stays I s Q) : (get >>= f).Stays I s Q :=
  hf

theorem update_bind {g : State → State} {f : Unit → Run β} (hI : I (g s))
    (hf : (f ()).Stays I (g s) Q) : (Compilation.update g >>= f).Stays I s Q := by
  intro calls hv
  obtain ⟨hvisits, hresult⟩ := hf calls fun v hmem => hv v (List.mem_cons_of_mem _ hmem)
  exact ⟨List.forall_mem_cons.mpr ⟨hI, hvisits⟩, hresult⟩

theorem update {g : State → State} {P : Unit → State → Prop} (hI : I (g s)) (hP : P () (g s)) :
    (Compilation.update g).Stays I s P :=
  update_bind (f := Pure.pure) hI (.pure hP)

theorem existing_bind {o : Option α} (hf : ∀ a, o = some a → (f a).Stays I s Q) :
    (existing o >>= f).Stays I s Q := by
  cases o with
  | none => exact stop
  | some a => exact hf a rfl

theorem ofExcept_bind {x : Except CompileError α} (hf : ∀ a, x = .ok a → (f a).Stays I s Q) :
    (ofExcept x >>= f).Stays I s Q := by
  cases x with
  | ok a => exact hf a rfl
  | error e => exact stop

theorem mono (hp : p.Stays I s P) (hP : ∀ a u, P a u → P' a u) : p.Stays I s P' :=
  fun calls hv => ⟨(hp calls hv).1, fun a u hrun => hP a u ((hp calls hv).2 a u hrun)⟩

/-- A call begins in a sound state. -/
theorem follow {c : Call} (hI : I s) (hp : Sound s → p.Stays I s P) :
    (Compilation.follow c p).Stays I s P := by
  intro calls hv
  rw [visits_follow] at hv ⊢
  rw [run_follow]
  obtain ⟨hvisits, hresult⟩ := hp (hv ⟨.enter c, calls, s⟩ (by simp)).sound (c :: calls)
    fun v hmem => hv v (by simp [hmem])
  refine ⟨fun v hmem => ?_, hresult⟩
  simp only [List.mem_append, List.mem_cons, List.not_mem_nil, or_false] at hmem
  rcases hmem with (rfl | hmem) | rfl
  · exact hI
  · exact hvisits v hmem
  · exact last_of_visits p hI hvisits

/-- What an operation does to the state is a step. -/
theorem follow_operation {c : Call} (hc : c.IsOperation) (hI : I s)
    (hp : Sound s → p.Stays I s P) :
    (Compilation.follow c p).Stays I s fun a u => P a u ∧ ∃ scope, Step scope s u := by
  intro calls hv
  obtain ⟨hvisits, hresult⟩ := follow hI hp calls hv
  refine ⟨hvisits, fun a u hrun => ⟨hresult a u hrun, ?_⟩⟩
  rw [visits_follow] at hv
  rw [run_follow] at hrun
  have hleave := (hv ⟨.leave c s, calls, (p.run s).2⟩ (by simp)).grows c s rfl hc
  rw [hrun] at hleave
  exact hleave.2

/-- What holds of every state on the way. -/
theorem of_holds {J : State → Prop} (hp : p.Holds J) (hs : J s) (hI : ∀ u, J u → I u) :
    p.Stays I s fun _ u => J u := by
  intro calls _
  have hmeets := hp calls [] s hs fun _ hv => nomatch hv
  unfold Meets at hmeets
  refine ⟨fun v hv => hI _ (hp.of_mem_visits hs hv), fun a u hrun => ?_⟩
  rw [hrun] at hmeets
  exact hmeets.1.1

end Stays

/-- A run leaves scopes where they hang, and what holds when it begins holds when it ends. -/
def Abides (Q : State → Prop) (p : Run α) : Prop :=
  ∀ s, Hung s → Q s → p.Stays Hung s fun _ u => Hung u ∧ Q u

end Run

/-- A condition that lasts, while scopes hang where they should. -/
structure Abiding (Q : State → Prop) (s : State) : Prop where
  hung : Hung s
  holds : Q s

namespace Abiding

open Run (Abides Stays Holds)

variable {Q : State → Prop} {α : Type} {p : Run α}

theorem still (h : Abiding Q s) (hQ : Lasting Q) (hs : Still s u) : Abiding Q u :=
  ⟨h.hung.still hs, hQ s u hs.toLasts h.holds⟩

theorem abides (hp : p.Holds (Abiding Q)) : p.Abides Q :=
  fun _ hI hq => (Stays.of_holds hp ⟨hI, hq⟩ fun _ h => h.hung).mono fun _ _ h => ⟨h.hung, h.holds⟩

theorem compositional (Q : State → Prop) : Compositional fun _ p => p.Abides Q where
  pure := fun _ _ hI hq => .pure ⟨hI, hq⟩
  stop := fun _ _ _ _ => .stop
  bind := fun hp hk s hI hq => (hp s hI hq).bind fun a u _ h => hk a u h.1 h.2
  get_bind := fun hk s hI hq => .get_bind (hk s s hI hq)
  follow := fun hp s hI hq => .follow hI fun _ => hp s hI hq

section Lasting

variable (hQ : Lasting Q)

include hQ

theorem entering (params : Table Value) : Entering params (Abiding Q) where
  types := fun _ _ he h => h.still hQ (.learn he.remembers)
  add := fun s _ _ _ _ _ _ h => h.still hQ (.append s _)
  tag := fun _ _ h => h.still hQ (.lists rfl rfl rfl)

/-- What bodies do leaves scopes where they hang. -/
theorem passage : Passage fun _ p => p.Abides Q where
  toCompositional := compositional Q
  bindVariable := fun k name v => abides
    (.bind .scopeAt fun _ => .update fun s h => h.still hQ (.bind s k name v))
  assign := by
    refine fun k name v s hI hq => .existing_bind fun c _ => .get_bind (.ofExcept_bind ?_)
    intro scopes hscopes
    obtain rfl : s.scopes.bind k name v = scopes := by
      unfold Scopes.assign at hscopes
      split at hscopes
      · cases hscopes
      · exact Except.ok.inj hscopes
    have h : Abiding Q _ := Abiding.mk hI hq |>.still hQ (.bind s k name v)
    exact .update h.hung ⟨h.hung, h.holds⟩
  note := fun _ => abides (.update fun _ h => h.still hQ (.lists rfl rfl rfl))
  setParameter := fun id _ _ => abides (.update fun s h => h.still hQ
    (.modify s id fun _ => ⟨rfl, rfl, rfl, fun he => he⟩))
  declareOther := by
    refine fun scope type title params _ _ => abides (.bind .scopeAt fun c => .get_bind fun _ => ?_)
    split
    · exact .bind .typeAt fun d => .addResource fun s h => h.still hQ (.append s _)
    · exact .addResource fun s h => h.still hQ (.append s _)

end Lasting

end Abiding

/-! ## The entering of code -/

/-- The code of a type is entered for a resource that was declared in the scope `home`. -/
structure Enters (s : State) (t : TypeId) (id : ResourceId) (home : ScopeId) : Prop where
  resource : ∃ r, s.catalog.get? id = some r ∧ r.source = some t ∧ r.scope = home ∧
    r.evaluated = true
  unrecorded : s.scopes.ofType? t = none

theorem lasting_enters (t : TypeId) (id : ResourceId) (home : ScopeId) :
    Lasting fun s => Enters s t id home := by
  intro s u hl h
  obtain ⟨r, hr, hsrc, hhome, he⟩ := h.resource
  obtain ⟨r', hr', hsame⟩ := hl.resources id r hr
  exact ⟨⟨r', hr', hsame.source.trans hsrc, hsame.scope.trans hhome, hsame.evaluated he⟩,
    (hl.ofType t ⟨id, r, hr, hsrc, he⟩).trans h.unrecorded⟩

/-- The running of code leaves scopes where they hang. -/
def HangsCode (code : Code) : Prop :=
  ∀ s t id home, Hung s → Enters s t id home →
    (code t id).Stays Hung s fun _ u => Hung u

open Run (Abides Stays)

variable {Q : State → Prop}

theorem evaluateResource_abides (hcode : HangsCode code) (hQ : Lasting Q) (id : ResourceId) :
    (evaluateResource code id).Abides Q := by
  intro s hI hq
  refine (Stays.follow_operation (c := .evaluateResource id) trivial hI
    (P := fun _ u => Hung u) fun hs => ?_).mono ?_
  · refine .existing_bind fun r hr => ?_
    split
    · exact .pure hI
    · next hwait =>
      have hmark : Hung (s.mark id) :=
        hI.still (.modify s id fun _ => ⟨rfl, rfl, rfl, fun _ => rfl⟩)
      refine .update_bind hmark ?_
      split
      · next t hsrc =>
        have ht := List.getElem?_eq_getElem (hs.inRange.resourceSource id r t hr hsrc)
        have hb : Begins s id r t _ := ⟨hr, hsrc, ht, Bool.eq_false_of_not_eq_true hwait⟩
        exact hcode _ t id r.scope hmark
          ⟨⟨_, hb.marked, hsrc, rfl, rfl⟩, hb.not_recorded hs⟩
      · exact .pure hmark
  · rintro _ u ⟨hu, scope, hstep⟩
    exact ⟨hu, hQ s u (.of_step hstep) hq⟩

theorem request_abides (hcode : HangsCode code) (hQ : Lasting Q) (type : TypeId) (scope : ScopeId)
    (params : Table Value) : (request code type scope params).Abides Q :=
  (Abiding.compositional Q).bind (Abiding.abides ((Abiding.entering hQ params).ensure type scope))
    fun id => (Abiding.compositional Q).bind (evaluateResource_abides hcode hQ id)
      fun _ => (Abiding.compositional Q).pure id

/-! ## The scope of one's own -/

/-- The code of a type runs in the scope `k`, for a resource that was declared in `home`. -/
structure Evaluating (s : State) (t : TypeId) (id : ResourceId) (home k : ScopeId) : Prop
    extends Enters s t id home, Houses s k t home

theorem lasting_evaluating (t : TypeId) (id : ResourceId) (home k : ScopeId) :
    Lasting fun s => Evaluating s t id home k :=
  fun s u hl h => ⟨lasting_enters t id home s u hl h.toEnters,
    lasting_houses k t home s u hl h.toHouses⟩

section Scope

variable {d : Descriptor} {r : Resource}

/-- The code of a type gets a scope below the one in which its resource was declared. -/
theorem evaluationScope_stays (hI : Hung s) (hd : s.types.get? t = some d)
    (hr : s.catalog.get? id = some r) (hsrc : r.source = some t) (he : Enters s t id r.scope)
    (htop : d.kind = .hostclass → r.title = mainTitle → r.scope = Scopes.top) :
    (evaluationScope t d id r).Stays Hung s fun k u => Hung u ∧ Evaluating u t id r.scope k := by
  unfold evaluationScope
  split
  · next hmain =>
    exact .pure ⟨hI, he, ⟨id, r, hr, hsrc, rfl, .inr ⟨htop hmain.1 hmain.2, hmain.2, d, hd,
      hmain.1⟩⟩⟩
  · have hscopes : Survives s { s with scopes := (s.scopes.push (newScopeOf t d id r)).2 } :=
      .of_scopes fun k c hc => ⟨c, Scopes.get?_push_of_get? hc _, rfl⟩
    have hnew : Evaluating { s with scopes := (s.scopes.push (newScopeOf t d id r)).2 } t id r.scope
        s.scopes.arena.length := by
      refine ⟨lasting_enters t id _ s _ ⟨hscopes, fun _ _ => rfl⟩ he, ?_⟩
      refine ⟨id, r, hr, hsrc, rfl, .inl ⟨newScopeOf t d id r, ?_, rfl⟩⟩
      rw [Scopes.get?_push, if_pos rfl]
    have hung : Hung { s with scopes := (s.scopes.push (newScopeOf t d id r)).2 } := by
      refine hI.change hscopes (fun _ _ h => h) fun k p hp => ?_
      rw [Scopes.parent?_push] at hp
      split at hp
      · next heq =>
        subst heq
        exact .inr ⟨t, r.scope, hnew.toHouses, .inl (Option.some.inj hp).symm⟩
      · exact .inl hp
    exact .get_bind (.update_bind hung (.pure ⟨hung, hnew⟩))

/-- The scope of a type may be put below that of the parent. -/
theorem putBelowType_stays {q : TypeId} (hI : Hung s) (he : Evaluating s t id home k)
    (hq : s.types.parent? t = some q) :
    (putBelowType k q).Stays Hung s fun _ u => Hung u ∧ Evaluating u t id home k := by
  refine .get_bind ?_
  split
  · next above habove =>
    refine .existing_bind fun c hc => ?_
    have hscopes : Survives s { s with scopes := s.scopes.setParent k above } :=
      .modify s k fun _ => rfl
    have hnew : Evaluating { s with scopes := s.scopes.setParent k above } t id home k :=
      lasting_evaluating t id home k s _ ⟨hscopes, fun _ _ => rfl⟩ he
    have hung : Hung { s with scopes := s.scopes.setParent k above } := by
      refine hI.change hscopes (fun _ _ h => h) fun z p hp => ?_
      rw [Scopes.parent?_setParent hc] at hp
      split at hp
      · next heq =>
        obtain rfl := Option.some.inj hp
        subst heq
        exact .inr ⟨t, home, hnew.toHouses, .inr ⟨q, hq, habove⟩⟩
      · exact .inl hp
    exact .update hung ⟨hung, hnew⟩
  · exact .pure ⟨hI, he⟩

theorem evaluateParent_stays (hcode : HangsCode code) (hI : Hung s)
    (he : Evaluating s t id home k) (enclosing : ScopeId) :
    (evaluateParent code t enclosing k).Stays Hung s
      fun _ u => Hung u ∧ Evaluating u t id home k := by
  have hlasting := lasting_evaluating t id home k
  refine .bind (.of_holds ((Abiding.entering hlasting []).ancestry t (some k)) ⟨hI, he⟩
    fun _ h => h.hung) fun l s₁ hrun h₁ => ?_
  have hl := (ancestry_known hrun).leads
  split
  · exact .pure ⟨h₁.hung, h₁.holds⟩
  · next q rest =>
    have hknown : s₁.types.parent? t = some q := by
      cases hl with
      | link hq _ => exact hq
    have hboth : Lasting fun u => Evaluating u t id home k ∧ u.types.parent? t = some q :=
      fun u w huw hu => ⟨hlasting u w huw hu.1, huw.types.parent? hu.2⟩
    refine .bind (Abiding.abides ((Abiding.entering hboth []).ensure q enclosing) s₁ h₁.hung
      ⟨h₁.holds, hknown⟩) fun i s₂ _ h₂ => ?_
    refine .bind (evaluateResource_abides hcode hboth i s₂ h₂.1 h₂.2) fun _ s₃ _ h₃ => ?_
    exact putBelowType_stays h₃.1 h₃.2.1 h₃.2.2

theorem lasting_true : Lasting fun _ => True :=
  fun _ _ _ _ => trivial

theorem runInScope_stays (hcode : HangsCode code) (hI : Hung s) (he : Evaluating s t id home k) :
    (runInScope strict code t d id k).Stays Hung s fun _ u => Hung u := by
  have hlasting := lasting_evaluating t id home k
  have hbody : ∀ u, Hung u → (follow (.body t id k)
      (runOptional strict code t id k d.body)).Stays Hung u fun _ w => Hung w :=
    fun u hu => .follow hu fun _ => ((Abiding.passage lasting_true).runOptional
      (request_abides hcode lasting_true) d.body u hu trivial).mono fun _ _ h => h.1
  refine .bind ((Abiding.passage hlasting).bindParameters (request_abides hcode hlasting) s hI he)
    fun _ s₁ _ h₁ => ?_
  dsimp only
  split
  · have hung : Hung { s₁ with scopes := s₁.scopes.setOfType t k } := by
      refine h₁.1.change (.of_scopes fun _ c hc => ⟨c, hc, rfl⟩) (fun q p hq => ?_)
        fun _ _ hp => .inl hp
      -- the type had no scope yet
      have hne : q ≠ t := by
        rintro rfl
        cases h₁.2.unrecorded.symm.trans hq
      exact (Scopes.ofType?_setOfType ..).trans ((if_neg hne).trans hq)
    exact .update_bind hung (hbody _ hung)
  · exact hbody s₁ h₁.1

/-- What is done for a resource once it is listed. -/
theorem enterScope_stays (hcode : HangsCode code) (hI : Hung s) (hd : s.types.get? t = some d)
    (hr : s.catalog.get? id = some r) (hsrc : r.source = some t) (he : Enters s t id r.scope)
    (htop : d.kind = .hostclass → r.title = mainTitle → r.scope = Scopes.top) :
    (do
      let scope ← evaluationScope t d id r
      if d.parent.isSome ∧ d.kind ≠ .define then evaluateParent code t r.scope scope
      runInScope strict code t d id scope : Run Unit).Stays Hung s fun _ u => Hung u := by
  refine .bind (evaluationScope_stays hI hd hr hsrc he htop) fun k s₁ _ h₁ => ?_
  dsimp only
  split
  · exact .bind (evaluateParent_stays hcode h₁.1 h₁.2 r.scope) fun _ s₂ _ h₂ =>
      runInScope_stays hcode h₂.1 h₂.2
  · exact runInScope_stays hcode h₁.1 h₁.2

theorem enter_stays (hcode : HangsCode code) (hs : Sound s) (hI : Hung s)
    (he : Enters s t id home) : (enter strict code t id).Stays Hung s fun _ u => Hung u := by
  refine .existing_bind fun d hd => .existing_bind fun r hr => ?_
  obtain ⟨r', hr', hsrc, rfl, -⟩ := he.resource
  cases hr.symm.trans hr'
  have htop := hs.mainPlace not_false id r t d hr hsrc hd
  dsimp only
  split
  · have hstill : Still s { s with catalog := s.catalog.addClass r.title } := .lists rfl rfl rfl
    exact .update_bind (hI.still hstill) (enterScope_stays hcode (hI.still hstill) hd hr hsrc
      (lasting_enters t id r.scope s _ hstill.toLasts he) htop)
  · exact enterScope_stays hcode hI hd hr hsrc he htop

end Scope

theorem hangs_evaluateCode (strict : Bool) : ∀ n, HangsCode (evaluateCode strict n) := by
  intro n
  induction n with
  | zero => exact fun _ _ _ _ _ _ => .stop
  | succ n ih => exact fun _ _ _ _ hI he => .follow hI fun hs => enter_stays ih hs hI he

theorem hangs_runCode (strict : Bool) : HangsCode (runCode strict) :=
  fun s t id home hI he => .get_bind (hangs_evaluateCode strict _ s t id home hI he)

/-! ## Compilations -/

section Compile

variable {rounds : ℕ} {types : Registry} {host : Host} {settings : Settings}

/-- In every state of a compilation scopes hang where they should. -/
theorem hung_of_mem_states (hclosed : types.Closed)
    (hs : s ∈ states rounds types host settings) : Hung s := by
  have hmain : (addType (.ofName .hostclass "")).Abides fun _ => True := by
    refine fun s hI _ => .get_bind (.ofExcept_bind fun x hx => ?_)
    have hung : Hung { s with types := x.2 } := hI.still (.learn (Registry.remembers_add hx))
    exact .update_bind hung (.pure ⟨hung, trivial⟩)
  have hfinal : (modifyCatalog (·.finalize)).Abides fun _ => True :=
    Abiding.abides (.update fun _ h => h.still lasting_true (.lists rfl rfl rfl))
  have hphases := (Abiding.passage lasting_true).phases
    (request_abides (hangs_runCode settings.strictVariables) lasting_true)
    (evaluateResource_abides (hangs_runCode settings.strictVariables) lasting_true) hmain hfinal
    rounds host
  have hinitial := Hung.initial types host
  have hhistory := (hphases _ hinitial trivial []
    (history_compiled rounds host settings hclosed).visits).1
  rcases List.mem_cons.mp hs with rfl | hs
  · exact hinitial
  · obtain ⟨v, hv, rfl⟩ := List.mem_map.mp hs
    exact hhistory v hv

end Compile

end Compilation

end SiteCatalog
