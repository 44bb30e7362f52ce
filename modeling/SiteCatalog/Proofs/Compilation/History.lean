import SiteCatalog.Proofs.Compilation.Realization

/-!
# Histories

What holds at every moment of a compilation, and the contract that all its parts meet.

Results:
* `Lawful`: the law of a single moment.
* `Orderly`, `Announced`, `Course`, `Complete`: what a history and the state behind it have to do
  with each other.
* `Underway.resume`, `Underway.quietly`: a run that is lawful by itself is lawful in the middle of a
  history.
* `Meets.follow_operation`, `Meets.follow_frame`: calls.
-/

namespace SiteCatalog.Compilation

/-! ## The law of a moment -/

/-- The calls that change nothing beyond growth, unlike those of code and bodies, which belong to
one resource. -/
def Call.IsOperation : Call → Prop
  | .code .. | .body .. => False
  | _ => True

/-- The type whose code a call runs, and the resource for which it does. -/
def Call.code? : Call → Option (TypeId × ResourceId)
  | .code t id => some (t, id)
  | _ => none

/-- The type whose body a call runs. -/
def Call.body? : Call → Option TypeId
  | .body t _ _ => some t
  | _ => none

theorem Call.code?_eq_some {c : Call} {e : TypeId × ResourceId} :
    c.code? = some e ↔ c = .code e.1 e.2 := by
  cases c <;> simp [Call.code?, Prod.ext_iff]

theorem Call.body?_eq_some {c : Call} {t : TypeId} :
    c.body? = some t ↔ ∃ id k, c = .body t id k := by
  cases c <;> simp [Call.body?]

/-- The call that begins. -/
def Event.entered? : Event → Option Call
  | .enter c => some c
  | _ => none

theorem Event.entered?_eq_some {e : Event} {c : Call} : e.entered? = some c ↔ e = .enter c := by
  cases e <;> simp [Event.entered?]

theorem Event.exists_of_body {e : Event} {t : TypeId}
    (h : e.entered?.bind Call.body? = some t) : ∃ id k, e = .enter (.body t id k) := by
  obtain ⟨c, hc, hb⟩ := Option.bind_eq_some_iff.mp h
  obtain ⟨id, k, rfl⟩ := Call.body?_eq_some.mp hb
  exact ⟨id, k, Event.entered?_eq_some.mp hc⟩

/-- The code of a type has been entered and its body has not. -/
def Pending (calls : List Call) (t : TypeId) : Prop :=
  (∃ id, .code t id ∈ calls) ∧ ∀ id k, .body t id k ∉ calls

instance (calls : List Call) (t : TypeId) : Decidable (Pending calls t) :=
  decidable_of_iff ((∃ e ∈ calls.filterMap Call.code?, e.1 = t) ∧ t ∉ calls.filterMap Call.body?)
    (by simp [Pending, List.mem_filterMap, Call.code?_eq_some, Call.body?_eq_some])

/-- Where the body of a class or node runs: its parents have been evaluated up to their bodies
except those that are pending, and it sees the scope of the nearest one. -/
def Placed (calls : List Call) (s : State) (t : TypeId) (k : ScopeId) : Prop :=
  Singleton s t → ∃ chain, s.types.Ancestry t chain ∧
    (∀ p ∈ chain, s.scopes.ofType? p = none ↔ Pending calls p) ∧
    ∀ p ∈ chain.head?, ∀ above, s.scopes.ofType? p = some above → s.scopes.parent? k = some above

/-- What holds at a moment of a compilation. -/
structure Lawful (v : Visit) : Prop where
  sound : Sound v.state
  grows : ∀ c before, v.event = .leave c before → c.IsOperation →
    Sound before ∧ ∃ scope, Step scope before v.state
  placed : ∀ t id k, v.event = .enter (.body t id k) → Placed v.inside v.state t k

theorem Lawful.change {s : State} {calls : List Call} (hs : Sound s) :
    Lawful ⟨.change, calls, s⟩ :=
  ⟨hs, fun _ _ h => (nomatch h), fun _ _ _ h => (nomatch h)⟩

/-- The body of a type begins in a state in which it is well placed. -/
theorem Lawful.body {s : State} {calls : List Call} {t : TypeId} {id : ResourceId} {k : ScopeId}
    (hs : Sound s) (hplaced : Placed calls s t k) : Lawful ⟨.enter (.body t id k), calls, s⟩ := by
  refine ⟨hs, fun _ _ h => (nomatch h), ?_⟩
  rintro _ _ _ ⟨⟩
  exact hplaced

/-! ## The law of a history -/

/-- The types whose code is entered, and for which resources. -/
def entered (h : List Visit) : List (TypeId × ResourceId) :=
  h.filterMap fun v => v.event.entered?.bind Call.code?

theorem entered_append (h h' : List Visit) : entered (h ++ h') = entered h ++ entered h' :=
  List.filterMap_append

theorem entered_snoc {e : Event} (he : e.entered?.bind Call.code? = none) (h : List Visit)
    (calls : List Call) (s : State) : entered (h ++ [⟨e, calls, s⟩]) = entered h := by
  have hnone : entered [⟨e, calls, s⟩] = [] := List.filterMap_cons_none he
  rw [entered_append, hnone, List.append_nil]

/-- What is neither code nor a body enters nothing. -/
theorem Event.code?_of_operation {e : Event} (he : ∀ c, e = .enter c → c.IsOperation) :
    e.entered?.bind Call.code? = none := by
  cases e with
  | enter c =>
    cases c with
    | code t id => exact False.elim (he _ rfl)
    | _ => rfl
  | _ => rfl

/-- The types whose bodies have begun to run. -/
def begun (h : List Visit) : List TypeId :=
  h.filterMap fun v => v.event.entered?.bind Call.body?

theorem begun_append (h h' : List Visit) : begun (h ++ h') = begun h ++ begun h' :=
  List.filterMap_append

/-- Since the state `o`, the scope of a type has only been remembered if its body has begun, and its
body has begun before any other body that begins later. -/
structure Announced (o : State) (h : List Visit) (s : State) : Prop where
  recorded : ∀ ty, (s.scopes.ofType? ty).isSome → (o.scopes.ofType? ty).isSome ∨ ty ∈ begun h
  earlier : ∀ h₁ v h₂, h = h₁ ++ v :: h₂ → ∀ c id k, v.event = .enter (.body c id k) →
    ∀ ty ≠ c, (v.state.scopes.ofType? ty).isSome →
      (o.scopes.ofType? ty).isSome ∨ ty ∈ begun h₁

/-- A history that is lawful at every moment and in which no code is entered twice for a resource.
-/
structure Orderly (h : List Visit) (s : State) : Prop where
  sound : Sound s
  visits : ∀ v ∈ h, Lawful v
  /-- Types never go away. -/
  kept : ∀ v ∈ h, v.state.types.Persists s.types
  once : ((entered h).map (·.2)).Nodup
  marked : ∀ e ∈ entered h, ∃ r, s.catalog.get? e.2 = some r ∧ r.source = some e.1 ∧
    r.evaluated = true

/-- An orderly history since the state `o`, as it arises from a run in a scope. -/
structure Course (scope : ScopeId) (o : State) (h : List Visit) (s : State) : Prop
    extends Orderly h s, Announced o h s where
  step : Step scope o s
  fresh : ∀ e ∈ entered h, ¬Done o e.2

/-- What is evaluated since the state `o` is what has been entered. -/
structure Complete (o : State) (h : List Visit) (s : State) : Prop where
  entered : ∀ id r t, s.catalog.get? id = some r → r.evaluated = true → r.source = some t →
    ¬Done o id → (t, id) ∈ entered h
  listed : ∀ title ∈ s.catalog.classes, title ∈ o.catalog.classes ∨
    ∃ e ∈ Compilation.entered h, Singleton s e.1 ∧
      ∃ r, s.catalog.get? e.2 = some r ∧ r.title = title
  titles : ∀ e ∈ Compilation.entered h, Singleton s e.1 → ∀ r, s.catalog.get? e.2 = some r →
    r.title ∈ s.catalog.classes

/-- A compilation on its way, without a failure so far. -/
structure Underway (scope : ScopeId) (o : State) (h : List Visit) (s : State) : Prop where
  course : Course scope o h s
  complete : Complete o h s

/-- What every operation of a compilation has to meet: all is lawful, and what goes wrong is the
fault of the site. -/
def lawfully (scope : ScopeId) (o : State) : Contract where
  ok h s := Underway scope o h s
  failed f h s := Fair s f ∧ Course scope o h s

variable {scope other : ScopeId} {o s t s' : State} {h h' : List Visit} {calls : List Call}

theorem Orderly.append (ho : Orderly h s) (hc : Course scope s h' t) : Orderly (h ++ h') t where
  sound := hc.sound
  visits := by
    intro v hv
    rcases List.mem_append.mp hv with hv | hv
    · exact ho.visits v hv
    · exact hc.visits v hv
  kept := by
    intro v hv
    rcases List.mem_append.mp hv with hv | hv
    · exact (ho.kept v hv).trans hc.step.types.persists
    · exact hc.kept v hv
  once := by
    rw [entered_append, List.map_append]
    refine List.Nodup.append ho.once hc.once ?_
    intro id hid hid'
    obtain ⟨e, he, rfl⟩ := List.mem_map.mp hid
    obtain ⟨e', he', heq⟩ := List.mem_map.mp hid'
    -- what was entered first is done when the second part begins
    obtain ⟨r, hr, -, hev⟩ := ho.marked e he
    exact hc.fresh e' he' (heq ▸ ⟨r, hr, hev⟩)
  marked := by
    intro e he
    rw [entered_append] at he
    rcases List.mem_append.mp he with he | he
    · obtain ⟨r, hr, hs, hev⟩ := ho.marked e he
      obtain ⟨r', hr', hg⟩ := hc.step.resources _ r hr
      exact ⟨r', hr', hg.source.trans hs, hg.evaluated hev⟩
    · exact hc.marked e he

/-- A moment may be added that does not change the state. -/
theorem Orderly.snoc {e : Event} (ho : Orderly h s) (hv : Lawful ⟨e, calls, s⟩)
    (he : e.entered?.bind Call.code? = none) : Orderly (h ++ [⟨e, calls, s⟩]) s := by
  refine ⟨ho.sound, fun w hw => ?_, fun w hw => ?_, by rw [entered_snoc he]; exact ho.once,
    by rw [entered_snoc he]; exact ho.marked⟩
  · rcases List.mem_append.mp hw with hw | hw
    · exact ho.visits w hw
    · exact List.mem_singleton.mp hw ▸ hv
  · rcases List.mem_append.mp hw with hw | hw
    · exact ho.kept w hw
    · exact List.mem_singleton.mp hw ▸ .refl _

namespace Announced

theorem start (s : State) : Announced s [] s where
  recorded := fun _ hs => .inl hs
  earlier := fun h₁ v h₂ heq => by simp at heq

theorem append (ha : Announced o h s) (ha' : Announced s h' t) : Announced o (h ++ h') t where
  recorded := by
    intro ty hty
    rw [begun_append, List.mem_append, ← or_assoc]
    exact (ha'.recorded ty hty).imp_left (ha.recorded ty)
  earlier := by
    intro h₁ v h₂ heq c id k hv ty hne hty
    rcases List.append_eq_append_iff.mp heq with ⟨l, rfl, hl⟩ | ⟨l, rfl, hl⟩
    · rw [begun_append, List.mem_append, ← or_assoc]
      exact (ha'.earlier l v h₂ hl c id k hv ty hne hty).imp_left (ha.recorded ty)
    · cases l with
      | nil =>
        have := (ha'.earlier [] v h₂ hl.symm c id k hv ty hne hty).resolve_right (by simp [begun])
        simpa using ha.recorded ty this
      | cons w l =>
        obtain ⟨rfl, rfl⟩ := List.cons.inj hl
        exact ha.earlier h₁ v l rfl c id k hv ty hne hty

/-- While nothing is remembered, no body begins. -/
theorem of_kept (hs : s.scopes.ofTypes = o.scopes.ofTypes)
    (hv : ∀ v ∈ h, ∀ c id k, v.event ≠ .enter (.body c id k)) : Announced o h s where
  recorded := fun ty hty => .inl (by rw [Scopes.ofType?, hs] at hty; exact hty)
  earlier := fun h₁ v h₂ heq c id k hbody => absurd hbody (hv v (by simp [heq]) c id k)

theorem snoc {e : Event} (ha : Announced o h s) (hs : s'.scopes.ofTypes = s.scopes.ofTypes)
    (he : ∀ c, e = .enter c → c.IsOperation) : Announced o (h ++ [⟨e, calls, s'⟩]) s' := by
  refine ha.append (.of_kept hs fun v hv c id k heq => ?_)
  rw [List.mem_singleton.mp hv] at heq
  exact he _ heq

/-- A body begins, right after the scope of its type has been remembered if it is. -/
theorem body (ha : Announced o h s) (h' : List Visit) (c : TypeId) (id : ResourceId) (k : ScopeId)
    (hh : ∀ v ∈ h', v.event = .change)
    (hof : ∀ ty ≠ c, s'.scopes.ofType? ty = s.scopes.ofType? ty) :
    Announced o (h ++ h' ++ [⟨.enter (.body c id k), calls, s'⟩]) s' := by
  rw [List.append_assoc]
  refine ha.append ⟨fun ty hty => ?_, fun h₁ v h₂ heq c' id' k' hv ty hne hty => ?_⟩
  · by_cases hc : ty = c
    · exact .inr (by simp [begun, hc, Event.entered?, Call.body?])
    · exact .inl (hof ty hc ▸ hty)
  · have hmem : v ∈ h' ++ [⟨.enter (.body c id k), calls, s'⟩] := by simp [heq]
    rcases List.mem_append.mp hmem with hmem | hmem
    · rw [hh v hmem] at hv
      cases hv
    · obtain rfl := List.mem_singleton.mp hmem
      cases hv
      exact .inl (hof ty hne ▸ hty)

end Announced

namespace Course

theorem start (hs : Sound s) : Course scope s [] s where
  toAnnounced := .start s
  sound := hs
  visits := fun _ hv => nomatch hv
  kept := fun _ hv => nomatch hv
  once := List.nodup_nil
  marked := fun _ he => nomatch he
  step := .refl scope s
  fresh := fun _ he => nomatch he

theorem append (hc : Course scope o h s) (hc' : Course other s h' t)
    (hother : Hidden o other → other = scope) : Course scope o (h ++ h') t where
  toOrderly := hc.toOrderly.append hc'
  toAnnounced := hc.toAnnounced.append hc'.toAnnounced
  step := hc.step.trans_of_visible hc'.step hother
  fresh := by
    intro e he
    rw [entered_append] at he
    rcases List.mem_append.mp he with he | he
    · exact hc.fresh e he
    · exact fun hdone => hc'.fresh e he (hc.step.done hdone)

theorem snoc {e : Event} (hc : Course scope o h s) (hv : Lawful ⟨e, calls, s⟩)
    (he : ∀ c, e = .enter c → c.IsOperation) : Course scope o (h ++ [⟨e, calls, s⟩]) s where
  toOrderly := hc.toOrderly.snoc hv (Event.code?_of_operation he)
  toAnnounced := hc.toAnnounced.snoc rfl he
  step := hc.step
  fresh := by
    rw [entered_snoc (Event.code?_of_operation he)]
    exact hc.fresh

end Course

namespace Complete

theorem start (s : State) : Complete s [] s where
  entered := fun _ r _ hr hev _ hnew => absurd ⟨r, hr, hev⟩ hnew
  listed := fun _ ht => .inl ht
  titles := fun _ he => nomatch he

theorem append (hc : Complete o h s) (ho : Orderly h s) (hu : Underway scope s h' t) :
    Complete o (h ++ h') t := by
  have hstep := hu.course.step
  constructor
  case entered =>
    intro id r ty hr hev hs hnew
    rw [entered_append]
    by_cases hdone : Done s id
    · obtain ⟨r₀, hr₀, hev₀⟩ := hdone
      obtain ⟨r', hr', hg⟩ := hstep.resources id r₀ hr₀
      rw [hr] at hr'
      cases hr'
      exact List.mem_append_left _ (hc.entered id r₀ ty hr₀ hev₀ (hg.source ▸ hs) hnew)
    · exact List.mem_append_right _ (hu.complete.entered id r ty hr hev hs hdone)
  case listed =>
    intro title ht
    simp only [entered_append, List.mem_append]
    rcases hu.complete.listed title ht with ht | ⟨e, he, hx⟩
    · rcases hc.listed title ht with ht | ⟨e, he, hs, r, hr, heq⟩
      · exact .inl ht
      · obtain ⟨r', hr', hg⟩ := hstep.resources _ r hr
        exact .inr ⟨e, .inl he, hstep.singleton hs, r', hr', hg.title.trans heq⟩
    · exact .inr ⟨e, .inr he, hx⟩
  case titles =>
    intro e he hs r hr
    rw [entered_append] at he
    rcases List.mem_append.mp he with he | he
    · obtain ⟨r₀, hr₀, -, -⟩ := ho.marked e he
      obtain ⟨r', hr', hg⟩ := hstep.resources _ r₀ hr₀
      rw [hr] at hr'
      cases hr'
      rw [hg.title]
      exact hstep.classes.subset (hc.titles e he (hstep.singleton_back hs) r₀ hr₀)
    · exact hu.complete.titles e he hs r hr

theorem of_entered (hc : Complete o h s) (heq : Compilation.entered h' = Compilation.entered h) :
    Complete o h' s :=
  ⟨by rw [heq]; exact hc.entered, by rw [heq]; exact hc.listed, by rw [heq]; exact hc.titles⟩

end Complete

namespace Underway

theorem start (hs : Sound s) : Underway scope s [] s :=
  ⟨.start hs, .start s⟩

theorem append (hu : Underway scope o h s) (hu' : Underway other s h' t)
    (hother : Hidden o other → other = scope) : Underway scope o (h ++ h') t :=
  ⟨hu.course.append hu'.course hother, hu.complete.append hu.course.toOrderly hu'⟩

theorem snoc {e : Event} (hu : Underway scope o h s) (hv : Lawful ⟨e, calls, s⟩)
    (he : ∀ c, e = .enter c → c.IsOperation) : Underway scope o (h ++ [⟨e, calls, s⟩]) s :=
  ⟨hu.course.snoc hv he, hu.complete.of_entered (entered_snoc (Event.code?_of_operation he) ..)⟩

theorem fails {α : Type} {P : α → State → Prop} (hu : Underway scope o h s) (e : CompileError) :
    (fail e : Run α).Meets (lawfully scope o) calls h s P :=
  .stop ⟨.error e, hu.course⟩

/-- What a run does from a state on, it does in the middle of a history. -/
theorem resume {α : Type} {p : Run α} {P : α → State → Prop} (hu : Underway scope o h s)
    (hother : Hidden o other → other = scope) (hp : p.Meets (lawfully other s) calls [] s P) :
    p.Meets (lawfully scope o) calls h s fun a t => P a t ∧ Step other s t := by
  refine hp.rebase (fun a h' t hok hP => ⟨hu.append hok hother, hP, hok.course.step⟩) ?_
  rintro f h' t ⟨he, hfail⟩
  exact ⟨he, hu.course.append hfail hother⟩

end Underway

/-! ## Single changes -/

/-- Resources with the same titles and sources of which the same ones have been evaluated. -/
def SameStatus (s s' : State) : Prop :=
  ∀ id, (s'.catalog.get? id).map (fun r => (r.source, r.title, r.evaluated)) =
    (s.catalog.get? id).map fun r => (r.source, r.title, r.evaluated)

theorem SameStatus.symm (hst : SameStatus s s') : SameStatus s' s :=
  fun id => (hst id).symm

theorem SameStatus.get? (hst : SameStatus s s') {id : ResourceId} {r : Resource}
    (hr : s.catalog.get? id = some r) : ∃ r', s'.catalog.get? id = some r' ∧
      r'.source = r.source ∧ r'.title = r.title ∧ r'.evaluated = r.evaluated := by
  have := hst id
  rw [hr, Option.map_some] at this
  obtain ⟨r', hr', heq⟩ := Option.map_eq_some_iff.mp this
  simp only [Prod.mk.injEq] at heq
  exact ⟨r', hr', heq⟩

theorem SameStatus.evaluated (hst : SameStatus s s') {t : TypeId} (he : Evaluated s t) :
    Evaluated s' t := by
  obtain ⟨id, r, hr, hsrc, hev⟩ := he
  obtain ⟨r', hr', hsrc', -, hev'⟩ := hst.get? hr
  exact ⟨id, r', hr', hsrc'.trans hsrc, hev'.trans hev⟩

theorem SameStatus.mainRealized (hst : SameStatus s s') (hty : s'.types = s.types)
    (hm : MainRealized s) : MainRealized s' := by
  obtain ⟨id, r, t, d, hr, hsrc, hd, hmain⟩ := hm
  obtain ⟨r', hr', hsrc', -⟩ := hst.get? hr
  exact ⟨id, r', t, d, hr', hsrc'.trans hsrc, hty ▸ hd, hmain⟩

/-- A change that evaluates nothing. -/
theorem Orderly.change (ho : Orderly h s) (hs : Sound s') (hty : s.types.Persists s'.types)
    (hst : SameStatus s s') : Orderly (h ++ [⟨.change, calls, s'⟩]) s' where
  sound := hs
  visits := by
    intro v hv
    rcases List.mem_append.mp hv with hv | hv
    · exact ho.visits v hv
    · exact List.mem_singleton.mp hv ▸ .change hs
  kept := by
    intro v hv
    rcases List.mem_append.mp hv with hv | hv
    · exact (ho.kept v hv).trans hty
    · exact List.mem_singleton.mp hv ▸ .refl _
  once := by
    rw [entered_snoc rfl]
    exact ho.once
  marked := by
    rw [entered_snoc rfl]
    intro e he
    obtain ⟨r, hr, hsrc, hev⟩ := ho.marked e he
    obtain ⟨r', hr', hsrc', -, hev'⟩ := hst.get? hr
    exact ⟨r', hr', hsrc'.trans hsrc, hev'.trans hev⟩

theorem Complete.change (hc : Complete o h s) (hty : s'.types = s.types)
    (hclasses : s'.catalog.classes = s.catalog.classes) (hst : SameStatus s s') :
    Complete o (h ++ [⟨.change, calls, s'⟩]) s' := by
  have heq : Compilation.entered (h ++ [⟨.change, calls, s'⟩]) = Compilation.entered h :=
    entered_snoc rfl ..
  constructor
  case entered =>
    rw [heq]
    intro id r' t hr' hev hsrc hnew
    obtain ⟨r, hr, hsrc', -, hev'⟩ := hst.symm.get? hr'
    exact hc.entered id r t hr (hev'.trans hev) (hsrc'.trans hsrc) hnew
  case listed =>
    rw [heq, hclasses]
    intro title ht
    refine (hc.listed title ht).imp_right ?_
    rintro ⟨e, he, hsing, r, hr, htitle⟩
    obtain ⟨r', hr', -, htitle', -⟩ := hst.get? hr
    exact ⟨e, he, by simpa only [Singleton, hty] using hsing, r', hr', htitle'.trans htitle⟩
  case titles =>
    rw [heq, hclasses]
    intro e he hsing r' hr'
    obtain ⟨r, hr, -, htitle, -⟩ := hst.symm.get? hr'
    rw [← htitle]
    exact hc.titles e he (by simpa only [Singleton, hty] using hsing) r hr

theorem Underway.change (hu : Underway scope o h s) (hs : Sound s') (hstep : Step scope o s')
    (hty : s'.types = s.types) (hclasses : s'.catalog.classes = s.catalog.classes)
    (hst : SameStatus s s') (hof : s'.scopes.ofTypes = s.scopes.ofTypes) :
    Underway scope o (h ++ [⟨.change, calls, s'⟩]) s' where
  course :=
    { toOrderly := hu.course.toOrderly.change hs (by rw [hty]) hst
      toAnnounced := hu.course.toAnnounced.snoc hof fun _ he => nomatch he
      step := hstep
      fresh := by
        rw [entered_snoc rfl]
        exact hu.course.fresh }
  complete := hu.complete.change hty hclasses hst

/-- The body of a defined type begins. -/
theorem Underway.body {t : TypeId} {id : ResourceId} {k : ScopeId} (hu : Underway scope o h s)
    (hv : Lawful ⟨.enter (.body t id k), calls, s⟩) :
    Underway scope o (h ++ [⟨.enter (.body t id k), calls, s⟩]) s where
  course :=
    { toOrderly := hu.course.toOrderly.snoc hv rfl
      toAnnounced := by
        rw [← List.append_nil h]
        exact hu.course.toAnnounced.body [] t id k (by simp) fun _ _ => rfl
      step := hu.course.step
      fresh := by
        rw [entered_snoc rfl]
        exact hu.course.fresh }
  complete := hu.complete.of_entered (entered_snoc rfl ..)

/-- The scope of a class or node is remembered, and its body begins. -/
theorem Underway.record {t : TypeId} {id : ResourceId} {k : ScopeId} (hu : Underway scope o h s)
    (hstep : Step scope o s') (hty : s'.types = s.types) (hcat : s'.catalog = s.catalog)
    (hof : ∀ ty ≠ t, s'.scopes.ofType? ty = s.scopes.ofType? ty)
    (hv : Lawful ⟨.enter (.body t id k), calls, s'⟩) :
    Underway scope o
      (h ++ [⟨.change, calls, s'⟩] ++ [⟨.enter (.body t id k), calls, s'⟩]) s' := by
  have hst : SameStatus s s' := fun id => by rw [hcat]
  constructor
  case course =>
    constructor
    case toOrderly =>
      exact (hu.course.toOrderly.change hv.sound (by rw [hty]) hst).snoc hv rfl
    case toAnnounced => exact hu.course.toAnnounced.body _ t id k (by simp) hof
    case step => exact hstep
    case fresh =>
      rw [entered_snoc rfl, entered_snoc rfl]
      exact hu.course.fresh
  case complete =>
    exact (hu.complete.change hty (by rw [hcat]) hst).of_entered (entered_snoc rfl ..)

/-! ## Realization as a part of it -/

theorem Realizing.entered_eq_nil (hr : Realizing scope o h s) : entered h = [] := by
  rw [entered, List.filterMap_eq_nil_iff]
  intro v hv
  rw [(hr.visits v hv).1]
  rfl

theorem Realizing.underway (hr : Realizing scope o h s) : Underway scope o h s where
  course :=
    { sound := hr.sound
      visits := by
        rintro ⟨event, inside, state⟩ hv
        obtain ⟨hevent, hs, -⟩ := hr.visits _ hv
        dsimp only at hevent
        subst hevent
        exact .change hs
      kept := fun v hv => (hr.visits v hv).2.2
      once := by rw [hr.entered_eq_nil]; exact List.nodup_nil
      marked := by rw [hr.entered_eq_nil]; exact fun _ he => nomatch he
      toAnnounced := by
        refine .of_kept (by rw [hr.quiet.scopes]) fun v hv c id k heq => ?_
        rw [(hr.visits v hv).1] at heq
        cases heq
      step := hr.quiet.step
      fresh := by rw [hr.entered_eq_nil]; exact fun _ he => nomatch he }
  complete :=
    { entered := fun _ r _ hr' hev _ hnew => absurd (hr.quiet.done_back ⟨r, hr', hev⟩) hnew
      listed := by rw [hr.quiet.classes]; exact fun _ ht => .inl ht
      titles := by rw [hr.entered_eq_nil]; exact fun _ he => nomatch he }

/-- What only looks up and enters classes is lawful in the middle of a history. -/
theorem Underway.quietly {α : Type} {p : Run α} {P : α → State → Prop} (hu : Underway scope o h s)
    (hother : Hidden o other → other = scope)
    (hp : p.Meets (Compilation.quietly other s) calls [] s P) :
    p.Meets (lawfully scope o) calls h s fun a t => P a t ∧ Quiet other s t := by
  refine hp.rebase (fun a h' t hok hP => ⟨hu.append hok.underway hother, hP, hok.quiet⟩) ?_
  rintro f h' t ⟨he, hfail⟩
  exact ⟨.of_error he, hu.course.append hfail.underway.course hother⟩

/-! ## Calls -/

namespace Run.Meets

variable {α : Type} {p : Run α} {P : α → State → Prop} {c : Call}

/-- An operation, from the state in which it is called. -/
theorem follow_operation (hs : Sound s) (hc : c.IsOperation)
    (hp : p.Meets (lawfully scope s) (c :: calls) [] s P) :
    (Compilation.follow c p).Meets (lawfully scope s) calls [] s P := by
  have henter : Underway scope s ([] ++ [⟨.enter c, calls, s⟩]) s := by
    refine (Underway.start hs).snoc ⟨hs, fun _ _ h => (nomatch h), ?_⟩ ?_
    · rintro t id k ⟨⟩; exact hc.elim
    · rintro _ ⟨⟩; exact hc
  have hleave : ∀ t, Sound t → Step scope s t → Lawful ⟨.leave c s, calls, t⟩ := by
    intro t ht hstep
    refine ⟨ht, ?_, fun _ _ _ h => (nomatch h)⟩
    rintro _ _ ⟨⟩ -
    exact ⟨hs, scope, hstep⟩
  refine .follow (hp.rebase (fun a h' t hok hP => ⟨?_, hP⟩) ?_)
  · have hu := henter.append hok fun _ => rfl
    exact hu.snoc (hleave t hok.course.sound hok.course.step) (fun _ he => nomatch he)
  · rintro f h' t ⟨he, hfail⟩
    have hu := henter.course.append hfail fun _ => rfl
    exact ⟨he, hu.snoc (hleave t hfail.sound hfail.step) (fun _ he => nomatch he)⟩

/-- The code or the body of a type. -/
theorem follow_frame (hc : ¬c.IsOperation)
    (hp : p.Meets (lawfully scope o) (c :: calls) (h ++ [⟨.enter c, calls, s⟩]) s P) :
    (Compilation.follow c p).Meets (lawfully scope o) calls h s P := by
  have hleave : ∀ t, Sound t → Lawful ⟨.leave c s, calls, t⟩ := by
    intro t ht
    refine ⟨ht, ?_, fun _ _ _ h => (nomatch h)⟩
    rintro _ _ ⟨⟩ hop
    exact absurd hop hc
  refine .follow (hp.imp (fun a h' t hok hP => ⟨?_, hP⟩) ?_)
  · exact hok.snoc (hleave t hok.course.sound) fun _ he => nomatch he
  · rintro f h' t ⟨he, hfail⟩
    exact ⟨he, hfail.snoc (hleave t hfail.sound) fun _ he => nomatch he⟩

end Run.Meets

end SiteCatalog.Compilation
