import SiteCatalog.Proofs.Compilation.History

/-!
# Nested evaluations

A class may be asked for while it is being evaluated, and it is left alone then. What the
evaluations that are in progress have done so far is read off the open calls: a class or node that
has been marked as evaluated has a scope unless it is pending.

Results:
* `Ready`: what holds when an operation is called and when it succeeds.
* `Ready.enter`, `Ready.record`, `Ready.leave`: the three moments at which an evaluation changes it.
* `Ready.placed`: the parents of a class or node when its body is entered.
* `remaining_mark_lt`: there is less to evaluate after each beginning.
-/

namespace SiteCatalog.Compilation

variable {calls : List Call} {c : Call} {t u : TypeId} {id : ResourceId} {k : ScopeId}

/-! ## Pending types -/

theorem pending_cons_operation (hc : c.IsOperation) :
    Pending (c :: calls) t ↔ Pending calls t := by
  have hcode : ∀ id, .code t id ≠ c := by rintro id rfl; exact hc.elim
  have hbody : ∀ id k, .body t id k ≠ c := by rintro id k rfl; exact hc.elim
  simp only [Pending, List.mem_cons, hcode, hbody, false_or]

theorem pending_cons_code :
    Pending (.code t id :: calls) u ↔
      Pending calls u ∨ u = t ∧ ∀ id k, .body t id k ∉ calls := by
  simp only [Pending, List.mem_cons, reduceCtorEq, false_or, Call.code.injEq]
  constructor
  · rintro ⟨⟨i, ⟨rfl, -⟩ | hi⟩, hb⟩
    · exact .inr ⟨rfl, hb⟩
    · exact .inl ⟨⟨i, hi⟩, hb⟩
  · rintro (⟨⟨i, hi⟩, hb⟩ | ⟨rfl, hb⟩)
    · exact ⟨⟨i, .inr hi⟩, hb⟩
    · exact ⟨⟨id, .inl ⟨rfl, rfl⟩⟩, hb⟩

theorem pending_cons_body :
    Pending (.body t id k :: calls) u ↔ Pending calls u ∧ u ≠ t := by
  simp only [Pending, List.mem_cons, reduceCtorEq, false_or, Call.body.injEq, not_or, not_and]
  constructor
  · rintro ⟨hcode, hb⟩
    exact ⟨⟨hcode, fun i z => (hb i z).2⟩, fun heq => (hb id k).1 heq rfl rfl⟩
  · rintro ⟨⟨hcode, hb⟩, hne⟩
    exact ⟨hcode, fun i z => ⟨fun heq => absurd heq hne, hb i z⟩⟩

/-! ## Between operations -/

/-- The state of the nested evaluations at the beginning and end of an operation. One class or node,
`due`, may still have to be evaluated before the child that has asked for it. -/
structure Ready (calls : List Call) (due : Option TypeId) (s : State) : Prop where
  main : MainRealized s
  frames : ∀ t, Singleton s t → Evaluated s t → s.scopes.ofType? t = none → Pending calls t
  pending : ∀ t, Pending calls t → Evaluated s t ∧ s.scopes.ofType? t = none
  bodies : ∀ t id k, .body t id k ∈ calls → Evaluated s t
  parents : ∀ t d p, s.types.get? t = some d → d.kind ≠ .define → d.parent.isSome →
    d.resolved = some p → Evaluated s t → Evaluated s p ∨ due = some p

namespace Ready

variable {due : Option TypeId} {scope : ScopeId} {o s s' : State}

theorem of_operation (hc : c.IsOperation) : Ready (c :: calls) due s ↔ Ready calls due s := by
  have hbody : ∀ t id k, .body t id k ≠ c := by rintro t id k rfl; exact hc.elim
  constructor
  · intro h
    refine ⟨h.main, ?_, ?_, ?_, h.parents⟩
    · exact fun t ht he hn => (pending_cons_operation hc).mp (h.frames t ht he hn)
    · exact fun t ht => h.pending t ((pending_cons_operation hc).mpr ht)
    · exact fun t id k hm => h.bodies t id k (List.mem_cons_of_mem _ hm)
  · intro h
    refine ⟨h.main, ?_, ?_, ?_, h.parents⟩
    · exact fun t ht he hn => (pending_cons_operation hc).mpr (h.frames t ht he hn)
    · exact fun t ht => h.pending t ((pending_cons_operation hc).mp ht)
    · intro t id k hm
      rcases List.mem_cons.mp hm with heq | hm
      · exact absurd heq (hbody t id k)
      · exact h.bodies t id k hm

theorem with_due (h : Ready calls none s) (due : Option TypeId) : Ready calls due s where
  main := h.main
  frames := h.frames
  pending := h.pending
  bodies := h.bodies
  parents := fun t d p hd hk hs hp he =>
    .inl ((h.parents t d p hd hk hs hp he).resolve_right (by simp))

/-- What was due has been evaluated. -/
theorem discharge (h : Ready calls (some t) s) (ht : Evaluated s t) : Ready calls none s where
  main := h.main
  frames := h.frames
  pending := h.pending
  bodies := h.bodies
  parents := by
    intro u d p hd hk hs hp he
    rcases h.parents u d p hd hk hs hp he with hp | heq
    · exact .inl hp
    · cases heq; exact .inl ht

/-- Only the types, what has been evaluated and the scopes of classes matter. -/
theorem congr (h : Ready calls due s) (hty : s'.types = s.types) (hst : SameStatus s s')
    (hof : s'.scopes.ofTypes = s.scopes.ofTypes) : Ready calls due s' := by
  have hofType : ∀ t, s'.scopes.ofType? t = s.scopes.ofType? t := fun t => by
    rw [Scopes.ofType?, Scopes.ofType?, hof]
  constructor
  case main => exact hst.mainRealized hty h.main
  case frames =>
    intro t ht he hn
    rw [hofType] at hn
    exact h.frames t (by simpa only [Singleton, hty] using ht) (hst.symm.evaluated he) hn
  case pending =>
    intro t ht
    rw [hofType]
    exact ⟨hst.evaluated (h.pending t ht).1, (h.pending t ht).2⟩
  case bodies => exact fun t id k hm => hst.evaluated (h.bodies t id k hm)
  case parents =>
    rw [hty]
    intro t d p hd hk hpar hp he
    exact (h.parents t d p hd hk hpar hp (hst.symm.evaluated he)).imp_left hst.evaluated

theorem of_quiet (h : Ready calls due s) (hs : Sound s) (hq : Quiet scope s s') :
    Ready calls due s' where
  main := hq.step.mainRealized h.main
  frames := by
    intro t ht he hn
    rw [hq.scopes] at hn
    exact h.frames t (hq.step.singleton_back ht) (hq.evaluated_back he) hn
  pending := by
    intro t ht
    rw [hq.scopes]
    exact ⟨hq.step.evaluated (h.pending t ht).1, (h.pending t ht).2⟩
  bodies := fun t id k hm => hq.step.evaluated (h.bodies t id k hm)
  parents := by
    intro t d' p hd' hk hpar hp he
    obtain ⟨d, hd, heq, hkept⟩ := hq.types.kept_back hd'
    rw [heq] at hk hpar
    -- the parent of a type that has been evaluated was known before
    have he' := hq.evaluated_back he
    have ⟨_, r, hr, hsrc, _⟩ := he'
    obtain ⟨p', hp', -⟩ := hs.parent _ r t d hr hsrc hd hk hpar
    have hpp : p' = p := Option.some.inj ((hkept p' hp').symm.trans hp)
    exact (h.parents t d p hd hk hpar (hpp ▸ hp') he').imp_left hq.step.evaluated

/-- The ancestors of a class or node that has been evaluated have been evaluated. -/
theorem evaluated_of_ancestry (h : Ready calls none s) (hs : Sound s) {l : List TypeId}
    (hl : s.types.Ancestry t l) (ht : Singleton s t) (he : Evaluated s t) :
    ∀ p ∈ l, Singleton s p ∧ Evaluated s p := by
  induction hl with
  | root => exact fun p hp => nomatch hp
  | @child t p d l hd hpar hp _ ih =>
    obtain ⟨d', hd', hk⟩ := ht
    rw [hd] at hd'
    cases hd'
    have hep : Evaluated s p :=
      (h.parents t d p hd hk hpar hp he).resolve_right (by simp)
    obtain ⟨id, r, hr, hsrc, -⟩ := he
    obtain ⟨p', hp', hsing, -⟩ := hs.parent id r t d hr hsrc hd hk hpar
    have hpp : p' = p := Option.some.inj (hp'.symm.trans hp)
    subst hpp
    intro x hx
    rcases List.mem_cons.mp hx with rfl | hx
    · exact ⟨hsing, hep⟩
    · exact ih hsing hep x hx

end Ready

/-! ## The beginning of an evaluation -/

/-- A resource of a type is going to be evaluated. -/
structure Begins (s : State) (id : ResourceId) (r : Resource) (t : TypeId) (d : Descriptor) :
    Prop where
  resource : s.catalog.get? id = some r
  source : r.source = some t
  descriptor : s.types.get? t = some d
  waiting : r.evaluated = false

/-- The state after a resource has been marked as evaluated. -/
def State.mark (s : State) (id : ResourceId) : State :=
  { s with catalog := s.catalog.markEvaluated id }

theorem get?_mark (s : State) (id i : ResourceId) :
    (s.mark id).catalog.get? i =
      if i = id then (s.catalog.get? i).map fun r => { r with evaluated := true }
      else s.catalog.get? i :=
  Catalog.get?_modify ..

theorem Sound.mark {s : State} {anywhere : Prop} (h : Sound s anywhere) (id : ResourceId) :
    Sound (s.mark id) anywhere := by
  refine h.of_resources rfl rfl (Catalog.length_modify ..) ?_ ?_
  · intro i r' hr'
    rw [get?_mark] at hr'
    split at hr'
    · obtain ⟨r, hr, rfl⟩ := Option.map_eq_some_iff.mp hr'
      exact ⟨r, hr, rfl, rfl, rfl, rfl⟩
    · exact ⟨r', hr', rfl, rfl, rfl, rfl⟩
  · intro i r hr
    rw [get?_mark, hr]
    split
    · exact ⟨_, rfl, rfl, fun _ => rfl⟩
    · exact ⟨r, rfl, rfl, fun he => he⟩

namespace Begins

variable {o s : State} {r : Resource} {d : Descriptor}

theorem not_done (h : Begins o id r t d) : ¬Done o id := by
  rintro ⟨r', hr', he⟩
  rw [h.resource] at hr'
  cases hr'
  rw [h.waiting] at he
  cases he

theorem not_evaluated {anywhere : Prop} (h : Begins o id r t d) (hs : Sound o anywhere)
    (hk : d.kind ≠ .define) : ¬Evaluated o t := by
  rintro ⟨i, r', hr', hsrc, he⟩
  have heq := hs.unique ⟨d, h.descriptor, hk⟩ hr' hsrc h.resource h.source
  subst heq
  exact h.not_done ⟨r', hr', he⟩

theorem not_recorded (h : Begins o id r t d) (hs : Sound o) : o.scopes.ofType? t = none := by
  by_contra hne
  obtain ⟨k, hk⟩ := Option.ne_none_iff_exists'.mp hne
  obtain ⟨d', -, hd', hdef, -⟩ := hs.classScope hk
  rw [h.descriptor] at hd'
  cases hd'
  exact h.not_evaluated hs hdef (hs.classEvaluated t k hk)

theorem not_hidden (h : Begins o id r t d) : ¬Hidden o r.scope :=
  fun hh => hh.resource id r h.resource rfl

/-- The resource once it is marked. -/
theorem marked (h : Begins o id r t d) :
    (o.mark id).catalog.get? id = some { r with evaluated := true } := by
  rw [get?_mark, if_pos rfl, h.resource]
  rfl

theorem evaluated_mark_iff (h : Begins o id r t d) :
    Evaluated (o.mark id) u ↔ Evaluated o u ∨ u = t := by
  constructor
  · rintro ⟨i, r', hr', hsrc, he⟩
    rw [get?_mark] at hr'
    split at hr'
    · next heq =>
      subst heq
      rw [h.resource] at hr'
      cases hr'
      exact .inr (Option.some.inj (hsrc.symm.trans h.source))
    · exact .inl ⟨i, r', hr', hsrc, he⟩
  · rintro (he | rfl)
    · exact (Step.mark r.scope o id).evaluated he
    · exact ⟨id, _, h.marked, h.source, rfl⟩

end Begins

namespace Ready

variable {due : Option TypeId} {scope : ScopeId} {o s s' : State} {r : Resource} {d : Descriptor}

/-- The code of a type is entered: the type is pending, and its parent is due. -/
theorem enter (h : Ready calls (some t) o) (hb : Begins o id r t d) (hs : Sound o)
    (hdue : ∀ p, d.kind ≠ .define → d.parent.isSome → d.resolved = some p → due = some p) :
    Ready (.code t id :: calls) due (o.mark id) := by
  have hstep := Step.mark r.scope o id
  constructor
  case main => exact hstep.mainRealized h.main
  case frames =>
    intro u hu he hn
    rw [pending_cons_code]
    rcases hb.evaluated_mark_iff.mp he with he | rfl
    · exact .inl (h.frames u hu he hn)
    · obtain ⟨d', hd', hk⟩ := hu
      rw [show d' = d from Option.some.inj (hd'.symm.trans hb.descriptor)] at hk
      exact .inr ⟨rfl, fun i z hm => hb.not_evaluated hs hk (h.bodies u i z hm)⟩
  case pending =>
    intro u hu
    rcases pending_cons_code.mp hu with hu | ⟨rfl, -⟩
    · exact ⟨hstep.evaluated (h.pending u hu).1, (h.pending u hu).2⟩
    · exact ⟨hb.evaluated_mark_iff.mpr (.inr rfl), hb.not_recorded hs⟩
  case bodies =>
    intro u i z hm
    rcases List.mem_cons.mp hm with heq | hm
    · cases heq
    · exact hstep.evaluated (h.bodies u i z hm)
  case parents =>
    intro u d' p hd' hk hpar hp he
    rcases hb.evaluated_mark_iff.mp he with he | rfl
    · refine .inl ?_
      rcases h.parents u d' p hd' hk hpar hp he with hep | heq
      · exact hstep.evaluated hep
      · cases heq; exact hb.evaluated_mark_iff.mpr (.inr rfl)
    · rw [show d' = d from Option.some.inj (hd'.symm.trans hb.descriptor)] at hk hpar hp
      exact .inr (hdue p hk hpar hp)

/-- The scope of a class or node is remembered when its body is entered. That of a defined type is
not. -/
theorem record (h : Ready (.code t id :: calls) none s) (ht : Evaluated s t)
    (hd : s.types.get? t = some d) (hty : s'.types = s.types) (hcat : s'.catalog = s.catalog)
    (hof : ∀ u, s'.scopes.ofType? u =
      if u = t ∧ d.kind ≠ .define then some k else s.scopes.ofType? u) :
    Ready (.body t id k :: .code t id :: calls) none s' := by
  constructor
  case main => simpa only [MainRealized, hcat, hty] using h.main
  case frames =>
    simp only [Singleton, Evaluated, hcat, hty]
    intro u hu he hn
    rw [pending_cons_body]
    have hne : u ≠ t := by
      rintro rfl
      obtain ⟨d', hd', hk⟩ := hu
      rw [hd] at hd'
      cases hd'
      rw [hof, if_pos ⟨rfl, hk⟩] at hn
      cases hn
    rw [hof, if_neg fun hx => hne hx.1] at hn
    exact ⟨h.frames u hu he hn, hne⟩
  case pending =>
    intro u hu
    obtain ⟨hu, hne⟩ := pending_cons_body.mp hu
    rw [hof, if_neg fun hx => hne hx.1]
    simpa only [Evaluated, hcat] using h.pending u hu
  case bodies =>
    simp only [Evaluated, hcat]
    intro u i z hm
    rcases List.mem_cons.mp hm with heq | hm
    · cases heq; exact ht
    · exact h.bodies u i z hm
  case parents => simpa only [Evaluated, hcat, hty] using h.parents

/-- The evaluation is over. -/
theorem leave (h : Ready (.body t id k :: .code t id :: calls) none s)
    (hr : Ready calls due o) (hstep : Step scope o s) : Ready calls none s where
  main := h.main
  frames := by
    intro u hu he hn
    obtain ⟨hp, hne⟩ := pending_cons_body.mp (h.frames u hu he hn)
    exact (pending_cons_code.mp hp).resolve_right fun hx => hne hx.1
  pending := by
    intro u hu
    obtain ⟨he, hn⟩ := hr.pending u hu
    exact ⟨hstep.evaluated he, (hstep.ofType u he).trans hn⟩
  bodies := fun u i z hm => hstep.evaluated (hr.bodies u i z hm)
  parents := h.parents

/-- When the body of a class or node is entered, its ancestors have scopes except those that are
pending. -/
theorem placed (h : Ready (.code t id :: calls) none s) (hs : Sound s) (ht : Evaluated s t)
    {l : List TypeId} (hl : s.types.Ancestry t l) (hty : s'.types = s.types)
    (hof : ∀ u, u ≠ t → s'.scopes.ofType? u = s.scopes.ofType? u)
    (habove : ∀ p ∈ l.head?, ∀ above, s.scopes.ofType? p = some above →
      s'.scopes.parent? k = some above) : Placed (.code t id :: calls) s' t k := by
  intro hsing
  have hne : ∀ p ∈ l, p ≠ t := by
    rintro p hp rfl
    exact (List.nodup_cons.mp hl.nodup).1 hp
  have hsing' : Singleton s t := by
    obtain ⟨d, hd, hk⟩ := hsing
    exact ⟨d, hty ▸ hd, hk⟩
  refine ⟨l, by rw [hty]; exact hl, fun p hp => ?_, fun p hp above ha => ?_⟩
  · obtain ⟨hp', he⟩ := h.evaluated_of_ancestry hs hl hsing' ht p hp
    rw [hof p (hne p hp)]
    exact ⟨h.frames p hp' he, fun hpend => (h.pending p hpend).2⟩
  · have hmem : p ∈ l := List.mem_of_head? hp
    rw [hof p (hne p hmem)] at ha
    exact habove p hp above ha

end Ready

/-! ## What is left to evaluate -/

section Remaining

open Classical

variable {anywhere : Prop} {scope : ScopeId} {s s' : State} {r : Resource} {d : Descriptor}

/-- The number of classes and nodes that have not been evaluated. -/
noncomputable def remaining (s : State) : ℕ :=
  ((Finset.range s.types.types.length).filter fun t => Singleton s t ∧ ¬Evaluated s t).card

theorem remaining_le_length (s : State) : remaining s ≤ s.types.types.length :=
  (Finset.card_filter_le _ _).trans (Finset.card_range _).le

theorem remaining_le (hty : s.types.Extends s'.types) (he : ∀ t, Evaluated s t → Evaluated s' t) :
    remaining s' ≤ remaining s := by
  refine Finset.card_le_card fun t ht => ?_
  rw [Finset.mem_filter, Finset.mem_range] at ht ⊢
  obtain ⟨hlt, ⟨d', hd', hk⟩, hev⟩ := ht
  obtain ⟨d, hd, heq, -⟩ := hty.kept_back hd'
  rw [heq] at hk
  exact ⟨hty.length ▸ hlt, ⟨d, hd, hk⟩, fun hx => hev (he t hx)⟩

theorem remaining_le_of_step (h : Step scope s s' anywhere) : remaining s' ≤ remaining s :=
  remaining_le h.types fun _ => h.evaluated

theorem remaining_mark_lt (hb : Begins s id r t d) (hs : Sound s anywhere)
    (hk : d.kind ≠ .define) : remaining (s.mark id) < remaining s := by
  refine Finset.card_lt_card (Finset.ssubset_iff_of_subset ?_ |>.mpr ⟨t, ?_, ?_⟩)
  · intro u hu
    rw [Finset.mem_filter, Finset.mem_range] at hu ⊢
    exact ⟨hu.1, hu.2.1, fun he => hu.2.2 (hb.evaluated_mark_iff.mpr (.inl he))⟩
  · rw [Finset.mem_filter, Finset.mem_range]
    exact ⟨Registry.lt_length_of_get? hb.descriptor, ⟨d, hb.descriptor, hk⟩,
      hb.not_evaluated hs hk⟩
  · rw [Finset.mem_filter]
    exact fun hx => hx.2.2 (hb.evaluated_mark_iff.mpr (.inr rfl))

end Remaining

end SiteCatalog.Compilation
