import SiteCatalog.Proofs.Compilation.Invariant

/-!
# Changes of scopes

The invariant when a variable is bound, a scope is added or put below another one, and the scope of
a class is remembered.

Results:
* `Sound.of_scopes`, `Sound.of_modify`: what is left to show when scopes change, or when one does.
* `Sound.push`: a new scope hangs below an old one, and nothing below the new one.
* `Sound.putBelow`: a scope to which nothing refers yet may be moved; so may the top, if the unnamed
  class has a parent.
* `Sound.record`: the scope in which a class or node is evaluated may be remembered.
-/

namespace SiteCatalog.Compilation.Sound

variable {s s' : State} {k : ScopeId} {anywhere : Prop}

/-- What is left to show when scopes change and nothing else does. -/
theorem of_scopes (h : Sound s anywhere) (hty : s'.types = s.types) (hcat : s'.catalog = s.catalog)
    (hlen : s.scopes.arena.length ≤ s'.scopes.arena.length)
    (hplaces : ∀ z c, s'.scopes.get? z = some c →
      (∀ p : ℕ, c.parent = some p → p < s'.scopes.arena.length) ∧
      (∀ t : ℕ, c.source = some t → t < s.types.types.length) ∧
      ∀ id : ℕ, c.resource = some id → id < s.catalog.resources.length)
    (htop : ∃ c, s'.scopes.get? Scopes.top = some c ∧ c.source = none)
    (hhas : ∀ z c, s'.scopes.get? z = some c → z ≠ Scopes.top → c.parent.isSome)
    (hup : s'.scopes.parent? Scopes.top = none →
      ∀ z c, s'.scopes.get? z = some c → ∃ l, Leads s'.scopes.parent? z l)
    (htopParent : ∀ p, s'.scopes.parent? Scopes.top = some p →
      ∃ t d, s.types.get? t = some d ∧ d.IsMain ∧ d.parent.isSome)
    (hclass : ∀ t z, s'.scopes.ofType? t = some z →
      Evaluated s t ∧ ∃ d c, s.types.get? t = some d ∧ d.kind ≠ .define ∧
        s'.scopes.get? z = some c ∧
        (¬anywhere → (d.IsMain → z = Scopes.top) ∧ (¬d.IsMain → c.source = some t))) :
    Sound s' anywhere := by
  constructor
  case inRange =>
    constructor
    case resolved => rw [hty]; exact h.inRange.resolved
    case scopeParent => exact fun z c p hc => (hplaces z c hc).1 p
    case scopeSource => rw [hty]; exact fun z c t hc => (hplaces z c hc).2.1 t
    case scopeResource => rw [hcat]; exact fun z c id hc => (hplaces z c hc).2.2 id
    case resourceScope =>
      rw [hcat]
      exact fun id r z hr hz => (h.inRange.resourceScope id r z hr hz).trans_le hlen
    case resourceSource => rw [hcat, hty]; exact h.inRange.resourceSource
  case top => exact htop
  case hasParent => exact hhas
  case upward => exact hup
  case topParent => rw [hty]; exact htopParent
  case classPlace => rw [hty]; exact fun t z hz => (hclass t z hz).2
  case classEvaluated =>
    intro t z hz
    simpa only [Evaluated, hcat] using (hclass t z hz).1
  case identity => rw [hcat]; exact h.identity
  case singleton => rw [hcat, hty]; exact h.singleton
  case mainPlace => rw [hcat, hty]; exact h.mainPlace
  case parent => simpa only [Singleton, hcat, hty] using h.parent

theorem places (h : Sound s anywhere) {c : Scope} (hc : s.scopes.get? k = some c) :
    (∀ p : ℕ, c.parent = some p → p < s.scopes.arena.length) ∧
      (∀ t : ℕ, c.source = some t → t < s.types.types.length) ∧
      ∀ id : ℕ, c.resource = some id → id < s.catalog.resources.length :=
  ⟨fun p => h.inRange.scopeParent k c p hc, fun t => h.inRange.scopeSource k c t hc,
    fun id => h.inRange.scopeResource k c id hc⟩

/-- What is left to show when, besides, every scope keeps its type and every type its scope. -/
theorem of_scopes_kept (h : Sound s anywhere) (hty : s'.types = s.types)
    (hcat : s'.catalog = s.catalog)
    (hlen : s.scopes.arena.length ≤ s'.scopes.arena.length)
    (hkept : ∀ z c, s.scopes.get? z = some c →
      ∃ c', s'.scopes.get? z = some c' ∧ c'.source = c.source)
    (hof : ∀ t, s'.scopes.ofType? t = s.scopes.ofType? t)
    (hplaces : ∀ z c, s'.scopes.get? z = some c →
      (∀ p : ℕ, c.parent = some p → p < s'.scopes.arena.length) ∧
      (∀ t : ℕ, c.source = some t → t < s.types.types.length) ∧
      ∀ id : ℕ, c.resource = some id → id < s.catalog.resources.length)
    (hhas : ∀ z c, s'.scopes.get? z = some c → z ≠ Scopes.top → c.parent.isSome)
    (hup : s'.scopes.parent? Scopes.top = none →
      ∀ z c, s'.scopes.get? z = some c → ∃ l, Leads s'.scopes.parent? z l)
    (htopParent : ∀ p, s'.scopes.parent? Scopes.top = some p →
      ∃ t d, s.types.get? t = some d ∧ d.IsMain ∧ d.parent.isSome) : Sound s' anywhere := by
  refine h.of_scopes hty hcat hlen hplaces ?_ hhas hup htopParent ?_
  · obtain ⟨c, hc, hs⟩ := h.top
    obtain ⟨c', hc', hs'⟩ := hkept _ c hc
    exact ⟨c', hc', hs'.trans hs⟩
  · intro t z hz
    rw [hof] at hz
    obtain ⟨d, c, hd, hdef, hc, hplace⟩ := h.classPlace t z hz
    obtain ⟨c', hc', heq⟩ := hkept z c hc
    rw [← heq] at hplace
    exact ⟨h.classEvaluated t z hz, d, c', hd, hdef, hc', hplace⟩

/-- What is left to show when a scope is changed in place and keeps its type and its resource: a
parent that it gets has to exist, and the scopes have to go on to form a tree. -/
theorem of_modify (h : Sound s anywhere) {f : Scope → Scope} (hty : s'.types = s.types)
    (hsc : s'.scopes = s.scopes.modify k f) (hcat : s'.catalog = s.catalog)
    (hf : ∀ c, (f c).source = c.source ∧ (f c).resource = c.resource)
    (hparent : ∀ c, (f c).parent = c.parent ∨
      ∃ p : ℕ, (f c).parent = some p ∧ p < s.scopes.arena.length)
    (hup : s'.scopes.parent? Scopes.top = none →
      ∀ z c, s.scopes.get? z = some c → ∃ l, Leads s'.scopes.parent? z l)
    (htopParent : ∀ p, s'.scopes.parent? Scopes.top = some p →
      ∃ t d, s.types.get? t = some d ∧ d.IsMain ∧ d.parent.isSome) : Sound s' anywhere := by
  have hlen : s'.scopes.arena.length = s.scopes.arena.length := by
    rw [hsc]; exact Scopes.length_modify ..
  have hback : ∀ z c', s'.scopes.get? z = some c' → ∃ c, s.scopes.get? z = some c ∧
      (c'.parent = c.parent ∨ ∃ p : ℕ, c'.parent = some p ∧ p < s.scopes.arena.length) ∧
      c'.source = c.source ∧ c'.resource = c.resource := by
    intro z c' hc'
    rw [hsc] at hc'
    obtain ⟨c, hc, rfl⟩ := Scopes.exists_of_get?_modify hc'
    refine ⟨c, hc, ?_⟩
    split
    · exact ⟨hparent c, hf c⟩
    · exact ⟨.inl rfl, rfl, rfl⟩
  refine h.of_scopes_kept hty hcat hlen.ge ?_ ?_ ?_ ?_ ?_ htopParent
  · rw [hsc]
    refine fun z c hc => ⟨_, Scopes.get?_modify_of_get? hc k f, ?_⟩
    split
    · exact (hf c).1
    · rfl
  · intro t
    rw [hsc]
    rfl
  · intro z c' hc'
    obtain ⟨c, hc, hpc, hs, hr⟩ := hback z c' hc'
    rw [hs, hr, hlen]
    refine ⟨fun q hq => ?_, (h.places hc).2⟩
    rcases hpc with hpc | ⟨p, hpc, hlt⟩
    · exact (h.places hc).1 q (hpc ▸ hq)
    · rw [hpc] at hq
      exact Option.some.inj hq ▸ hlt
  · intro z c' hc' hz
    obtain ⟨c, hc, heq | ⟨p, heq, -⟩, -⟩ := hback z c' hc'
    · exact heq ▸ h.hasParent z c hc hz
    · rw [heq]
      rfl
  · intro htop z c' hc'
    obtain ⟨c, hc, -⟩ := hback z c' hc'
    exact hup htop z c hc

/-- What a scope binds does not matter. -/
theorem bind (h : Sound s anywhere) {name : String} {v : Value} (hty : s'.types = s.types)
    (hsc : s'.scopes = s.scopes.bind k name v) (hcat : s'.catalog = s.catalog) :
    Sound s' anywhere := by
  have hpar : s'.scopes.parent? = s.scopes.parent? := by
    funext z
    rw [hsc, Scopes.parent?_bind]
  refine h.of_modify hty hsc hcat (fun _ => ⟨rfl, rfl⟩) (fun _ => .inl rfl) ?_ ?_
  · rw [hpar]; exact h.upward
  · rw [hpar]; exact h.topParent

/-- Where nothing is below a scope, the scopes that led to an end still do after the scope has got
another parent. -/
theorem leads_of_detached (h : Sound s anywhere) (hnone : ∀ z, s.scopes.parent? z ≠ some k)
    (hpar : ∀ z ≠ k, s'.scopes.parent? z = s.scopes.parent? z)
    (htop : s.scopes.parent? Scopes.top = none) :
    ∀ z ≠ k, ∀ c, s.scopes.get? z = some c → ∃ l, Leads s'.scopes.parent? z l := by
  intro z hz c hc
  obtain ⟨l, hl⟩ := h.upward htop z c hc
  exact ⟨l, hl.redirect hz hnone hpar⟩

/-- A new scope may be added below an old one. -/
theorem push (h : Sound s anywhere) {c : Scope} {p t id : ℕ} (hp : c.parent = some p)
    (hlt : p < s.scopes.arena.length) (ht : c.source = some t) (htlt : t < s.types.types.length)
    (hid : c.resource = some id) (hidlt : id < s.catalog.resources.length)
    (hty : s'.types = s.types) (hsc : s'.scopes = (s.scopes.push c).2)
    (hcat : s'.catalog = s.catalog) : Sound s' anywhere := by
  have hpar : ∀ z : ℕ, s'.scopes.parent? z =
      if z = s.scopes.arena.length then some p else s.scopes.parent? z := fun z => by
    rw [hsc, Scopes.parent?_push, hp]
  have hlen : s'.scopes.arena.length = s.scopes.arena.length + 1 := by
    rw [hsc, Scopes.push, List.length_append, List.length_singleton]
  have hcases : ∀ (z : ℕ) c', s'.scopes.get? z = some c' →
      s.scopes.get? z = some c' ∨ z = s.scopes.arena.length ∧ c' = c := by
    rw [hsc]
    exact fun _ _ => Scopes.old_or_new
  have htop : s'.scopes.parent? Scopes.top = s.scopes.parent? Scopes.top := by
    obtain ⟨c', hc', -⟩ := h.top
    rw [hpar, if_neg (Nat.ne_of_lt (Scopes.lt_length_of_get? hc'))]
  refine h.of_scopes_kept hty hcat (by omega) ?_ ?_ ?_ ?_ ?_ ?_
  · rw [hsc]
    exact fun z c' hc' => ⟨c', Scopes.get?_push_of_get? hc' c, rfl⟩
  · intro u
    rw [hsc]
    rfl
  · intro z c' hc'
    rcases hcases z c' hc' with hc' | ⟨-, rfl⟩
    · obtain ⟨h₁, h₂, h₃⟩ := h.places hc'
      exact ⟨fun q hq => by have := h₁ q hq; omega, h₂, h₃⟩
    · rw [hp, ht, hid]
      refine ⟨?_, ?_, ?_⟩
      · rintro q ⟨⟩; omega
      · rintro q ⟨⟩; exact htlt
      · rintro q ⟨⟩; exact hidlt
  · intro z c' hc' hz
    rcases hcases z c' hc' with hc' | ⟨-, rfl⟩
    · exact h.hasParent z c' hc' hz
    · rw [hp]; rfl
  · rw [htop]
    intro hn z c' hc'
    -- nothing leads to the new scope
    have hnone : ∀ z, s.scopes.parent? z ≠ some s.scopes.arena.length := by
      intro z hz
      obtain ⟨c', hc', heq⟩ := Option.bind_eq_some_iff.mp hz
      exact absurd (h.inRange.scopeParent z c' _ hc' heq) (Nat.lt_irrefl _)
    have hways := h.leads_of_detached hnone (fun y hy => by rw [hpar, if_neg hy]) hn
    rcases hcases z c' hc' with hc' | ⟨rfl, -⟩
    · exact hways z (Nat.ne_of_lt (Scopes.lt_length_of_get? hc')) c' hc'
    · obtain ⟨l, hl⟩ := hways p (Nat.ne_of_lt hlt) _ (List.getElem?_eq_getElem hlt)
      exact ⟨p :: l, .link (by rw [hpar, if_pos rfl]) hl⟩
  · rw [htop]
    exact h.topParent

/-- A scope may be put below another one if nothing is below it. The top may be put anywhere, if the
unnamed class has a parent. -/
theorem putBelow (h : Sound s anywhere) {p : ℕ} {c : Scope} (hc : s.scopes.get? k = some c)
    (hp : p < s.scopes.arena.length)
    (hk : k = Scopes.top ∧ (∃ t d, s.types.get? t = some d ∧ d.IsMain ∧ d.parent.isSome) ∨
      k ≠ Scopes.top ∧ p ≠ k ∧ ∀ z, s.scopes.parent? z ≠ some k)
    (hty : s'.types = s.types) (hsc : s'.scopes = s.scopes.setParent k p)
    (hcat : s'.catalog = s.catalog) : Sound s' anywhere := by
  have hpar : ∀ z, s'.scopes.parent? z = if z = k then some p else s.scopes.parent? z := fun z => by
    rw [hsc, Scopes.parent?_setParent hc]
  refine h.of_modify hty hsc hcat (fun _ => ⟨rfl, rfl⟩) (fun _ => .inr ⟨p, rfl, hp⟩) ?_ ?_
  · intro htop z c' hc'
    -- the top has been put below a scope, or another scope has
    rcases hk with ⟨rfl, -⟩ | ⟨hk, hpk, hnone⟩
    · rw [hpar, if_pos rfl] at htop; cases htop
    · rw [hpar, if_neg (Ne.symm hk)] at htop
      have hways := h.leads_of_detached hnone (fun y hy => by rw [hpar, if_neg hy]) htop
      by_cases hz : z = k
      · subst hz
        obtain ⟨l, hl⟩ := hways p hpk _ (List.getElem?_eq_getElem hp)
        exact ⟨p :: l, .link (by rw [hpar, if_pos rfl]) hl⟩
      · exact hways z hz c' hc'
  · intro q hq
    rcases hk with ⟨-, hmain⟩ | ⟨hk, -⟩
    · exact hmain
    · rw [hpar, if_neg (Ne.symm hk)] at hq
      exact h.topParent q hq

/-- The scope in which a class or node is evaluated may be remembered. -/
theorem record (h : Sound s anywhere) {t : TypeId} {d : Descriptor} {c : Scope} (ht : Evaluated s t)
    (hd : s.types.get? t = some d) (hdef : d.kind ≠ .define) (hc : s.scopes.get? k = some c)
    (hplace : ¬anywhere → (d.IsMain → k = Scopes.top) ∧ (¬d.IsMain → c.source = some t))
    (hty : s'.types = s.types) (hsc : s'.scopes = s.scopes.setOfType t k)
    (hcat : s'.catalog = s.catalog) : Sound s' anywhere := by
  have hget : s'.scopes.get? = s.scopes.get? := by rw [hsc]; rfl
  have hpar : s'.scopes.parent? = s.scopes.parent? := by rw [hsc]; rfl
  have hlen : s'.scopes.arena.length = s.scopes.arena.length := by rw [hsc]; rfl
  refine h.of_scopes hty hcat hlen.ge ?_ ?_ ?_ ?_ ?_ ?_
  · rw [hget, hlen]; exact fun z c hc => h.places hc
  · rw [hget]; exact h.top
  · rw [hget]; exact h.hasParent
  · rw [hget, hpar]; exact h.upward
  · rw [hpar]; exact h.topParent
  · intro u z hz
    rw [hget]
    rw [hsc, Scopes.ofType?_setOfType] at hz
    split at hz
    · next heq =>
      subst heq
      cases hz
      exact ⟨ht, d, c, hd, hdef, hc, hplace⟩
    · exact ⟨h.classEvaluated u z hz, h.classPlace u z hz⟩

end SiteCatalog.Compilation.Sound
