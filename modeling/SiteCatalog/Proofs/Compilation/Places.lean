import SiteCatalog.Proofs.Compilation.Phases

/-!
# Places exist

In a site whose unnamed class has no parent, every state of a compilation names only places that
exist, the parents of its scopes lead to the top, and the scopes that are remembered for classes and
nodes are their own. Scopes are put below others that may be younger, so that their order says
nothing about which is above which.

Results:
* `Sound.exists_reachesTop`: from every scope one comes to the top.
* `places_exist`: all of it, in every state of a compilation.
-/

namespace SiteCatalog

/-- From a scope, the parents lead through `l` to the top without repetition, and what is looked up
from the scope is looked up on this way. -/
structure Scopes.ReachesTop (s : Scopes) (k : ScopeId) (l : List ScopeId) : Prop where
  leads : Leads s.parent? k l
  nodup : (k :: l).Nodup
  last : (k :: l).getLast? = some top
  ancestors : s.ancestors k = some l
  lookup : ∀ name, s.lookup k name = some ((k :: l).findSome? fun i => s.lookupLocal i name)
  moduleName : s.moduleName k =
    some ((k :: l).findSome? fun i => (s.get? i).bind (·.moduleName))

namespace Compilation

variable {s : State}

theorem Sound.exists_reachesTop {anywhere : Prop} (hs : Sound s anywhere) (hr : s.types.Rooted)
    {k : ℕ} (hk : k < s.scopes.arena.length) : ∃ l, s.scopes.ReachesTop k l := by
  obtain ⟨l, hl⟩ := hs.exists_leads hr hk
  exact ⟨l, hl, hl.nodup, (hs.top_parent_of_leads hk hl).1, Scopes.ancestors_eq hl,
    fun name => Scopes.lookup_eq name hl, Scopes.moduleName_eq hl⟩

/-- The scope that is remembered for a type. -/
structure ClassScope (s : State) (t : TypeId) (k : ScopeId) : Prop where
  lt : k < s.scopes.arena.length
  singleton : Singleton s t
  main : ∀ d, s.types.get? t = some d → d.IsMain → k = Scopes.top
  source : ∀ d, s.types.get? t = some d → ¬d.IsMain →
    ∃ c, s.scopes.get? k = some c ∧ c.source = some t

theorem Sound.classScope_of (hs : Sound s) {t : TypeId} {k : ScopeId}
    (hk : s.scopes.ofType? t = some k) : ClassScope s t k := by
  obtain ⟨d, c, hd, hkind, hc, hmain, hsource⟩ := hs.classScope hk
  refine ⟨Scopes.lt_length_of_get? hc, ⟨d, hd, hkind⟩, fun d' hd' => ?_, fun d' hd' hne => ?_⟩
  · rw [hd] at hd'; cases hd'
    exact hmain
  · rw [hd] at hd'; cases hd'
    exact ⟨c, hc, hsource hne⟩

section

variable (rounds : ℕ) {types : Registry} (host : Host) (settings : Settings)

theorem parentless_of_mem_states (hclosed : types.Closed) {sort : Kind → String → Prop}
    (hsort : types.Parentless sort) (hs : s ∈ states rounds types host settings) :
    s.types.Parentless sort := by
  rcases List.mem_cons.mp hs with rfl | hs
  · exact hsort
  · obtain ⟨v, hv, rfl⟩ := List.mem_map.mp hs
    have ho := history_compiled rounds host settings hclosed
    exact (ho.parentless sort hsort).of_persists (ho.kept v hv)

theorem rooted_of_mem_states (hclosed : types.Closed) (hrooted : types.Rooted)
    (hs : s ∈ states rounds types host settings) : s.types.Rooted :=
  Registry.rooted_iff.mpr
    (parentless_of_mem_states rounds host settings hclosed (Registry.rooted_iff.mp hrooted) hs)

/-- In every state of a compilation, every place that is named exists, the parents of every scope
lead to the top, and the scopes remembered for types are the ones in which classes and nodes were
evaluated. No place is ever missing, and no search through the scopes goes on forever. -/
theorem places_exist (hclosed : types.Closed) (hrooted : types.Rooted) :
    (∀ s ∈ states rounds types host settings, InRange s ∧
      (∀ k < s.scopes.arena.length, ∃ l, s.scopes.ReachesTop k l) ∧
      ∀ t k, s.scopes.ofType? t = some k → ClassScope s t k) ∧
    (compile rounds types host settings).1 ≠ .error .dangling ∧
    (compile rounds types host settings).1 ≠ .error .endless := by
  refine ⟨fun s hs => ?_, fun h => ?_, fun h => ?_⟩
  rotate_left
  · rcases fair_of_compile rounds host settings hclosed h with hfair | heq
    · exact hfair.ne_dangling rfl
    · cases heq
  · rcases fair_of_compile rounds host settings hclosed h with hfair | heq
    · obtain ⟨e, he⟩ := hfair.exists_error
        ((history_compiled rounds host settings hclosed).rooted hrooted)
      cases he
    · cases heq
  have hsound := sound_of_mem_states rounds host settings hclosed hs
  have hr := rooted_of_mem_states rounds host settings hclosed hrooted hs
  exact ⟨hsound.inRange, fun k hk => hsound.exists_reachesTop hr hk,
    fun t k hk => hsound.classScope_of hk⟩

end

/-- The class `b` inherits from `a`, which is entered and evaluated after the scope of `b` is
made. -/
def belowYounger : Registry where
  environment := "production"
  types := [
    { Descriptor.ofName .hostclass "a" with
      parameters := [("x", some (.literal (.str "from a")))] },
    { Descriptor.ofName .hostclass "b" with
      parent := some "a"
      body := some (.code (.declare "notify" (.var "x") [])) }]

/-- When the scope of `b` has been put below that of `a`, which is younger, it still leads to the
top. -/
theorem places_exist_belowYounger :
    ∃ s ∈ states 1 belowYounger ⟨"web01", [], ["b"]⟩ {},
      InRange s ∧ s.scopes.ReachesTop 1 [2, 0] ∧ ClassScope s 1 1 := by
  have hplaces := (places_exist 1 ⟨"web01", [], ["b"]⟩ {}
    (Registry.closed_of_unresolved (r := belowYounger) (by decide +kernel))
    (Registry.rooted_of_forall (by decide +kernel))).1
  have hstate : (states 1 belowYounger ⟨"web01", [], ["b"]⟩ {}).any (fun s =>
      s.scopes.arena.length = 3 && s.scopes.ancestors 1 = some [2, 0] &&
        s.scopes.ofType? 1 = some 1) = true := by decide +kernel
  obtain ⟨s, hs, hx⟩ := List.any_eq_true.mp hstate
  simp only [Bool.and_eq_true, decide_eq_true_eq] at hx
  obtain ⟨⟨hlen, hanc⟩, hclass⟩ := hx
  obtain ⟨hrange, htop, hscopes⟩ := hplaces s hs
  obtain ⟨l, hl⟩ := htop 1 (by omega)
  obtain rfl : l = [2, 0] := Option.some.inj (hl.ancestors.symm.trans hanc)
  exact ⟨s, hs, hrange, hl, hscopes 1 1 hclass⟩

end Compilation

end SiteCatalog
