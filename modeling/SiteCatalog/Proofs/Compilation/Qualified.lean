import SiteCatalog.Proofs.Compilation.Facts
import SiteCatalog.Proofs.Compilation.Hanging

/-!
# Variables of classes

A variable whose name is qualified by that of a class is looked up from the scope of the class
upwards. That scope hangs below the scope of the class's parent, or else below the one in which the
class was included first. So what is found is bound in the scope of the class or of one of its
parents, or it is what the variable means where one of them was included first: in the scope of a
class that includes others, these find its variables for their own.

Results:
* `Sound.home_or_above`: what the scope of a class hangs below.
* `lookup_eq_some_iff`: what a variable is in the scope of a class.
* `qualified_lookup`: what a qualified variable is, in every state of a compilation.
-/

namespace SiteCatalog.Compilation

variable {s : State} {t u : TypeId} {k p : ScopeId} {x : String} {v : Value}

/-- The resource of a type was declared in a scope. For a class it is the scope in which the class,
or one that inherits from it, was included first. -/
def IsHome (s : State) (t : TypeId) (home : ScopeId) : Prop :=
  ∃ id r, s.catalog.get? id = some r ∧ r.source = some t ∧ r.scope = home

/-- The scope of a class or node hangs below its home or below the scope of its parent. -/
theorem Sound.home_or_above (hs : Sound s) (hung : Hung s) (hk : s.scopes.ofType? t = some k)
    (hp : s.scopes.parent? k = some p) : IsHome s t p ∨ IsAbove s t p := by
  obtain ⟨t', home, ⟨id, r, hr, hsrc, rfl, hplace⟩, hp⟩ := hung k p hp
  obtain ⟨d, c, hd, hkind, hc, hmain, hsource⟩ := hs.classScope hk
  obtain ⟨ctop, hctop, hnone⟩ := hs.top
  have htop : d.IsMain → ∀ c', s.scopes.get? k = some c' → c'.source = none := by
    intro hm c' hc'
    rw [hmain hm, hctop] at hc'
    exact Option.some.inj hc' ▸ hnone
  obtain rfl : t' = t := by
    rcases hplace with ⟨c', hc', hsrc'⟩ | ⟨rfl, htitle, d', hd', hclass⟩
    · have hm : ¬d.IsMain := fun hm => by cases (htop hm c' hc').symm.trans hsrc'
      cases hc.symm.trans hc'
      exact Option.some.inj (hsrc'.symm.trans (hsource hm))
    · have hm : d.IsMain := by
        by_contra hm
        cases hc.symm.trans hctop
        cases hnone.symm.trans (hsource hm)
      obtain ⟨j, r', hr', hsrc', -⟩ := hs.classEvaluated t Scopes.top hk
      exact hs.eq_of_title hr hsrc hd' hclass htitle hr' hsrc' hd hm
  exact hp.imp_left fun heq => ⟨id, r, hr, hsrc, heq.symm⟩

/-- From the scope of a type one comes to that of an ancestor through scopes that do not bind a
variable, each of which hangs below the scope of its type's parent. -/
inductive Inherits (s : State) (x : String) : TypeId → ScopeId → TypeId → ScopeId → Prop
  | refl {t : TypeId} {k : ScopeId} : Inherits s x t k t k
  | parent {t q u : TypeId} {k p k' : ScopeId} : s.scopes.lookupLocal k x = none →
    s.scopes.parent? k = some p → s.types.parent? t = some q → s.scopes.ofType? q = some p →
    Inherits s x q p u k' → Inherits s x t k u k'

/-- What a variable is in the scope of a class: what is bound there or in the scope of an ancestor,
or what the variable is in the home of one of these whose scope hangs there. -/
theorem lookup_eq_some_iff (hs : Sound s) (hung : Hung s) (hk : s.scopes.ofType? t = some k) :
    s.scopes.lookup k x = some (some v) ↔ ∃ u k', Inherits s x t k u k' ∧
      (s.scopes.lookupLocal k' x = some v ∨ s.scopes.lookupLocal k' x = none ∧
        ∃ home, IsHome s u home ∧ s.scopes.parent? k' = some home ∧
          s.scopes.lookup home x = some (some v)) := by
  rw [Scopes.lookup_eq_some_iff]
  constructor
  · intro hfinds
    induction hfinds generalizing t with
    | here hv => exact ⟨t, _, .refl, .inl hv⟩
    | above hnone hp hfinds ih =>
      rcases hs.home_or_above hung hk hp with hhome | ⟨q, hq, habove⟩
      · exact ⟨t, _, .refl,
          .inr ⟨hnone, _, hhome, hp, Scopes.lookup_eq_some_iff.mpr hfinds⟩⟩
      · obtain ⟨u, k', hinherits, hv⟩ := ih habove
        exact ⟨u, k', .parent hnone hp hq habove hinherits, hv⟩
  · rintro ⟨u, k', hinherits, hv⟩
    clear hk
    induction hinherits with
    | refl =>
      rcases hv with hv | ⟨hnone, home, -, hp, hv⟩
      · exact .here hv
      · exact .above hnone hp (Scopes.lookup_eq_some_iff.mp hv)
    | parent hnone hp _ _ _ ih => exact .above hnone hp (ih hv)

/-- The place of a qualified variable is the scope of the class before the last separator. -/
theorem Sound.variablePlace?_eq (hs : Sound s) {name type : String} {scope : ScopeId}
    (hname : Name.splitVariable? name = some (type, x))
    (htype : s.types.lookup .hostclass type = some t) (hk : s.scopes.ofType? t = some k) :
    variablePlace? s scope name = some (k, x) := by
  rw [variablePlace?, hname]
  dsimp only
  split
  · next hempty =>
    -- the scope of the unnamed class is the top
    obtain ⟨d, c, hd, -, -, hmain, -⟩ := hs.classScope hk
    obtain ⟨d', hd', hm⟩ := Registry.isMain_of_lookup (hempty ▸ htype)
    cases hd.symm.trans hd'
    rw [hmain hm]
  · rw [htype, Option.bind_some, hk]

theorem Sound.run_lookupVariable (hs : Sound s) {name type : String} {scope : ScopeId}
    {strict : Bool} (hname : Name.splitVariable? name = some (type, x))
    (htype : s.types.lookup .hostclass type = some t) (hk : s.scopes.ofType? t = some k) :
    (lookupVariable strict scope name).run s =
      (searchedValue strict name (s.scopes.lookup k x), s) := by
  obtain ⟨_, c, -, -, hc, -⟩ := hs.classScope hk
  rw [Compilation.run_lookupVariable, variableValue, hs.variablePlace?_eq hname htype hk]
  dsimp only
  rw [hc]

/-- A variable qualified by the name of a class is looked up in the scope of the class, if that has
one. It is what the nearest of the class and its ancestors binds it to, up to one whose scope hangs
below its home, and what it is in that home if none of them binds it. The search for it ends where
the unnamed class has no parent. -/
theorem qualified_lookup (rounds : ℕ) {types : Registry} (host : Host) (settings : Settings)
    (hclosed : types.Closed) (hs : s ∈ states rounds types host settings) {name type : String}
    (hname : Name.splitVariable? name = some (type, x))
    (htype : s.types.lookup .hostclass type = some t) (hk : s.scopes.ofType? t = some k)
    (strict : Bool) (scope : ScopeId) :
    (lookupVariable strict scope name).run s =
        (searchedValue strict name (s.scopes.lookup k x), s) ∧
      (∀ v, s.scopes.lookup k x = some (some v) ↔ ∃ u k', Inherits s x t k u k' ∧
        (s.scopes.lookupLocal k' x = some v ∨ s.scopes.lookupLocal k' x = none ∧
          ∃ home, IsHome s u home ∧ s.scopes.parent? k' = some home ∧
            s.scopes.lookup home x = some (some v))) ∧
      (types.Rooted → s.scopes.lookup k x ≠ none) := by
  have hsound := sound_of_mem_states rounds host settings hclosed hs
  refine ⟨hsound.run_lookupVariable hname htype hk,
    fun v => lookup_eq_some_iff hsound (hung_of_mem_states hclosed hs) hk, fun hrooted hnone => ?_⟩
  obtain ⟨e, he⟩ := (hsound.fair_of_lookup (hsound.lt_of_classScope hk) hnone).exists_error
    (rooted_of_mem_states rounds host settings hclosed hrooted hs)
  cases he

/-- A class binds a variable and includes another class, which does not. -/
def borrowing : Registry where
  environment := "production"
  types := [
    { Descriptor.ofName .hostclass "a" with
      body := some (.code (.block [.assign "x" (.literal (.str "from a")), .includes ["b"]])) },
    Descriptor.ofName .hostclass "b"]

/-- A host to which the class is assigned that includes the other one. -/
def borrowingHost : Host where
  given := "web01"
  classes := ["a"]

/-- In some state the included class finds the variable, though neither it nor the top binds it. -/
theorem exists_borrowed : ∃ s ∈ states 1 borrowing borrowingHost {}, ∃ k v,
    s.types.lookup .hostclass "b" = some 1 ∧ s.scopes.ofType? 1 = some k ∧
      s.types.parent? 1 = none ∧ s.scopes.lookup k "x" = some (some v) ∧
      s.scopes.lookupLocal k "x" = none ∧ s.scopes.lookupLocal Scopes.top "x" = none := by
  have hstate : (states 1 borrowing borrowingHost {}).any (fun s =>
      (s.scopes.ofType? 1).any fun k => s.types.lookup .hostclass "b" = some 1 &&
        (s.types.parent? 1).isNone && (s.scopes.lookup k "x").join.isSome &&
        (s.scopes.lookupLocal k "x").isNone && (s.scopes.lookupLocal Scopes.top "x").isNone) =
      true := by
    decide +kernel
  obtain ⟨s, hs, hx⟩ := List.any_eq_true.mp hstate
  obtain ⟨k, hk, hx⟩ := (Option.any_eq_true ..).mp hx
  simp only [Bool.and_eq_true, decide_eq_true_eq, Option.isNone_iff_eq_none] at hx
  obtain ⟨⟨⟨⟨hb, hparent⟩, hfound⟩, hlocal⟩, htop⟩ := hx
  obtain ⟨v, hv⟩ := Option.isSome_iff_exists.mp hfound
  exact ⟨s, hs, k, v, hb, hk, hparent, Option.join_eq_some_iff.mp hv, hlocal, htop⟩

/-- What the included class finds is what the variable is where the class was included. -/
theorem qualified_lookup_borrowing : ∃ s ∈ states 1 borrowing borrowingHost {}, ∃ k v,
    Name.splitVariable? "b::x" = some ("b", "x") ∧ s.types.lookup .hostclass "b" = some 1 ∧
      s.scopes.ofType? 1 = some k ∧ s.scopes.lookup k "x" = some (some v) ∧
      ∃ home, IsHome s 1 home ∧ s.scopes.parent? k = some home ∧
        s.scopes.lookup home "x" = some (some v) := by
  obtain ⟨s, hs, k, v, hb, hk, hparent, hv, hlocal, -⟩ := exists_borrowed
  have hname : Name.splitVariable? "b::x" = some ("b", "x") := by decide
  obtain ⟨-, hfound, -⟩ := qualified_lookup 1 borrowingHost {}
    (Registry.closed_of_unresolved (by decide +kernel)) hs hname hb hk false Scopes.top
  refine ⟨s, hs, k, v, hname, hb, hk, hv, ?_⟩
  obtain ⟨u, k', hinherits, hplace⟩ := (hfound v).mp hv
  cases hinherits with
  | refl =>
    rcases hplace with hbound | ⟨-, hhome⟩
    · cases hlocal.symm.trans hbound
    · exact hhome
  | parent _ _ hq => cases hparent.symm.trans hq

/-- A value is bound in the scope of a type, in that of an ancestor or at the top. -/
def BoundWithin (s : State) (t : TypeId) (x : String) (v : Value) : Prop :=
  ∃ place, s.scopes.lookupLocal place x = some v ∧ (place = Scopes.top ∨
    ∃ chain, s.types.Ancestry t chain ∧ ∃ u ∈ t :: chain, s.scopes.ofType? u = some place)

/-- Not every variable of a class is bound in its scope, in that of an ancestor or at the top. -/
theorem not_boundWithin : ¬∀ rounds types host settings, types.Closed →
    ∀ s ∈ states rounds types host settings, ∀ type t k x v scope,
      ¬Name.separator <:+: x.toList → s.types.lookup .hostclass type = some t →
        s.scopes.ofType? t = some k →
        (lookupVariable true scope (type ++ "::" ++ x)).run s = (.ok v, s) →
          BoundWithin s t x v := by
  intro hall
  obtain ⟨s, hs, k, v, hb, hk, hparent, hv, hlocal, htop⟩ := exists_borrowed
  have hclosed : borrowing.Closed := Registry.closed_of_unresolved (by decide +kernel)
  have hrun : (lookupVariable true Scopes.top ("b" ++ "::" ++ "x")).run s = _ :=
    (sound_of_mem_states 1 borrowingHost {} hclosed hs).run_lookupVariable
      (Name.splitVariable?_qualified (by decide) (by decide) "b") hb hk
  rw [hv] at hrun
  obtain ⟨place, hplace, rfl | ⟨chain, hchain, u, hu, hrecorded⟩⟩ := hall 1 borrowing borrowingHost
    {} hclosed s hs "b" 1 k "x" v Scopes.top (by decide) hb hk hrun
  · cases htop.symm.trans hplace
  · obtain rfl : chain = [] := hchain.leads.unique (.last hparent)
    obtain rfl := List.mem_singleton.mp hu
    cases hk.symm.trans hrecorded
    cases hlocal.symm.trans hplace

end SiteCatalog.Compilation
