import SiteCatalog.Proofs.Compilation.Phases

/-!
# Operations only add

Once the parameters of the unnamed class have been bound, an operation takes nothing back, whether
it succeeds or fails. Before that the top may still change: the parameters of the unnamed class are
bound over the facts.

Results:
* `Step.grows`: a run that begins after that is growth.
* `operation_grows`: every operation of a compilation that begins after that.
-/

namespace SiteCatalog.Compilation

/-- The parameters of the unnamed class have been bound: its scope is remembered. -/
def MainBound (s : State) : Prop :=
  ∃ t d, s.types.get? t = some d ∧ d.IsMain ∧ (s.scopes.ofType? t).isSome

/-- What there was in a state is still there in another one, and at its place. -/
structure Grows (s t : State) : Prop where
  /-- The types are the same except that more parents may be known. -/
  types : s.types.Extends t.types
  resources : ∀ id r, s.catalog.get? id = some r →
    ∃ r', t.catalog.get? id = some r' ∧ r.Grows r'
  bindings : ∀ k name v, s.scopes.lookupLocal k name = some v →
    t.scopes.lookupLocal k name = some v
  parents : ∀ k p, s.scopes.parent? k = some p → t.scopes.parent? k = some p
  classScopes : ∀ ty k, s.scopes.ofType? ty = some k → t.scopes.ofType? ty = some k
  tags : s.catalog.tags <+: t.catalog.tags
  classes : s.catalog.classes <+: t.catalog.classes

variable {scope : ScopeId} {s t : State}

theorem Sound.mainStarted (hs : Sound s) (hm : MainBound s) : MainStarted s := by
  obtain ⟨ty, d, hd, hmain, hk⟩ := hm
  obtain ⟨k, hk⟩ := Option.isSome_iff_exists.mp hk
  exact ⟨ty, d, hd, hmain, hs.classEvaluated ty k hk⟩

theorem Step.grows (h : Step scope s t) (hs : Sound s) (hm : MainBound s) : Grows s t := by
  have hkeeps : ∀ k c, s.scopes.get? k = some c →
      ∃ c', t.scopes.get? k = some c' ∧ c.Keeps c' := by
    intro k c hc
    obtain ⟨c', hc', -, hk⟩ := h.scopes k c hc
    exact ⟨c', hc', hk not_false fun _ => hs.mainStarted hm⟩
  constructor
  case types => exact h.types
  case resources => exact h.resources
  case bindings =>
    intro k name v hv
    obtain ⟨c, hc, hv⟩ := Option.bind_eq_some_iff.mp hv
    obtain ⟨c', hc', hk⟩ := hkeeps k c hc
    exact Option.bind_eq_some_iff.mpr ⟨c', hc', hk.vars name v hv⟩
  case parents =>
    intro k p hp
    obtain ⟨c, hc, hp⟩ := Option.bind_eq_some_iff.mp hp
    obtain ⟨c', hc', hk⟩ := hkeeps k c hc
    exact Option.bind_eq_some_iff.mpr ⟨c', hc', hk.parent.trans hp⟩
  case classScopes =>
    intro ty k hk
    rw [h.ofType ty (hs.classEvaluated ty k hk), hk]
  case tags => exact h.tags
  case classes => exact h.classes

/-- An operation that begins after the parameters of the unnamed class have been bound only adds to
the state, whether it succeeds or fails. -/
theorem operation_grows (rounds : ℕ) {types : Registry} (host : Host) (settings : Settings)
    (hclosed : types.Closed) {v : Visit} (hv : v ∈ history rounds types host settings) {c : Call}
    {before : State} (hleave : v.event = .leave c before) (hc : c.IsOperation)
    (hm : MainBound before) : Grows before v.state := by
  have hlaw := (history_compiled rounds host settings hclosed).visits v hv
  obtain ⟨hs, scope, hstep⟩ := hlaw.grows c before hleave hc
  exact hstep.grows hs hm

/-- A class that binds a variable and then includes a class that does not exist. -/
def refused : Registry where
  environment := "production"
  types := [
    { Descriptor.ofName .hostclass "" with body := some (.code (.includes ["a"])) },
    { Descriptor.ofName .hostclass "a" with
      body := some (.code (.block [.assign "x" (.literal (.str "v")), .includes ["missing"]])) }]

/-- The inclusion that fails leaves a resource behind and takes nothing back. -/
theorem operation_grows_refused :
    ∃ v ∈ history 1 refused ⟨"web01", [], []⟩ {}, ∃ c before, v.event = .leave c before ∧
      before.catalog.resources.length < v.state.catalog.resources.length ∧
      Grows before v.state := by
  have hvisit : (history 1 refused ⟨"web01", [], []⟩ {}).any (fun v => match v.event with
      | .leave (.includeClass ..) before =>
        before.catalog.resources.length < v.state.catalog.resources.length &&
          (before.types.get? 0).any (·.IsMain) && (before.scopes.ofType? 0).isSome
      | _ => false) = true := by decide +kernel
  obtain ⟨v, hv, hx⟩ := List.any_eq_true.mp hvisit
  split at hx
  · next before hleave =>
    simp only [Bool.and_eq_true, decide_eq_true_eq] at hx
    obtain ⟨⟨hmore, hmain⟩, hbound⟩ := hx
    obtain ⟨d, hd, hmain⟩ := (Option.any_eq_true ..).mp hmain
    exact ⟨v, hv, _, before, hleave, hmore, operation_grows 1 ⟨"web01", [], []⟩ {}
      (Registry.closed_of_unresolved (by decide +kernel)) hv hleave trivial
      ⟨0, d, hd, of_decide_eq_true hmain, hbound⟩⟩
  · cases hx

end SiteCatalog.Compilation
