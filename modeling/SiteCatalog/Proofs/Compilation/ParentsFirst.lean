import SiteCatalog.Proofs.Compilation.Phases

/-!
# Parents before children

When the body of a class or node begins to run, its parents have been evaluated up to their bodies,
and it sees the variables of the nearest one, unless one of the parents is pending: its code has
been entered and its body has not. That happens when a parent of the parent, or a default of one of
its parameters, includes the child.

Results:
* `Placed.parentsFirst_iff`: in a single state.
* `body_after_parents`: at every point of a compilation.
* `not_body_after_parents`: a site in which a body runs before the one of its parent.
-/

namespace SiteCatalog.Compilation

/-- After the history `h`, a body runs in a scope after the bodies of the parents of its type,
nearest first, and sees what the nearest one binds. The scope of a parent is remembered when its
parameters have been bound, right before its body begins. -/
structure ParentsFirst (h : List Visit) (s : State) (k : ScopeId) (chain : List TypeId) : Prop where
  recorded : ∀ p ∈ chain, (s.scopes.ofType? p).isSome
  begun : ∀ p ∈ chain, p ∈ begun h
  below : ∀ p ∈ chain.head?, s.scopes.parent? k = s.scopes.ofType? p
  seen : ∀ p ∈ chain.head?, ∀ above, s.scopes.ofType? p = some above → ∀ name v,
    s.scopes.lookupLocal k name = none → s.scopes.lookupLocal above name = some v →
    s.scopes.lookup k name = some (some v)

theorem Placed.parentsFirst_iff {calls : List Call} {h : List Visit} {s : State} {t : TypeId}
    {k : ScopeId} (hplaced : Placed calls s t k) (ht : Singleton s t)
    (hbegun : ∀ p ≠ t, (s.scopes.ofType? p).isSome → p ∈ begun h) :
    ∃ chain, s.types.Ancestry t chain ∧
      (ParentsFirst h s k chain ↔ ∀ p ∈ chain, ¬Pending calls p) := by
  obtain ⟨chain, hchain, hpending, hhead⟩ := hplaced ht
  refine ⟨chain, hchain, fun hf p hp hpend => ?_, fun hnone => ?_⟩
  · have := hf.recorded p hp
    rw [(hpending p hp).mpr hpend] at this
    cases this
  · have hrec : ∀ p ∈ chain, ∃ above, s.scopes.ofType? p = some above := fun p hp =>
      Option.ne_none_iff_exists'.mp fun heq => hnone p hp ((hpending p hp).mp heq)
    have hbelow : ∀ p ∈ chain.head?, s.scopes.parent? k = s.scopes.ofType? p := by
      intro p hp
      obtain ⟨above, habove⟩ := hrec p (List.mem_of_mem_head? hp)
      rw [hhead p hp above habove, habove]
    have hsome : ∀ p ∈ chain, (s.scopes.ofType? p).isSome := fun p hp =>
      Option.isSome_iff_exists.mpr (hrec p hp)
    refine ⟨hsome, fun p hp => hbegun p ?_ (hsome p hp), hbelow, ?_⟩
    · -- a type is not among its own parents
      rintro rfl
      exact (List.nodup_cons.mp hchain.nodup).1 hp
    · intro p hp above habove name v hk hv
      exact Scopes.lookup_of_parent ((hbelow p hp).trans habove) hk hv

/-- Whenever the body of a class or node begins to run, its parents are known, and they come first
if and only if none of them is pending. -/
theorem body_after_parents (rounds : ℕ) {types : Registry} (host : Host) (settings : Settings)
    (hclosed : types.Closed) {h h' : List Visit} {v : Visit}
    (hv : history rounds types host settings = h ++ v :: h') {c : TypeId} {id : ResourceId}
    {k : ScopeId} (hbody : v.event = .enter (.body c id k)) (hc : Singleton v.state c) :
    ∃ chain, v.state.types.Ancestry c chain ∧
      (ParentsFirst h v.state k chain ↔ ∀ p ∈ chain, ¬Pending v.inside p) := by
  have ho := history_compiled rounds host settings hclosed
  have hlaw := ho.visits v (by simp [hv])
  refine (hlaw.placed c id k hbody).parentsFirst_iff hc fun p hne hp => ?_
  -- at the beginning no scope is remembered
  exact (ho.earlier h v h' hv c id k hbody p hne hp).resolve_left Bool.false_ne_true

/-! ## A child inside its grandparent -/

/-- The class `c` inherits from `b`, which inherits from `a`, which includes `c`. -/
def crossed : Registry where
  environment := "production"
  types := [
    { Descriptor.ofName .hostclass "a" with body := some (.code (.includes ["c"])) },
    { Descriptor.ofName .hostclass "b" with
      parent := some "a"
      parameters := [("x", some (.literal (.str "from b")))] },
    { Descriptor.ofName .hostclass "c" with
      parent := some "b"
      body := some (.code (.declare "notify" (.var "x") [])) }]

/-- A host to which the middle class of the crossed site is assigned. -/
def crossedHost : Host where
  given := "web01"
  classes := ["b"]

/-- In the crossed site the body of `b` runs after that of its parent `a`. -/
theorem body_after_parents_crossed :
    ∃ h v h', history 1 crossed crossedHost {} = h ++ v :: h' ∧
      ∃ id k, v.event = .enter (.body 1 id k) ∧ v.state.types.Ancestry 1 [0] ∧
        ParentsFirst h v.state k [0] := by
  have hvisit : (history 1 crossed crossedHost {}).any (fun v =>
      v.event.entered?.bind Call.body? = some 1 && (v.state.types.get? 1).any (·.kind ≠ .define) &&
      v.state.types.parent? 1 = some 0 && v.state.types.parent? 0 = none &&
      ¬Pending v.inside 0) = true := by decide +kernel
  obtain ⟨v, hv, hx⟩ := List.any_eq_true.mp hvisit
  simp only [Bool.and_eq_true, decide_eq_true_eq] at hx
  obtain ⟨⟨⟨⟨hbody, hkind⟩, hparent⟩, hlast⟩, hpend⟩ := hx
  obtain ⟨id, k, hbody⟩ := Event.exists_of_body hbody
  obtain ⟨d, hd, hk⟩ := (Option.any_eq_true ..).mp hkind
  obtain ⟨h, h', hv⟩ := List.append_of_mem hv
  obtain ⟨chain, hchain, hiff⟩ := body_after_parents 1 crossedHost {}
    (Registry.closed_of_unresolved (by decide +kernel)) hv hbody ⟨d, hd, of_decide_eq_true hk⟩
  obtain rfl : chain = [0] := hchain.leads.unique (.link hparent (.last hlast))
  refine ⟨h, v, h', hv, id, k, hbody, hchain, hiff.mpr fun p hp => ?_⟩
  exact List.mem_singleton.mp hp ▸ hpend

/-- The parents do not always come first: the body of `c` begins to run while `b` is pending. -/
theorem not_body_after_parents :
    ¬∀ h v h', history 1 crossed crossedHost {} = h ++ v :: h' → ∀ c id k,
      v.event = .enter (.body c id k) → Singleton v.state c →
      ∀ chain, v.state.types.Ancestry c chain → ParentsFirst h v.state k chain := by
  intro hall
  have hvisit : (history 1 crossed crossedHost {}).any (fun v =>
      v.event.entered?.bind Call.body? = some 2 && (v.state.types.get? 2).any (·.kind ≠ .define) &&
      v.state.types.parent? 2 = some 1 &&
      v.state.types.parent? 1 = some 0 && v.state.types.parent? 0 = none &&
      (v.state.scopes.ofType? 1).isNone) = true := by decide +kernel
  obtain ⟨v, hv, hx⟩ := List.any_eq_true.mp hvisit
  simp only [Bool.and_eq_true, decide_eq_true_eq] at hx
  obtain ⟨⟨⟨⟨⟨hbody, hkind⟩, hparent⟩, hnext⟩, hlast⟩, hnone⟩ := hx
  obtain ⟨id, k, hbody⟩ := Event.exists_of_body hbody
  obtain ⟨d, hd, hk⟩ := (Option.any_eq_true ..).mp hkind
  have hc : Singleton v.state 2 := ⟨d, hd, of_decide_eq_true hk⟩
  have hlaw := (history_compiled 1 crossedHost {}
    (Registry.closed_of_unresolved (r := crossed) (by decide +kernel))).visits v hv
  obtain ⟨chain, hchain, -⟩ := hlaw.placed 2 id k hbody hc
  obtain rfl : chain = [1, 0] :=
    hchain.leads.unique (.link hparent (.link hnext (.last hlast)))
  obtain ⟨h, h', hv⟩ := List.append_of_mem hv
  have := (hall h v h' hv 2 id k hbody hc _ hchain).recorded 1 (by simp)
  rw [Option.isNone_iff_eq_none.mp hnone] at this
  cases this

end SiteCatalog.Compilation
