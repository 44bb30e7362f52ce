import SiteCatalog.Proofs.Compilation.Renaming

/-!
# Comparing two compilations

Two compilations over corresponding registries, of which the second may be less strict about unbound
variables, take the same steps. `C.Mirrors p q V` says that from corresponding states the run `q`
does what the run `p` does: it ends with a result that `V` relates to that of `p`, in a corresponding
state, or it fails for the same reason. Only the errors that a strict compilation raises in addition
are waived.

Results:
* `Mirrors.bind`, `Mirrors.follow`, `Mirrors.update`: one rule for each way of putting runs together.
* `Mirrors.typeAt`, `Mirrors.addResource`, `Mirrors.assign`: the single steps.
-/

namespace SiteCatalog.Compilation

/-- The same state, with its types where `σ` sends them; what linked bodies noted does not count. -/
structure State.Corresponds (σ : Equiv.Perm ℕ) (s s' : State) : Prop where
  types : s.types.Corresponds σ s'.types
  scopes : s'.scopes = s.scopes.rename σ
  catalog : s'.catalog = s.catalog.rename σ

/-- What two compilations have to do with each other. -/
structure Comparison where
  /-- Where the types of the first are in the second. -/
  σ : Equiv.Perm ℕ
  strict : Bool
  strict' : Bool
  le : strict' = true → strict = true

namespace Comparison

/-- The failures of the first compilation that the second one does not have to share. -/
def Waives (C : Comparison) (f : Failure) : Prop :=
  C.strict = true ∧ C.strict' = false ∧ ∃ name, f = .error (.unknownVariable name)

variable {α β : Type} {C : Comparison}

/-- From corresponding states, `q` does what `p` does, and `V` relates their results. -/
def Mirrors (C : Comparison) (p : Run α) (q : Run β) (V : α → β → Prop) : Prop :=
  ∀ s s', s.Corresponds C.σ s' →
    match p.run s with
    | (.ok a, t) => ∃ b t', q.run s' = (.ok b, t') ∧ t.Corresponds C.σ t' ∧ V a b
    | (.error f, _) => C.Waives f ∨ ∃ t', q.run s' = (.error f, t')

namespace Mirrors

/-! ## Putting runs together -/

variable {γ δ : Type} {p : Run α} {q : Run β} {V : α → β → Prop} {k : α → Run γ} {k' : β → Run δ}
  {W : γ → δ → Prop}

theorem pure {a : α} {b : β} (h : V a b) : C.Mirrors (Pure.pure a) (Pure.pure b) V :=
  fun _ s' hs => ⟨b, s', rfl, hs, h⟩

theorem stop (f : Failure) : C.Mirrors (Compilation.stop f) (Compilation.stop f) V :=
  fun _ s' _ => .inr ⟨s', rfl⟩

theorem waive {f : Failure} (h : C.Waives f) : C.Mirrors (Compilation.stop f) q V :=
  fun _ _ _ => .inl h

theorem bind (hp : C.Mirrors p q V) (hk : ∀ a b, V a b → C.Mirrors (k a) (k' b) W) :
    C.Mirrors (p >>= k) (q >>= k') W := by
  intro s s' hs
  have hfirst := hp s s' hs
  rw [Run.run_bind, Run.run_bind]
  rcases hrun : p.run s with ⟨_ | a, t⟩
  · rw [hrun] at hfirst
    refine hfirst.imp_right ?_
    rintro ⟨t', hrun'⟩
    exact ⟨t', by rw [hrun']⟩
  · rw [hrun] at hfirst
    obtain ⟨b, t', hrun', ht, hV⟩ := hfirst
    simp only [hrun']
    exact hk a b hV t t' ht

theorem get_bind {k : State → Run γ} {k' : State → Run δ}
    (hk : ∀ s s', s.Corresponds C.σ s' → C.Mirrors (k s) (k' s') W) :
    C.Mirrors (get >>= k) (get >>= k') W :=
  fun s s' hs => hk s s' hs s s' hs

theorem update {f f' : State → State}
    (h : ∀ s s', s.Corresponds C.σ s' → (f s).Corresponds C.σ (f' s')) :
    C.Mirrors (Compilation.update f) (Compilation.update f') fun _ _ => True :=
  fun s s' hs => ⟨(), f' s', rfl, h s s' hs, trivial⟩

theorem follow {c c' : Call} (hp : C.Mirrors p q V) :
    C.Mirrors (Compilation.follow c p) (Compilation.follow c' q) V := by
  intro s s' hs
  rw [run_follow, run_follow]
  exact hp s s' hs

/-- Only what the second run does counts, not how it is written. -/
theorem of_run_eq {q' : Run β} (hp : C.Mirrors p q V) (h : ∀ s, q'.run s = q.run s) :
    C.Mirrors p q' V := by
  intro s s' hs
  rw [h]
  exact hp s s' hs

/-! ## Single steps -/

theorem existing {o : Option α} {o' : Option β} (h : Option.Rel V o o') :
    C.Mirrors (Compilation.existing o) (Compilation.existing o') V := by
  cases h with
  | none => exact .stop _
  | some hV => exact .pure hV

theorem searched {o o' : Option α} (h : o' = o) :
    C.Mirrors (Compilation.searched o) (Compilation.searched o') Eq := by
  subst h
  cases o' with
  | none => exact .stop _
  | some a => exact .pure rfl

theorem typeAt (t : TypeId) :
    C.Mirrors (Compilation.typeAt t) (Compilation.typeAt (C.σ t)) (Descriptor.Corresponds C.σ) :=
  .get_bind fun _ _ hs => .existing (hs.types.entry t)

theorem existing_map {f : α → β} (o : Option α) :
    C.Mirrors (Compilation.existing o) (Compilation.existing (o.map f)) fun a b => b = f a := by
  cases o with
  | none => exact .stop _
  | some a => exact .pure rfl

theorem scopeAt (i : ScopeId) :
    C.Mirrors (Compilation.scopeAt i) (Compilation.scopeAt i) fun c c' => c' = c.rename C.σ :=
  .get_bind fun _ _ hs => by
    rw [hs.scopes, Scopes.get?_rename]
    exact .existing_map _

theorem resourceAt (id : ResourceId) :
    C.Mirrors (Compilation.resourceAt id) (Compilation.resourceAt id)
      fun r r' => r' = r.rename C.σ :=
  .get_bind fun _ _ hs => by
    rw [hs.catalog, Catalog.get?_rename]
    exact .existing_map _

theorem ofExcept {f : α → β} {x : Except CompileError α} {x' : Except CompileError β}
    (h : x' = x.map f) :
    C.Mirrors (Compilation.ofExcept x) (Compilation.ofExcept x') fun a b => b = f a := by
  subst h
  cases x with
  | ok a => exact .pure rfl
  | error e => exact .stop _

theorem modifyScopes {f f' : Scopes → Scopes} (h : ∀ s, (f s).rename C.σ = f' (s.rename C.σ)) :
    C.Mirrors (Compilation.modifyScopes f) (Compilation.modifyScopes f') fun _ _ => True :=
  .update fun s s' hs => ⟨hs.types, by rw [hs.scopes, ← h], hs.catalog⟩

theorem modifyCatalog {f f' : Catalog → Catalog} (h : ∀ c, (f c).rename C.σ = f' (c.rename C.σ)) :
    C.Mirrors (Compilation.modifyCatalog f) (Compilation.modifyCatalog f') fun _ _ => True :=
  .update fun s s' hs => ⟨hs.types, hs.scopes, by rw [hs.catalog, ← h]⟩

theorem newScope (c : Scope) :
    C.Mirrors (Compilation.newScope c) (Compilation.newScope (c.rename C.σ)) Eq := by
  refine .get_bind fun s s' hs => .bind (.modifyScopes fun _ => ?_) fun _ _ _ => .pure ?_
  · rw [hs.scopes]
    exact s.scopes.push_rename c
  · rw [hs.scopes]
    exact (Scopes.length_rename _).symm

theorem addResource (r : Resource) :
    C.Mirrors (Compilation.addResource r) (Compilation.addResource (r.rename C.σ)) Eq := by
  refine .get_bind fun s s' hs =>
    .bind (.ofExcept (f := fun x => (x.1, x.2.rename C.σ)) ?_) ?_
  · rw [hs.catalog, Catalog.add_rename]
  · rintro ⟨id, c⟩ _ rfl
    exact .bind (.modifyCatalog fun _ => rfl) fun _ _ _ => .pure rfl

theorem bindVariable (scope : ScopeId) (name : String) (value : Value) :
    C.Mirrors (Compilation.bind scope name value) (Compilation.bind scope name value)
      fun _ _ => True :=
  .bind (.scopeAt scope) fun _ _ _ => .modifyScopes fun s => s.bind_rename scope name value

theorem assign (scope : ScopeId) (name : String) (value : Value) :
    C.Mirrors (Compilation.assign scope name value) (Compilation.assign scope name value)
      fun _ _ => True := by
  refine .bind (.scopeAt scope) fun _ _ _ => .get_bind fun s s' hs => ?_
  refine .bind (.ofExcept (f := Scopes.rename C.σ) ?_) ?_
  · rw [hs.scopes, Scopes.assign, Scopes.assign, Scopes.lookupLocal_rename]
    split
    · rfl
    · exact congrArg Except.ok (s.scopes.bind_rename scope name value).symm
  · rintro scopes _ rfl
    exact .modifyScopes fun _ => rfl

end Mirrors

end Comparison

end SiteCatalog.Compilation
