import SiteCatalog.Compilation.Run

/-!
# What runs bring about

A contract says what has to hold of the history and the state that a run leaves behind, when it
succeeds and when it fails. `p.Meets C calls h s P` says that `p`, started in the state `s` at the
end of the history `h`, meets the contract `C` and that its result satisfies `P`. Everything about a
compilation is proved with the rules below, one for each way in which runs are put together.

Results:
* `Meets.bind`: a run followed by another.
* `Meets.follow`: a call.
* `Meets.imp`, `Meets.rebase`: another contract, and a longer history.
-/

namespace SiteCatalog.Compilation

/-- What has to hold of a history and its last state. -/
structure Contract where
  ok : List Visit → State → Prop
  failed : Failure → List Visit → State → Prop

/-- The contract of what a call runs, from the contract of the call: a moment is added when the
call ends. -/
def Contract.inside (C : Contract) (calls : List Call) (c : Call) (s : State) : Contract where
  ok h t := C.ok (h ++ [⟨.leave c s, calls, t⟩]) t
  failed f h t := C.failed f (h ++ [⟨.leave c s, calls, t⟩]) t

/-- A run that starts in the state `s` after the history `h` meets a contract, and its result and
its last state satisfy `P`. -/
def Run.Meets {α : Type} (p : Run α) (C : Contract) (calls : List Call) (h : List Visit) (s : State)
    (P : α → State → Prop) : Prop :=
  match p.run s with
  | (.ok a, t) => C.ok (h ++ p.visits calls s) t ∧ P a t
  | (.error f, t) => C.failed f (h ++ p.visits calls s) t

namespace Run.Meets

variable {α β : Type} {C D : Contract} {calls : List Call} {h : List Visit} {s : State}
  {p : Run α} {k : α → Run β} {P : α → State → Prop} {Q : β → State → Prop}

theorem pure {a : α} (hok : C.ok h s) (hP : P a s) :
    (Pure.pure a : Run α).Meets C calls h s P := by
  show C.ok (h ++ []) s ∧ P a s
  rw [List.append_nil]
  exact ⟨hok, hP⟩

theorem stop {f : Failure} (hf : C.failed f h s) :
    (Compilation.stop f : Run α).Meets C calls h s P := by
  show C.failed f (h ++ []) s
  rwa [List.append_nil]

/-- A run that meets a contract and is followed by one that meets another contract. -/
theorem bind_of (hp : p.Meets C calls h s P)
    (hk : ∀ a h' t, C.ok h' t → P a t → (k a).Meets D calls h' t Q)
    (hfail : ∀ f h' t, C.failed f h' t → D.failed f h' t) :
    (p >>= k).Meets D calls h s Q := by
  unfold Run.Meets at hp ⊢
  rw [run_bind, visits_bind]
  rcases hr : p.run s with ⟨_ | a, t⟩
  · rw [hr] at hp
    simpa using hfail _ _ _ hp
  · rw [hr] at hp
    have := hk a _ t hp.1 hp.2
    unfold Run.Meets at this
    simpa only [List.append_assoc] using this

theorem bind (hp : p.Meets C calls h s P)
    (hk : ∀ a h' t, C.ok h' t → P a t → (k a).Meets C calls h' t Q) :
    (p >>= k).Meets C calls h s Q :=
  hp.bind_of hk fun _ _ _ hf => hf

theorem get_bind {k : State → Run β} (hk : (k s).Meets C calls h s Q) :
    (get >>= k).Meets C calls h s Q :=
  hk

theorem update {f : State → State} (hok : C.ok (h ++ [⟨.change, calls, f s⟩]) (f s)) :
    (update f).Meets C calls h s fun _ t => t = f s :=
  ⟨hok, rfl⟩

theorem update_bind {f : State → State} {k : Unit → Run β}
    (hk : (k ()).Meets C calls (h ++ [⟨.change, calls, f s⟩]) (f s) Q) :
    (Compilation.update f >>= k).Meets C calls h s Q := by
  show (Run.change f (k ())).Meets C calls h s Q
  unfold Run.Meets at hk ⊢
  simpa only [Run.run, Run.visits, List.append_assoc, List.singleton_append] using hk

theorem ofExcept_bind {x : Except CompileError α}
    (hok : ∀ a, x = .ok a → (k a).Meets C calls h s Q)
    (herr : ∀ e, x = .error e → C.failed (.error e) h s) :
    (ofExcept x >>= k).Meets C calls h s Q := by
  cases x with
  | ok a => exact hok a rfl
  | error e => exact stop (herr e rfl)

/-- What is looked up is there, or the run ends. -/
theorem existing_bind {o : Option α} (hnone : C.failed .dangling h s)
    (hk : ∀ a, o = some a → (k a).Meets C calls h s Q) : (existing o >>= k).Meets C calls h s Q := by
  cases o with
  | none => exact stop hnone
  | some a => exact hk a rfl

/-- A search through the scopes ends, or the run never does. -/
theorem searched_bind {o : Option α} (hnone : o = none → C.failed .endless h s)
    (hk : ∀ a, o = some a → (k a).Meets C calls h s Q) : (searched o >>= k).Meets C calls h s Q := by
  cases o with
  | none => exact stop (hnone rfl)
  | some a => exact hk a rfl

theorem typeAt_bind {t : TypeId} {d : Descriptor} {k : Descriptor → Run β}
    (hd : s.types.get? t = some d) (hk : (k d).Meets C calls h s Q) :
    (typeAt t >>= k).Meets C calls h s Q := by
  show (existing (s.types.get? t) >>= k).Meets C calls h s Q
  rwa [hd]

theorem scopeAt_bind {i : ScopeId} {c : Scope} {k : Scope → Run β}
    (hc : s.scopes.get? i = some c) (hk : (k c).Meets C calls h s Q) :
    (scopeAt i >>= k).Meets C calls h s Q := by
  show (existing (s.scopes.get? i) >>= k).Meets C calls h s Q
  rwa [hc]

theorem resourceAt_bind {id : ResourceId} {r : Resource} {k : Resource → Run β}
    (hr : s.catalog.get? id = some r) (hk : (k r).Meets C calls h s Q) :
    (resourceAt id >>= k).Meets C calls h s Q := by
  show (existing (s.catalog.get? id) >>= k).Meets C calls h s Q
  rwa [hr]

theorem addResource {r : Resource}
    (hok : (∀ id r', s.catalog.get? id = some r' → r'.identity ≠ r.identity) →
      C.ok (h ++ [⟨.change, calls, { s with catalog := s.catalog.append r }⟩])
        { s with catalog := s.catalog.append r })
    (herr : ∀ e, s.catalog.add r = .error e → C.failed (.error e) h s) :
    (addResource r).Meets C calls h s fun id t =>
      id = s.catalog.resources.length ∧ t = { s with catalog := s.catalog.append r } := by
  refine get_bind (ofExcept_bind (fun x hx => ?_) herr)
  obtain ⟨rfl, hnew⟩ := Catalog.add_eq_ok hx
  refine .bind (.update (hok hnew)) ?_
  rintro - h' t hok' rfl
  exact .pure hok' ⟨rfl, rfl⟩

theorem newScope {c : Scope}
    (hok : C.ok (h ++ [⟨.change, calls, { s with scopes := (s.scopes.push c).2 }⟩])
      { s with scopes := (s.scopes.push c).2 }) :
    (newScope c).Meets C calls h s fun k t =>
      k = s.scopes.arena.length ∧ t = { s with scopes := (s.scopes.push c).2 } :=
  get_bind (update_bind (.pure hok ⟨rfl, rfl⟩))

theorem follow {c : Call} (hp : p.Meets (C.inside calls c s) (c :: calls)
      (h ++ [⟨.enter c, calls, s⟩]) s P) : (follow c p).Meets C calls h s P := by
  unfold Run.Meets at hp ⊢
  rw [run_follow, visits_follow]
  rcases hr : p.run s with ⟨_ | a, t⟩
  · rw [hr] at hp
    simpa [Contract.inside] using hp
  · rw [hr] at hp
    simpa [Contract.inside] using hp

/-- A weaker contract and a weaker condition on the result. -/
theorem imp {P' : α → State → Prop} (hp : p.Meets C calls h s P)
    (hok : ∀ a h' t, C.ok h' t → P a t → D.ok h' t ∧ P' a t)
    (hfail : ∀ f h' t, C.failed f h' t → D.failed f h' t) : p.Meets D calls h s P' := by
  unfold Run.Meets at hp ⊢
  split at hp
  · exact hok _ _ _ hp.1 hp.2
  · exact hfail _ _ _ hp

theorem mono {P' : α → State → Prop} (hp : p.Meets C calls h s P)
    (hP : ∀ a t, P a t → P' a t) : p.Meets C calls h s P' :=
  hp.imp (fun a _ t hok ha => ⟨hok, hP a t ha⟩) fun _ _ _ hf => hf

/-- What a run gives is known afterwards. -/
theorem noted (hp : p.Meets C calls h s P) :
    p.Meets { C with failed f h t := C.failed f h t ∧ p.run s = (.error f, t) } calls h s
      fun a t => P a t ∧ p.run s = (.ok a, t) := by
  unfold Run.Meets at hp ⊢
  split at hp
  · next a t hr => exact ⟨hp.1, hp.2, hr⟩
  · next f t hr => exact ⟨hp, hr⟩

/-- A run that meets a contract at the beginning of a history meets another one later on, if the
first one leads to the second. -/
theorem rebase {P' : α → State → Prop} (hp : p.Meets C calls [] s P)
    (hok : ∀ a h' t, C.ok h' t → P a t → D.ok (h ++ h') t ∧ P' a t)
    (hfail : ∀ f h' t, C.failed f h' t → D.failed f (h ++ h') t) :
    p.Meets D calls h s P' := by
  unfold Run.Meets at hp ⊢
  split at hp
  · exact hok _ _ _ hp.1 hp.2
  · exact hfail _ _ _ hp

end Run.Meets

end SiteCatalog.Compilation
