import SiteCatalog.Compilation.Run

/-!
# Two runs side by side

`p.Alongside q s s' Q` says that the run `q` from the state `s'` does what the run `p` does from the
state `s`: both end with a result, and `Q` relates the results and the last states, or both fail for
the same reason. Nothing is said about the states after a failure.

Results:
* `Alongside.bind`, `Alongside.update`, `Alongside.follow`: one rule for each way of putting runs
  together.
* `Alongside.bind_left`, `Alongside.bind_right`: a step that only one of the runs takes.
-/

namespace SiteCatalog.Compilation.Run

variable {α β γ δ : Type}

/-- From the states `s` and `s'` the runs end with results and states that `Q` relates, or they fail
for the same reason. -/
def Alongside (p : Run α) (q : Run β) (s s' : State) (Q : α → β → State → State → Prop) : Prop :=
  match p.run s with
  | (.ok a, t) => ∃ b t', q.run s' = (.ok b, t') ∧ Q a b t t'
  | (.error f, _) => ∃ t', q.run s' = (.error f, t')

namespace Alongside

variable {s s' : State} {p : Run α} {q : Run β} {k : α → Run γ} {k' : β → Run δ}
  {P P' : α → β → State → State → Prop} {Q : γ → δ → State → State → Prop}

theorem pure {a : α} {b : β} (h : P a b s s') :
    (Pure.pure a : Run α).Alongside (Pure.pure b) s s' P :=
  ⟨b, s', rfl, h⟩

theorem stop (f : Failure) : (Compilation.stop f : Run α).Alongside
    (Compilation.stop f : Run β) s s' P :=
  ⟨s', rfl⟩

theorem bind (hp : p.Alongside q s s' P)
    (hk : ∀ a b t t', P a b t t' → (k a).Alongside (k' b) t t' Q) :
    (p >>= k).Alongside (q >>= k') s s' Q := by
  unfold Alongside at hp ⊢
  rw [run_bind, run_bind]
  rcases hrun : p.run s with ⟨f | a, t⟩
  · rw [hrun] at hp
    obtain ⟨t', hrun'⟩ := hp
    exact ⟨t', by rw [hrun']⟩
  · rw [hrun] at hp
    obtain ⟨b, t', hrun', h⟩ := hp
    rw [hrun']
    exact hk a b t t' h

theorem get_bind {k : State → Run γ} {k' : State → Run δ}
    (h : (k s).Alongside (k' s') s s' Q) : (get >>= k).Alongside (get >>= k') s s' Q :=
  h

theorem update {f f' : State → State} {P : Unit → Unit → State → State → Prop}
    (h : P () () (f s) (f' s')) :
    (Compilation.update f).Alongside (Compilation.update f') s s' P :=
  ⟨(), f' s', rfl, h⟩

theorem follow {c c' : Call} (hp : p.Alongside q s s' P) :
    (Compilation.follow c p).Alongside (Compilation.follow c' q) s s' P := by
  unfold Alongside at hp ⊢
  rwa [run_follow, run_follow]

/-- The first run takes a step that succeeds. -/
theorem bind_left {a : α} {t : State} {q : Run δ} (hrun : p.run s = (.ok a, t))
    (h : (k a).Alongside q t s' Q) : (p >>= k).Alongside q s s' Q := by
  unfold Alongside at h ⊢
  rwa [run_bind, hrun]

/-- The second run takes a step that succeeds. -/
theorem bind_right {b : β} {t' : State} {p : Run γ} (hrun : q.run s' = (.ok b, t'))
    (h : p.Alongside (k' b) s t' Q) : p.Alongside (q >>= k') s s' Q := by
  unfold Alongside at h ⊢
  rwa [run_bind, hrun]

theorem mono (hp : p.Alongside q s s' P) (h : ∀ a b t t', P a b t t' → P' a b t t') :
    p.Alongside q s s' P' := by
  unfold Alongside at hp ⊢
  split at hp
  · obtain ⟨b, t', hrun', hP⟩ := hp
    exact ⟨b, t', hrun', h _ _ _ _ hP⟩
  · exact hp

theorem existing_bind {V : α → β → Prop} {o : Option α} {o' : Option β} (h : Option.Rel V o o')
    (hk : ∀ a b, o = some a → o' = some b → V a b → (k a).Alongside (k' b) s s' Q) :
    (Compilation.existing o >>= k).Alongside (Compilation.existing o' >>= k') s s' Q := by
  cases h with
  | none => exact stop _
  | some hV => exact hk _ _ rfl rfl hV

/-- A search that comes to the same in both runs, or never ends in both. -/
theorem searched_bind {o : Option α} {k : α → Run γ} {k' : α → Run δ}
    (hk : ∀ a, (k a).Alongside (k' a) s s' Q) :
    (searched o >>= k).Alongside (searched o >>= k') s s' Q := by
  cases o with
  | none => exact stop _
  | some a => exact hk a

end Alongside

end SiteCatalog.Compilation.Run
