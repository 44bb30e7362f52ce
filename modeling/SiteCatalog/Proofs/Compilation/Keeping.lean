import SiteCatalog.Proofs.Compilation.Contract

/-!
# What holds between calls

A condition on states may fail for a moment while a class is being entered and hold again whenever a
call begins or ends. `p.Keeps J I s P` says what happens to such a condition `I` in a run `p` that
starts in the state `s` and goes through states that are all known to satisfy `J`: it holds whenever
a call begins or ends, and when the run fails, and the result and the last state of the run satisfy
`P`. Nothing has to be assumed about the calls that are open.

Results:
* `last_of_visits`: what holds at every moment of a run holds in its last state.
* `Keeps.bind`, `Keeps.update`, `Keeps.follow`: one rule for each way of putting runs together.
* `Upholds`: a run that keeps a condition wherever it starts, with a rule for each way of putting runs
  together.
-/

namespace SiteCatalog.Compilation

namespace Run

variable {α β : Type}

theorem last_of_visits {J : State → Prop} (p : Run α) {calls : List Call} {s : State} (hs : J s)
    (hv : ∀ v ∈ p.visits calls s, J v.state) : J (p.run s).2 := by
  induction p generalizing s with
  | done r => exact hs
  | read next ih => exact ih s hs hv
  | change f next ih =>
    exact ih (hv ⟨.change, calls, f s⟩ (by simp [visits])) fun v hmem =>
      hv v (by simp [visits, hmem])
  | call c inside next _ ih =>
    have hleave : J (inside.run s).2 :=
      hv ⟨.leave c s, calls, (inside.run s).2⟩ (by simp [visits])
    rcases hrun : inside.run s with ⟨_ | b, t⟩
    · rw [hrun] at hleave
      simpa only [run, hrun] using hleave
    · rw [hrun] at hleave
      simp only [run, hrun]
      exact ih b hleave fun v hmem => hv v (by simp [visits, hrun, hmem])

/-- In a run from `s` through states that satisfy `J`, the condition `I` holds whenever a call
begins or ends and when the run fails, and `P` holds of its result and its last state. -/
def Keeps (p : Run α) (J I : State → Prop) (s : State) (P : α → State → Prop) : Prop :=
  ∀ calls, (∀ v ∈ p.visits calls s, J v.state) →
    (∀ v ∈ p.visits calls s, v.event ≠ .change → I v.state) ∧
    match p.run s with
    | (.ok a, t) => P a t
    | (.error _, t) => I t

namespace Keeps

variable {J I I' : State → Prop} {s : State} {p : Run α} {k : α → Run β} {P P' : α → State → Prop}
  {Q : β → State → Prop}

theorem pure {a : α} (hP : P a s) : (Pure.pure a : Run α).Keeps J I s P := by
  intro calls _
  exact And.intro (fun _ hv => nomatch hv) hP

theorem stop {f : Failure} (hI : I s) : (Compilation.stop f : Run α).Keeps J I s P := by
  intro calls _
  exact And.intro (fun _ hv => nomatch hv) hI

theorem bind (hs : J s) (hp : p.Keeps J I s P)
    (hk : ∀ a t, J t → P a t → (k a).Keeps J I t Q) : (p >>= k).Keeps J I s Q := by
  intro calls hv
  rw [visits_bind] at hv ⊢
  rw [run_bind]
  have hfirst : ∀ v ∈ p.visits calls s, J v.state := fun v hmem => hv v (by simp [hmem])
  have hlast := last_of_visits p hs hfirst
  obtain ⟨hvisits, hresult⟩ := hp calls hfirst
  rcases hrun : p.run s with ⟨_ | a, t⟩
  · rw [hrun] at hresult
    simpa using ⟨hvisits, hresult⟩
  · rw [hrun] at hlast hresult
    rw [hrun] at hv
    obtain ⟨hvisits', hresult'⟩ :=
      hk a t hlast hresult calls fun v hmem => hv v (List.mem_append_right _ hmem)
    refine ⟨fun v hmem => ?_, hresult'⟩
    rcases List.mem_append.mp hmem with hmem | hmem
    · exact hvisits v hmem
    · exact hvisits' v hmem

theorem get_bind {k : State → Run β} (hk : (k s).Keeps J I s Q) : (get >>= k).Keeps J I s Q :=
  hk

theorem update {f : State → State} {P : Unit → State → Prop} (hP : J (f s) → P () (f s)) :
    (Compilation.update f).Keeps J I s P := by
  refine fun calls hv => ⟨fun v hmem hne => ?_, hP (hv ⟨.change, calls, f s⟩ List.mem_cons_self)⟩
  exact absurd (List.mem_singleton.mp hmem ▸ rfl) hne

theorem follow {c : Call} (hs : I s) (hp : p.Keeps J I s P) (hP : ∀ a t, P a t → I t) :
    (Compilation.follow c p).Keeps J I s P := by
  intro calls hv
  rw [visits_follow] at hv ⊢
  rw [run_follow]
  obtain ⟨hvisits, hresult⟩ := hp (c :: calls) fun v hmem => hv v (by simp [hmem])
  refine ⟨fun v hmem hne => ?_, hresult⟩
  simp only [List.mem_append, List.mem_cons, List.not_mem_nil, or_false] at hmem
  rcases hmem with (rfl | hmem) | rfl
  · exact hs
  · exact hvisits v hmem hne
  · show I (p.run s).2
    split at hresult
    · next hrun => rw [hrun]; exact hP _ _ hresult
    · next hrun => rw [hrun]; exact hresult

theorem existing_bind {o : Option α} (hI : I s) (hk : ∀ a, o = some a → (k a).Keeps J I s Q) :
    (existing o >>= k).Keeps J I s Q := by
  cases o with
  | none => exact stop hI
  | some a => exact hk a rfl

theorem typeAt_bind {t : TypeId} {k : Descriptor → Run β} (hI : I s)
    (hk : ∀ d, s.types.get? t = some d → (k d).Keeps J I s Q) :
    (typeAt t >>= k).Keeps J I s Q :=
  existing_bind hI hk

/-- A type that is known to exist. -/
theorem known_typeAt_bind {t : TypeId} {d : Descriptor} {k : Descriptor → Run β}
    (hd : s.types.get? t = some d) (hk : (k d).Keeps J I s Q) :
    (typeAt t >>= k).Keeps J I s Q := by
  show (existing (s.types.get? t) >>= k).Keeps J I s Q
  rwa [hd]

theorem scopeAt_bind {i : ScopeId} {k : Scope → Run β} (hI : I s)
    (hk : ∀ c, s.scopes.get? i = some c → (k c).Keeps J I s Q) :
    (scopeAt i >>= k).Keeps J I s Q :=
  existing_bind hI hk

theorem resourceAt_bind {id : ResourceId} {k : Resource → Run β} (hI : I s)
    (hk : ∀ r, s.catalog.get? id = some r → (k r).Keeps J I s Q) :
    (resourceAt id >>= k).Keeps J I s Q :=
  existing_bind hI hk

theorem ofExcept_bind {x : Except CompileError α} (hI : I s)
    (hk : ∀ a, x = .ok a → (k a).Keeps J I s Q) : (ofExcept x >>= k).Keeps J I s Q := by
  cases x with
  | ok a => exact hk a rfl
  | error e => exact stop hI

/-- Weaker conditions. -/
theorem imp (hp : p.Keeps J I s P) (hI : ∀ t, I t → I' t) (hP : ∀ a t, P a t → P' a t) :
    p.Keeps J I' s P' := by
  intro calls hv
  obtain ⟨hvisits, hresult⟩ := hp calls hv
  refine ⟨fun v hmem hne => hI _ (hvisits v hmem hne), ?_⟩
  split at hresult
  · exact hP _ _ hresult
  · exact hI _ hresult

end Keeps

/-- A condition `I` that holds when a run begins, wherever that is, holds whenever a call begins or
ends and when the run ends. -/
def Upholds (p : Run α) (J I : State → Prop) : Prop :=
  ∀ s, J s → I s → p.Keeps J I s fun _ t => I t

namespace Upholds

variable {J I : State → Prop} {p : Run α} {k : α → Run β}

theorem pure {a : α} : (Pure.pure a : Run α).Upholds J I :=
  fun _ _ hI => .pure hI

theorem stop {f : Failure} : (Compilation.stop f : Run α).Upholds J I :=
  fun _ _ hI => .stop hI

theorem bind (hp : p.Upholds J I) (hk : ∀ a, (k a).Upholds J I) : (p >>= k).Upholds J I :=
  fun s hs hI => (hp s hs hI).bind hs fun a t ht hI' => hk a t ht hI'

theorem get_bind {k : State → Run β} (hk : ∀ s, (k s).Upholds J I) : (get >>= k).Upholds J I :=
  fun s hs hI => .get_bind (hk s s hs hI)

theorem update {f : State → State} (hf : ∀ s, J s → J (f s) → I s → I (f s)) :
    (Compilation.update f).Upholds J I :=
  fun s hs hI => .update fun hs' => hf s hs hs' hI

theorem follow {c : Call} (hp : p.Upholds J I) : (Compilation.follow c p).Upholds J I :=
  fun s hs hI => .follow hI (hp s hs hI) fun _ _ h => h

theorem existing {o : Option α} : (Compilation.existing o).Upholds J I := by
  cases o with
  | none => exact stop
  | some a => exact pure

theorem typeAt {t : TypeId} : (Compilation.typeAt t).Upholds J I :=
  get_bind fun _ => existing

end Upholds

end Run

end SiteCatalog.Compilation
