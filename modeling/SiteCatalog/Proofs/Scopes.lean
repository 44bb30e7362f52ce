import SiteCatalog.Scope
import SiteCatalog.Proofs.Leads

/-!
# The tree of scopes

The way upwards from a scope and the search for a variable on it come to an end, unless they run
around a ring of scopes; the bound on the number of scopes never cuts them short.

Results:
* `path_eq_some_iff`, `path_eq_none_iff`: there is a way upwards exactly if the parents lead to an
  end.
* `ancestors_eq`, `lookup_eq`, `moduleName_eq`: where they do, the scopes above are those on the way,
  and a variable and a module are found on the nearest scope that has them.
* `lookup_eq_some_iff`, `lookup_eq_none_iff`: whatever the parents of scopes are, the nearest binding
  is found, and the search never ends exactly if it runs around a ring.
* `lookup_of_parent`: a binding of the parent is seen from below unless it is hidden.
-/

namespace SiteCatalog.Scopes

/-- The parent of a scope. -/
def parent? (s : Scopes) (k : ScopeId) : Option ScopeId :=
  (s.get? k).bind (·.parent)

theorem parent?_of_get? {s : Scopes} {k : ScopeId} {c : Scope} (h : s.get? k = some c) :
    s.parent? k = c.parent := by
  rw [parent?, h]; rfl

theorem parent?_bind (s : Scopes) (i k : ScopeId) (name : String) (v : Value) :
    (s.bind i name v).parent? k = s.parent? k := by
  rw [parent?, get?_bind, parent?]
  split
  · cases s.get? k <;> rfl
  · rfl

theorem parent?_push (s : Scopes) (c : Scope) (k : ℕ) :
    (s.push c).2.parent? k = if k = s.arena.length then c.parent else s.parent? k := by
  rw [parent?, get?_push]
  split <;> rfl

theorem parent?_setParent {s : Scopes} {i k : ScopeId} {c : Scope} (hc : s.get? i = some c)
    (p : ScopeId) : (s.setParent i p).parent? k = if k = i then some p else s.parent? k := by
  rw [parent?, get?_setParent]
  split
  · next h => rw [h, hc]; rfl
  · rfl

theorem lt_length_of_parent? {s : Scopes} {k p : ScopeId} (h : s.parent? k = some p) :
    k < s.arena.length := by
  obtain ⟨c, hc, -⟩ := Option.bind_eq_some_iff.mp h
  exact lt_length_of_get? hc

/-! ## The way upwards -/

section Upward

variable {s : Scopes} {k : ScopeId} {l way : List ScopeId}

@[simp] theorem chain_none (s : Scopes) (fuel : ℕ) : s.chain fuel none = some [] := by
  cases fuel <;> rfl

theorem chain_succ (s : Scopes) (fuel : ℕ) (k : ScopeId) :
    s.chain (fuel + 1) (some k) = (s.chain fuel (s.parent? k)).map (k :: ·) :=
  rfl

theorem chain_eq (h : Leads s.parent? k l) :
    ∀ fuel, l.length < fuel → s.chain fuel (some k) = some (k :: l) := by
  induction h with
  | @last k hk =>
    intro fuel hf
    obtain ⟨fuel, rfl⟩ := Nat.exists_eq_add_one.mpr (Nat.zero_lt_of_lt hf)
    rw [chain_succ, hk, chain_none, Option.map_some]
  | @link k p l hk _ ih =>
    intro fuel hf
    obtain ⟨fuel, rfl⟩ := Nat.exists_eq_add_one.mpr (Nat.zero_lt_of_lt hf)
    rw [chain_succ, hk, ih fuel (Nat.lt_of_succ_lt_succ hf), Option.map_some]

theorem leads_of_chain : ∀ {fuel : ℕ} {k : ScopeId} {way : List ScopeId},
    s.chain fuel (some k) = some way → ∃ l, way = k :: l ∧ Leads s.parent? k l := by
  intro fuel
  induction fuel with
  | zero => exact fun h => nomatch h
  | succ fuel ih =>
    intro k way h
    rw [chain_succ] at h
    cases hp : s.parent? k with
    | none =>
      rw [hp, chain_none] at h
      cases h
      exact ⟨[], rfl, .last hp⟩
    | some p =>
      rw [hp] at h
      obtain ⟨above, habove, rfl⟩ := Option.map_eq_some_iff.mp h
      obtain ⟨l, rfl, hl⟩ := ih habove
      exact ⟨_, rfl, .link hp hl⟩

theorem path_eq (h : Leads s.parent? k l) : s.path k = some (k :: l) :=
  chain_eq h _ (Nat.lt_succ_of_le (h.length_le fun _ _ => lt_length_of_parent?))

/-- There is a way upwards exactly if the parents lead to an end. -/
theorem path_eq_some_iff : s.path k = some way ↔ ∃ l, way = k :: l ∧ Leads s.parent? k l :=
  ⟨leads_of_chain, fun ⟨_, hway, hl⟩ => hway ▸ path_eq hl⟩

theorem path_eq_none_iff : s.path k = none ↔ ¬∃ l, Leads s.parent? k l := by
  rw [Option.eq_none_iff_forall_ne_some]
  constructor
  · rintro h ⟨l, hl⟩
    exact h _ (path_eq hl)
  · rintro h way hway
    obtain ⟨l, -, hl⟩ := path_eq_some_iff.mp hway
    exact h ⟨l, hl⟩

theorem ancestors_eq (h : Leads s.parent? k l) : s.ancestors k = some l := by
  rw [ancestors, path_eq h, Option.map_some, List.tail_cons]

theorem moduleName_eq (h : Leads s.parent? k l) :
    s.moduleName k = some ((k :: l).findSome? fun i => (s.get? i).bind (·.moduleName)) := by
  rw [moduleName, path_eq h, Option.map_some]

theorem moduleName_eq_none_iff : s.moduleName k = none ↔ ¬∃ l, Leads s.parent? k l := by
  rw [moduleName, Option.map_eq_none_iff, path_eq_none_iff]

end Upward

/-! ## The search for a variable -/

section Search

variable {s : Scopes} {name : String} {k p : ScopeId} {v : Value} {l : List ScopeId}

@[simp] theorem lookupUpward_none (s : Scopes) (name : String) (fuel : ℕ) :
    s.lookupUpward name fuel none = some none := by
  cases fuel <;> rfl

theorem lookupUpward_succ (s : Scopes) (name : String) (fuel : ℕ) (k : ScopeId) :
    s.lookupUpward name (fuel + 1) (some k) =
      match s.lookupLocal k name with
      | some v => some (some v)
      | none => s.lookupUpward name fuel (s.parent? k) :=
  rfl

/-- The scope that is asked next for a variable that a scope does not bind. -/
def next? (s : Scopes) (name : String) (k : ScopeId) : Option ScopeId :=
  match s.lookupLocal k name with
  | some _ => none
  | none => s.parent? k

theorem next?_of_some (h : s.lookupLocal k name = some v) : s.next? name k = none := by
  rw [next?, h]

theorem next?_of_none (h : s.lookupLocal k name = none) : s.next? name k = s.parent? k := by
  rw [next?, h]

theorem lt_length_of_next? (h : s.next? name k = some p) : k < s.arena.length := by
  unfold next? at h
  split at h
  · cases h
  · exact lt_length_of_parent? h

theorem lookupUpward_eq (h : Leads (s.next? name) k l) : ∀ fuel, l.length < fuel →
    s.lookupUpward name fuel (some k) =
      some ((k :: l).findSome? fun i => s.lookupLocal i name) := by
  induction h with
  | @last k hk =>
    intro fuel hf
    obtain ⟨fuel, rfl⟩ := Nat.exists_eq_add_one.mpr (Nat.zero_lt_of_lt hf)
    rw [lookupUpward_succ, List.findSome?_cons]
    cases hv : s.lookupLocal k name with
    | some v => rfl
    | none =>
      rw [next?_of_none hv] at hk
      rw [hk, lookupUpward_none, List.findSome?_nil]
  | @link k p l hk _ ih =>
    intro fuel hf
    obtain ⟨fuel, rfl⟩ := Nat.exists_eq_add_one.mpr (Nat.zero_lt_of_lt hf)
    rw [lookupUpward_succ, List.findSome?_cons (a := k)]
    cases hv : s.lookupLocal k name with
    | some v => rfl
    | none =>
      rw [next?_of_none hv] at hk
      rw [hk, ih fuel (Nat.lt_of_succ_lt_succ hf)]

theorem leads_of_lookupUpward {found : Option Value} : ∀ {fuel : ℕ} {k : ScopeId},
    s.lookupUpward name fuel (some k) = some found → ∃ l, Leads (s.next? name) k l := by
  intro fuel
  induction fuel with
  | zero => exact fun h => nomatch h
  | succ fuel ih =>
    intro k h
    rw [lookupUpward_succ] at h
    cases hv : s.lookupLocal k name with
    | some v => exact ⟨[], .last (next?_of_some hv)⟩
    | none =>
      rw [hv] at h
      cases hp : s.parent? k with
      | none => exact ⟨[], .last ((next?_of_none hv).trans hp)⟩
      | some p =>
        obtain ⟨l, hl⟩ := ih (hp ▸ h)
        exact ⟨_, .link ((next?_of_none hv).trans hp) hl⟩

theorem lookup_eq_of_next (h : Leads (s.next? name) k l) :
    s.lookup k name = some ((k :: l).findSome? fun i => s.lookupLocal i name) :=
  lookupUpward_eq h _ (Nat.lt_succ_of_le (h.length_le fun _ _ => lt_length_of_next?))

/-- The search for a variable never ends exactly if it runs around a ring of scopes. -/
theorem lookup_eq_none_iff : s.lookup k name = none ↔ ¬∃ l, Leads (s.next? name) k l := by
  rw [Option.eq_none_iff_forall_ne_some]
  constructor
  · rintro h ⟨l, hl⟩
    exact h _ (lookup_eq_of_next hl)
  · exact fun h found hfound => h (leads_of_lookupUpward hfound)

/-- Where the parents lead to an end, the search ends at the nearest binding or there. -/
theorem exists_leads_next (name : String) (h : Leads s.parent? k l) :
    ∃ m, Leads (s.next? name) k m ∧ ((k :: m).findSome? fun i => s.lookupLocal i name) =
      (k :: l).findSome? fun i => s.lookupLocal i name := by
  induction h with
  | @last k hk =>
    refine ⟨[], .last ?_, rfl⟩
    cases hv : s.lookupLocal k name with
    | some v => exact next?_of_some hv
    | none => exact (next?_of_none hv).trans hk
  | @link k p l hk _ ih =>
    cases hv : s.lookupLocal k name with
    | some v => exact ⟨[], .last (next?_of_some hv), by simp [hv]⟩
    | none =>
      obtain ⟨m, hm, heq⟩ := ih
      refine ⟨p :: m, .link ((next?_of_none hv).trans hk) hm, ?_⟩
      simp only [List.findSome?_cons (a := k), heq]

theorem lookup_eq (name : String) (h : Leads s.parent? k l) :
    s.lookup k name = some ((k :: l).findSome? fun i => s.lookupLocal i name) := by
  obtain ⟨m, hm, heq⟩ := exists_leads_next name h
  rw [lookup_eq_of_next hm, heq]

/-- The nearest binding of a variable, from a scope upwards, is to a value. -/
inductive Finds (s : Scopes) (name : String) : ScopeId → Value → Prop
  | here {k : ScopeId} {v : Value} : s.lookupLocal k name = some v → Finds s name k v
  | above {k p : ScopeId} {v : Value} : s.lookupLocal k name = none → s.parent? k = some p →
    Finds s name p v → Finds s name k v

theorem Finds.exists_leads (h : s.Finds name k v) : ∃ l, Leads (s.next? name) k l ∧
    ((k :: l).findSome? fun i => s.lookupLocal i name) = some v := by
  induction h with
  | here hv => exact ⟨[], .last (next?_of_some hv), by simp [hv]⟩
  | @above k p v hk hp _ ih =>
    obtain ⟨l, hl, hv⟩ := ih
    refine ⟨p :: l, .link ((next?_of_none hk).trans hp) hl, ?_⟩
    rw [List.findSome?_cons (a := k), hk, hv]

theorem finds_of_lookupUpward : ∀ {fuel : ℕ} {k : ScopeId},
    s.lookupUpward name fuel (some k) = some (some v) → s.Finds name k v := by
  intro fuel
  induction fuel with
  | zero => exact fun h => nomatch h
  | succ fuel ih =>
    intro k h
    rw [lookupUpward_succ] at h
    cases hk : s.lookupLocal k name with
    | some w =>
      rw [hk] at h
      exact .here (hk.trans (Option.some.inj h))
    | none =>
      rw [hk] at h
      cases hp : s.parent? k with
      | none => exact absurd (hp ▸ h) (by simp)
      | some p => exact .above hk hp (ih (hp ▸ h))

/-- The bound on the number of scopes never hides a binding. -/
theorem lookup_eq_some_iff : s.lookup k name = some (some v) ↔ s.Finds name k v := by
  refine ⟨finds_of_lookupUpward, fun h => ?_⟩
  obtain ⟨l, hl, hv⟩ := h.exists_leads
  rw [lookup_eq_of_next hl, hv]

/-- What the parent of a scope binds is seen in the scope unless the scope itself binds it. -/
theorem lookup_of_parent (hp : s.parent? k = some p) (hk : s.lookupLocal k name = none)
    (hv : s.lookupLocal p name = some v) : s.lookup k name = some (some v) :=
  lookup_eq_some_iff.mpr (.above hk hp (.here hv))

end Search

/-! ## Two environments of one shape -/

section Alike

variable {s s' : Scopes} {name : String}

/-- Where the parents are the same, the ways upwards are. -/
theorem chain_congr (hparent : s'.parent? = s.parent?) : s'.chain = s.chain := by
  funext fuel
  induction fuel with
  | zero => funext k; cases k <;> rfl
  | succ fuel ih =>
    funext k
    cases k with
    | none => rfl
    | some k => rw [chain_succ, chain_succ, hparent, ih]

theorem moduleName_congr (hlength : s'.arena.length = s.arena.length)
    (hparent : s'.parent? = s.parent?)
    (hmodule : ∀ i, (s'.get? i).bind (·.moduleName) = (s.get? i).bind (·.moduleName)) :
    s'.moduleName = s.moduleName := by
  funext k
  simp only [moduleName, path, hlength, chain_congr hparent, hmodule]

/-- On a way upwards from scopes where they agree, two environments agree. -/
theorem lookup_rel {V : Value → Value → Prop} {P : ScopeId → Prop}
    (hlength : s'.arena.length = s.arena.length) (hparent : s'.parent? = s.parent?)
    (hup : ∀ i j, P i → s.parent? i = some j → P j)
    (hlocal : ∀ i, P i → Option.Rel V (s.lookupLocal i name) (s'.lookupLocal i name))
    {k : ScopeId} (hk : P k) :
    Option.Rel (Option.Rel V) (s.lookup k name) (s'.lookup k name) := by
  have hupward : ∀ fuel i, P i → Option.Rel (Option.Rel V) (s.lookupUpward name fuel (some i))
      (s'.lookupUpward name fuel (some i)) := by
    intro fuel
    induction fuel with
    | zero => exact fun _ _ => .none
    | succ fuel ih =>
      intro i hi
      have hlocal := hlocal i hi
      rw [lookupUpward_succ, lookupUpward_succ, hparent]
      generalize s.lookupLocal i name = o, s'.lookupLocal i name = o' at hlocal
      cases hlocal with
      | some hv => exact .some (.some hv)
      | none =>
        cases hj : s.parent? i with
        | none =>
          rw [lookupUpward_none, lookupUpward_none]
          exact .some .none
        | some j => exact ih j (hup i j hi hj)
  rw [lookup, lookup, hlength]
  exact hupward _ k hk

end Alike

end SiteCatalog.Scopes
