import Mathlib.Data.List.Nodup
import Mathlib.Data.Finset.Card

/-!
# Following links

A partial function sends a thing to the next one, as a scope has a parent and a class has one.
`Leads next x l` says that from `x` one comes through `l` to a thing without a next one.

Results:
* `Leads.unique`: there is at most one such way.
* `Leads.nodup`: it never comes back to a thing it has passed.
* `Leads.exists_last`, `Leads.length_le`: where it ends, and how long it is.
* `Leads.redirect`: a thing that nothing on the way leads to can be given a new next one.
-/

namespace SiteCatalog

/-- There are only so many numbers below a bound. -/
theorem length_le_of_nodup {n : ℕ} {l : List ℕ} (hl : l.Nodup) (hlt : ∀ x ∈ l, x < n) :
    l.length ≤ n := by
  have hsub : l.toFinset ⊆ Finset.range n := fun x hx =>
    Finset.mem_range.mpr (hlt x (List.mem_toFinset.mp hx))
  have hcard := Finset.card_le_card hsub
  rwa [List.toFinset_card_of_nodup hl, Finset.card_range] at hcard

/-- From `x`, the links lead through `l` to an end. -/
inductive Leads {ι : Type} (next : ι → Option ι) : ι → List ι → Prop
  | last {x : ι} : next x = none → Leads next x []
  | link {x y : ι} {l : List ι} : next x = some y → Leads next y l → Leads next x (y :: l)

namespace Leads

variable {ι : Type} {next next' : ι → Option ι} {x y : ι} {l m : List ι}

theorem unique (h : Leads next x l) (h' : Leads next x m) : l = m := by
  induction h generalizing m with
  | last hx =>
    cases h' with
    | last _ => rfl
    | link hy _ => rw [hx] at hy; cases hy
  | link hx _ ih =>
    cases h' with
    | last hy => rw [hx] at hy; cases hy
    | link hy t =>
      rw [hx] at hy; cases hy
      rw [ih t]

/-- The rest of a way is a way. -/
theorem of_mem (h : Leads next x l) (hy : y ∈ l) : ∃ m, Leads next y m ∧ m.length < l.length := by
  induction h with
  | last _ => cases hy
  | link _ t ih =>
    rcases List.mem_cons.mp hy with rfl | hy
    · exact ⟨_, t, by simp⟩
    · obtain ⟨m, hm, hlt⟩ := ih hy
      exact ⟨m, hm, by simp; omega⟩

theorem nodup (h : Leads next x l) : (x :: l).Nodup := by
  induction h with
  | last _ => simp
  | @link x y l hx t ih =>
    refine List.nodup_cons.mpr ⟨fun hmem => ?_, ih⟩
    -- the way from `x` would be shorter than itself
    obtain ⟨m, hm, hlt⟩ := (Leads.link hx t).of_mem hmem
    rw [(Leads.link hx t).unique hm] at hlt
    omega

theorem congr (h : Leads next x l) (heq : ∀ z ∈ x :: l, next' z = next z) : Leads next' x l := by
  induction h with
  | last hx => exact .last ((heq _ (by simp)).trans hx)
  | link hx _ ih =>
    exact .link ((heq _ (by simp)).trans hx) (ih fun z hz => heq z (List.mem_cons_of_mem _ hz))

/-- A thing that nothing leads to can be sent elsewhere without disturbing the other ways. -/
theorem redirect (h : Leads next x l) (hx : x ≠ y) (hy : ∀ z, next z ≠ some y)
    (heq : ∀ z, z ≠ y → next' z = next z) : Leads next' x l := by
  refine h.congr fun z hz => heq z ?_
  rintro rfl
  rcases List.mem_cons.mp hz with rfl | hz
  · exact hx rfl
  · clear hx
    induction h with
    | last _ => cases hz
    | link hn _ ih =>
      rcases List.mem_cons.mp hz with rfl | hz
      · exact hy _ hn
      · exact ih (by simp [hz]) hz

/-- What holds of a thing and is handed on holds all the way. -/
theorem forall_mem {P : ι → Prop} (h : Leads next x l) (hx : P x)
    (hnext : ∀ y z, next y = some z → P z) : ∀ z ∈ x :: l, P z := by
  induction h with
  | last _ =>
    intro z hz
    exact List.mem_singleton.mp hz ▸ hx
  | link hy _ ih =>
    intro z hz
    rcases List.mem_cons.mp hz with rfl | hz
    · exact hx
    · exact ih (hnext _ _ hy) z hz

/-- The last thing on the way has no next one. -/
theorem exists_last (h : Leads next x l) : ∃ z, (x :: l).getLast? = some z ∧ next z = none := by
  induction h with
  | last hx => exact ⟨_, rfl, hx⟩
  | link _ _ ih =>
    obtain ⟨z, hz, hnext⟩ := ih
    exact ⟨z, by rw [List.getLast?_cons_cons, hz], hnext⟩

/-- Everything on the way but its end has a next thing. -/
theorem isSome_of_mem_dropLast (h : Leads next x l) :
    ∀ z ∈ (x :: l).dropLast, (next z).isSome := by
  induction h with
  | last _ => exact fun z hz => nomatch hz
  | @link x y l hx _ ih =>
    rw [List.dropLast_cons_cons]
    exact List.forall_mem_cons.mpr ⟨by rw [hx]; rfl, ih⟩

/-- Where only the first `n` numbers have a next one, no way is longer than `n`. -/
theorem length_le {next : ℕ → Option ℕ} {k n : ℕ} {l : List ℕ} (h : Leads next k l)
    (hlt : ∀ z p, next z = some p → z < n) : l.length ≤ n := by
  have hle := length_le_of_nodup (h.nodup.sublist (List.dropLast_sublist _)) fun z hz => by
    obtain ⟨p, hp⟩ := Option.isSome_iff_exists.mp (h.isSome_of_mem_dropLast z hz)
    exact hlt z p hp
  simpa using hle

end Leads

end SiteCatalog
