import SiteCatalog.Table
import Mathlib.Data.List.Nodup

/-!
# Tables with different names

Results:
* `Table.ofList_eq`: a list of entries with different names is a table as it is.
* `Table.find?_of_mem`: each of its entries is found.
* `Table.find?_map`: what is found after all values have been changed.
-/

namespace SiteCatalog.Table

variable {α : Type} {t : Table α} {name : String}

theorem insert_of_not_mem (h : name ∉ t.keys) (v : α) : t.insert name v = t ++ [(name, v)] := by
  induction t with
  | nil => rfl
  | cons e rest ih =>
    rw [keys, List.map_cons, List.mem_cons, not_or] at h
    rw [insert, if_neg (Ne.symm h.1), ih h.2]
    rfl

theorem nodup_keys_concat (h : t.keys.Nodup) (hnew : name ∉ t.keys) (v : α) :
    (t ++ [(name, v)]).keys.Nodup := by
  rw [← insert_of_not_mem hnew, keys_insert, if_neg hnew]
  exact List.nodup_append.mpr ⟨h, List.nodup_singleton _, fun x hx y hy heq =>
    hnew (List.mem_singleton.mp hy ▸ heq ▸ hx)⟩

/-- A list of entries with different names is a table as it is. -/
theorem ofList_eq (h : t.keys.Nodup) : ofList t = t := by
  have happend : ∀ rest front : Table α, (front ++ rest).keys.Nodup →
      rest.foldl (fun t e => t.insert e.1 e.2) front = front ++ rest := by
    intro rest
    induction rest with
    | nil => exact fun front _ => (List.append_nil front).symm
    | cons e rest ih =>
      intro front hdistinct
      have hnew : e.1 ∉ front.keys := by
        rw [keys, List.map_append, List.nodup_append] at hdistinct
        exact fun he => hdistinct.2.2 _ he e.1 List.mem_cons_self rfl
      rw [List.foldl_cons, insert_of_not_mem hnew, ih _ (by simpa using hdistinct),
        List.append_assoc]
      rfl
  exact happend t [] h

theorem find?_of_mem (h : t.keys.Nodup) {v : α} (hv : (name, v) ∈ t) :
    t.find? name = some v := by
  induction t with
  | nil => cases hv
  | cons e rest ih =>
    obtain ⟨k, w⟩ := e
    obtain ⟨hnew, hrest⟩ := List.nodup_cons.mp h
    rcases List.mem_cons.mp hv with heq | hv
    · cases heq
      rw [find?, if_pos rfl]
    · have hne : k ≠ name := by
        rintro rfl
        exact hnew (List.mem_map_of_mem (f := (·.1)) hv)
      rw [find?, if_neg hne, ih hrest hv]

theorem find?_map {β : Type} (f : String → α → β) (t : Table α) (name : String) :
    find? (t.map fun e => (e.1, f e.1 e.2)) name = (t.find? name).map (f name) := by
  induction t with
  | nil => rfl
  | cons e rest ih =>
    rw [List.map_cons, find?, find?]
    split
    · next h => rw [h, Option.map_some]
    · exact ih

theorem has_iff_mem_keys : t.has name ↔ name ∈ t.keys := by
  induction t with
  | nil => simp [has, find?, keys]
  | cons e rest ih =>
    rw [has, find?, keys, List.map_cons, List.mem_cons]
    split
    · next h => exact iff_of_true rfl (.inl h.symm)
    · next h => exact ih.trans (or_iff_right (Ne.symm h)).symm

end SiteCatalog.Table
