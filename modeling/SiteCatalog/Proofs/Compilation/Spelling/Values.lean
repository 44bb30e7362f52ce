import SiteCatalog.Compilation.Evaluation
import SiteCatalog.Proofs.Tables
import Mathlib.Data.List.Forall2

/-!
# Values that pass for each other

A supplied parameter is bound to its coerced value, a default to its own. Where these are not the
same, everything that a compilation does with the one it does with the other, and the results differ
in no more than coercion removes.

Results:
* `likeness_eq`, `likeness_coerce`: equality of values, and equality of coerced values.
* `Table.Alike.insert`, `Table.Alike.exists_perm`: tables with like values up to their order.
-/

namespace SiteCatalog

open Compilation (titles)

namespace Value

/-- Values that are related pass for each other wherever a compilation uses them. -/
structure Likeness (V : Value → Value → Prop) : Prop where
  refl : ∀ v, V v v
  text : ∀ {v w}, V v w → v.text = w.text
  coerce : ∀ {v w}, V v w → V v.coerce w.coerce
  isUndefined : ∀ {v w}, V v w → v.isUndefined = w.isUndefined
  array : ∀ {l l'}, List.Forall₂ V l l' → V (.array l) (.array l')
  titles : ∀ {v w}, V v w → List.Forall₂ V (titles v) (titles w)

theorem Likeness.map_text_eq {V : Value → Value → Prop} (hV : Likeness V) {l l' : List Value}
    (h : List.Forall₂ V l l') : l.map Value.text = l'.map Value.text := by
  induction h with
  | nil => rfl
  | cons hv _ ih => rw [List.map_cons, List.map_cons, hV.text hv, ih]

theorem coerceAll_eq_map (l : List Value) : coerceAll l = l.map coerce := by
  induction l with
  | nil => rfl
  | cons v rest ih => rw [coerceAll, ih, List.map_cons]

mutual

@[simp] theorem text_coerce : ∀ v : Value, v.coerce.text = v.text
  | .undefined => rfl
  | .bool _ => rfl
  | .int _ => rfl
  | .str _ => rfl
  | .array items => by rw [coerce, text, text, texts_coerceAll items]

theorem texts_coerceAll : ∀ l : List Value, texts (coerceAll l) = texts l
  | [] => rfl
  | v :: rest => by rw [coerceAll, texts, texts, text_coerce v, texts_coerceAll rest]

end

mutual

@[simp] theorem coerce_coerce : ∀ v : Value, v.coerce.coerce = v.coerce
  | .undefined => rfl
  | .bool _ => rfl
  | .int _ => rfl
  | .str _ => rfl
  | .array items => by rw [coerce, coerce, coerceAll_coerceAll items]

theorem coerceAll_coerceAll : ∀ l : List Value, coerceAll (coerceAll l) = coerceAll l
  | [] => rfl
  | v :: rest => by rw [coerceAll, coerceAll, coerce_coerce v, coerceAll_coerceAll rest]

end

@[simp] theorem isUndefined_coerce (v : Value) : v.coerce.isUndefined = v.isUndefined := by
  cases v <;> rfl

theorem likeness_eq : Likeness Eq where
  refl _ := rfl
  text h := congrArg text h
  coerce h := congrArg coerce h
  isUndefined h := congrArg isUndefined h
  array h := by rw [List.forall₂_eq_eq_eq] at h; rw [h]
  titles h := by rw [h, List.forall₂_eq_eq_eq]

/-- Values that are the same after coercion pass for each other. -/
theorem likeness_coerce : Likeness fun v w => v.coerce = w.coerce where
  refl _ := rfl
  text {v w} h := by rw [← text_coerce v, h, text_coerce]
  coerce h := congrArg Value.coerce h
  isUndefined {v w} h := by rw [← isUndefined_coerce v, h, isUndefined_coerce]
  array {l l'} h := by
    rw [coerce, coerce, coerceAll_eq_map, coerceAll_eq_map]
    refine congrArg array ?_
    induction h with
    | nil => rfl
    | cons hv _ ih => rw [List.map_cons, List.map_cons, hv, ih]
  titles {v w} h := by
    cases v with
    | array items =>
      cases w with
      | array items' =>
        rw [coerce, coerce, Value.array.injEq, coerceAll_eq_map, coerceAll_eq_map] at h
        exact List.forall₂_map_left_iff.mp
          (List.forall₂_map_right_iff.mp (h ▸ List.forall₂_same.mpr fun _ _ => rfl))
      | _ => cases h
    | _ =>
      cases w with
      | array items' => cases h
      | _ => exact .cons h .nil

end Value

namespace Table

variable {α : Type} {V : α → α → Prop} {t t' : Table α} {name : String}

/-- Entries with the same name and related values. -/
def SameEntry (V : α → α → Prop) (e e' : String × α) : Prop :=
  e.1 = e'.1 ∧ V e.2 e'.2

/-- The values that a name has in a table, at most one if the table has been built by `insert`. -/
def valuesOf (t : Table α) (name : String) : List α :=
  (t.filter fun e => e.1 = name).map (·.2)

theorem valuesOf_cons (e : String × α) (t : Table α) (name : String) :
    valuesOf (e :: t) name = if e.1 = name then e.2 :: t.valuesOf name else t.valuesOf name := by
  rw [valuesOf, List.filter_cons]
  split <;> simp_all [valuesOf]

theorem valuesOf_append (t t' : Table α) (name : String) :
    valuesOf (t ++ t') name = t.valuesOf name ++ t'.valuesOf name := by
  rw [valuesOf, List.filter_append, List.map_append]
  rfl

theorem find?_eq_head? (t : Table α) (name : String) :
    t.find? name = (t.valuesOf name).head? := by
  induction t with
  | nil => rfl
  | cons e rest ih =>
    rw [find?, valuesOf_cons]
    split
    · rfl
    · exact ih

theorem valuesOf_eq_nil : t.valuesOf name = [] ↔ name ∉ t.keys := by
  rw [← has_iff_mem_keys, has, find?_eq_head?]
  cases t.valuesOf name <;> simp

theorem valuesOf_insert_self (t : Table α) (name : String) (v : α) :
    (t.insert name v).valuesOf name = v :: (t.valuesOf name).tail := by
  induction t with
  | nil => simp [insert, valuesOf]
  | cons e rest ih =>
    rw [insert]
    split
    · next h => rw [valuesOf_cons, valuesOf_cons, if_pos h, if_pos h]; rfl
    · next h => rw [valuesOf_cons, valuesOf_cons, if_neg h, if_neg h, ih]

theorem valuesOf_insert_of_ne {other : String} (h : name ≠ other) (t : Table α) (v : α) :
    (t.insert name v).valuesOf other = t.valuesOf other := by
  induction t with
  | nil => simp [insert, valuesOf, h]
  | cons e rest ih =>
    rw [insert]
    split
    · next he =>
      have hne : e.1 ≠ other := fun heq => h (he.symm.trans heq)
      rw [valuesOf_cons, valuesOf_cons, if_neg hne, if_neg hne]
    · rw [valuesOf_cons, valuesOf_cons, ih]

/-- Tables whose names have related values, whatever the order of the names. -/
def Alike (V : α → α → Prop) (t t' : Table α) : Prop :=
  ∀ name, List.Forall₂ V (t.valuesOf name) (t'.valuesOf name)

theorem Alike.of_forall₂ (h : List.Forall₂ (SameEntry V) t t') : Alike V t t' := by
  intro name
  induction h with
  | nil => exact .nil
  | @cons e e' _ _ he _ ih =>
    rw [valuesOf_cons, valuesOf_cons, ← he.1]
    split
    · exact .cons he.2 ih
    · exact ih

theorem Alike.insert (h : Alike V t t') {v v' : α} (hv : V v v') (name : String) :
    Alike V (t.insert name v) (t'.insert name v') := by
  intro other
  by_cases hne : name = other
  · subst hne
    rw [valuesOf_insert_self, valuesOf_insert_self, ← List.drop_one, ← List.drop_one]
    exact .cons hv (List.forall₂_drop 1 (h name))
  · rw [valuesOf_insert_of_ne hne, valuesOf_insert_of_ne hne]
    exact h other

theorem rel_head? {l l' : List α} (h : List.Forall₂ V l l') : Option.Rel V l.head? l'.head? := by
  cases h with
  | nil => exact .none
  | cons hv _ => exact .some hv

theorem Alike.find? (h : Alike V t t') (name : String) :
    Option.Rel V (t.find? name) (t'.find? name) := by
  rw [find?_eq_head?, find?_eq_head?]
  exact rel_head? (h name)

/-- Tables with related values except under one name. Under that name the second table has the given
value in front, if any, and the value in front does not count in the first table. -/
structure Beside (V : α → α → Prop) (name : String) (front : Option α) (t t' : Table α) :
    Prop where
  others : ∀ other, other ≠ name → List.Forall₂ V (t.valuesOf other) (t'.valuesOf other)
  later : List.Forall₂ V (t.valuesOf name).tail (t'.valuesOf name).tail
  first : t'.find? name = front

theorem Alike.beside (h : Alike V t t') (name : String) :
    Beside V name (t'.find? name) t t' where
  others other _ := h other
  later := by
    rw [← List.drop_one, ← List.drop_one]
    exact List.forall₂_drop 1 (h name)
  first := rfl

namespace Beside

variable {front : Option α} {v w : α} {other : String}

theorem find? (h : Beside V name front t t') (hne : other ≠ name) :
    Option.Rel V (t.find? other) (t'.find? other) := by
  rw [find?_eq_head?, find?_eq_head?]
  exact rel_head? (h.others other hne)

theorem insert (h : Beside V name front t t') (hne : other ≠ name) (hv : V v w) :
    Beside V name front (t.insert other v) (t'.insert other w) where
  others x hx := by
    by_cases hother : other = x
    · subst hother
      rw [valuesOf_insert_self, valuesOf_insert_self, ← List.drop_one, ← List.drop_one]
      exact .cons hv (List.forall₂_drop 1 (h.others other hne))
    · rw [valuesOf_insert_of_ne hother, valuesOf_insert_of_ne hother]
      exact h.others x hx
  later := by
    rw [valuesOf_insert_of_ne hne, valuesOf_insert_of_ne hne]
    exact h.later
  first := by
    rw [find?_insert_of_ne _ _ hne]
    exact h.first

/-- The first table gets a value that does not count. -/
theorem insert_left (h : Beside V name front t t') (v : α) :
    Beside V name front (t.insert name v) t' where
  others other hne := by
    rw [valuesOf_insert_of_ne hne.symm]
    exact h.others other hne
  later := by
    rw [valuesOf_insert_self]
    exact h.later
  first := h.first

/-- The second table gets the value in front. -/
theorem insert_right (h : Beside V name front t t') (w : α) :
    Beside V name (some w) t (t'.insert name w) where
  others other hne := by
    rw [valuesOf_insert_of_ne hne.symm]
    exact h.others other hne
  later := by
    rw [valuesOf_insert_self]
    exact h.later
  first := find?_insert_self ..

/-- The first table gets the value that it lacked. -/
theorem alike (h : Beside V name (some w) t t') (hv : V v w) : Alike V (t.insert name v) t' := by
  intro other
  by_cases hne : other = name
  · subst hne
    have hfirst := h.first
    have hlater := h.later
    rw [find?_eq_head?] at hfirst
    rw [valuesOf_insert_self]
    generalize t'.valuesOf other = values' at hfirst hlater
    cases values' with
    | nil => cases hfirst
    | cons x rest =>
      cases hfirst
      exact .cons hv hlater
  · rw [valuesOf_insert_of_ne (Ne.symm hne)]
    exact h.others other hne

end Beside

theorem exists_split {v : α} {vs : List α} (h : t.valuesOf name = v :: vs) :
    ∃ a b : Table α, t = a ++ (name, v) :: b ∧ a.valuesOf name = [] ∧ b.valuesOf name = vs := by
  induction t with
  | nil => cases h
  | cons e rest ih =>
    rw [valuesOf_cons] at h
    split at h
    · next he =>
      obtain ⟨hv, hvs⟩ := List.cons.inj h
      exact ⟨[], rest, by rw [← he, ← hv]; rfl, rfl, hvs⟩
    · next he =>
      obtain ⟨a, b, rfl, ha, hb⟩ := ih h
      exact ⟨e :: a, b, rfl, by rw [valuesOf_cons, if_neg he, ha], hb⟩

/-- Each entry of one table stands, with a related value, somewhere in the other. -/
theorem Alike.exists_perm (h : Alike V t t') :
    ∃ l, List.Forall₂ (SameEntry V) t l ∧ l.Perm t' := by
  induction t generalizing t' with
  | nil =>
    refine ⟨[], .nil, ?_⟩
    cases t' with
    | nil => exact .refl _
    | cons e rest =>
      have he := h e.1
      rw [valuesOf_cons, if_pos rfl] at he
      cases he
  | cons e rest ih =>
    have he := h e.1
    rw [valuesOf_cons, if_pos rfl] at he
    obtain ⟨w, ws, hv, hws, hvalues⟩ := List.forall₂_cons_left_iff.mp he
    obtain ⟨a, b, rfl, ha, rfl⟩ := exists_split hvalues
    have hrest : Alike V rest (a ++ b) := by
      intro name
      have hname := h name
      rw [valuesOf_append, valuesOf_cons, valuesOf_cons] at hname
      rw [valuesOf_append]
      split at hname
      · next heq =>
        subst heq
        rwa [ha, List.nil_append]
      · exact hname
    obtain ⟨l, hl, hperm⟩ := ih hrest
    exact ⟨(e.1, w) :: l, .cons ⟨rfl, hv⟩ hl, (hperm.cons _).trans List.perm_middle.symm⟩

end Table

end SiteCatalog
