import SiteCatalog.CatalogDocument.Yaml
import SiteCatalog.Proofs.Fields
import SiteCatalog.Proofs.Tables

/-!
# Reading documents back

A tree holds data if it has no tags, the shape of the data, and scalars whose values are those that
the data names. A catalog document is read back from every tree that holds it: strings that look
like something else have to be quoted in such a tree, a version that is absent is null, and no
default stands in for a field of a written document, since every field is written.

Results:
* `Yaml.Tree.holds`: a tree holds data.
* `Value.ofTree?_of_holds`: the value of a parameter is read back.
* `CatalogDocument.ofTree?_of_holds`: a catalog document is read back.
-/

namespace SiteCatalog

/-! ## Trees that hold data -/

/-- The integer that a number is. -/
def Number.toInt? : Number → Option Int
  | .unsigned n => some n.toNat
  | .negative i => some i.toInt
  | .float _ => none

/-- A number that is a signed 64-bit integer is read as it. -/
theorem Number.toInt64?_eq {n : Number} {i : Int64} (h : n.toInt? = some i.toInt) :
    n.toInt64? = some i := by
  cases n with
  | unsigned n =>
    have hn : (n.toNat : Int) = i.toInt := Option.some.inj h
    have hlt := Int64.toInt_lt i
    rw [toInt64?, if_pos (by omega), hn, Int64.ofInt_toInt]
  | negative j =>
    have hj : j.toInt = i.toInt := Option.some.inj h
    rw [toInt64?, Int64.toInt_inj.mp hj]
  | float => cases h

/-- Whether a value is the scalar that data names. -/
def Data.isScalar : Data → Yaml → Bool
  | .null, .null => true
  | .bool b, .bool c => b = c
  | .int i, .number n => n.toInt? = some i
  | .string s, .string r => s = r
  | _, _ => false

namespace Yaml.Tree

/-- Whether a tree is a scalar without a tag that reads as a scalar of data. -/
def readsAs (d : Data) : Tree → Bool
  | .scalar none text quoting => (scalarValue? none text quoting).any d.isScalar
  | _ => false

mutual

/-- Whether a tree holds data. -/
def holds : Data → Tree → Bool
  | .list items, .sequence none trees => holdsItems items trees
  | .record fields, .mapping none entries => holdsFields fields entries
  | d, t => t.readsAs d

/-- Whether trees hold items, one by one. -/
def holdsItems : List Data → List Tree → Bool
  | [], [] => true
  | d :: items, t :: trees => holds d t && holdsItems items trees
  | _, _ => false

/-- Whether entries hold fields, one by one. -/
def holdsFields : List (String × Data) → List (Tree × Tree) → Bool
  | [], [] => true
  | (name, d) :: fields, (key, t) :: entries =>
    key.readsAs (.string name) && holds d t && holdsFields fields entries
  | _, _ => false

end

/-! ## Scalars -/

variable {t : Tree} {d : Data} {s : String}

theorem exists_of_readsAs (h : t.readsAs d = true) : ∃ text quoting y,
    t = .scalar none text quoting ∧ scalarValue? none text quoting = some y ∧
      d.isScalar y = true := by
  unfold readsAs at h
  split at h
  · next text quoting =>
    cases hy : scalarValue? none text quoting with
    | none => rw [hy] at h; cases h
    | some y => rw [hy] at h; exact ⟨text, quoting, y, rfl, hy, h⟩
  · cases h

theorem resolve_of_isNullWord {text : String} (h : text = "" ∨ isNullWord text = true) :
    Scalar.resolve text = .null := by
  rw [Scalar.resolve, if_pos (by simpa using h)]

/-- A scalar that reads as a string has the text of the string and does not stand for nothing. -/
theorem string?_of_readsAs (h : t.readsAs (.string s) = true) :
    t.string? = some s ∧ t.isNone? = some false := by
  obtain ⟨text, quoting, y, rfl, hy, hs⟩ := exists_of_readsAs h
  obtain rfl : y = .string s := by
    cases y <;> first | cases hs | rw [of_decide_eq_true hs]
  rw [scalarValue?] at hy
  split at hy
  · next hplain =>
    cases hresolve : Scalar.resolve text with
    | text =>
      rw [hresolve] at hy
      cases hy
      have hword : ¬(s = "" ∨ isNullWord s = true) := fun hnull => by
        rw [resolve_of_isNullWord hnull] at hresolve
        cases hresolve
      rw [not_or, Bool.not_eq_true] at hword
      simp [string?, isNone?, hplain, hword]
    | _ => rw [hresolve] at hy; cases hy
  · next hquoted =>
    cases hy
    simp [string?, isNone?, hquoted]

theorem isNullWord_of_resolve {text : String} (h : Scalar.resolve text = .null) :
    text = "" ∨ isNullWord text = true := by
  by_contra hword
  rw [Scalar.resolve, if_neg (by simpa using hword)] at h
  split at h
  · cases h
  · split at h
    · next i hi =>
      obtain ⟨i, -, hi⟩ := Option.bind_eq_some_iff.mp hi
      subst h
      unfold Scalar.ofInt? at hi
      split at hi
      · cases hi
      · split at hi <;> cases hi
    · split at h <;> cases h

/-- A scalar that reads as null stands for nothing. -/
theorem isNone?_of_readsAs (h : t.readsAs .null = true) : t.isNone? = some true := by
  obtain ⟨text, quoting, y, rfl, hy, hs⟩ := exists_of_readsAs h
  obtain rfl : y = .null := by cases y <;> first | rfl | cases hs
  rw [scalarValue?] at hy
  split at hy
  · next hplain =>
    cases hresolve : Scalar.resolve text with
    | null => simpa [isNone?, hplain] using isNullWord_of_resolve hresolve
    | _ => rw [hresolve] at hy; cases hy
  · cases hy

/-! ## Strings, lists and records -/

@[simp] theorem holds_string : holds (.string s) t = t.readsAs (.string s) := by
  simp [holds]

@[simp] theorem holds_null : holds .null t = t.readsAs .null := by
  simp [holds]

theorem optional?_of_holds {version : Option String} (h : holds (.ofString? version) t = true) :
    t.optional? (·.string?) = some version := by
  cases version with
  | none =>
    rw [Data.ofString?, holds_null] at h
    rw [optional?, isNone?_of_readsAs h]
  | some s =>
    rw [Data.ofString?, holds_string] at h
    obtain ⟨hs, hnone⟩ := string?_of_readsAs h
    rw [optional?, hnone, hs]
    rfl

/-- A collection is no scalar. -/
theorem not_readsAs_of_isScalar (hd : ∀ y, d.isScalar y = false) : ¬t.readsAs d = true := by
  intro h
  obtain ⟨_, _, y, -, -, hs⟩ := exists_of_readsAs h
  rw [hd y] at hs
  cases hs

theorem exists_of_holds_list {items : List Data} (h : holds (.list items) t = true) :
    ∃ trees, t = .sequence none trees ∧ holdsItems items trees = true := by
  have hlist : ∀ y, (Data.list items).isScalar y = false := fun y => by cases y <;> rfl
  unfold holds at h
  split at h
  · next heq =>
    cases heq
    exact ⟨_, rfl, h⟩
  · next heq => cases heq
  · exact absurd h (not_readsAs_of_isScalar hlist)

theorem exists_of_holds_record {fields : List (String × Data)}
    (h : holds (.record fields) t = true) :
    ∃ entries, t = .mapping none entries ∧ holdsFields fields entries = true := by
  have hrecord : ∀ y, (Data.record fields).isScalar y = false := fun y => by cases y <;> rfl
  unfold holds at h
  split at h
  · next heq => cases heq
  · next heq =>
    cases heq
    exact ⟨_, rfl, h⟩
  · exact absurd h (not_readsAs_of_isScalar hrecord)

section

variable {α : Type} {f : α → Data} {read : Tree → Option α}

theorem mapM_of_holdsItems {xs : List α} {trees : List Tree}
    (hread : ∀ x ∈ xs, ∀ t, holds (f x) t = true → read t = some x)
    (h : holdsItems (xs.map f) trees = true) : trees.mapM read = some xs := by
  induction xs generalizing trees with
  | nil =>
    cases trees with
    | nil => rfl
    | cons => cases h
  | cons x xs ih =>
    cases trees with
    | nil => cases h
    | cons t trees =>
      rw [List.map_cons, holdsItems, Bool.and_eq_true] at h
      rw [List.mapM_cons, hread x List.mem_cons_self t h.1,
        ih (fun x hx => hread x (List.mem_cons_of_mem _ hx)) h.2]
      rfl

/-- A list is read back if its items are. -/
theorem list?_of_holds {xs : List α} (hread : ∀ x ∈ xs, ∀ t, holds (f x) t = true → read t = some x)
    (h : holds (.list (xs.map f)) t = true) : t.list? read = some xs := by
  obtain ⟨trees, rfl, hitems⟩ := exists_of_holds_list h
  exact mapM_of_holdsItems hread hitems

theorem strings_of_holds {names : List String} (h : holds (.strings names) t = true) :
    t.list? (·.string?) = some names :=
  list?_of_holds (fun _ _ _ hs => (string?_of_readsAs (holds_string ▸ hs)).1) h

theorem mapM_of_holdsFields {params : List (String × α)} {entries : List (Tree × Tree)}
    (hread : ∀ p ∈ params, ∀ t, holds (f p.2) t = true → read t = some p.2)
    (h : holdsFields (params.map fun p => (p.1, f p.2)) entries = true) :
    (entries.mapM fun (key, value) => do
      let name ← key.string?
      let v ← read value
      return (name, v)) = some params := by
  induction params generalizing entries with
  | nil =>
    cases entries with
    | nil => rfl
    | cons => cases h
  | cons p params ih =>
    cases entries with
    | nil => cases h
    | cons entry entries =>
      obtain ⟨key, value⟩ := entry
      rw [List.map_cons, holdsFields, Bool.and_eq_true, Bool.and_eq_true] at h
      rw [List.mapM_cons]
      dsimp only
      rw [(string?_of_readsAs h.1.1).1, hread p List.mem_cons_self _ h.1.2,
        ih (fun p hp => hread p (List.mem_cons_of_mem _ hp)) h.2]
      rfl

/-- Named values are read back if no name occurs twice and the values are read back. -/
theorem table?_of_holds {params : Table α} (hdistinct : params.keys.Nodup)
    (hread : ∀ p ∈ params, ∀ t, holds (f p.2) t = true → read t = some p.2)
    (h : holds (.record (params.map fun p => (p.1, f p.2))) t = true) :
    t.table? read = some params := by
  obtain ⟨entries, rfl, hfields⟩ := exists_of_holds_record h
  rw [table?, entries?, Option.bind_eq_bind, Option.bind_some, mapM_of_holdsFields hread hfields]
  exact congrArg some (Table.ofList_eq hdistinct)

end

/-! ## Records -/

/-- The names of fields are read back beside the trees of the fields. -/
theorem names_of_holdsFields {fields : List (String × Data)} {entries : List (Tree × Tree)}
    (h : holdsFields fields entries = true) : ∃ trees,
      List.Forall₂ (fun field tree => holds field.2 tree = true) fields trees ∧
      (entries.mapM fun (key, value) => do
        let name ← key.string?
        return (name, value)) = some ((fields.map (·.1)).zip trees) := by
  induction fields generalizing entries with
  | nil =>
    cases entries with
    | nil => exact ⟨[], .nil, rfl⟩
    | cons => cases h
  | cons field fields ih =>
    cases entries with
    | nil => cases h
    | cons entry entries =>
      obtain ⟨key, value⟩ := entry
      rw [holdsFields, Bool.and_eq_true, Bool.and_eq_true] at h
      obtain ⟨trees, htrees, hkeys⟩ := ih h.2
      refine ⟨value :: trees, .cons h.1.2 htrees, ?_⟩
      rw [List.mapM_cons]
      dsimp only
      rw [(string?_of_readsAs h.1.1).1, hkeys]
      rfl

/-- The fields of a record are read back in order if no name occurs twice. -/
theorem fields?_of_holds {fields : List (String × Data)} (h : holds (.record fields) t = true)
    (hdistinct : (fields.map (·.1)).Nodup) : ∃ trees,
      List.Forall₂ (fun field tree => holds field.2 tree = true) fields trees ∧
      t.fields? (fields.map (·.1)) false = some (trees.map some) := by
  obtain ⟨entries, rfl, hfields⟩ := exists_of_holds_record h
  obtain ⟨trees, htrees, hnames⟩ := names_of_holdsFields hfields
  have hlen : (fields.map (·.1)).length = trees.length := by
    rw [List.length_map, htrees.length_eq]
  have hfst : ((fields.map (·.1)).zip trees).map (·.1) = fields.map (·.1) :=
    List.map_fst_zip (Nat.le_of_eq hlen)
  have hzip := fieldsOf?_self (hfst ▸ hdistinct)
  rw [hfst] at hzip
  refine ⟨trees, htrees, ?_⟩
  have hsnd : ((fields.map (·.1)).zip trees).map (·.2) = trees :=
    List.map_snd_zip (Nat.le_of_eq hlen.symm)
  rw [fields?, entries?, Option.bind_eq_bind, Option.bind_some, hnames, Option.bind_eq_bind,
    Option.bind_some, hzip]
  conv_rhs => rw [← hsnd, List.map_map]
  rfl

end Yaml.Tree

/-! ## Documents -/

open Yaml Yaml.Tree

namespace Value

theorem ofYaml?_of_isScalar {v : Value} {y : Yaml} (h : v.toData.isScalar y = true) :
    ofYaml? y = some v := by
  cases v with
  | undefined => cases y with
    | null => rfl
    | _ => cases h
  | bool b => cases y with
    | bool c => rw [of_decide_eq_true h, ofYaml?]
    | _ => cases h
  | int i => cases y with
    | number n => rw [ofYaml?, Number.toInt64?_eq (of_decide_eq_true h), Option.map_some]
    | _ => cases h
  | str s => cases y with
    | string r => rw [of_decide_eq_true h, ofYaml?]
    | _ => cases h
  | array items => cases y <;> cases h

theorem exists_of_readsAs {v : Value} {t : Tree} (h : t.readsAs v.toData = true) :
    ∃ y, t.content? false = some y ∧ ofYaml? y = some v := by
  obtain ⟨text, quoting, y, rfl, hy, hs⟩ := Tree.exists_of_readsAs h
  exact ⟨y, hy, ofYaml?_of_isScalar hs⟩

mutual

theorem content?_of_holds : ∀ (v : Value) {t : Tree}, t.holds v.toData = true →
    ∃ y, t.content? false = some y ∧ ofYaml? y = some v
  | .undefined, _, h => exists_of_readsAs (by simpa [toData, holds] using h)
  | .bool _, _, h => exists_of_readsAs (by simpa [toData, holds] using h)
  | .int _, _, h => exists_of_readsAs (by simpa [toData, holds] using h)
  | .str _, _, h => exists_of_readsAs (by simpa [toData, holds] using h)
  | .array items, _, h => by
    obtain ⟨trees, rfl, hitems⟩ := exists_of_holds_list h
    obtain ⟨ys, hys, hvs⟩ := contents?_of_holds items hitems
    refine ⟨.sequence ys, ?_, ?_⟩
    · rw [Tree.content?, hys]
      rfl
    · rw [ofYaml?, hvs]
      rfl

theorem contents?_of_holds : ∀ (vs : List Value) {ts : List Tree},
    holdsItems (toDataItems vs) ts = true →
    ∃ ys, Tree.contents? false ts = some ys ∧ ofYamlItems? ys = some vs
  | [], [], _ => ⟨[], rfl, rfl⟩
  | v :: vs, t :: ts, h => by
    rw [toDataItems, holdsItems, Bool.and_eq_true] at h
    obtain ⟨y, hy, hv⟩ := content?_of_holds v h.1
    obtain ⟨ys, hys, hvs⟩ := contents?_of_holds vs h.2
    refine ⟨y :: ys, ?_, ?_⟩
    · rw [Tree.contents?, hy, hys]
      rfl
    · rw [ofYamlItems?, hv, hvs]
      rfl

end

/-- The value of a parameter is read back. -/
theorem ofTree?_of_holds {v : Value} {t : Tree} (h : t.holds v.toData = true) :
    ofTree? t = some v := by
  obtain ⟨y, hy, hv⟩ := content?_of_holds v h
  rw [ofTree?, hy, Option.bind_eq_bind, Option.bind_some, hv]

end Value

/-- A resource is read back if no parameter of it occurs twice. -/
theorem ResourceEntry.ofTree?_of_holds {r : ResourceEntry} {t : Tree}
    (hdistinct : r.parameters.keys.Nodup) (h : t.holds r.toData = true) :
    ResourceEntry.ofTree? t = some r := by
  have hnames : ["type", "title", "parameters"].Nodup := by decide
  obtain ⟨trees, htrees, hfields⟩ := fields?_of_holds h hnames
  obtain _ | ⟨htype, _ | ⟨htitle, _ | ⟨hparams, _ | _⟩⟩⟩ := htrees
  have hparams := table?_of_holds hdistinct (fun p _ t h => Value.ofTree?_of_holds h) hparams
  have htype := (string?_of_readsAs (holds_string ▸ htype)).1
  have htitle := (string?_of_readsAs (holds_string ▸ htitle)).1
  change Tree.fields? ["type", "title", "parameters"] false t = _ at hfields
  simp [ofTree?, hfields, htype, htitle, hparams, orDefault]

/-- A catalog document is read back if no parameter of a resource occurs twice. -/
theorem CatalogDocument.ofTree?_of_holds {doc : CatalogDocument} {t : Tree}
    (hdistinct : ∀ r ∈ doc.resources, r.parameters.keys.Nodup) (h : t.holds doc.toData = true) :
    ofTree? t = some doc := by
  have hnames : ["name", "version", "classes", "tags", "resources"].Nodup := by decide
  obtain ⟨trees, htrees, hfields⟩ := fields?_of_holds h hnames
  obtain _ | ⟨hname, _ | ⟨hversion, _ | ⟨hclasses, _ | ⟨htags, _ | ⟨hresources, _ | _⟩⟩⟩⟩⟩ := htrees
  have hname := (string?_of_readsAs (holds_string ▸ hname)).1
  have hresources := list?_of_holds
    (fun r hr t h => ResourceEntry.ofTree?_of_holds (hdistinct r hr) h) hresources
  change Tree.fields? ["name", "version", "classes", "tags", "resources"] false t = _ at hfields
  simp [ofTree?, hfields, hname, optional?_of_holds hversion, strings_of_holds hclasses,
    strings_of_holds htags, hresources, orDefault]

end SiteCatalog
