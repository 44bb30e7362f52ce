import SiteCatalog.Manifest.Reader
import SiteCatalog.Proofs.Fields
import SiteCatalog.Proofs.Registry

/-!
# The grammar of statements

A statement is written as a mapping with one of six sets of keys. The reader accepts more: the keys
may be the numbers of the fields in their order, and the fields may stand in a sequence. Such a
value is read as a statement of the first kind whose fields it gives.

Results:
* `Statement.Form.Spells`: the grammar, on named fields.
* `Statement.ofYaml?_iff`: what is read as a statement.
* `Manifest.statements_of_parse`: the statements of a manifest are those that its text writes.
-/

namespace SiteCatalog

/-! ## Kinds of statements -/

namespace Statement

open Yaml.Tree (given orDefault)

/-- The kinds of statements. -/
inductive Form
  | set
  | includes
  | hostclass
  | resource
  deriving DecidableEq

namespace Form

/-- The kinds in the order in which they are tried. -/
def all : List Form :=
  [set, includes, hostclass, resource]

/-- The names of the fields of a statement. -/
def fields : Form → List String
  | set => ["set"]
  | includes => ["include"]
  | hostclass => ["class", "params"]
  | resource => ["resource", "title", "params"]

/-- The name that only this kind has a field of. -/
def mark : Form → String
  | set => "set"
  | includes => "include"
  | hostclass => "class"
  | resource => "resource"

/-- Reads a statement of a kind. -/
def read? : Form → Yaml → Option Statement
  | set => set?
  | includes => includes?
  | hostclass => class?
  | resource => resource?

theorem nodup_fields (form : Form) : form.fields.Nodup := by
  cases form <;> decide

end Form

theorem ofYaml?_eq (y : Yaml) : ofYaml? y = Form.all.findSome? (·.read? y) := by
  rw [ofYaml?, Form.all]
  simp only [List.findSome?_cons, List.findSome?_nil, Form.read?]
  cases set? y <;> cases includes? y <;> cases class? y <;> cases resource? y <;> rfl

/-! ## The grammar -/

/-- A mapping from names writes a table. No key occurs twice in a value of it. -/
def WritesTable (y : Yaml) (t : Table Yaml) : Prop :=
  ∃ entries : List (String × Yaml), y = .mapping (entries.map fun e => (.string e.1, e.2)) ∧
    (∀ e ∈ entries, e.2.hasDistinctKeys = true) ∧ t = Table.ofList entries

/-- A string writes one name, a sequence of strings writes several. -/
def WritesNames (y : Yaml) (names : List String) : Prop :=
  (∃ name, y = .string name ∧ names = [name]) ∨ y = .sequence (names.map .string)

/-- The grammar of statements: a statement of a kind is spelled by named fields. -/
inductive Form.Spells : Form → List (String × Yaml) → Statement → Prop
  | set {vars : Yaml} {t : Table Yaml} : WritesTable vars t → Spells .set [("set", vars)] (.set t)
  | includes {y : Yaml} {names : List String} : WritesNames y names →
      Spells .includes [("include", y)] (.includes names)
  | hostclass {name : String} :
      Spells .hostclass [("class", .string name)] (.hostclass name [])
  | hostclassWith {name : String} {params : Yaml} {t : Table Yaml} : WritesTable params t →
      Spells .hostclass [("class", .string name), ("params", params)] (.hostclass name t)
  | resource {type : String} {title : Yaml} : title.hasDistinctKeys = true →
      Spells .resource [("resource", .string type), ("title", title)] (.resource type title [])
  | resourceWith {type : String} {title params : Yaml} {t : Table Yaml} :
      title.hasDistinctKeys = true → WritesTable params t →
      Spells .resource [("resource", .string type), ("title", title), ("params", params)]
        (.resource type title t)

/-- A key stands for a field: it is the name of the field or its place among the names. -/
def IsKey (names : List String) (key : Yaml) (name : String) : Prop :=
  key = .string name ∨ ∃ n : UInt64, key = .number (.unsigned n) ∧ names[n.toNat]? = some name

/-- The fields that a value gives, where the fields of a kind have the given names: those of a mapping
by their keys, those of a sequence in the order of the names. -/
inductive Gives (names : List String) : Yaml → List (String × Yaml) → Prop
  | mapping {entries : List (Yaml × Yaml)} {named : List (String × Yaml)} :
      List.Forall₂ (fun e f => IsKey names e.1 f.1 ∧ e.2 = f.2) entries named →
      Gives names (.mapping entries) named
  | sequence {items : List Yaml} : items.length ≤ names.length →
      Gives names (.sequence items) (names.zip items)

/-- A value writes a statement of a kind: it gives the fields that spell it, in any order. -/
def Form.Writes (form : Form) (y : Yaml) (s : Statement) : Prop :=
  ∃ named fields, Gives form.fields y named ∧ named.Perm fields ∧ form.Spells fields s

/-! ## Reading fields -/

variable {y key : Yaml} {s : Statement} {name : String} {names : List String}
  {values : List (Option Yaml)} {t : Table Yaml}

theorem text?_eq_some : text? y = some name ↔ y = .string name := by
  unfold text?
  split
  · simp
  · next hne => exact iff_of_false (nomatch ·) fun h => hne name h

theorem checked?_eq_some {v : Yaml} : y.checked? = some v ↔ y = v ∧ v.hasDistinctKeys = true := by
  unfold Yaml.checked?
  split
  · next h =>
    rw [Option.some_inj]
    exact ⟨fun hv => ⟨hv, hv ▸ h⟩, fun hv => hv.1⟩
  · next h => exact iff_of_false (nomatch ·) fun hv => h (hv.1 ▸ hv.2)

theorem fieldName?_eq_some : fieldName? names key = some name ↔ IsKey names key name := by
  unfold fieldName? IsKey
  split
  · simp
  · simp
  · next hstring hnumber =>
    refine iff_of_false (nomatch ·) ?_
    rintro (h | ⟨n, h, -⟩)
    · exact hstring name h
    · exact hnumber n h

/-- A list is related to the one that it is read as if it is this list written out. -/
theorem forall₂_eq_map_iff {α β : Type} {f : β → α} {P : β → Prop} {as : List α} {bs : List β} :
    List.Forall₂ (fun a b => a = f b ∧ P b) as bs ↔ as = bs.map f ∧ ∀ b ∈ bs, P b := by
  induction bs generalizing as with
  | nil => simp
  | cons b bs ih =>
    rw [List.forall₂_cons_right_iff]
    constructor
    · rintro ⟨a, as', ⟨rfl, hb⟩, h, rfl⟩
      obtain ⟨rfl, hbs⟩ := ih.mp h
      exact ⟨rfl, List.forall_mem_cons.mpr ⟨hb, hbs⟩⟩
    · rintro ⟨rfl, h⟩
      obtain ⟨hb, hbs⟩ := List.forall_mem_cons.mp h
      exact ⟨f b, bs.map f, ⟨rfl, hb⟩, ih.mpr ⟨rfl, hbs⟩, rfl⟩

theorem params?_eq_some : params? y = some t ↔ WritesTable y t := by
  unfold params?
  split
  · next raw =>
    have hread : ∀ (e : Yaml × Yaml) (f : String × Yaml),
        (do
          let name ← text? e.1
          let v ← e.2.checked?
          return (name, v)) = some f ↔
        e = (.string f.1, f.2) ∧ f.2.hasDistinctKeys = true := by
      intro e f
      simp only [Option.bind_eq_bind, Option.bind_eq_some_iff, text?_eq_some, checked?_eq_some,
        Option.pure_def, Option.some_inj]
      constructor
      · rintro ⟨name, hname, v, ⟨hv, hdistinct⟩, rfl⟩
        exact ⟨Prod.ext hname hv, hdistinct⟩
      · rintro ⟨rfl, hdistinct⟩
        exact ⟨_, rfl, _, ⟨rfl, hdistinct⟩, rfl⟩
    rw [Option.bind_eq_bind, Option.bind_eq_some_iff]
    simp only [mapM_eq_some_iff, hread, forall₂_eq_map_iff]
    constructor
    · rintro ⟨entries, ⟨rfl, hdistinct⟩, h⟩
      exact ⟨entries, rfl, hdistinct, (Option.some.inj h).symm⟩
    · rintro ⟨entries, h, hdistinct, rfl⟩
      exact ⟨entries, ⟨Yaml.mapping.inj h, hdistinct⟩, rfl⟩
  · next hne =>
    refine iff_of_false (nomatch ·) ?_
    rintro ⟨entries, h, -⟩
    exact hne _ h

theorem names?_eq_some : names? y = some names ↔ WritesNames y names := by
  unfold names? WritesNames
  split
  · next name => simp [eq_comm]
  · next items =>
    have hitems : items.mapM text? = some names ↔ items = names.map .string := by
      have h := @forall₂_eq_map_iff _ _ Yaml.string (fun _ => True) items names
      simpa only [mapM_eq_some_iff, text?_eq_some, and_true, implies_true] using h
    simp [hitems]
  · next hstring hsequence =>
    refine iff_of_false (nomatch ·) ?_
    rintro (⟨name, h, -⟩ | h)
    · exact hstring name h
    · exact hsequence _ h

/-- The fields of a sequence are the first ones that there are names for. -/
theorem given_sequence {items : List Yaml} (h : items.length ≤ names.length) :
    given names (items.map some ++ List.replicate (names.length - items.length) none) =
      names.zip items := by
  induction names generalizing items with
  | nil =>
    rw [List.length_eq_zero_iff.mp (Nat.le_zero.mp h)]
    rfl
  | cons name names ih =>
    cases items with
    | nil => simpa [Yaml.Tree.given_cons, List.replicate_succ] using @ih [] (Nat.zero_le _)
    | cons item items =>
      rw [List.map_cons, List.cons_append, Yaml.Tree.given_cons, List.length_cons, List.length_cons,
        Nat.add_sub_add_right, ih (Nat.le_of_succ_le_succ h)]
      rfl

theorem fields?_eq_some (hnames : names.Nodup) : fields? names y = some values ↔
    values.length = names.length ∧ ∃ named, Gives names y named ∧ named.Perm (given names values) := by
  have hfound : ∀ {named : List (String × Yaml)} {values : List (Option Yaml)},
      Yaml.Tree.fieldsOf? names true named = some values ↔
        values.length = names.length ∧ named.Perm (given names values) :=
    Yaml.Tree.fieldsOf?_eq_some hnames
  have hsame : (values.length = names.length ∧ ∃ named, Gives names y named ∧
      named.Perm (given names values)) ↔
      ∃ named, Gives names y named ∧ Yaml.Tree.fieldsOf? names true named = some values := by
    simp only [hfound]
    exact ⟨fun ⟨hl, n, hg, hp⟩ => ⟨n, hg, hl, hp⟩, fun ⟨n, hg, hl, hp⟩ => ⟨hl, n, hg, hp⟩⟩
  rw [hsame]
  unfold fields?
  split
  · next items =>
    split
    · next hlength =>
      have hread := hfound.mpr ⟨by simp [hlength], List.Perm.of_eq (given_sequence hlength).symm⟩
      rw [← hread]
      refine ⟨fun h => ⟨_, .sequence hlength, h⟩, ?_⟩
      rintro ⟨named, hgives, h⟩
      cases hgives
      exact h
    · next hlength =>
      refine iff_of_false (nomatch ·) ?_
      rintro ⟨named, hgives, -⟩
      cases hgives with
      | sequence h => exact hlength h
  · next raw =>
    have hread : ∀ (e : Yaml × Yaml) (f : String × Yaml),
        (do
          let name ← fieldName? names e.1
          return (name, e.2)) = some f ↔ IsKey names e.1 f.1 ∧ e.2 = f.2 := by
      intro e f
      simp only [Option.bind_eq_bind, Option.bind_eq_some_iff, fieldName?_eq_some, Option.pure_def,
        Option.some_inj]
      constructor
      · rintro ⟨name, hname, rfl⟩
        exact ⟨hname, rfl⟩
      · rintro ⟨hname, hvalue⟩
        exact ⟨f.1, hname, Prod.ext rfl hvalue⟩
    rw [Option.bind_eq_bind, Option.bind_eq_some_iff]
    simp only [mapM_eq_some_iff, hread]
    constructor
    · rintro ⟨named, hnamed, h⟩
      exact ⟨named, .mapping hnamed, h⟩
    · rintro ⟨named, hgives, h⟩
      cases hgives with
      | mapping hnamed => exact ⟨named, hnamed, h⟩
  · next hsequence hmapping =>
    refine iff_of_false (nomatch ·) ?_
    rintro ⟨named, hgives, -⟩
    cases hgives with
    | mapping _ => exact hmapping _ rfl
    | sequence _ => exact hsequence _ rfl

/-! ## Reading statements -/

namespace Form

variable {form : Form} {fields : List (String × Yaml)}

theorem Spells.exists_values (h : form.Spells fields s) :
    ∃ values, values.length = form.fields.length ∧ given form.fields values = fields := by
  cases h with
  | set => exact ⟨[some _], rfl, rfl⟩
  | includes => exact ⟨[some _], rfl, rfl⟩
  | hostclass => exact ⟨[some _, none], rfl, rfl⟩
  | hostclassWith => exact ⟨[some _, some _], rfl, rfl⟩
  | resource => exact ⟨[some _, some _, none], rfl, rfl⟩
  | resourceWith => exact ⟨[some _, some _, some _], rfl, rfl⟩

theorem writes_iff : form.Writes y s ↔ ∃ values, fields? form.fields y = some values ∧
    form.Spells (given form.fields values) s := by
  simp only [fields?_eq_some form.nodup_fields]
  constructor
  · rintro ⟨named, fields, hgives, hperm, hspells⟩
    obtain ⟨values, hlength, rfl⟩ := hspells.exists_values
    exact ⟨values, ⟨hlength, named, hgives, hperm⟩, hspells⟩
  · rintro ⟨values, ⟨-, named, hgives, hperm⟩, hspells⟩
    exact ⟨named, _, hgives, hperm, hspells⟩

/-- The fields that are given determine the values of all fields. -/
theorem values_eq_of_given {values : List (Option Yaml)} (values' : List (Option Yaml))
    (hlength : values'.length = form.fields.length) (h : fields? form.fields y = some values)
    (hgiven : given form.fields values = given form.fields values') : values = values' := by
  have hvalues := ((fields?_eq_some form.nodup_fields).mp h).1
  have hread := (Yaml.Tree.fieldsOf?_eq_some form.nodup_fields).mpr ⟨hvalues, .refl _⟩
  have hread' := (Yaml.Tree.fieldsOf?_eq_some form.nodup_fields).mpr ⟨hlength, .refl _⟩
  rw [hgiven, hread'] at hread
  exact (Option.some.inj hread).symm

theorem set?_eq_some : set? y = some s ↔ set.Writes y s := by
  rw [writes_iff]
  constructor
  · intro h
    unfold set? at h
    split at h
    · next vars hfields =>
      obtain ⟨t, ht, rfl⟩ := Option.map_eq_some_iff.mp h
      exact ⟨_, hfields, .set (params?_eq_some.mp ht)⟩
    · cases h
  · rintro ⟨values, hfields, hspells⟩
    generalize hgiven : given set.fields values = spelled at hspells
    cases hspells with
    | set ht =>
      cases values_eq_of_given [some _] rfl hfields hgiven
      change fields? ["set"] y = _ at hfields
      simp [set?, hfields, params?_eq_some.mpr ht]

theorem includes?_eq_some : includes? y = some s ↔ includes.Writes y s := by
  rw [writes_iff]
  constructor
  · intro h
    unfold includes? at h
    split at h
    · next names hfields =>
      obtain ⟨t, ht, rfl⟩ := Option.map_eq_some_iff.mp h
      exact ⟨_, hfields, .includes (names?_eq_some.mp ht)⟩
    · cases h
  · rintro ⟨values, hfields, hspells⟩
    generalize hgiven : given includes.fields values = spelled at hspells
    cases hspells with
    | includes ht =>
      cases values_eq_of_given [some _] rfl hfields hgiven
      change fields? ["include"] y = _ at hfields
      simp [includes?, hfields, names?_eq_some.mpr ht]

theorem class?_eq_some : class? y = some s ↔ hostclass.Writes y s := by
  rw [writes_iff]
  constructor
  · intro h
    unfold class? at h
    split at h
    · next name params hfields =>
      obtain ⟨n, hn, h⟩ := Option.bind_eq_some_iff.mp h
      obtain ⟨t, ht, h⟩ := Option.bind_eq_some_iff.mp h
      cases h
      cases text?_eq_some.mp hn
      refine ⟨_, hfields, ?_⟩
      cases params with
      | none =>
        cases ht
        exact .hostclass
      | some params => exact .hostclassWith (params?_eq_some.mp ht)
    · cases h
  · rintro ⟨values, hfields, hspells⟩
    generalize hgiven : given hostclass.fields values = spelled at hspells
    cases hspells with
    | hostclass =>
      cases values_eq_of_given [some _, none] rfl hfields hgiven
      change fields? ["class", "params"] y = _ at hfields
      simp [class?, hfields, text?, orDefault]
    | hostclassWith ht =>
      cases values_eq_of_given [some _, some _] rfl hfields hgiven
      change fields? ["class", "params"] y = _ at hfields
      simp [class?, hfields, text?, orDefault, params?_eq_some.mpr ht]

theorem resource?_eq_some : resource? y = some s ↔ resource.Writes y s := by
  rw [writes_iff]
  constructor
  · intro h
    unfold resource? at h
    split at h
    · next type title params hfields =>
      obtain ⟨n, hn, h⟩ := Option.bind_eq_some_iff.mp h
      obtain ⟨v, hv, h⟩ := Option.bind_eq_some_iff.mp h
      obtain ⟨t, ht, h⟩ := Option.bind_eq_some_iff.mp h
      cases h
      cases text?_eq_some.mp hn
      obtain ⟨rfl, hdistinct⟩ := checked?_eq_some.mp hv
      refine ⟨_, hfields, ?_⟩
      cases params with
      | none =>
        cases ht
        exact .resource hdistinct
      | some params => exact .resourceWith hdistinct (params?_eq_some.mp ht)
    · cases h
  · rintro ⟨values, hfields, hspells⟩
    generalize hgiven : given resource.fields values = spelled at hspells
    cases hspells with
    | resource hv =>
      cases values_eq_of_given [some _, some _, none] rfl hfields hgiven
      change fields? ["resource", "title", "params"] y = _ at hfields
      simp [resource?, hfields, text?, orDefault, Yaml.checked?, hv]
    | resourceWith hv ht =>
      cases values_eq_of_given [some _, some _, some _] rfl hfields hgiven
      change fields? ["resource", "title", "params"] y = _ at hfields
      simp [resource?, hfields, text?, orDefault, Yaml.checked?, hv, params?_eq_some.mpr ht]

/-- A statement of a kind is read exactly where one is written. -/
theorem read?_eq_some : form.read? y = some s ↔ form.Writes y s :=
  match form with
  | set => set?_eq_some
  | includes => includes?_eq_some
  | hostclass => class?_eq_some
  | resource => resource?_eq_some

theorem eq_of_mark_mem {form' : Form} (h : form'.mark ∈ form.fields) : form' = form := by
  cases form <;> cases form' <;> first | rfl | exact absurd h (by decide)

theorem Spells.mark_mem (h : form.Spells fields s) : form.mark ∈ fields.map (·.1) := by
  cases h <;> exact List.mem_cons_self

theorem Spells.mem_fields (h : form.Spells fields s) : ∀ k ∈ fields.map (·.1), k ∈ form.fields := by
  obtain ⟨values, -, rfl⟩ := h.exists_values
  intro k hk
  obtain ⟨f, hf, rfl⟩ := List.mem_map.mp hk
  exact Yaml.Tree.mem_of_mem_given hf

/-- The fields of a statement tell its kind. -/
theorem Spells.form_eq {form' : Form} {fields' : List (String × Yaml)} {s' : Statement}
    (h : form.Spells fields s) (h' : form'.Spells fields' s') (hperm : fields'.Perm fields) :
    form' = form :=
  eq_of_mark_mem (h.mem_fields _ ((hperm.map (·.1)).mem_iff.mp h'.mark_mem))

end Form

/-- A value is read as a statement of the first kind that it writes one of. -/
theorem ofYaml?_eq_some : ofYaml? y = some s ↔ ∃ before form after,
    Form.all = before ++ form :: after ∧ form.Writes y s ∧
      ∀ f ∈ before, ∀ s', ¬f.Writes y s' := by
  rw [ofYaml?_eq, List.findSome?_eq_some_iff]
  simp only [← Form.read?_eq_some, Option.eq_none_iff_forall_ne_some, ne_eq]

/-- A mapping from names. -/
def ofNamed (entries : List (String × Yaml)) : Yaml :=
  .mapping (entries.map fun e => (.string e.1, e.2))

theorem gives_ofNamed {entries named : List (String × Yaml)} :
    Gives names (ofNamed entries) named ↔ named = entries := by
  have hkey : ∀ e f : String × Yaml, (IsKey names (.string e.1) f.1 ∧ e.2 = f.2) ↔ e = f := by
    intro e f
    simp [IsKey, Prod.ext_iff]
  constructor
  · intro h
    cases h with
    | mapping h =>
      simp only [List.forall₂_map_left_iff, hkey, List.forall₂_eq_eq_eq] at h
      exact h.symm
  · rintro rfl
    refine .mapping (List.forall₂_map_left_iff.mpr ?_)
    simp only [hkey, List.forall₂_eq_eq_eq]

/-- A mapping from names is read as the statement that its entries spell. -/
theorem ofYaml?_ofNamed {entries : List (String × Yaml)} : ofYaml? (ofNamed entries) = some s ↔
    ∃ form fields, entries.Perm fields ∧ Form.Spells form fields s := by
  rw [ofYaml?_eq_some]
  constructor
  · rintro ⟨_, form, _, -, ⟨named, fields, hgives, hperm, hspells⟩, -⟩
    cases gives_ofNamed.mp hgives
    exact ⟨form, fields, hperm, hspells⟩
  · rintro ⟨form, fields, hperm, hspells⟩
    obtain ⟨before, after, hall⟩ := List.append_of_mem (show form ∈ Form.all by cases form <;> decide)
    refine ⟨before, form, after, hall, ⟨entries, fields, gives_ofNamed.mpr rfl, hperm, hspells⟩, ?_⟩
    rintro f hf s' ⟨named, fields', hgives, hperm', hspells'⟩
    cases gives_ofNamed.mp hgives
    have hdistinct : (before ++ form :: after).Nodup := hall ▸ (by decide : Form.all.Nodup)
    exact (List.nodup_append.mp hdistinct).2.2 f hf form List.mem_cons_self
      (hspells.form_eq hspells' (hperm'.symm.trans hperm))

/-- A value gives fields by their places: it is a sequence, or a key of it is a number. -/
def GivesPlaces (y : Yaml) : Prop :=
  (∃ items, y = .sequence items) ∨
    ∃ entries n v, y = .mapping entries ∧ (.number n, v) ∈ entries

/-- A value writes a statement: it is a mapping from names that spells it, or it gives fields by their
places, and the first kind that it writes a statement of is the one of this statement. -/
def WrittenBy (s : Statement) (y : Yaml) : Prop :=
  (∃ entries form fields, y = ofNamed entries ∧ entries.Perm fields ∧ Form.Spells form fields s) ∨
    GivesPlaces y ∧ ∃ before form after, Form.all = before ++ form :: after ∧ form.Writes y s ∧
      ∀ f ∈ before, ∀ s', ¬f.Writes y s'

theorem eq_map_of_forall₂_isKey {entries : List (Yaml × Yaml)} {named : List (String × Yaml)}
    (h : List.Forall₂ (fun e f => IsKey names e.1 f.1 ∧ e.2 = f.2) entries named)
    (hnone : ∀ n v, (.number n, v) ∉ entries) :
    entries = named.map fun e => (.string e.1, e.2) := by
  induction h with
  | nil => rfl
  | @cons e f entries named hef _ ih =>
    obtain ⟨key, value⟩ := e
    obtain ⟨hkey | ⟨n, hkey, -⟩, rfl⟩ := hef
    · cases hkey
      exact congrArg _ (ih fun n v hmem => hnone n v (List.mem_cons_of_mem _ hmem))
    · cases hkey
      exact absurd List.mem_cons_self (hnone _ _)

theorem eq_ofNamed_or_givesPlaces {named : List (String × Yaml)} (h : Gives names y named) :
    y = ofNamed named ∨ GivesPlaces y := by
  cases h with
  | sequence => exact .inr (.inl ⟨_, rfl⟩)
  | @mapping entries _ h =>
    by_cases hplaces : ∃ n v, (.number n, v) ∈ entries
    · obtain ⟨n, v, hmem⟩ := hplaces
      exact .inr (.inr ⟨entries, n, v, rfl, hmem⟩)
    · exact .inl (congrArg Yaml.mapping (eq_map_of_forall₂_isKey h (by simpa using hplaces)))

/-- A value is read as the statement that it writes, and no other value is read. -/
theorem ofYaml?_iff : ofYaml? y = some s ↔ s.WrittenBy y := by
  constructor
  · intro h
    obtain ⟨_, form, _, -, ⟨named, fields, hgives, hperm, hspells⟩, -⟩ := ofYaml?_eq_some.mp h
    rcases eq_ofNamed_or_givesPlaces hgives with rfl | hplaces
    · exact .inl ⟨named, form, fields, rfl, hperm, hspells⟩
    · exact .inr ⟨hplaces, ofYaml?_eq_some.mp h⟩
  · rintro (⟨entries, form, fields, rfl, hperm, hspells⟩ | ⟨-, h⟩)
    · exact ofYaml?_ofNamed.mpr ⟨form, fields, hperm, hspells⟩
    · exact ofYaml?_eq_some.mpr h

/-- A tree lists statements under a name. No part of such an item has a tag of the document's own. -/
def ListedUnder (t : Yaml.Tree) (name : String) (statements : List Statement) : Prop :=
  ∃ items, t.ListsUnder name items ∧
    List.Forall₂ (fun item s => ∃ y, item.content? false = some y ∧ s.WrittenBy y) items statements

theorem listedUnder_of_orDefault {t : Yaml.Tree} {o : Option Yaml.Tree} {statements : List Statement}
    (hunder : t.Under name o) (h : orDefault [] (·.list? ofTree?) o = some statements) :
    ListedUnder t name statements := by
  obtain ⟨items, hitems, hread⟩ := Yaml.Tree.lists_of_orDefault hunder h
  refine ⟨items, hitems, hread.imp fun item s hs => ?_⟩
  obtain ⟨y, hy, hs⟩ := Option.bind_eq_some_iff.mp hs
  exact ⟨y, hy, ofYaml?_iff.mp hs⟩

end Statement

/-! ## The statements of a manifest -/

namespace Declaration

open Yaml.Tree (orDefault)

theorem listedUnder_of_ofTree? {t : Yaml.Tree} {d : Declaration} (h : ofTree? t = some d) :
    Statement.ListedUnder t "body" d.body := by
  obtain ⟨values, hvalues, h⟩ := Option.bind_eq_some_iff.mp h
  have hunder := Yaml.Tree.under_of_fields? (by decide) hvalues
  obtain _ | ⟨-, _ | ⟨-, _ | ⟨-, _ | ⟨hbody, _ | _⟩⟩⟩⟩ := hunder
  obtain ⟨_, -, h⟩ := Option.bind_eq_some_iff.mp h
  obtain ⟨_, -, h⟩ := Option.bind_eq_some_iff.mp h
  obtain ⟨_, -, h⟩ := Option.bind_eq_some_iff.mp h
  obtain ⟨body, hread, h⟩ := Option.bind_eq_some_iff.mp h
  cases h
  exact Statement.listedUnder_of_orDefault hbody hread

/-- A tree has declarations under a name: those that are written there, where a repeated name keeps
its first place and its last declaration. -/
def WrittenUnder (t : Yaml.Tree) (name : String) (declarations : Table Declaration) : Prop :=
  ∃ entries written, t.EntriesUnder name entries ∧ declarations = Table.ofList written ∧
    List.Forall₂ (fun e d => e.1 = d.1 ∧ Statement.ListedUnder e.2 "body" d.2.body) entries written

theorem writtenUnder_of_orDefault {t : Yaml.Tree} {name : String} {o : Option Yaml.Tree}
    {declarations : Table Declaration} (hunder : t.Under name o)
    (h : orDefault [] (·.table? ofTree?) o = some declarations) :
    WrittenUnder t name declarations := by
  obtain ⟨entries, written, hentries, htable, hread⟩ := Yaml.Tree.entries_of_orDefault hunder h
  exact ⟨entries, written, hentries, htable, hread.imp fun _ _ h =>
    ⟨h.1, listedUnder_of_ofTree? h.2⟩⟩

end Declaration

namespace Manifest

variable {text : String} {m : Manifest}

theorem ofText?_of_parse (h : parse text = .ok m) : ofText? text = some m := by
  unfold parse at h
  split at h <;> cases h
  assumption

/-- The statements of an accepted manifest are those that its text writes at the top level and in the
bodies of its declarations, and everything that the text has there writes a statement. -/
theorem statements_of_parse (h : parse text = .ok m) : ∃ t, Yaml.tree? text = some t ∧
    Statement.ListedUnder t "main" m.main ∧
    Declaration.WrittenUnder t "classes" m.classes ∧
    Declaration.WrittenUnder t "defines" m.defines ∧
    Declaration.WrittenUnder t "nodes" m.nodes := by
  obtain ⟨t, ht, h⟩ := Option.bind_eq_some_iff.mp (ofText?_of_parse h)
  obtain ⟨values, hvalues, h⟩ := Option.bind_eq_some_iff.mp h
  have hunder := Yaml.Tree.under_of_fields? (by decide) hvalues
  obtain _ | ⟨-, _ | ⟨hclasses, _ | ⟨hdefines, _ | ⟨hnodes, _ | ⟨hmain, _ | _⟩⟩⟩⟩⟩ := hunder
  obtain ⟨_, -, h⟩ := Option.bind_eq_some_iff.mp h
  obtain ⟨classes, hreadClasses, h⟩ := Option.bind_eq_some_iff.mp h
  obtain ⟨defines, hreadDefines, h⟩ := Option.bind_eq_some_iff.mp h
  obtain ⟨nodes, hreadNodes, h⟩ := Option.bind_eq_some_iff.mp h
  obtain ⟨main, hreadMain, h⟩ := Option.bind_eq_some_iff.mp h
  cases h
  exact ⟨t, ht, Statement.listedUnder_of_orDefault hmain hreadMain,
    Declaration.writtenUnder_of_orDefault hclasses hreadClasses,
    Declaration.writtenUnder_of_orDefault hdefines hreadDefines,
    Declaration.writtenUnder_of_orDefault hnodes hreadNodes⟩

/-- An inclusion that gives the name of the class by its place. -/
def placedInclusion : String :=
  "main:\n  - [a]\n"

theorem statements_of_parse_placedInclusion : ∃ m t, parse placedInclusion = .ok m ∧
    m.main.length = 1 ∧ Yaml.tree? placedInclusion = some t ∧
      Statement.ListedUnder t "main" m.main := by
  have hparse : (parse placedInclusion).toOption.any (·.main.length = 1) = true := by
    decide +kernel
  obtain ⟨m, hm, hlength⟩ := (Option.any_eq_true ..).mp hparse
  obtain ⟨t, ht, hmain, -⟩ := statements_of_parse (eq_ok_of_toOption hm)
  exact ⟨m, t, eq_ok_of_toOption hm, of_decide_eq_true hlength, ht, hmain⟩

/-- The inclusion is no mapping from names. -/
theorem not_all_ofNamed : ¬∀ (text : String) (m : Manifest) (t : Yaml.Tree) (items : List Yaml.Tree),
    parse text = .ok m → Yaml.tree? text = some t → t.ListsUnder "main" items →
      ∀ item ∈ items, ∃ entries, item.content? false = some (Statement.ofNamed entries) := by
  intro hall
  have hparse : (parse placedInclusion).toOption.isSome = true := by decide +kernel
  obtain ⟨m, hm⟩ := Option.isSome_iff_exists.mp hparse
  have htree : (Yaml.tree? placedInclusion).any (fun t =>
      (t.fields? ["main"] true).any fun values => values.head?.join.any fun v =>
        v.items?.any fun items => items.any fun item =>
          ((item.content? false).bind Statement.names?).isSome) = true := by decide +kernel
  obtain ⟨t, ht, hfields⟩ := (Option.any_eq_true ..).mp htree
  obtain ⟨values, hvalues, hmain⟩ := (Option.any_eq_true ..).mp hfields
  obtain _ | @⟨_, main, _, _, hunder, _ | _⟩ := Yaml.Tree.under_of_fields? (by decide) hvalues
  obtain ⟨v, (rfl : main = some v), hlist⟩ := (Option.any_eq_true ..).mp hmain
  obtain ⟨items, hitems, hlist⟩ := (Option.any_eq_true ..).mp hlist
  obtain ⟨item, hitem, hnames⟩ := List.any_eq_true.mp hlist
  obtain ⟨entries, h⟩ := hall placedInclusion m t items (eq_ok_of_toOption hm) ht
    (.inl ⟨v, hunder, Yaml.Tree.items_of_items? hitems⟩) item hitem
  -- What is read as names is no mapping.
  rw [h] at hnames
  cases hnames

end Manifest

end SiteCatalog
