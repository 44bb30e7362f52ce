import Mathlib.Data.List.Forall2
import SiteCatalog.Yaml.Typed

/-!
# Fields of records

A record is read by looking for every field among its entries. It is refused if an entry is no field
or a field has several entries, so its entries are its fields in some order.

Results:
* `Yaml.Tree.fieldsOf?_eq_some`: fields are found among entries exactly if the entries are these
  fields in some order.
* `Yaml.Tree.under_of_fields?`: the fields that a record is read as are what the tree has under their
  names.
-/

namespace SiteCatalog

theorem mapM_eq_some_iff {α β : Type} {f : α → Option β} {as : List α} {bs : List β} :
    as.mapM f = some bs ↔ List.Forall₂ (fun a b => f a = some b) as bs := by
  induction as generalizing bs with
  | nil =>
    rw [List.mapM_nil, List.forall₂_nil_left_iff]
    exact Option.some_inj.trans eq_comm
  | cons a as ih =>
    rw [List.mapM_cons, List.forall₂_cons_left_iff, Option.bind_eq_bind, Option.bind_eq_some_iff]
    constructor
    · rintro ⟨b, hb, h⟩
      obtain ⟨bs', hbs, h⟩ := Option.bind_eq_some_iff.mp h
      exact ⟨b, bs', hb, ih.mp hbs, (Option.some.inj h).symm⟩
    · rintro ⟨b, bs', hb, hbs, rfl⟩
      exact ⟨b, hb, Option.bind_eq_some_iff.mpr ⟨bs', ih.mpr hbs, rfl⟩⟩

theorem forall₂_congr_left {α β : Type} {R S : α → β → Prop} {as : List α} {bs : List β}
    (h : ∀ a ∈ as, ∀ b, R a b ↔ S a b) : List.Forall₂ R as bs ↔ List.Forall₂ S as bs := by
  induction as generalizing bs with
  | nil => rw [List.forall₂_nil_left_iff, List.forall₂_nil_left_iff]
  | cons a as ih =>
    cases bs with
    | nil => simp
    | cons b bs =>
      rw [List.forall₂_cons, List.forall₂_cons, h a List.mem_cons_self,
        ih fun a ha => h a (List.mem_cons_of_mem _ ha)]

/-- A list is put together from two others, which a test tells apart, by what passes the test and
what does not. -/
theorem perm_append_iff {α : Type} {l as bs : List α} {p : α → Bool} (has : ∀ a ∈ as, p a = true)
    (hbs : ∀ b ∈ bs, p b = false) :
    l.Perm (as ++ bs) ↔ (l.filter p).Perm as ∧ (l.filter fun a => !p a).Perm bs := by
  refine ⟨fun h => ⟨?_, ?_⟩, fun ⟨h, h'⟩ => (List.filter_append_perm p l).symm.trans (h.append h')⟩
  · have hnone : bs.filter p = [] := List.filter_eq_nil_iff.mpr fun b hb => by simp [hbs b hb]
    have hfilter := h.filter p
    rwa [List.filter_append, List.filter_eq_self.mpr has, hnone, List.append_nil] at hfilter
  · have hnone : (as.filter fun a => !p a) = [] :=
      List.filter_eq_nil_iff.mpr fun a ha => by simp [has a ha]
    have hall : (bs.filter fun b => !p b) = bs :=
      List.filter_eq_self.mpr fun b hb => by simp [hbs b hb]
    have hfilter := h.filter fun a => !p a
    rwa [List.filter_append, hnone, hall, List.nil_append] at hfilter

/-! ## Fields among entries -/

namespace Yaml.Tree

variable {α : Type} {name : String} {names : List String} {entries : List (String × α)} {v : α}
  {o : Option α} {values : List (Option α)}

/-- The fields that have a value. -/
def given (names : List String) (values : List (Option α)) : List (String × α) :=
  (names.zip values).filterMap fun field => field.2.map (field.1, ·)

theorem given_cons : given (name :: names) (o :: values) =
    (o.map (name, ·)).toList ++ given names values := by
  cases o <;> rfl

theorem mem_of_mem_given {e : String × α} (h : e ∈ given names values) : e.1 ∈ names := by
  obtain ⟨field, hfield, he⟩ := List.mem_filterMap.mp h
  obtain ⟨v, -, rfl⟩ := Option.map_eq_some_iff.mp he
  exact (List.of_mem_zip hfield).1

theorem field?_eq (name : String) (entries : List (String × α)) :
    field? name entries = match entries.filter (·.1 = name) with
      | [] => some none
      | [e] => some (some e.2)
      | _ => none := by
  induction entries with
  | nil => rfl
  | cons e entries ih =>
    obtain ⟨k, v⟩ := e
    rw [field?]
    split
    · next hk =>
      rw [List.filter_cons_of_pos (by simpa using hk), ih]
      generalize List.filter _ entries = found
      rcases found with _ | ⟨e, _ | ⟨e', rest⟩⟩ <;> rfl
    · next hk => rw [List.filter_cons_of_neg (by simpa using hk), ih]

theorem field?_eq_some :
    field? name entries = some o ↔ entries.filter (·.1 = name) = (o.map (name, ·)).toList := by
  have hname : ∀ e ∈ entries.filter (·.1 = name), e.1 = name := fun e he =>
    of_decide_eq_true (List.mem_filter.mp he).2
  rw [field?_eq]
  generalize List.filter _ entries = found at hname ⊢
  rcases found with _ | ⟨⟨k, v⟩, _ | ⟨e', rest⟩⟩
  · cases o <;> simp
  · obtain rfl : k = name := hname _ List.mem_cons_self
    cases o <;> simp
  · cases o <;> simp

theorem field?_of_not_mem (h : name ∉ entries.map (·.1)) : field? name entries = some none :=
  field?_eq_some.mpr (List.filter_eq_nil_iff.mpr fun _ he hname =>
    h (of_decide_eq_true hname ▸ List.mem_map_of_mem he))

theorem field?_of_mem (hdistinct : (entries.map (·.1)).Nodup) (h : (name, v) ∈ entries) :
    field? name entries = some (some v) := by
  induction entries with
  | nil => cases h
  | cons entry entries ih =>
    obtain ⟨hnew, hdistinct⟩ := List.nodup_cons.mp hdistinct
    rcases List.mem_cons.mp h with rfl | h
    · rw [field?, if_pos rfl, field?_of_not_mem hnew]
    · have hne : entry.1 ≠ name := by
        rintro rfl
        exact hnew (List.mem_map.mpr ⟨_, h, rfl⟩)
      rw [field?, if_neg hne, ih hdistinct h]

/-- All fields of a record are found if no name occurs twice. -/
theorem fieldsOf?_self (hdistinct : (entries.map (·.1)).Nodup) :
    fieldsOf? (entries.map (·.1)) false entries = some (entries.map fun e => some e.2) := by
  have hall : ∀ l : List (String × α), l ⊆ entries →
      ((l.map (·.1)).mapM fun name => field? name entries) = some (l.map fun e => some e.2) := by
    intro l hl
    induction l with
    | nil => rfl
    | cons e l ih =>
      obtain ⟨he, hl⟩ := List.cons_subset.mp hl
      rw [List.map_cons, List.mapM_cons, field?_of_mem hdistinct he, ih hl]
      rfl
  exact hall entries (List.Subset.refl _)

theorem fieldsOf?_iff : fieldsOf? names true entries = some values ↔
    (∀ e ∈ entries, e.1 ∈ names) ∧
      List.Forall₂ (fun name o => field? name entries = some o) names values := by
  rw [fieldsOf?, Bool.true_and]
  split
  · next h =>
    obtain ⟨e, he, hout⟩ := List.any_eq_true.mp h
    refine iff_of_false (fun h => nomatch h) fun h => ?_
    have hmem := h.1 e he
    simp_all
  · next h =>
    rw [mapM_eq_some_iff]
    refine (and_iff_right fun e he => ?_).symm
    rw [List.any_eq_true, not_exists] at h
    simpa [he] using h e

/-- A field is found among entries with or without those of another name. -/
theorem field?_filter_ne {other : String} (hne : other ≠ name) :
    field? other (entries.filter fun e => !decide (e.1 = name)) = some o ↔
      field? other entries = some o := by
  rw [field?_eq_some, field?_eq_some, List.filter_filter]
  refine Eq.congr_left (List.filter_congr fun e _ => (Bool.eq_self_and.mpr fun he => ?_).symm)
  rw [of_decide_eq_true he]
  simpa using hne

theorem perm_of_field? : (entries.filter (·.1 = name)).Perm (o.map (name, ·)).toList ↔
    field? name entries = some o := by
  rw [field?_eq_some]
  cases o with
  | none => exact List.perm_nil
  | some v => exact List.perm_singleton

/-- Fields are found among entries exactly if the entries are these fields in some order. -/
theorem fieldsOf?_eq_some (hnames : names.Nodup) : fieldsOf? names true entries = some values ↔
    values.length = names.length ∧ entries.Perm (given names values) := by
  rw [fieldsOf?_iff]
  induction names generalizing entries values with
  | nil =>
    rw [List.forall₂_nil_left_iff, given, List.zip_nil_left, List.filterMap_nil, List.perm_nil]
    constructor
    · rintro ⟨h, rfl⟩
      exact ⟨rfl, List.eq_nil_iff_forall_not_mem.mpr fun e he => nomatch h e he⟩
    · rintro ⟨h, rfl⟩
      exact ⟨fun _ h => (nomatch h), List.length_eq_zero_iff.mp h⟩
  | cons name names ih =>
    obtain ⟨hname, hnames⟩ := List.nodup_cons.mp hnames
    cases values with
    | nil => simp
    | cons o values =>
      -- The entries of the first name are its field; the others have the other fields, by induction.
      have hfirst : ∀ e ∈ (o.map (name, ·)).toList, decide (e.1 = name) = true := by
        cases o <;> simp
      have hlater : ∀ e ∈ given names values, decide (e.1 = name) = false := fun e he =>
        decide_eq_false fun heq => hname (heq ▸ mem_of_mem_given he)
      have hothers : List.Forall₂ (fun n o => field? n entries = some o) names values ↔
          List.Forall₂ (fun n o => field? n (entries.filter fun e => !decide (e.1 = name)) = some o)
            names values :=
        forall₂_congr_left fun _ hn _ => (field?_filter_ne (ne_of_mem_of_not_mem hn hname)).symm
      have hclosed : (∀ e ∈ entries, e.1 ∈ name :: names) ↔
          ∀ e ∈ entries.filter (fun e => !decide (e.1 = name)), e.1 ∈ names := by
        simp [or_iff_not_imp_left]
      rw [List.forall₂_cons, given_cons, perm_append_iff hfirst hlater, perm_of_field?, hothers,
        hclosed, List.length_cons, List.length_cons, Nat.succ_inj, and_left_comm, ih hnames,
        and_left_comm]

theorem sublist_keys_given : ((given names values).map (·.1)).Sublist names := by
  induction names generalizing values with
  | nil => exact List.nil_sublist _
  | cons name names ih =>
    cases values with
    | nil => exact List.nil_sublist _
    | cons o values =>
      rw [given_cons, List.map_append]
      cases o with
      | none => exact ih.cons name
      | some v => exact ih.cons_cons name

/-! ## What trees have under names -/

variable {t : Tree}

/-- The items of a sequence. A plain scalar without text stands for none. -/
def Items (t : Tree) (items : List Tree) : Prop :=
  (∃ tag, t = .sequence tag items) ∨ t.isMissing = true ∧ items = []

/-- The entries of a mapping, the keys of which are scalars. A plain scalar without text stands for
none. -/
def Entries (t : Tree) (entries : List (String × Tree)) : Prop :=
  (∃ tag raw, t = .mapping tag raw ∧
    List.Forall₂ (fun e f => e.1.string? = some f.1 ∧ e.2 = f.2) raw entries) ∨
  t.isMissing = true ∧ entries = []

/-- What a tree has under a name, if it has anything. No name occurs twice. -/
def Under (t : Tree) (name : String) (o : Option Tree) : Prop :=
  ∃ entries, t.Entries entries ∧ (entries.map (·.1)).Nodup ∧ ∀ v, o = some v ↔ (name, v) ∈ entries

/-- The items that a tree lists under a name; a name that is missing lists none. -/
def ListsUnder (t : Tree) (name : String) (items : List Tree) : Prop :=
  (∃ v, t.Under name (some v) ∧ v.Items items) ∨ t.Under name none ∧ items = []

/-- The entries that a tree has under a name; a name that is missing has none. -/
def EntriesUnder (t : Tree) (name : String) (entries : List (String × Tree)) : Prop :=
  (∃ v, t.Under name (some v) ∧ v.Entries entries) ∨ t.Under name none ∧ entries = []

theorem items_of_items? {items : List Tree} (h : t.items? = some items) : t.Items items := by
  unfold items? at h
  split at h
  · cases h
    exact .inl ⟨_, rfl⟩
  · split at h
    · next hmissing =>
      cases h
      exact .inr ⟨hmissing, rfl⟩
    · cases h

/-- What is read from the entries of a tree one by one. -/
theorem exists_entries {β : Type} (read : Tree → Option β) {values : List (String × β)}
    {raw : List (Tree × Tree)} (hraw : t.entries? = some raw)
    (h : (raw.mapM fun (key, value) => do
      let name ← key.string?
      let v ← read value
      return (name, v)) = some values) :
    ∃ entries, t.Entries entries ∧
      List.Forall₂ (fun e f => e.1 = f.1 ∧ read e.2 = some f.2) entries values := by
  have hread : ∃ entries : List (String × Tree),
      List.Forall₂ (fun e f => e.1.string? = some f.1 ∧ e.2 = f.2) raw entries ∧
      List.Forall₂ (fun e f => e.1 = f.1 ∧ read e.2 = some f.2) entries values := by
    clear hraw
    rw [mapM_eq_some_iff] at h
    induction h with
    | nil => exact ⟨[], .nil, .nil⟩
    | @cons e f _ _ hef _ ih =>
      obtain ⟨entries, hentries, hvalues⟩ := ih
      obtain ⟨name, hname, hef⟩ := Option.bind_eq_some_iff.mp hef
      obtain ⟨v, hv, hef⟩ := Option.bind_eq_some_iff.mp hef
      cases hef
      exact ⟨(name, e.2) :: entries, .cons ⟨hname, rfl⟩ hentries, .cons ⟨rfl, hv⟩ hvalues⟩
  obtain ⟨entries, hentries, hvalues⟩ := hread
  refine ⟨entries, ?_, hvalues⟩
  unfold entries? at hraw
  split at hraw
  · cases hraw
    exact .inl ⟨_, _, rfl, hentries⟩
  · split at hraw
    · next hmissing =>
      cases hraw
      cases hentries
      exact .inr ⟨hmissing, rfl⟩
    · cases hraw

/-- The fields that a record is read as are what the tree has under their names. -/
theorem under_of_fields? {values : List (Option Tree)} (hnames : names.Nodup)
    (h : t.fields? names true = some values) : List.Forall₂ t.Under names values := by
  obtain ⟨raw, hraw, h⟩ := Option.bind_eq_some_iff.mp h
  obtain ⟨named, hnamed, h⟩ := Option.bind_eq_some_iff.mp h
  obtain ⟨entries, hentries, hsame⟩ := exists_entries some hraw hnamed
  obtain rfl : entries = named := List.forall₂_eq_eq_eq ▸
    hsame.imp fun _ _ he => Prod.ext he.1 (Option.some.inj he.2)
  obtain ⟨-, hperm⟩ := (fieldsOf?_eq_some hnames).mp h
  have hdistinct : (entries.map (·.1)).Nodup :=
    (hperm.map _).nodup_iff.mpr (hnames.sublist sublist_keys_given)
  refine (fieldsOf?_iff.mp h).2.imp fun name o ho => ⟨entries, hentries, hdistinct, fun v => ?_⟩
  have hmem : (name, v) ∈ entries ↔ (name, v) ∈ entries.filter (·.1 = name) := by simp
  rw [hmem, field?_eq_some.mp ho]
  cases o <;> simp [eq_comm]

/-- A list that is read under a name is read item by item. -/
theorem lists_of_orDefault {β : Type} {read : Tree → Option β} {o : Option Tree} {bs : List β}
    (hunder : t.Under name o) (h : orDefault [] (·.list? read) o = some bs) :
    ∃ items, t.ListsUnder name items ∧ List.Forall₂ (fun item b => read item = some b) items bs := by
  cases o with
  | none =>
    cases h
    exact ⟨[], .inr ⟨hunder, rfl⟩, .nil⟩
  | some v =>
    obtain ⟨items, hitems, h⟩ := Option.bind_eq_some_iff.mp h
    exact ⟨items, .inl ⟨v, hunder, items_of_items? hitems⟩, mapM_eq_some_iff.mp h⟩

/-- A table that is read under a name is read entry by entry. -/
theorem entries_of_orDefault {β : Type} {read : Tree → Option β} {o : Option Tree} {table : Table β}
    (hunder : t.Under name o) (h : orDefault [] (·.table? read) o = some table) :
    ∃ entries values, t.EntriesUnder name entries ∧ table = Table.ofList values ∧
      List.Forall₂ (fun e f => e.1 = f.1 ∧ read e.2 = some f.2) entries values := by
  cases o with
  | none =>
    cases h
    exact ⟨[], [], .inr ⟨hunder, rfl⟩, rfl, .nil⟩
  | some v =>
    obtain ⟨raw, hraw, h⟩ := Option.bind_eq_some_iff.mp h
    obtain ⟨values, hvalues, h⟩ := Option.bind_eq_some_iff.mp h
    obtain ⟨entries, hentries, hread⟩ := exists_entries read hraw hvalues
    exact ⟨entries, values, .inl ⟨v, hunder, hentries⟩, (Option.some.inj h).symm, hread⟩

end Yaml.Tree

end SiteCatalog
